import SchemaDiagram.Path

/-!
The arguments of the command line: options of their own before and after a verb, and one operand after it.
They are read from left to right, so that an option that asks for help is heard before what is wrong
behind it.
-/

set_option autoImplicit false

namespace SchemaDiagram

inductive Verb where
  | render
  | batch
  | inspect
deriving DecidableEq, Repr

inductive Flag where
  | help
  | config
  | verbose
  | output
  | searchDir
  | noTitle
  | outDir
deriving DecidableEq, Repr

namespace Verb

def name : Verb → Text
  | render => "render"
  | batch => "batch"
  | inspect => "inspect"

def named? (word : Text) : Option Verb := [render, batch, inspect].find? (·.name = word)

end Verb

namespace Flag

def name : Flag → Text
  | help => "help"
  | config => "config"
  | verbose => "verbose"
  | output => "output"
  | searchDir => "search-dir"
  | noTitle => "no-title"
  | outDir => "out-dir"

def letter? : Flag → Option Char
  | help => some 'h'
  | config => some 'c'
  | verbose => some 'v'
  | output => some 'o'
  | searchDir | noTitle | outDir => none

def takesValue : Flag → Bool
  | config | output | searchDir | outDir => true
  | help | verbose | noTitle => false

def allowed (verb : Option Verb) : List Flag :=
  [help, config, verbose] ++
    match verb with
    | none => []
    | some .render => [output, searchDir, noTitle]
    | some .batch => [outDir]
    | some .inspect => [searchDir]

def named? (verb : Option Verb) (word : Text) : Option Flag := (allowed verb).find? (·.name = word)

def lettered? (verb : Option Verb) (letter : Char) : Option Flag :=
  (allowed verb).find? (·.letter? = some letter)

end Flag

inductive UsageError where
  | unknownOption (argument : Text)
  | unknownVerb (word : Text)
  | missingVerb
  | missingOperand
  | extraOperand (argument : Text)
  | missingValue (flag : Flag)
  | needlessValue (flag : Flag)
  | repeated (flag : Flag)
deriving DecidableEq, Repr

namespace UsageError

def option (flag : Flag) : Text := "option --".toList ++ flag.name

def message : UsageError → Text
  | unknownOption argument => "unknown option ".toList ++ argument
  | unknownVerb word => "unknown command ".toList ++ word
  | missingVerb => "no command given"
  | missingOperand => "no path given"
  | extraOperand argument => "unexpected argument ".toList ++ argument
  | missingValue flag => option flag ++ " needs a value".toList
  | needlessValue flag => option flag ++ " takes no value".toList
  | repeated flag => option flag ++ " is given twice".toList

end UsageError

inductive Stop where
  | helpAsked
  | refused (error : UsageError)
deriving DecidableEq, Repr

-- The options on one side of the verb, each at most once; those without a value have an empty one.
abbrev Options := List (Flag × Text)

structure Arguments where
  general : Options := []
  verb : Option Verb := none
  options : Options := []
  operand : Option Text := none
  -- An option whose value is the next argument.
  awaiting : Option Flag := none
  -- Nothing behind a double dash is an option.
  dashed : Bool := false
deriving Repr

namespace Arguments

def give (arguments : Arguments) (flag : Flag) (value : Text) : Except Stop Arguments :=
  if flag = .help then .error .helpAsked
  else if arguments.options.any (·.1 = flag) then .error (.refused (.repeated flag))
  else .ok { arguments with options := arguments.options ++ [(flag, value)], awaiting := none }

def giveValue (arguments : Arguments) (flag : Flag) (value : Text) : Except Stop Arguments :=
  if value.isEmpty then .error (.refused (.missingValue flag)) else arguments.give flag value

def giveNamed (arguments : Arguments) (word : Text) : Except Stop Arguments :=
  let name := word.takeWhile (· ≠ '=')
  match Flag.named? arguments.verb name, word.drop name.length with
  | none, _ => .error (.refused (.unknownOption word))
  | some flag, [] => if flag.takesValue then .ok { arguments with awaiting := some flag } else arguments.give flag []
  | some flag, _ :: value =>
    if flag.takesValue then arguments.giveValue flag value else .error (.refused (.needlessValue flag))

-- Options by their letters. What follows a letter that takes a value is the value.
def giveLetters (arguments : Arguments) : Text → Except Stop Arguments
  | [] => .ok arguments
  | letter :: rest =>
    match Flag.lettered? arguments.verb letter with
    | none => .error (.refused (.unknownOption ['-', letter]))
    | some flag =>
      if flag.takesValue then
        match rest with
        | [] => .ok { arguments with awaiting := some flag }
        | '=' :: value => arguments.giveValue flag value
        | value => arguments.giveValue flag value
      else
        match arguments.give flag [] with
        | .error stop => .error stop
        | .ok given => given.giveLetters rest

-- The verb is the first word, and no verb stands behind a double dash.
def giveWord (arguments : Arguments) (word : Text) : Except Stop Arguments :=
  match arguments.verb with
  | none =>
    match if arguments.dashed then none else Verb.named? word with
    | some verb => .ok { arguments with general := arguments.options, verb := some verb, options := [] }
    | none => .error (.refused (.unknownVerb word))
  | some _ =>
    if arguments.operand.isSome then .error (.refused (.extraOperand word))
    else if word.isEmpty then .error (.refused .missingOperand)
    else .ok { arguments with operand := some word }

-- Options and the double dash cannot stand where a value is awaited.
def next (arguments : Arguments) (argument : Text) : Except Stop Arguments :=
  if arguments.dashed then arguments.giveWord argument
  else
    match argument, arguments.awaiting with
    | '-' :: _ :: _, some flag => .error (.refused (.missingValue flag))
    | value, some flag => arguments.giveValue flag value
    | ['-', '-'], none => .ok { arguments with dashed := true }
    | '-' :: '-' :: word, none => arguments.giveNamed word
    | '-' :: letter :: letters, none => arguments.giveLetters (letter :: letters)
    | word, none => arguments.giveWord word

def expectsVerb (arguments : Arguments) : Bool :=
  arguments.verb.isNone && arguments.awaiting.isNone && !arguments.dashed

def isTopic : List Text → Bool
  | [] => true
  | [word] => word = "help".toList || (Verb.named? word).isSome
  | _ => false

def read (arguments : Arguments) : List Text → Except Stop Arguments
  | [] => .ok arguments
  | argument :: rest =>
    if arguments.expectsVerb && argument = "help".toList then
      .error (if isTopic rest then .helpAsked else .refused (.unknownVerb argument))
    else
      match arguments.next argument with
      | .error stop => .error stop
      | .ok known => known.read rest

def path? (arguments : Arguments) (flag : Flag) : Option Path :=
  (arguments.options.lookup flag).map Path.mk

def has (arguments : Arguments) (flag : Flag) : Bool := (arguments.options.lookup flag).isSome

end Arguments

inductive Command where
  | render (input : Path) (output searchDir : Option Path) (untitled : Bool)
  | batch (dir : Path) (outDir : Option Path)
  | inspect (input : Path) (searchDir : Option Path)
deriving DecidableEq, Repr

structure Invocation where
  config : Option Path
  command : Command
deriving DecidableEq, Repr

namespace Invocation

def commandOf (arguments : Arguments) (verb : Verb) (operand : Path) : Command :=
  match verb with
  | .render => .render operand (arguments.path? .output) (arguments.path? .searchDir) (arguments.has .noTitle)
  | .batch => .batch operand (arguments.path? .outDir)
  | .inspect => .inspect operand (arguments.path? .searchDir)

-- An option after the verb wins over the same one before it.
def ofArguments (arguments : Arguments) : Except UsageError Invocation :=
  match arguments.awaiting, arguments.verb, arguments.operand with
  | some flag, _, _ => .error (.missingValue flag)
  | none, none, _ => .error .missingVerb
  | none, some _, none => .error .missingOperand
  | none, some verb, some operand =>
    .ok {
      config := (arguments.path? .config).or ((arguments.general.lookup .config).map Path.mk)
      command := commandOf arguments verb ⟨operand⟩ }

def ofList (words : List Text) : Except Stop Invocation :=
  match Arguments.read {} words with
  | .error stop => .error stop
  | .ok arguments =>
    match ofArguments arguments with
    | .error error => .error (.refused error)
    | .ok invocation => .ok invocation

end Invocation

end SchemaDiagram
