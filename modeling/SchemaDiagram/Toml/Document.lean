import SchemaDiagram.Toml.Literal

/-!
TOML documents. The lines of a document are read one by one; a document is well-formed if every line is
and no line defines again what an earlier one has closed.
-/

set_option autoImplicit false

namespace SchemaDiagram

namespace Toml

def afterComment : Text → Text
  | '#' :: rest => rest.dropWhile isPlain
  | t => t

def afterGaps (steps : Nat) (t : Text) : Text :=
  match steps, lineEnd? (afterComment (t.dropWhile isGap)) with
  | steps + 1, some below => afterGaps steps below
  | _, _ => t.dropWhile isGap

def key? (t : Text) : Option (Text × Text) :=
  match t with
  | '"' :: rest => basic? rest.length rest
  | '\'' :: rest => literal? rest
  | _ =>
    let bare := t.takeWhile isBareKeyChar
    if bare.isEmpty then none else some (bare, t.dropWhile isBareKeyChar)

def depthLimit : Nat := 79

def keys? (steps : Nat) (t : Text) : Option (List Text × Text) :=
  match steps with
  | 0 => none
  | steps + 1 =>
    (key? t).bind fun (key, rest) =>
      match rest.dropWhile isGap with
      | '.' :: below => (keys? steps (below.dropWhile isGap)).map fun (keys, rest) => (key :: keys, rest)
      | rest => some ([key], rest)

-- What a table becomes when the way to an entry leads into it.
def enter? (dotted : Bool) (form : Form) : Bool :=
  match form with
  | .inline => false
  | .header => !dotted
  | .implicit | .dotted => true

def adjust (key : Text) (change : Option Toml → Option Toml) : Entries → Option Entries
  | [] => (change none).map fun value => [(key, value)]
  | entry :: others =>
    if entry.1 = key then (change (some entry.2)).map fun value => (key, value) :: others
    else (adjust key change others).map (entry :: ·)

-- Follows a path of keys into a table and changes the table at its end; tables on the way are made where
-- they are missing, and of tables in an array the last one counts.
def within (dotted : Bool) (change : Form → Entries → Option Entries) :
    List Text → Form → Entries → Option Entries
  | [], form, entries => change form entries
  | key :: path, _, entries =>
    adjust key (fun
      | none =>
        let form := if dotted then .dotted else .implicit
        (within dotted change path form []).map (table form)
      | some (table form inner) =>
        if enter? dotted form then (within dotted change path form inner).map (table form) else none
      | some (tables items) =>
        match items.reverse with
        | [] => none
        | last :: before =>
          (within dotted change path .header last).map fun inner => tables (before.reverse ++ [inner])
      | some _ => none) entries

-- Adds an entry by its keys. What dotted keys have made is added to by dotted keys alone.
def addEntry (keys : List Text) (value : Toml) (entries : Entries) : Option Entries :=
  match keys.getLast? with
  | none => none
  | some key =>
    within true (fun form entries =>
      if decide (form = .dotted) = keys.dropLast.isEmpty then none
      else adjust key (fun known => if known.isSome then none else some value) entries)
      keys.dropLast .header entries

-- Opens a table, which may have been named before but not opened; it becomes the last entry.
def openTable (keys : List Text) (entries : Entries) : Option Entries :=
  match keys.getLast? with
  | none => none
  | some key =>
    let opened (others : Entries) (inner : Entries) := others ++ [(key, table .header inner)]
    within false (fun _ entries =>
      match entries.lookup key with
      | none => some (opened entries [])
      | some (table .implicit inner) => some (opened (entries.filter (·.1 ≠ key)) inner)
      | some _ => none) keys.dropLast .header entries

def appendTable (keys : List Text) (entries : Entries) : Option Entries :=
  match keys.getLast? with
  | none => none
  | some key =>
    within false (fun _ => adjust key fun
      | none => some (tables [[]])
      | some (tables items) => some (tables (items ++ [[]]))
      | some _ => none) keys.dropLast .header entries

-- The items of an array after its bracket; a comma may follow the last one.
def items? (read : Text → Option (Toml × Text)) (steps : Nat) (t : Text) : Option (List Toml × Text) :=
  match steps with
  | 0 => none
  | steps + 1 =>
    match afterGaps t.length t with
    | ']' :: rest => some ([], rest)
    | start =>
      (read start).bind fun (item, rest) =>
        match afterGaps rest.length rest with
        | ']' :: rest => some ([item], rest)
        | ',' :: rest => (items? read steps rest).map fun (items, rest) => (item :: items, rest)
        | _ => none

def pair? (read : Text → Option (Toml × Text)) (t : Text) : Option (List Text × Toml × Text) :=
  (keys? depthLimit t).bind fun (keys, rest) =>
    match rest.dropWhile isGap with
    | '=' :: rest => (read (rest.dropWhile isGap)).map fun (value, rest) => (keys, value, rest)
    | _ => none

-- The entries of a table between braces, after the first of which `entries` are known.
def inline? (read : Text → Option (Toml × Text)) (steps : Nat) (entries : Entries) (t : Text) :
    Option (Entries × Text) :=
  match steps with
  | 0 => none
  | steps + 1 =>
    (pair? read (t.dropWhile isGap)).bind fun (keys, value, rest) =>
      (addEntry keys value entries).bind fun entries =>
        match rest.dropWhile isGap with
        | '\x7d' :: rest => some (entries, rest)
        | ',' :: rest => inline? read steps entries rest
        | _ => none

def inlineTable? (read : Text → Option (Toml × Text)) (t : Text) : Option (Toml × Text) :=
  match t.dropWhile isGap with
  | '\x7d' :: rest => some (table .inline [], rest)
  | _ => (inline? read (t.length + 1) [] t).map fun (entries, rest) => (table .inline entries, rest)

def value? (depth : Nat) (t : Text) : Option (Toml × Text) :=
  match depth, t with
  | depth + 1, '[' :: rest => (items? (value? depth) (rest.length + 1) rest).map fun (items, rest) => (list items, rest)
  | depth + 1, '\x7b' :: rest => inlineTable? (value? depth) rest
  | _, t => scalar? t

def lineRest? (t : Text) : Option Text :=
  match afterComment (t.dropWhile isGap) with
  | [] => some []
  | rest => lineEnd? rest

def header? (closing : Text) (t : Text) : Option (List Text × Text) :=
  (keys? depthLimit (t.dropWhile isGap)).bind fun (keys, rest) =>
    (Text.after? closing (rest.dropWhile isGap)).map fun rest => (keys, rest)

-- A line of a document: where entries go from there on, the entries so far, and the lines below.
def line? (current : List Text) (entries : Entries) (t : Text) : Option (List Text × Entries × Text) :=
  match t with
  | '[' :: '[' :: rest => do
    let (keys, rest) ← header? "]]" rest
    return (keys, ← appendTable keys entries, ← lineRest? rest)
  | '[' :: rest => do
    let (keys, rest) ← header? "]" rest
    return (keys, ← openTable keys entries, ← lineRest? rest)
  | _ => do
    let (keys, value, rest) ← pair? (value? depthLimit) t
    let entries ← within false (fun _ => addEntry keys value) current .header entries
    return (current, entries, ← lineRest? rest)

def lines? (steps : Nat) (current : List Text) (entries : Entries) (t : Text) : Option Entries :=
  match steps, afterGaps t.length t with
  | steps + 1, start =>
    if (afterComment start).isEmpty then some entries
    else (line? current entries start).bind fun (current, entries, rest) => lines? steps current entries rest
  | 0, _ => none

-- The entries of a document, in front of which a mark of the order of bytes may stand.
def parse? (t : Text) : Option Entries :=
  let start := (Text.after? "\uFEFF" t).getD t
  lines? (start.length + 1) [] [] start

end Toml

end SchemaDiagram
