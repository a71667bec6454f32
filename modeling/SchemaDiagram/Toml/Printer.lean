import SchemaDiagram.Toml.Basic

/-!
Strings and keys as TOML. Of the notations the first one that needs no escapes is taken: double quotes,
single quotes, and either of them tripled, which a line feed calls for as well.
-/

set_option autoImplicit false

namespace SchemaDiagram

namespace Toml

def longestRun (c : Char) (run : Nat) : Text → Nat
  | [] => run
  | d :: rest => if d = c then longestRun c (run + 1) rest else max run (longestRun c 0 rest)

def needsEscape (c : Char) : Bool := !isPlain c && c ≠ '\n'

def hex4 (n : Nat) : Text :=
  let digits := (Nat.toDigits 16 n).map Char.toUpper
  List.replicate (4 - digits.length) '0' ++ digits

def escaped (c : Char) : Text :=
  if c = '\x08' then ['\\', 'b']
  else if c = '\t' then ['\\', 't']
  else if c = '\n' then ['\\', 'n']
  else if c = '\x0C' then ['\\', 'f']
  else if c = '\r' then ['\\', 'r']
  else if c = '\\' then ['\\', '\\']
  else if isPlain c then [c]
  else '\\' :: 'u' :: hex4 c.toNat

-- The inside of a string in double quotes, in which as many of `quotes` in a row need no escape; `run` is
-- how many just went by, and line feeds stay where `multiline`.
def insideQuotes (multiline : Bool) (quotes run : Nat) : Text → Text
  | [] => []
  | c :: rest =>
    if c = '"' then
      if run < quotes then '"' :: insideQuotes multiline quotes (run + 1) rest
      else '\\' :: '"' :: insideQuotes multiline quotes 0 rest
    else (if multiline && c = '\n' then ['\n'] else escaped c) ++ insideQuotes multiline quotes 0 rest

def between (quotes : String) (inside : Text) : Text := quotes.toList ++ inside ++ quotes.toList

def basic (t : Text) : Text := between "\"" (insideQuotes false 0 0 t)
def literal (t : Text) : Text := between "'" t

-- A line feed in front keeps one that the text starts with.
def opening (t : Text) : Text := if t.elem '\n' then ['\n'] else []

def multilineBasic (t : Text) : Text := between "\"\"\"" (opening t ++ insideQuotes true 2 0 t)
def multilineLiteral (t : Text) : Text := between "'''" (opening t ++ t)

def string (t : Text) : Text :=
  let controls := t.any needsEscape
  let backslash := t.elem '\\'
  let newline := t.elem '\n'
  let doubles := longestRun '"' 0 t
  let singles := longestRun '\'' 0 t
  if !controls && !backslash && doubles = 0 && !newline then basic t
  else if !controls && singles = 0 && !newline then literal t
  else if !controls && !backslash && doubles ≤ 2 then multilineBasic t
  else if !controls && singles ≤ 2 then multilineLiteral t
  else if newline then multilineBasic t
  else basic t

-- Keys stay on their line, so a line feed in one is escaped like any other control.
def key (t : Text) : Text :=
  let controls := t.any (!isPlain ·)
  if !t.isEmpty && t.all isBareKeyChar then t
  else if !controls && !t.elem '\\' && !t.elem '"' then basic t
  else if !controls && !t.elem '\'' then literal t
  else basic t

def entry (name value : Text) : Text := name ++ " = ".toList ++ value ++ ['\n']

end Toml

end SchemaDiagram
