import SchemaDiagram.Path
import SchemaDiagram.Settings.Address
import SchemaDiagram.Text.Quoted

/-! Why settings cannot be loaded. -/

set_option autoImplicit false

namespace SchemaDiagram

inductive Misfit where
  | nothing
  | scalar (value : Scalar)
  | list
  | table
deriving DecidableEq, Repr

inductive SettingsError where
  | misfit (found : Misfit) (expected key : Text) (origin : Option Text)
  | noGroup (found : Misfit) (expected : Text)
  | unknownConvention (name : Text)
  | shapelessConvention
  | fileNotFound (path : Path)
  | unknownFormat (path : Path)
  | noText
  | malformed (path : Path)
deriving DecidableEq, Repr

namespace Misfit

def decimalText (value : Binary64) : Text :=
  match value with
  | .finite _ _ _ => if value.text.elem '.' then value.text else value.text ++ ".0".toList
  | _ => value.text

def tick (t : Text) : Text := '`' :: t ++ ['`']

def scalarName : Scalar → Text
  | .flag value => "boolean ".toList ++ tick (Scalar.flagText value)
  | .integer value => "integer ".toList ++ tick (Scalar.integerText value)
  | .decimal value => "floating point ".toList ++ tick (decimalText value)
  | .text value => "string ".toList ++ value.quoted

def name : Misfit → Text
  | nothing => "unit value"
  | scalar value => scalarName value
  | list => "sequence"
  | table => "map"

end Misfit

namespace SettingsError

def under (step : Step) : SettingsError → SettingsError
  | misfit found expected key origin => misfit found expected (step.before key) origin
  | error => error

def expectation (found : Misfit) (expected : Text) : Text :=
  "invalid type: ".toList ++ found.name ++ ", expected ".toList ++ expected

def message : SettingsError → Text
  | misfit found expected key origin =>
    expectation found expected ++ " for key ".toList ++ Misfit.tick key ++
      (match origin with
        | none => []
        | some origin => " in ".toList ++ origin)
  | noGroup found expected => expectation found expected
  | unknownConvention name =>
    "enum FileConvention does not have variant constructor ".toList ++ name
  | shapelessConvention =>
    "value of enum FileConvention should be represented by either string or table with exactly one key"
  | fileNotFound path => "configuration file \"".toList ++ path.text ++ "\" not found".toList
  | unknownFormat path =>
    "configuration file \"".toList ++ path.text ++ "\" is not of a registered file format".toList
  | noText => "stream did not contain valid UTF-8"
  | malformed path => "invalid TOML in ".toList ++ path.text

end SettingsError

end SchemaDiagram
