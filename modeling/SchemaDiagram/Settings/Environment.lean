import SchemaDiagram.Settings.Layer

/-! The layer of settings that variables of the environment make up. -/

set_option autoImplicit false

namespace SchemaDiagram

namespace Environment

def lead : Text := "cds_diagram__"

-- Double underscores part the names of groups and settings.
def dotted : Text → Text
  | '_' :: '_' :: rest => '.' :: dotted rest
  | c :: rest => c :: dotted rest
  | [] => []

def whole? (t : Text) : Option Int :=
  let (negative, digits) := Toml.signed t
  if digits.isEmpty then none else (Toml.digits? 10 digits).map (Toml.withSign negative)

def integer? (t : Text) : Option Int := (whole? t).filter Toml.fits

-- A decimal in which either side of the point may be missing, and infinities and no numbers by name.
def decimal? (t : Text) : Option Binary64 :=
  let (negative, rest) := Toml.signed t
  let named := rest.asciiLower
  if named = "inf".toList || named = "infinity".toList then some (.infinite negative)
  else if named = "nan".toList then some .nan
  else
    let (significand, power) := match Toml.splitAt? (fun c => c = 'e' || c = 'E') rest with
      | some (front, back) => (front, whole? back)
      | none => (rest, some 0)
    let (whole, behind) := (Toml.splitAt? (· = '.') significand).getD (significand, [])
    if whole.isEmpty && behind.isEmpty then none
    else
      match Toml.digits? 10 (whole ++ behind), power with
      | some n, some power => some (Binary64.ofDecimal negative n (power - behind.length))
      | _, _ => none

def valueOf (t : Text) : Scalar :=
  if t.lower = "true".toList then .flag true
  else if t.lower = "false".toList then .flag false
  else
    match integer? t, decimal? t with
    | some n, _ => .integer n
    | none, some x => .decimal x
    | none, none => .text t

def origin : Text := "the environment"

def entry? (binding : Text × Text) : Option (Text × Setting) :=
  (Text.after? lead binding.1.lower).map fun name => (dotted name, .scalar (valueOf binding.2) origin)

def layer (bindings : List (Text × Text)) : Layer := bindings.filterMap entry?

end Environment

end SchemaDiagram
