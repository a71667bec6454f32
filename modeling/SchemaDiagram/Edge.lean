import SchemaDiagram.Text.Basic

/-! Edges of the diagram: how an element connects its owner to another entity. -/

set_option autoImplicit false

namespace SchemaDiagram

inductive EdgeKind where
  | composition
  | association
  -- An array whose elements are of no primitive type.
  | arrayDerived
deriving DecidableEq, Repr

namespace EdgeKind

def arrow : EdgeKind → Text
  | composition => "*--"
  | association | arrayDerived => "-->"

def verb : EdgeKind → Text
  | composition => "composes"
  | association => "associates to"
  | arrayDerived => "relates to"

end EdgeKind

inductive Cardinality where
  | oneToMany
  | manyToOne
  | oneToOptional
  | optionalToOne
deriving DecidableEq, Repr

namespace Cardinality

-- Told by the first of three phrases that the clause holds, whatever white space parts its words.
def ofClause (clause : Text) : Cardinality :=
  let phrase := clause.normalized
  if Text.contains "of many" phrase then oneToMany
  else if Text.contains "to many" phrase then manyToOne
  else if Text.contains "of one" phrase then oneToOptional
  else optionalToOne

def ends : Cardinality → Text × Text
  | oneToMany => ("1", "0..N")
  | manyToOne => ("0..N", "1")
  | oneToOptional => ("1", "0..1")
  | optionalToOne => ("0..1", "1")

def quoted (t : Text) : Text := '"' :: t ++ ['"']

def connector (cardinality : Cardinality) (kind : EdgeKind) : Text :=
  quoted cardinality.ends.1 ++ ' ' :: kind.arrow ++ ' ' :: quoted cardinality.ends.2

end Cardinality

structure Edge where
  owner : Text
  target : Text
  kind : EdgeKind
  cardinality : Cardinality
  label : Text
deriving DecidableEq, Repr

namespace Edge

def labelOf (kind : EdgeKind) (clause : Text) : Text :=
  if Text.hasWord "many" clause then kind.verb ++ " many".toList
  else if Text.hasWord "one" clause then kind.verb ++ " one".toList
  else kind.verb

def ofClause (clause owner target : Text) (kind : EdgeKind) : Edge :=
  ⟨owner, target, kind, Cardinality.ofClause clause, labelOf kind clause⟩

def joins (owner target : Text) (edge : Edge) : Bool := edge.owner = owner && edge.target = target

def line (edge : Edge) : Text :=
  edge.owner ++ ' ' :: edge.cardinality.connector edge.kind ++ ' ' :: edge.target ++
    " : ".toList ++ edge.label

end Edge

structure Registry where
  edges : List Edge := []
deriving Repr

namespace Registry

def find? (registry : Registry) (owner target : Text) : Option Edge :=
  registry.edges.find? (Edge.joins owner target)

-- The first edge of a pair stays.
def add (registry : Registry) (edge : Edge) : Registry :=
  if (registry.find? edge.owner edge.target).isSome then registry else ⟨registry.edges ++ [edge]⟩

def addAll (registry : Registry) (edges : List Edge) : Registry := edges.foldl add registry

-- Nothing connects an entity to itself. Otherwise the answer is the edge that stands for the pair.
def register (registry : Registry) (clause owner target : Text) (kind : EdgeKind) :
    Option Edge × Registry :=
  if owner = target then (none, registry)
  else
    let registry := registry.add (Edge.ofClause clause owner target kind)
    (registry.find? owner target, registry)

theorem find_added (registry : Registry) (edge : Edge) :
    ((registry.add edge).find? edge.owner edge.target).isSome := by
  unfold add
  split
  · assumption
  · simp [find?, Edge.joins]

theorem find_newly_added (registry : Registry) (edge : Edge) (absent : registry.find? edge.owner edge.target = none) :
    (registry.add edge).find? edge.owner edge.target = some edge := by
  have fresh : ¬ (registry.find? edge.owner edge.target).isSome = true := by simp [absent]
  rw [add, if_neg fresh, find?, List.find?_append, ← find?, absent]
  simp [Edge.joins]

theorem register_self (registry : Registry) (clause owner : Text) (kind : EdgeKind) :
    registry.register clause owner owner kind = (none, registry) := by
  rw [register, if_pos rfl]

theorem register_other (registry : Registry) (clause owner target : Text) (kind : EdgeKind)
    (different : target ≠ owner) :
    (registry.register clause owner target kind).1.isSome = true ∧
      (registry.register clause owner target kind).2 =
        registry.add (Edge.ofClause clause owner target kind) := by
  rw [register, if_neg (Ne.symm different)]
  exact ⟨find_added registry (Edge.ofClause clause owner target kind), rfl⟩

end Registry

end SchemaDiagram
