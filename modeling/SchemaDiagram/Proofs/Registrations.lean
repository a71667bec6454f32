import SchemaDiagram.Proofs.Firsts

/-!
Registries as their histories have them. Whatever was registered, in whatever order, there is one edge for each ordered
pair of distinct names, the one that its first registration made, and it is the answer to every later registration of the
pair.
-/

set_option autoImplicit false

namespace SchemaDiagram

-- A connection as the element of an entity asks for it.
structure Registration where
  clause : Text
  owner : Text
  target : Text
  kind : EdgeKind
deriving DecidableEq, Repr

namespace Registration

def edge (call : Registration) : Edge := Edge.ofClause call.clause call.owner call.target call.kind

-- Whether it connects two entities.
def connects (call : Registration) : Bool := call.owner ≠ call.target

-- Whether it connects these two.
def joins (owner target : Text) (call : Registration) : Bool :=
  call.connects && call.owner = owner && call.target = target

end Registration

theorem Edge.joins_eq (owner target : Text) : joins owner target = (pair · = (owner, target)) := by
  funext edge
  simp [joins, pair]

namespace Registry

def enter (registry : Registry) (call : Registration) : Option Edge × Registry :=
  registry.register call.clause call.owner call.target call.kind

def after (calls : List Registration) : Registry := calls.foldl (fun registry call => (registry.enter call).2) {}

theorem add_known (registry : Registry) (edge : Edge) (known : registry.find? edge.owner edge.target ≠ none) :
    registry.add edge = registry := if_pos (Option.isSome_iff_ne_none.mpr known)

theorem add_absent (registry : Registry) (edge : Edge) (absent : registry.find? edge.owner edge.target = none) :
    registry.add edge = ⟨registry.edges ++ [edge]⟩ := if_neg (by simp [absent])

theorem enter_self (registry : Registry) (call : Registration) (same : call.owner = call.target) :
    registry.enter call = (none, registry) := if_pos same

-- The answer to two distinct names is the edge that was there, or else the one that is made now.
theorem enter_other (registry : Registry) (call : Registration) (apart : call.owner ≠ call.target) :
    registry.enter call =
      (some ((registry.find? call.owner call.target).getD call.edge), registry.add call.edge) := by
  have entered : registry.enter call = ((registry.add call.edge).find? call.owner call.target, registry.add call.edge) :=
    if_neg apart
  rw [entered]
  congr 1
  cases known : registry.find? call.owner call.target with
  | none => exact find_newly_added registry call.edge known
  | some edge =>
    have there : registry.find? call.edge.owner call.edge.target ≠ none := Option.ne_none_iff_exists'.mpr ⟨edge, known⟩
    rw [add_known registry call.edge there, known]
    rfl

-- What calls leave behind: the edges of those that connect, each pair once.
def recorded (calls : List Registration) : List Edge :=
  firsts Edge.pair ((calls.filter Registration.connects).map Registration.edge)

theorem entered_all (registry : Registry) (calls : List Registration) :
    calls.foldl (fun registry call => (registry.enter call).2) registry =
      registry.addAll ((calls.filter Registration.connects).map Registration.edge) := by
  induction calls generalizing registry with
  | nil => rfl
  | cons call rest ih =>
    rw [List.foldl_cons, ih]
    by_cases same : call.owner = call.target
    · rw [enter_self registry call same, List.filter_cons_of_neg (by simp [Registration.connects, same])]
    · rw [enter_other registry call same, List.filter_cons_of_pos (by simp [Registration.connects, same])]
      rfl

theorem after_edges (calls : List Registration) : (after calls).edges = recorded calls := by
  rw [after, entered_all, add_all_edges]
  rfl

theorem recorded_append (calls more : List Registration) : recorded calls <+: recorded (calls ++ more) := by
  rw [recorded, recorded, List.filter_append, List.map_append, firsts_append]
  exact List.prefix_append _ _

theorem find_after (calls : List Registration) (owner target : Text) :
    (after calls).find? owner target = (calls.find? (Registration.joins owner target)).map Registration.edge := by
  rw [find?, after_edges, recorded, Edge.joins_eq, find_firsts, ← Edge.joins_eq, List.find?_map, List.find?_filter]
  congr 2
  funext call
  rw [Registration.joins, Bool.and_assoc, Bool.decide_and, Bool.decide_eq_true, Bool.decide_eq_true]
  rfl

-- Where no pair has two edges, the edge of a pair is the one that is listed.
theorem find_some_iff (registry : Registry) (distinct : (registry.edges.map Edge.pair).Nodup) (owner target : Text)
    (edge : Edge) : registry.find? owner target = some edge ↔ edge ∈ registry.edges ∧ edge.pair = (owner, target) := by
  rw [find?, Edge.joins_eq]
  constructor
  · intro found
    have joins := List.find?_some found
    exact ⟨List.mem_of_find?_eq_some found, of_decide_eq_true joins⟩
  · rintro ⟨member, pair⟩
    rw [← pair]
    exact find_of_distinct Edge.pair registry.edges distinct edge member

theorem pair_recorded (calls : List Registration) (owner target : Text) :
    (owner, target) ∈ (recorded calls).map Edge.pair ↔
      owner ≠ target ∧ ∃ call ∈ calls, call.owner = owner ∧ call.target = target := by
  rw [recorded, key_of_firsts]
  constructor
  · intro member
    obtain ⟨edge, among, pair⟩ := List.mem_map.mp member
    obtain ⟨call, kept, rfl⟩ := List.mem_map.mp among
    obtain ⟨called, connects⟩ := List.mem_filter.mp kept
    cases pair
    exact ⟨of_decide_eq_true connects, call, called, rfl, rfl⟩
  · rintro ⟨apart, call, called, rfl, rfl⟩
    have kept : call ∈ calls.filter Registration.connects := List.mem_filter.mpr ⟨called, decide_eq_true apart⟩
    exact List.mem_map.mpr ⟨call.edge, List.mem_map_of_mem kept, rfl⟩

-- What a registry shows of a history, by its list of edges, its edge for a pair and its answer to a further call.
structure Records (calls : List Registration) (edges : List Edge) (find? : Text → Text → Option Edge)
    (answer : Registration → Option Edge) : Prop where
  inOrder : edges = recorded calls
  once : (edges.map Edge.pair).Nodup
  pairs : ∀ owner target, (owner, target) ∈ edges.map Edge.pair ↔
    owner ≠ target ∧ ∃ call ∈ calls, call.owner = owner ∧ call.target = target
  first : ∀ owner target,
    find? owner target = (calls.find? (Registration.joins owner target)).map Registration.edge
  stands : ∀ owner target edge, find? owner target = some edge ↔ edge ∈ edges ∧ edge.pair = (owner, target)
  answers : ∀ call, answer call =
    if call.owner = call.target then none else some ((find? call.owner call.target).getD call.edge)

theorem after_distinct (calls : List Registration) : ((after calls).edges.map Edge.pair).Nodup := by
  rw [after_edges]
  exact firsts_nodup Edge.pair _

theorem after_records (calls : List Registration) :
    Records calls (after calls).edges (after calls).find? fun call => ((after calls).enter call).1 where
  inOrder := after_edges calls
  once := after_distinct calls
  pairs owner target := by
    rw [after_edges]
    exact pair_recorded calls owner target
  first := find_after calls
  stands := find_some_iff (after calls) (after_distinct calls)
  answers call := by
    by_cases same : call.owner = call.target
    · rw [enter_self _ call same, if_pos same]
    · rw [enter_other _ call same, if_neg same]

end Registry

end SchemaDiagram
