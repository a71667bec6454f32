import Mathlib.Data.List.Nodup
import SchemaDiagram.Edge

/-!
The first items of each key in a list. Edges are registered and references are queued in this way: one whose
key is there already is passed over.
-/

set_option autoImplicit false

namespace SchemaDiagram

section

variable {α κ : Type} [DecidableEq κ]

def firstsBeyond (key : α → κ) (known : List κ) : List α → List α
  | [] => []
  | item :: rest =>
    if key item ∈ known then firstsBeyond key known rest
    else item :: firstsBeyond key (known ++ [key item]) rest

def firsts (key : α → κ) (items : List α) : List α := firstsBeyond key [] items

theorem firsts_beyond_append (key : α → κ) (known : List κ) (a b : List α) :
    firstsBeyond key known (a ++ b) =
      firstsBeyond key known a ++ firstsBeyond key (known ++ (firstsBeyond key known a).map key) b := by
  induction a generalizing known with
  | nil => simp [firstsBeyond]
  | cons item rest ih =>
    by_cases seen : key item ∈ known
    · simp only [List.cons_append, firstsBeyond, if_pos seen]
      exact ih known
    · simp only [List.cons_append, firstsBeyond, if_neg seen, List.map_cons]
      rw [ih (known ++ [key item]), List.append_assoc]
      rfl

theorem firsts_append (key : α → κ) (a b : List α) :
    firsts key (a ++ b) = firsts key a ++ firstsBeyond key ((firsts key a).map key) b :=
  firsts_beyond_append key [] a b

theorem mem_firsts_beyond (key : α → κ) (known : List κ) (items : List α) (item : α)
    (member : item ∈ firstsBeyond key known items) : item ∈ items ∧ key item ∉ known := by
  induction items generalizing known with
  | nil => cases member
  | cons first rest ih =>
    by_cases seen : key first ∈ known
    · rw [firstsBeyond, if_pos seen] at member
      obtain ⟨inside, fresh⟩ := ih known member
      exact ⟨List.mem_cons_of_mem first inside, fresh⟩
    · rw [firstsBeyond, if_neg seen] at member
      rcases List.mem_cons.mp member with rfl | later
      · exact ⟨List.mem_cons_self, seen⟩
      · obtain ⟨inside, fresh⟩ := ih (known ++ [key first]) later
        exact ⟨List.mem_cons_of_mem first inside, fun old => fresh (List.mem_append_left _ old)⟩

theorem mem_of_mem_firsts (key : α → κ) (items : List α) (item : α) (member : item ∈ firsts key items) :
    item ∈ items := (mem_firsts_beyond key [] items item member).1

theorem firsts_beyond_nodup (key : α → κ) (known : List κ) (items : List α) (distinct : known.Nodup) :
    (known ++ (firstsBeyond key known items).map key).Nodup := by
  induction items generalizing known with
  | nil => simpa [firstsBeyond] using distinct
  | cons item rest ih =>
    by_cases seen : key item ∈ known
    · rw [firstsBeyond, if_pos seen]
      exact ih known distinct
    · rw [firstsBeyond, if_neg seen]
      have longer : (known ++ [key item]).Nodup := by
        simpa using distinct.concat seen
      simpa [List.append_assoc] using ih (known ++ [key item]) longer

theorem firsts_nodup (key : α → κ) (items : List α) : ((firsts key items).map key).Nodup :=
  firsts_beyond_nodup key [] items List.nodup_nil

theorem firsts_beyond_cover (key : α → κ) (known : List κ) (items : List α) (item : α)
    (member : item ∈ items) : key item ∈ known ++ (firstsBeyond key known items).map key := by
  induction items generalizing known with
  | nil => cases member
  | cons first rest ih =>
    by_cases seen : key first ∈ known
    · rw [firstsBeyond, if_pos seen]
      rcases List.mem_cons.mp member with rfl | later
      · exact List.mem_append_left _ seen
      · exact ih known later
    · rw [firstsBeyond, if_neg seen]
      rcases List.mem_cons.mp member with rfl | later
      · simp
      · simpa [List.append_assoc] using ih (known ++ [key first]) later

theorem key_of_firsts (key : α → κ) (items : List α) (wanted : κ) :
    wanted ∈ (firsts key items).map key ↔ wanted ∈ items.map key := by
  constructor
  · intro member
    obtain ⟨item, first, same⟩ := List.mem_map.mp member
    exact List.mem_map.mpr ⟨item, mem_of_mem_firsts key items item first, same⟩
  · intro member
    obtain ⟨item, inside, rfl⟩ := List.mem_map.mp member
    exact firsts_beyond_cover key [] items item inside

theorem find_firsts_beyond (key : α → κ) (known : List κ) (items : List α) (wanted : κ)
    (fresh : wanted ∉ known) :
    (firstsBeyond key known items).find? (key · = wanted) = items.find? (key · = wanted) := by
  induction items generalizing known with
  | nil => rfl
  | cons first rest ih =>
    by_cases same : key first = wanted
    · rw [firstsBeyond, if_neg (same ▸ fresh)]
      simp [same]
    · rw [List.find?_cons_of_neg (by simpa using same)]
      by_cases seen : key first ∈ known
      · rw [firstsBeyond, if_pos seen]
        exact ih known fresh
      · rw [firstsBeyond, if_neg seen, List.find?_cons_of_neg (by simpa using same)]
        apply ih
        simpa [fresh] using Ne.symm same

theorem find_firsts (key : α → κ) (items : List α) (wanted : κ) :
    (firsts key items).find? (key · = wanted) = items.find? (key · = wanted) :=
  find_firsts_beyond key [] items wanted List.not_mem_nil

theorem mem_firsts_of_find (key : α → κ) (items : List α) (wanted : κ) (item : α)
    (found : items.find? (key · = wanted) = some item) : item ∈ firsts key items := by
  rw [← find_firsts] at found
  exact List.mem_of_find?_eq_some found

theorem find_of_distinct (key : α → κ) (items : List α) (distinct : (items.map key).Nodup) (item : α)
    (member : item ∈ items) : items.find? (key · = key item) = some item := by
  obtain ⟨before, later, split⟩ := List.append_of_mem member
  rw [split, List.map_append, List.map_cons, List.nodup_middle, List.nodup_cons] at distinct
  have absent : before.find? (key · = key item) = none := by
    rw [List.find?_eq_none]
    intro other inside same
    apply distinct.1
    rw [← of_decide_eq_true same]
    exact List.mem_append_left _ (List.mem_map_of_mem inside)
  rw [split, List.find?_append, absent, Option.none_or]
  exact List.find?_cons_of_pos (decide_eq_true rfl)

-- Keys tell the first items apart, so that one of them is found under its key.
theorem find_of_mem_firsts (key : α → κ) (items : List α) (item : α) (member : item ∈ firsts key items) :
    items.find? (key · = key item) = some item := by
  rw [← find_firsts]
  exact find_of_distinct key (firsts key items) (firsts_nodup key items) item member

end

def Edge.pair (edge : Edge) : Text × Text := (edge.owner, edge.target)

namespace Registry

theorem find_is_some (registry : Registry) (edge : Edge) :
    (registry.find? edge.owner edge.target).isSome = true ↔ edge.pair ∈ registry.edges.map Edge.pair := by
  simp [find?, Edge.joins, Edge.pair]

theorem add_all_edges (registry : Registry) (edges : List Edge) :
    (registry.addAll edges).edges =
      registry.edges ++ firstsBeyond Edge.pair (registry.edges.map Edge.pair) edges := by
  induction edges generalizing registry with
  | nil => simp [addAll, firstsBeyond]
  | cons edge rest ih =>
    change ((registry.add edge).addAll rest).edges = _
    rw [ih (registry.add edge)]
    by_cases known : edge.pair ∈ registry.edges.map Edge.pair
    · rw [add, if_pos ((find_is_some registry edge).mpr known), firstsBeyond, if_pos known]
    · rw [add, if_neg (fun found => known ((find_is_some registry edge).mp found)), firstsBeyond,
        if_neg known]
      simp [List.append_assoc]

end Registry

end SchemaDiagram
