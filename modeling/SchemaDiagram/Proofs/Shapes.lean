import SchemaDiagram.Proofs.Layering

/-!
Settings of a known shape, laid over one another. A layer changes the values that it gives and leaves those beside them
as they are, so that after all layers each value is the one that was given last.
-/

set_option autoImplicit false

namespace SchemaDiagram

-- What is at a place: a single value that is admitted there, or a group with members by name. What a group does not
-- know by name is let through.
inductive Shape where
  | leaf (admits : Scalar → Bool)
  | group (member? : Text → Option Shape)

namespace Shape

-- Whether names lead to a single value.
def leads : Shape → List Text → Bool
  | leaf _, [] => true
  | group member?, name :: path => (member? name).any (leads · path)
  | _, _ => false

theorem leads_group (member? : Text → Option Shape) (name : Text) (path : List Text) :
    (group member?).leads (name :: path) = true ↔ ∃ shape, member? name = some shape ∧ shape.leads path = true := by
  rw [leads, Option.any_eq_true]

-- A setting as it is written in a layer, with names in any mixture of cases.
inductive Fits : Shape → Setting → Prop where
  | leaf (admits : Scalar → Bool) (value : Scalar) (origin : Text) (admitted : admits value = true) :
      Fits (leaf admits) (.scalar value origin)
  | group (member? : Text → Option Shape) (entries : List (Text × Setting)) (origin : Option Text)
      (each : ∀ entry ∈ entries, ∀ shape, member? (Text.lower entry.1) = some shape → Fits shape entry.2) :
      Fits (group member?) (.table entries origin)

-- A setting that layers have been laid on.
inductive Shaped : Shape → Setting → Prop where
  | leaf (admits : Scalar → Bool) (value : Scalar) (origin : Text) (admitted : admits value = true) :
      Shaped (leaf admits) (.scalar value origin)
  | group (member? : Text → Option Shape) (entries : List (Text × Setting)) (origin : Option Text)
      (distinct : (entries.map Prod.fst).Nodup)
      (each : ∀ name shape inner, member? name = some shape → entries.lookup name = some inner → Shaped shape inner) :
      Shaped (group member?) (.table entries origin)

end Shape

namespace Setting

-- The value that names lead to.
def value? : Setting → List Text → Option Scalar
  | scalar value _, [] => some value
  | setting, name :: path => (setting.find? name).bind (·.value? path)
  | _, [] => none

-- The value that a setting in a layer gives for a place, which is the last one of entries with the same name.
def given? : Setting → List Text → Option Scalar
  | scalar value _, [] => some value
  | table entries _, first :: path =>
    entries.reverse.findSome? fun entry => if Text.lower entry.1 = first then given? entry.2 path else none
  | _, _ => none

end Setting

-- Values that are given below a name.
def under (name : Text) (given : List Text → Option Scalar) : List Text → Option Scalar
  | [] => none
  | first :: path => if name = first then given path else none

namespace Address

def Fits (new : Setting) : Address → Shape → Prop
  | [], shape => shape.Fits new
  | .name name :: rest, .group member? => ∀ shape, member? name = some shape → Fits new rest shape
  | _, _ => False

def given? (new : Setting) : Address → List Text → Option Scalar
  | [] => new.given?
  | .name name :: rest => under name (given? new rest)
  | .item _ :: _ => fun _ => none

end Address

namespace Layer

def Fits (layer : Layer) (shape : Shape) : Prop :=
  ∀ entry ∈ layer, Address.Fits entry.2 (Address.ofText (Text.lower entry.1)) shape

def given? (layer : Layer) (path : List Text) : Option Scalar :=
  layer.reverse.findSome? fun entry => Address.given? entry.2 (Address.ofText (Text.lower entry.1)) path

end Layer

-- A setting that has the values that were given, and otherwise those that it had.
structure Changes (shape : Shape) (given : List Text → Option Scalar) (old new : Setting) : Prop where
  shaped : shape.Shaped new
  values : ∀ path, shape.leads path = true → new.value? path = (given path).or (old.value? path)

namespace Changes

variable {shape : Shape} {given given' : List Text → Option Scalar} {a b c : Setting}

theorem congr (changes : Changes shape given a b) (same : ∀ path, shape.leads path = true → given path = given' path) :
    Changes shape given' a b :=
  ⟨changes.shaped, fun path leads => by rw [changes.values path leads, same path leads]⟩

theorem trans (first : Changes shape given a b) (second : Changes shape given' b c) :
    Changes shape (fun path => (given' path).or (given path)) a c :=
  ⟨second.shaped, fun path leads => by rw [second.values path leads, first.values path leads, Option.or_assoc]⟩

-- One change after the other: of the values that they give for a place the last one stays.
theorem fold {α : Type} (shape : Shape) (step : Setting → α → Setting) (given : α → List Text → Option Scalar)
    (items : List α) (old : Setting) (shaped : shape.Shaped old)
    (each : ∀ item ∈ items, ∀ old, shape.Shaped old → Changes shape (given item) old (step old item)) :
    Changes shape (fun path => items.reverse.findSome? (given · path)) old (items.foldl step old) := by
  induction items generalizing old with
  | nil => exact ⟨shaped, fun path _ => rfl⟩
  | cons item rest ih =>
    have first := each item List.mem_cons_self old shaped
    have further := ih (step old item) first.shaped fun other member => each other (List.mem_cons_of_mem item member)
    refine (first.trans further).congr fun path _ => ?_
    simp [List.findSome?_append]

end Changes

namespace Setting

theorem value_nothing (path : List Text) : value? nothing path = none := by
  cases path <;> rfl

theorem value_empty (path : List Text) : value? empty path = none := by
  cases path <;> rfl

theorem find_put_other (setting : Setting) (name other : Text) (inner : Setting) (apart : other ≠ name) :
    (setting.put name inner).find? other = setting.find? other := by
  have kept (entries : List (Text × Setting)) : (putEntry name inner entries).lookup other = entries.lookup other := by
    have miss : (other == name) = false := by simpa using apart
    induction entries with
    | nil => rw [putEntry, List.lookup_cons, miss]
    | cons entry others ih =>
      rw [putEntry]
      split
      · rename_i same
        rw [List.lookup_cons, List.lookup_cons, same, miss]
      · rw [List.lookup_cons, List.lookup_cons, ih]
  cases setting with
  | table entries origin => exact kept entries
  | nothing => exact kept []
  | scalar value origin => exact kept []
  | list items origin => exact kept []

theorem put_entry_names (name other : Text) (inner : Setting) (entries : List (Text × Setting))
    (member : other ∈ (putEntry name inner entries).map Prod.fst) : other = name ∨ other ∈ entries.map Prod.fst := by
  induction entries with
  | nil => simpa [putEntry] using member
  | cons entry others ih =>
    rw [putEntry] at member
    split at member
    · rename_i same
      rw [List.map_cons, List.mem_cons] at member ⊢
      exact member.imp_right .inr
    · rw [List.map_cons, List.mem_cons] at member ⊢
      rcases member with first | later
      · exact .inr (.inl first)
      · exact (ih later).imp_right .inr

theorem put_entry_distinct (name : Text) (inner : Setting) (entries : List (Text × Setting))
    (distinct : (entries.map Prod.fst).Nodup) : ((putEntry name inner entries).map Prod.fst).Nodup := by
  induction entries with
  | nil => simp [putEntry]
  | cons entry others ih =>
    rw [List.map_cons, List.nodup_cons] at distinct
    rw [putEntry]
    split
    · rename_i same
      rw [List.map_cons, List.nodup_cons]
      exact same ▸ distinct
    · rename_i other
      rw [List.map_cons, List.nodup_cons]
      exact ⟨fun member => (put_entry_names name entry.1 inner others member).elim other distinct.1, ih distinct.2⟩

section

variable (member? : Text → Option Shape)

theorem empty_shaped : (Shape.group member?).Shaped empty := .group member? [] none .nil (by simp)

theorem put_shaped (old : Setting) (there : old = nothing ∨ (Shape.group member?).Shaped old) (name : Text)
    (inner : Setting) (shaped : ∀ shape, member? name = some shape → shape.Shaped inner) :
    (Shape.group member?).Shaped (old.put name inner) := by
  obtain ⟨entries, origin, same, distinct, each⟩ : ∃ entries origin, old.put name inner =
      table (putEntry name inner entries) origin ∧ (entries.map Prod.fst).Nodup ∧
        ∀ other shape below, member? other = some shape → entries.lookup other = some below → shape.Shaped below := by
    rcases there with rfl | shaped
    · exact ⟨[], none, rfl, .nil, by simp⟩
    · cases shaped with
      | group _ entries origin distinct each => exact ⟨entries, origin, rfl, distinct, each⟩
  rw [same]
  refine .group member? _ origin (put_entry_distinct name inner entries distinct) ?_
  intro other shape below known found
  change (table (putEntry name inner entries) origin).find? other = some below at found
  by_cases here : other = name
  · subst here
    rw [← same, find_put] at found
    cases found
    exact shaped shape known
  · have kept := find_put_other (table entries origin) name other inner here
    change (table (putEntry name inner entries) origin).find? other = _ at kept
    rw [kept] at found
    exact each other shape below known found

-- What is put under a name gives the values below it, and all others stay.
theorem put_changes (old : Setting) (there : old = nothing ∨ (Shape.group member?).Shaped old) (name : Text)
    (given : List Text → Option Scalar) (beneath inner : Setting)
    (same : ∀ path, beneath.value? path = (old.find? name).bind (·.value? path))
    (changes : ∀ shape, member? name = some shape → Changes shape given beneath inner) :
    Changes (.group member?) (under name given) old (old.put name inner) := by
  refine ⟨put_shaped member? old there name inner fun shape known => (changes shape known).shaped, ?_⟩
  intro path leads
  cases path with
  | nil => contradiction
  | cons first path =>
    have below (setting : Setting) : setting.value? (first :: path) = (setting.find? first).bind (·.value? path) := by
      cases setting <;> rfl
    rw [below, below, under]
    by_cases here : name = first
    · subst here
      obtain ⟨shape, known, further⟩ := (Shape.leads_group member? name path).mp leads
      rw [if_pos rfl, find_put, Option.bind_some, (changes shape known).values path further, same]
    · rw [if_neg here, find_put_other old name first inner (Ne.symm here), Option.none_or]

theorem find_shaped (old : Setting) (shaped : (Shape.group member?).Shaped old) (name : Text) (shape : Shape)
    (known : member? name = some shape) (inner : Setting) (found : old.find? name = some inner) : shape.Shaped inner := by
  cases shaped with
  | group _ entries origin distinct each => exact each name shape inner known found

end

theorem overlay_all_fold (entries : List (Text × Setting)) (old : Setting) :
    overlayAll entries old = entries.foldl (fun old entry =>
      old.put (Text.lower entry.1) (overlay entry.2 ((old.find? (Text.lower entry.1)).getD empty))) old := by
  induction entries generalizing old with
  | nil => rfl
  | cons entry rest ih =>
    obtain ⟨name, new⟩ := entry
    rw [overlayAll, ih]
    rfl

theorem overlay_changes (shape : Shape) (new : Setting) (fits : shape.Fits new) (old : Setting)
    (there : old = empty ∨ shape.Shaped old) : Changes shape new.given? old (overlay new old) := by
  induction fits generalizing old with
  | leaf admits value origin admitted =>
    refine ⟨.leaf admits value origin admitted, ?_⟩
    intro path leads
    cases path with
    | nil => rfl
    | cons first path => contradiction
  | group member? entries origin _ ih =>
    have shaped : (Shape.group member?).Shaped old := there.elim (fun none => none ▸ empty_shaped member?) id
    rw [overlay, overlay_all_fold]
    refine (Changes.fold _ _ (fun entry => under (Text.lower entry.1) entry.2.given?) entries old shaped ?_).congr ?_
    · intro entry member old shaped
      refine put_changes member? old (.inr shaped) _ _ ((old.find? (Text.lower entry.1)).getD empty) _ ?_ ?_
      · intro path
        cases old.find? (Text.lower entry.1) with
        | none => exact value_empty path
        | some inner => rfl
      · intro shape known
        apply ih entry member shape known
        cases found : old.find? (Text.lower entry.1) with
        | none => exact .inl rfl
        | some inner => exact .inr (find_shaped member? old shaped _ shape known inner found)
    · intro path leads
      cases path with
      | nil => contradiction
      | cons first path => rfl

end Setting

namespace Address

theorem put_changes (new : Setting) (address : Address) (shape : Shape) (fits : Fits new address shape)
    (filled : address ≠ []) (old : Setting) (there : old = .nothing ∨ shape.Shaped old) :
    Changes shape (given? new address) old (put new address old) := by
  induction address generalizing shape old with
  | nil => contradiction
  | cons step rest ih =>
    cases step with
    | item index => exact fits.elim
    | name name =>
      cases shape with
      | leaf admits => exact fits.elim
      | group member? =>
        cases rest with
        | nil =>
          refine Setting.put_changes member? old there name _ ((old.find? name).getD .empty) _ ?_ ?_
          · intro path
            cases old.find? name with
            | none => exact Setting.value_empty path
            | some inner => rfl
          · intro shape known
            apply Setting.overlay_changes shape new (fits shape known)
            cases found : old.find? name with
            | none => exact .inl rfl
            | some inner =>
              rcases there with rfl | shaped
              · contradiction
              · exact .inr (Setting.find_shaped member? old shaped name shape known inner found)
        | cons next rest =>
          refine Setting.put_changes member? old there name _ ((old.find? name).getD .nothing) _ ?_ ?_
          · intro path
            cases old.find? name with
            | none => exact Setting.value_nothing path
            | some inner => rfl
          · intro shape known
            apply ih shape (fits shape known) (by simp)
            cases found : old.find? name with
            | none => exact .inl rfl
            | some inner =>
              rcases there with rfl | shaped
              · contradiction
              · exact .inr (Setting.find_shaped member? old shaped name shape known inner found)

theorem of_text_filled (t : Text) : ofText t ≠ [] := by
  rw [ofText]
  cases read : parse? t with
  | none => simp
  | some address =>
    rw [parse?] at read
    obtain ⟨⟨step, rest⟩, _, further⟩ := Option.bind_eq_some_iff.mp read
    obtain ⟨steps, _, rfl⟩ := Option.map_eq_some_iff.mp further
    simp

end Address

namespace Layer

theorem laid_changes (shape : Shape) (layer : Layer) (fits : layer.Fits shape) (old : Setting)
    (shaped : shape.Shaped old) : Changes shape layer.given? old (laidOn old layer) :=
  Changes.fold shape (fun old (entry : Text × Setting) => Address.put entry.2 (Address.ofText (Text.lower entry.1)) old)
    (fun entry => Address.given? entry.2 (Address.ofText (Text.lower entry.1))) layer old shaped
    fun entry member old shaped =>
      Address.put_changes entry.2 _ shape (fits entry member) (Address.of_text_filled _) old (.inr shaped)

-- All layers together give for each place the value of the last layer that gives one.
theorem merge_changes (member? : Text → Option Shape) (layers : List Layer)
    (fits : ∀ layer ∈ layers, layer.Fits (.group member?)) :
    Changes (.group member?) (fun path => layers.reverse.findSome? (·.given? path)) .empty (merge layers) :=
  Changes.fold _ laidOn given? layers .empty (Setting.empty_shaped member?) fun layer member old shaped =>
    laid_changes _ layer (fits layer member) old shaped

end Layer

end SchemaDiagram
