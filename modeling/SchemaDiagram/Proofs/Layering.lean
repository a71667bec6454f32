import Mathlib.Data.List.Nodup
import SchemaDiagram.Settings.Layer

/-!
What layers leave of each other. A table of which every name is new is put behind what is there; one of which the
names are there already takes their places, so that the last layer that mentions a setting has decided about it.
-/

set_option autoImplicit false

namespace SchemaDiagram

namespace Setting

theorem put_entry_append (name : Text) (inner : Setting) (before after : List (Text × Setting))
    (fresh : name ∉ before.map Prod.fst) :
    putEntry name inner (before ++ after) = before ++ putEntry name inner after := by
  induction before with
  | nil => rfl
  | cons entry others ih =>
    simp only [List.map_cons, List.mem_cons, not_or] at fresh
    rw [List.cons_append, putEntry, if_neg (Ne.symm fresh.1), ih fresh.2]
    rfl

theorem lookup_append_fresh (name : Text) (before after : List (Text × Setting))
    (fresh : name ∉ before.map Prod.fst) : (before ++ after).lookup name = after.lookup name := by
  induction before with
  | nil => rfl
  | cons entry others ih =>
    simp only [List.map_cons, List.mem_cons, not_or] at fresh
    have apart : (name == entry.1) = false := by simpa using fresh.1
    rw [List.cons_append, List.lookup_cons, apart]
    exact ih fresh.2

theorem find_put (setting : Setting) (name : Text) (inner : Setting) :
    (setting.put name inner).find? name = some inner := by
  have found (entries : List (Text × Setting)) : (putEntry name inner entries).lookup name = some inner := by
    induction entries with
    | nil => simp [putEntry]
    | cons entry others ih =>
      rw [putEntry]
      by_cases same : entry.1 = name
      · simp [if_pos same]
      · have apart : (name == entry.1) = false := by simpa using Ne.symm same
        rw [if_neg same, List.lookup_cons, apart]
        exact ih
  cases setting with
  | table entries origin => exact found entries
  | nothing => exact found []
  | scalar value origin => exact found []
  | list items origin => exact found []

-- Entries over a table in which they have been laid before, or over one that does not know them. `result` is what each
-- of them comes to be, over nothing and over what waits for it; those before it are done.
theorem overlay_all_entries (origin : Option Text) (result : Text × Setting → Setting) (entries : List (Text × Setting))
    (done waiting : List (Text × Setting))
    (distinct : (done.map Prod.fst ++ entries.map fun entry => Text.lower entry.1).Nodup)
    (known : waiting = [] ∨ waiting.map Prod.fst = entries.map fun entry => Text.lower entry.1)
    (each : ∀ entry ∈ entries, ∀ old, old = empty ∨ (Text.lower entry.1, old) ∈ waiting →
      overlay entry.2 old = result entry) :
    overlayAll entries (table (done ++ waiting) origin) =
      table (done ++ entries.map fun entry => (Text.lower entry.1, result entry)) origin := by
  induction entries generalizing done waiting with
  | nil =>
    have none : waiting = [] := by simpa using known
    rw [overlayAll, none, List.map_nil]
  | cons entry others ih =>
    obtain ⟨name, new⟩ := entry
    have fresh : Text.lower name ∉ done.map Prod.fst := by
      intro member
      exact List.disjoint_of_nodup_append distinct member (by simp)
    have below : ((done ++ [(Text.lower name, result (name, new))]).map Prod.fst ++
        others.map fun entry => Text.lower entry.1).Nodup := by
      simpa using distinct
    rw [overlayAll]
    change overlayAll others (table (putEntry (Text.lower name)
      (overlay new (((done ++ waiting).lookup (Text.lower name)).getD empty)) (done ++ waiting)) origin) = _
    rw [lookup_append_fresh _ done waiting fresh, put_entry_append _ _ done waiting fresh]
    cases waiting with
    | nil =>
      have onto := each (name, new) List.mem_cons_self empty (.inl rfl)
      have rest := ih (done ++ [(Text.lower name, result (name, new))]) [] below (.inl rfl)
        fun other member => each other (List.mem_cons_of_mem _ member)
      rw [List.append_nil] at rest
      change overlayAll others (table (done ++ [(Text.lower name, overlay new empty)]) origin) = _
      rw [onto, rest]
      simp
    | cons first waiting =>
      obtain ⟨there, old⟩ := first
      have names : there = Text.lower name ∧ waiting.map Prod.fst = others.map fun entry => Text.lower entry.1 := by
        simpa using known
      obtain ⟨rfl, names⟩ := names
      have onto := each (name, new) List.mem_cons_self old (.inr List.mem_cons_self)
      have rest := ih (done ++ [(Text.lower name, result (name, new))]) waiting below (.inr names)
        fun other member previous waits => each other (List.mem_cons_of_mem _ member) previous
          (waits.imp_right (List.mem_cons_of_mem _))
      rw [putEntry, if_pos rfl, List.lookup_cons, beq_self_eq_true]
      change overlayAll others (table (done ++ (Text.lower name, overlay new old) :: waiting) origin) = _
      rw [onto, List.append_cons, rest]
      simp

end Setting

-- A layer of which every name is one step is laid entry by entry, as a table over a table.
theorem Layer.laid_on_names (layer : Layer) (old : Setting)
    (plain : ∀ entry ∈ layer, Address.ofText (Text.lower entry.1) = [.name (Text.lower entry.1)]) :
    Layer.laidOn old layer = Setting.overlayAll layer old := by
  induction layer generalizing old with
  | nil => rfl
  | cons entry others ih =>
    obtain ⟨name, new⟩ := entry
    change Layer.laidOn (Address.put new (Address.ofText (Text.lower name)) old) others = _
    rw [plain (name, new) List.mem_cons_self, ih _ fun other member => plain other (List.mem_cons_of_mem _ member)]
    rfl

end SchemaDiagram
