import SchemaDiagram.Run

/-!
Runs that go side by side. Where a view of runs leaves the list of references alone and goes along with each
rendering and each search of a library, it goes along with a whole run.
-/

set_option autoImplicit false

namespace SchemaDiagram

namespace Catalog

variable (view : Entity × Text → Entity × Text) (named : ∀ entry, (view entry).1.name = entry.1.name)

include named

theorem contains_viewed (catalog : Catalog) (name : Text) :
    contains ⟨catalog.entries.map view⟩ name = catalog.contains name := by
  have names : (fun entry : Entity × Text => decide ((view entry).1.name = name)) =
      fun entry => decide (entry.1.name = name) := funext fun entry => by rw [named]
  rw [contains, contains, find?, find?, List.find?_map, Option.isSome_map]
  exact congrArg (fun test => (catalog.entries.find? test).isSome) names

theorem insert_viewed (catalog : Catalog) (entity : Entity) (text : Text) :
    (⟨(catalog.insert entity text).entries.map view⟩ : Catalog) =
      insert ⟨catalog.entries.map view⟩ (view (entity, text)).1 (view (entity, text)).2 := by
  rw [insert, insert, contains_viewed view named, named]
  split
  · rfl
  · simp

end Catalog

section

variable (viewFile : SourceFile → SourceFile) (viewFragment : Fragment → Fragment)
  (named : ∀ fragment, (viewFragment fragment).name = fragment.name)
  (qualified : ∀ file, (viewFile file).qualifier = file.qualifier)
  (declared : ∀ file, (viewFile file).fragments = file.fragments.map viewFragment)

include named declared

theorem SourceFile.fragment_viewed (file : SourceFile) (name : Text) :
    (viewFile file).fragment? name = (file.fragment? name).map viewFragment := by
  have names : (fun fragment => decide ((viewFragment fragment).name = name)) =
      fun fragment => decide (fragment.name = name) := funext fun fragment => by rw [named]
  rw [fragment?, fragment?, declared, List.find?_map]
  exact congrArg (fun test => (file.fragments.find? test).map viewFragment) names

include qualified

theorem Library.find_viewed (library : Library) (count : Nat) (reference : Reference) :
    find? ⟨library.files.map viewFile, count⟩ reference =
      (library.find? reference).map fun found => (viewFile found.1, viewFragment found.2) := by
  have answers (file : SourceFile) : answer? reference (viewFile file) =
      (answer? reference file).map fun found => (viewFile found.1, viewFragment found.2) := by
    rw [answer?, answer?, qualified, SourceFile.fragment_viewed viewFile viewFragment named declared]
    split
    · rw [Option.map_map, Option.map_map]
      rfl
    · rfl
  rw [find?, find?, List.findSome?_map, List.map_findSome?]
  exact congrArg (List.findSome? · library.files) (funext answers)

end

namespace Run

-- `view` shows a run over `library` and `file` as one over `other` and over what `viewFile` makes of the file.
structure Mirrors (types : TypeTable) (library other : Library) (file : SourceFile) (view : Run → Run)
    (viewFile : SourceFile → SourceFile) (viewFragment : Fragment → Fragment) : Prop where
  worklist : ∀ run, (view run).worklist = run.worklist
  requeue : ∀ run worklist, view { run with worklist } = { view run with worklist }
  contains : ∀ run name, (view run).catalog.contains name = run.catalog.contains name
  report : ∀ run reference, view (run.report (Diagnostic.notFound reference library.candidates)) =
    (view run).report (Diagnostic.notFound reference other.candidates)
  find : ∀ reference,
    other.find? reference = (library.find? reference).map fun found => (viewFile found.1, viewFragment found.2)
  add : ∀ origin fragment, origin = file ∨ origin ∈ library.files → fragment ∈ origin.fragments →
    ∀ run, view (run.add (fragment.render types origin)) =
      (view run).add ((viewFragment fragment).render types (viewFile origin))
  named : ∀ fragment, (viewFragment fragment).name = fragment.name
  fragments : (viewFile file).fragments = file.fragments.map viewFragment

variable (types : TypeTable) (library other : Library) (file : SourceFile) (view : Run → Run)
  (viewFile : SourceFile → SourceFile) (viewFragment : Fragment → Fragment)
  (mirrors : Mirrors types library other file view viewFile viewFragment)

include mirrors

theorem mark_mirrored (run : Run) (name : Text) (progress : Progress) :
    view (run.mark name progress) = (view run).mark name progress := by
  rw [mark, mark, mirrors.requeue, mirrors.worklist]

theorem render_mirrored (origin : SourceFile) (fragment : Fragment) (place : origin = file ∨ origin ∈ library.files)
    (declared : fragment ∈ origin.fragments) (run : Run) :
    view (run.render types origin fragment) = (view run).render types (viewFile origin) (viewFragment fragment) := by
  have known := mirrors.contains run fragment.name
  rw [← mirrors.named fragment] at known
  cases shown : run.catalog.contains fragment.name with
  | true =>
    rw [← mirrors.named fragment] at shown
    rw [render_known types _ _ (view run) (known.trans shown), render_known]
    rwa [mirrors.named fragment] at shown
  | false =>
    rw [render_fresh types origin fragment run shown]
    rw [← mirrors.named fragment] at shown
    rw [render_fresh types _ _ (view run) (known.trans shown)]
    exact mirrors.add origin fragment place declared run

theorem settle_mirrored (run : Run) (reference : Reference) :
    view (run.settle types library reference) = (view run).settle types other reference := by
  unfold settle
  rw [mirrors.contains, mirrors.find]
  cases run.catalog.contains reference.name with
  | true => exact mark_mirrored types library other file view viewFile viewFragment mirrors run _ _
  | false =>
    cases answer : library.find? reference with
    | none =>
      have reported := mirrors.report run reference
      simp only [Bool.false_eq_true, if_false, Option.map_none]
      rw [mark_mirrored types library other file view viewFile viewFragment mirrors, reported]
    | some found =>
      obtain ⟨origin, fragment⟩ := found
      obtain ⟨member, _, first⟩ := Library.origin_of_find library reference origin fragment answer
      have declared := (origin.fragment_found reference.name fragment first).1
      have rendered := render_mirrored types library other file view viewFile viewFragment mirrors origin fragment
        (.inr member) declared (run.mark reference.name .resolved)
      simp only [Bool.false_eq_true, if_false, Option.map_some]
      rw [mark_mirrored types library other file view viewFile viewFragment mirrors, rendered,
        mark_mirrored types library other file view viewFile viewFragment mirrors]

theorem drain_mirrored (run : Run) : view (run.drain types library) = (view run).drain types other := by
  induction run using drain.induct types library with
  | case1 run next =>
    have idle : (view run).worklist.next? = none := by rw [mirrors.worklist, next]
    rw [drain_idle types library run next, drain_idle types other (view run) idle, mirrors.requeue, mirrors.worklist]
  | case2 run reference rest next _ ih =>
    have handed : (view run).worklist.next? = some (reference, rest) := by rw [mirrors.worklist, next]
    rw [drain_round types library run reference rest next, drain_round types other (view run) reference rest handed,
      ih, settle_mirrored types library other file view viewFile viewFragment mirrors, mirrors.requeue]

theorem render_each_mirrored (fragments : List Fragment) (among : fragments ⊆ file.fragments) (run : Run) :
    view (renderEach types library file fragments run) =
      renderEach types other (viewFile file) (fragments.map viewFragment) (view run) := by
  induction fragments generalizing run with
  | nil => rfl
  | cons fragment rest ih =>
    have others : rest ⊆ file.fragments := fun later member => among (List.mem_cons_of_mem fragment member)
    have rendered := render_mirrored types library other file view viewFile viewFragment mirrors file fragment
      (.inl rfl) (among List.mem_cons_self) run
    have drained := drain_mirrored types library other file view viewFile viewFragment mirrors
      (run.render types file fragment)
    rw [rendered] at drained
    rw [renderEach, renderEach, List.map_cons, List.foldl_cons, List.foldl_cons, ← drained]
    exact ih others _

theorem of_file_mirrored (start : Run) :
    view (ofFile types library file start) = ofFile types other (viewFile file) (view start) := by
  rw [ofFile, ofFile, drain_mirrored types library other file view viewFile viewFragment mirrors,
    render_each_mirrored types library other file view viewFile viewFragment mirrors file.fragments
      (List.Subset.refl _),
    mirrors.fragments]

end Run

end SchemaDiagram
