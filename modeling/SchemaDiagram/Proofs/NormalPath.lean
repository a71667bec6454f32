import Mathlib.Data.Char
import Mathlib.Data.List.Lex
import Mathlib.Data.List.TakeWhile
import SchemaDiagram.Path

/-!
Relative paths that are spelled by names with single slashes between them. Parent, file name and components
of such a path are read off its names, and next to each other in a directory paths stand in the order of their
last names.
-/

set_option autoImplicit false

namespace SchemaDiagram

namespace Text

theorem before_append (front tail : Text) : before? tail (front ++ tail) = some front := by
  have after : after? tail.reverse (front ++ tail).reverse = some front.reverse := by
    rw [after_eq_some_iff, List.reverse_append]
  rw [before?, after, Option.map_some, List.reverse_reverse]

theorem ends_with_iff (tail t : Text) : endsWith tail t = true ↔ ∃ front, t = front ++ tail := by
  constructor
  · intro ends
    obtain ⟨front, cut⟩ := Option.isSome_iff_exists.mp ends
    obtain ⟨back, after, -⟩ := Option.map_eq_some_iff.mp cut
    refine ⟨back.reverse, ?_⟩
    have whole := congrArg List.reverse ((after_eq_some_iff _ _ _).mp after)
    simpa using whole
  · rintro ⟨front, rfl⟩
    rw [endsWith, before_append]
    rfl

variable (sep : Char)

theorem fields_undivided (t : Text) (free : sep ∉ t) : fields (· = sep) t = [t] := by
  induction t with
  | nil => rfl
  | cons c rest ih =>
    rw [List.mem_cons, not_or] at free
    rw [fields, if_neg (by simpa using Ne.symm free.1), ih free.2]

theorem fields_joined (a b : Text) :
    fields (· = sep) (a ++ sep :: b) = fields (· = sep) a ++ fields (· = sep) b :=
  fields_parted _ a b sep (decide_eq_true rfl)

theorem fields_append (a b : Text) (free : sep ∉ a) :
    fields (· = sep) (a ++ sep :: b) = a :: fields (· = sep) b := by
  rw [fields_joined, fields_undivided sep a free, List.singleton_append]

theorem fields_intercalate (names : List Text) (filled : names ≠ []) (free : ∀ name ∈ names, sep ∉ name) :
    fields (· = sep) ([sep].intercalate names) = names := by
  induction names with
  | nil => contradiction
  | cons first rest ih =>
    have apart := free first List.mem_cons_self
    cases rest with
    | nil => rw [List.intercalate_singleton, fields_undivided sep first apart]
    | cons second more =>
      rw [List.intercalate_cons_cons, List.append_assoc, List.singleton_append, fields_append sep first _ apart,
        ih (List.cons_ne_nil _ _) fun name member => free name (List.mem_cons_of_mem first member)]

theorem intercalate_concat (names : List Text) (filled : names ≠ []) (last : Text) :
    [sep].intercalate (names ++ [last]) = [sep].intercalate names ++ sep :: last := by
  induction names with
  | nil => contradiction
  | cons first rest ih =>
    cases rest with
    | nil => simp
    | cons second more =>
      rw [List.cons_append, List.cons_append, List.intercalate_cons_cons, List.intercalate_cons_cons,
        ← List.cons_append, ih (List.cons_ne_nil _ _)]
      simp only [List.append_assoc]

end Text

namespace Path

def IsName (name : Text) : Prop := name ≠ [] ∧ '/' ∉ name ∧ name ≠ ['.'] ∧ name ≠ ['.', '.']

def ofNames (names : List Text) : Path := ⟨['/'].intercalate names⟩

structure Normal (path : Path) : Prop where
  spelled : path = ofNames path.components
  filled : path.components ≠ []
  named : ∀ component ∈ path.components, IsName component

instance (name : Text) : Decidable (IsName name) :=
  inferInstanceAs (Decidable (name ≠ [] ∧ '/' ∉ name ∧ name ≠ ['.'] ∧ name ≠ ['.', '.']))

instance (path : Path) : Decidable path.Normal :=
  decidable_of_iff
    (path = ofNames path.components ∧ path.components ≠ [] ∧ ∀ component ∈ path.components, IsName component)
    ⟨fun ⟨spelled, filled, named⟩ => ⟨spelled, filled, named⟩,
      fun normal => ⟨normal.spelled, normal.filled, normal.named⟩⟩

theorem lead_cases (path : Path) :
    (path.lead = ['/'] ∧ ∃ rest, path.text = '/' :: rest) ∨
      (path.lead = ['.'] ∧ (path.text = ['.'] ∨ ∃ rest, path.text = '.' :: '/' :: rest)) ∨
      (path.lead = [] ∧ ∀ rest, path.text ≠ '/' :: rest ∧ path.text ≠ ['.'] ∧ path.text ≠ '.' :: '/' :: rest) := by
  unfold lead
  split
  · rename_i absolute
    exact .inl ⟨rfl, List.head?_eq_some_iff.mp (of_decide_eq_true absolute)⟩
  · rename_i relative
    rw [isAbsolute, decide_eq_true_iff] at relative
    split
    · rename_i dotted
      rw [Bool.or_eq_true, decide_eq_true_iff] at dotted
      refine .inr (.inl ⟨rfl, dotted.imp_right ?_⟩)
      intro leading
      obtain ⟨rest, cut⟩ := Option.isSome_iff_exists.mp leading
      exact ⟨rest, (Text.after_eq_some_iff _ _ _).mp cut⟩
    · rename_i undotted
      rw [Bool.or_eq_true, decide_eq_true_iff, not_or] at undotted
      refine .inr (.inr ⟨rfl, fun rest => ⟨?_, undotted.1, ?_⟩⟩)
      · intro slash
        exact relative (by rw [slash, List.head?_cons])
      · intro dot
        exact undotted.2 (by rw [dot]; rfl)

variable (names : List Text) (named : ∀ name ∈ names, IsName name)

include named

theorem fields_of_names (filled : names ≠ []) : Text.fields (· = '/') (ofNames names).text = names :=
  Text.fields_intercalate '/' names filled fun name member => (named name member).2.1

theorem text_of_names (filled : names ≠ []) : (ofNames names).text ≠ [] := by
  intro empty
  have pieces := fields_of_names names named filled
  rw [empty] at pieces
  have only : [[]] = names := pieces
  exact (named [] (only ▸ List.mem_cons_self)).1 rfl

theorem relative_of_names : (ofNames names).isAbsolute = false := by
  by_contra absolute
  rw [Bool.not_eq_false, isAbsolute, decide_eq_true_iff] at absolute
  cases names with
  | nil => simp [ofNames, List.intercalate] at absolute
  | cons first rest =>
    obtain ⟨others, spelled⟩ := List.head?_eq_some_iff.mp absolute
    have pieces := fields_of_names (first :: rest) named (List.cons_ne_nil _ _)
    rw [spelled, ← List.nil_append ('/' :: others), Text.fields_append '/' [] others List.not_mem_nil] at pieces
    exact (named first List.mem_cons_self).1 (List.cons.inj pieces).1.symm

theorem lead_of_names : (ofNames names).lead = [] := by
  rcases (ofNames names).lead_cases with ⟨-, rest, text⟩ | ⟨-, text⟩ | ⟨lead, -⟩
  · have relative := relative_of_names names named
    rw [isAbsolute, text] at relative
    contradiction
  · cases names with
    | nil => simp [ofNames, List.intercalate] at text
    | cons first rest =>
      have pieces := fields_of_names (first :: rest) named (List.cons_ne_nil _ _)
      have dot : first = ['.'] := by
        rcases text with alone | ⟨others, spelled⟩
        · rw [alone] at pieces
          exact (List.cons.inj pieces).1.symm
        · rw [spelled] at pieces
          exact (List.cons.inj (Text.fields_append '/' ['.'] others (by decide) ▸ pieces)).1.symm
      exact absurd dot (named first List.mem_cons_self).2.2.1
  · exact lead

theorem pieces_of_names (filled : names ≠ []) : (ofNames names).pieces = names := by
  rw [pieces, lead_of_names names named]
  exact fields_of_names names named filled

theorem names_of_names : names.filter Path.names = names := by
  rw [List.filter_eq_self]
  intro name member
  have kept := named name member
  simp [Path.names, kept.1, kept.2.2.1]

theorem components_of_names : (ofNames names).components = names := by
  rw [components, lead_of_names names named]
  cases names with
  | nil => simp [pieces, lead, ofNames, List.intercalate, Text.fields, Path.names, Text.startsWith, Text.after?,
      isAbsolute]
  | cons first rest =>
    rw [pieces_of_names _ named (List.cons_ne_nil _ _), names_of_names _ named]
    rfl

end Path

namespace Path

variable (init : List Text) (last : Text) (named : ∀ name ∈ init ++ [last], IsName name)

include named

theorem init_named : ∀ name ∈ init, IsName name := fun name member => named name (List.mem_append_left [last] member)

theorem last_named : IsName last := named last (List.mem_append_right init List.mem_cons_self)

theorem from_last_of_names : (ofNames (init ++ [last])).fromLast = last :: init.reverse := by
  have kept : names last = true := by
    have all := names_of_names (init ++ [last]) named
    exact List.filter_eq_self.mp all last (List.mem_append_right init List.mem_cons_self)
  rw [fromLast, pieces_of_names _ named (by simp), List.reverse_append, List.reverse_singleton,
    List.singleton_append, List.dropWhile_cons_of_neg (by simp [kept])]

theorem parent_of_names : (ofNames (init ++ [last])).parent? = some (ofNames init) := by
  have kept : init.reverse.dropWhile (!names ·) = init.reverse := by
    rw [List.dropWhile_eq_self_iff]
    intro filled
    have inside : init.reverse[0] ∈ init := List.mem_reverse.mp (List.getElem_mem filled)
    have all := names_of_names (init ++ [last]) named
    simpa using List.filter_eq_self.mp all _ (List.mem_append_left [last] inside)
  rw [parent?, from_last_of_names init last named]
  simp only [kept, List.reverse_reverse, lead_of_names _ named, List.nil_append]
  rfl

theorem file_name_of_names : (ofNames (init ++ [last])).fileName? = some last := by
  rw [fileName?, from_last_of_names init last named, List.head?_cons]
  simpa using (last_named init last named).2.2.2

theorem last_not_slash : (ofNames (init ++ [last])).text.getLast? ≠ some '/' := by
  intro slash
  have ending : ∃ lead, (ofNames (init ++ [last])).text = lead ++ last := by
    by_cases filled : init = []
    · exact ⟨[], by rw [filled, ofNames, List.nil_append, List.intercalate_singleton, List.nil_append]⟩
    · refine ⟨['/'].intercalate init ++ ['/'], ?_⟩
      rw [ofNames, Text.intercalate_concat '/' init filled, List.append_assoc]
      rfl
  obtain ⟨lead, spelled⟩ := ending
  have name := last_named init last named
  rw [spelled, List.getLast?_append_of_ne_nil lead name.1] at slash
  exact name.2.1 (List.mem_of_getLast? slash)

end Path

theorem Path.join_of_names (init : List Text) (last : Text) (named : ∀ name ∈ init ++ [last], IsName name)
    (filled : init ≠ []) : (ofNames init).join ⟨last⟩ = ofNames (init ++ [last]) := by
  have relative : isAbsolute ⟨last⟩ = false := by
    simpa [ofNames] using relative_of_names [last] (by simpa using last_named init last named)
  have others := init_named init last named
  obtain ⟨before, parent, rfl⟩ := List.eq_nil_or_concat init |>.resolve_left filled
  rw [List.concat_eq_append] at *
  have slash := last_not_slash before parent others
  have spelled := text_of_names (before ++ [parent]) others filled
  rw [join, relative, if_neg (by simpa using spelled), if_neg slash, ofNames, ofNames,
    Text.intercalate_concat '/' (before ++ [parent]) filled]

namespace Path

-- The path of a single name.
theorem of_name (name : Text) : ofNames [name] = ⟨name⟩ := congrArg Path.mk List.intercalate_singleton

theorem join_here (name : Text) (named : IsName name) : Path.join ⟨['.']⟩ ⟨name⟩ = ⟨'.' :: '/' :: name⟩ := by
  have relative := relative_of_names [name] (by simpa using named)
  rw [of_name] at relative
  rw [join, relative]
  rfl

theorem text_before_eq (a b : Text) : textBefore a b = decide (a < b) := by
  induction a generalizing b with
  | nil => cases b <;> simp [textBefore]
  | cons c rest ih =>
    cases b with
    | nil => simp [textBefore]
    | cons d others => simp [textBefore, ih, List.cons_lt_cons_iff]

theorem sorted_by_text (names : List Text) : (names.mergeSort fun a b => !textBefore b a).Pairwise (· ≤ ·) := by
  have order (a b : Text) : (!textBefore b a) = decide (a ≤ b) := by
    rw [text_before_eq, Bool.eq_iff_iff]
    simp
  have sorted := @List.pairwise_mergeSort Text (fun a b => !textBefore b a)
    (by
      intro a b c first second
      rw [order, decide_eq_true_iff] at *
      exact le_trans first second)
    (by
      intro a b
      rw [order, order]
      simpa using le_total a b)
  apply (sorted names).imp
  intro a b before
  rwa [order, decide_eq_true_iff] at before

theorem component_not_before_itself (component : Text) : componentBefore component component = false := by
  simp [componentBefore, text_before_eq]

theorem components_before_append (dir a b : List Text) :
    componentsBefore (dir ++ a) (dir ++ b) = componentsBefore a b := by
  induction dir with
  | nil => rfl
  | cons name rest ih => simp [componentsBefore, component_not_before_itself, ih]

theorem rank_of_name (name : Text) (named : IsName name) : rank name = 3 := by
  have slashed : name ≠ ['/'] := by
    rintro rfl
    exact named.2.1 List.mem_cons_self
  rw [rank, if_neg slashed, if_neg named.2.2.1, if_neg named.2.2.2]

theorem siblings_in_order (dir : List Text) (a b : Text) (first : ∀ name ∈ dir ++ [a], IsName name)
    (second : ∀ name ∈ dir ++ [b], IsName name) :
    notAfter (ofNames (dir ++ [a])) (ofNames (dir ++ [b])) = !textBefore b a := by
  have ranks (name : Text) (named : ∀ other ∈ dir ++ [name], IsName other) : rank name = 3 :=
    rank_of_name name (last_named dir name named)
  rw [notAfter, components_of_names _ first, components_of_names _ second, components_before_append]
  simp [componentsBefore, componentBefore, ranks a first, ranks b second]

end Path

end SchemaDiagram
