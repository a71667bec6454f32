import SchemaDiagram.Proofs.Candidates
import SchemaDiagram.Proofs.NormalPath

/-!
Which file a request is answered from. A namespace is asked for by its last segments, and a segment is met as a whole or
not at all, wherever the dots stand. Of the files of such namespaces the first one that declares the name counts.
-/

set_option autoImplicit false

namespace SchemaDiagram

namespace Text

theorem before_eq_some_iff (tail t front : Text) : before? tail t = some front ↔ t = front ++ tail := by
  constructor
  · intro cut
    obtain ⟨back, after, rfl⟩ := Option.map_eq_some_iff.mp cut
    have whole := congrArg List.reverse ((after_eq_some_iff _ _ _).mp after)
    simpa using whole
  · rintro rfl
    exact before_append front tail

theorem intercalate_append (sep : Char) (front back : List Text) (filled : front ≠ []) (more : back ≠ []) :
    [sep].intercalate (front ++ back) = [sep].intercalate front ++ sep :: [sep].intercalate back := by
  induction front with
  | nil => contradiction
  | cons first rest ih =>
    by_cases alone : rest = []
    · rw [alone, List.singleton_append, List.intercalate_cons_of_ne_nil more, List.intercalate_singleton,
        List.append_assoc, List.singleton_append]
    · have joined : rest ++ back ≠ [] := fun nothing => alone (List.append_eq_nil_iff.mp nothing).1
      rw [List.cons_append, List.intercalate_cons_of_ne_nil joined, List.intercalate_cons_of_ne_nil alone, ih alone,
        List.append_assoc _ ([sep].intercalate rest)]

-- The last fields of a text are those of a text that it ends with, with a separator in front.
theorem fields_suffix_iff (sep : Char) (tail t : Text) :
    fields (· = sep) tail <:+ fields (· = sep) t ↔ t = tail ∨ ∃ front, t = front ++ sep :: tail := by
  constructor
  · rintro ⟨lead, joined⟩
    have spelled : [sep].intercalate (lead ++ fields (· = sep) tail) = t := by rw [joined, intercalate_fields]
    by_cases filled : lead = []
    · rw [filled, List.nil_append, intercalate_fields] at spelled
      exact .inl spelled.symm
    · rw [intercalate_append sep lead _ filled (fields_ne_nil _ tail), intercalate_fields] at spelled
      exact .inr ⟨_, spelled.symm⟩
  · rintro (rfl | ⟨front, rfl⟩)
    · exact List.suffix_refl _
    · rw [fields_joined]
      exact List.suffix_append _ _

end Text

namespace Namespace

theorem accepts_ending (front requested : Text) :
    accepts (front ++ requested) requested = true ↔ requested ≠ [] ∧ (front = [] ∨ front.getLast? = some '.') := by
  rw [accepts, Text.before_append]
  simp

theorem accepts_iff (declared requested : Text) :
    accepts declared requested = true ↔
      requested ≠ [] ∧ Text.segments requested <:+ Text.segments declared := by
  rw [Text.segments, Text.segments, Text.fields_suffix_iff]
  constructor
  · intro accepted
    have ends : ∃ front, declared = front ++ requested := by
      simp only [accepts, Bool.and_eq_true, Bool.or_eq_true, decide_eq_true_eq, Option.any_eq_true] at accepted
      rcases accepted.2 with rfl | ⟨front, cut, _⟩
      · exact ⟨[], rfl⟩
      · exact ⟨front, (Text.before_eq_some_iff _ _ _).mp cut⟩
    obtain ⟨front, rfl⟩ := ends
    obtain ⟨filled, whole | dotted⟩ := (accepts_ending front requested).mp accepted
    · rw [whole]
      exact ⟨filled, .inl rfl⟩
    · obtain ⟨lead, rfl⟩ := List.getLast?_eq_some_iff.mp dotted
      exact ⟨filled, .inr ⟨lead, by simp⟩⟩
  · rintro ⟨filled, rfl | ⟨front, rfl⟩⟩
    · exact (accepts_ending [] declared).mpr ⟨filled, .inl rfl⟩
    · have ending := (accepts_ending (front ++ ['.']) requested).mpr ⟨filled, .inr (by simp)⟩
      simpa using ending

end Namespace

namespace Source

variable (source : Source) (reference : Reference)

-- Whether a text declares a namespace that ends with the segments asked for.
def Namespaced (text : Text) : Prop :=
  ∃ declared, Namespace.ofSource? text = some declared ∧ reference.qualifier ≠ [] ∧
    Text.segments reference.qualifier <:+ Text.segments declared

-- Whether a request can be answered from a candidate.
def Qualifies (path : Path) : Prop :=
  ∃ text, source.read path = some text ∧ Namespaced reference text ∧
    ∃ fragment ∈ fragments text, fragment.name = reference.name

theorem namespaced_iff (text : Text) :
    (Namespace.ofSource? text).any (Namespace.accepts · reference.qualifier) = true ↔ Namespaced reference text := by
  rw [Option.any_eq_true]
  exact exists_congr fun declared => and_congr_right fun _ => Namespace.accepts_iff declared reference.qualifier

theorem answers_iff (path : Path) : source.answers reference path = true ↔ source.Qualifies reference path := by
  rw [answers, Option.any_eq_true]
  refine exists_congr fun text => and_congr_right fun _ => ?_
  rw [Bool.and_eq_true, namespaced_iff, List.any_eq_true]
  simp only [decide_eq_true_eq]

theorem answer_eq_some_iff (path : Path) (origin : SourceFile) (fragment : Fragment) :
    source.answer? reference path = some (origin, fragment) ↔
      ∃ text, source.read path = some text ∧ Namespaced reference text ∧
        (fragments text).find? (·.name = reference.name) = some fragment ∧
        origin = SourceFile.ofText (some path) text := by
  rw [answer?, Option.bind_eq_some_iff]
  refine exists_congr fun text => and_congr_right fun _ => ?_
  have namespaced := namespaced_iff reference text
  change (if (Namespace.ofSource? text).any (Namespace.accepts · reference.qualifier) = true then
    ((fragments text).find? (·.name = reference.name)).map (SourceFile.ofText (some path) text, ·) else none) = _ ↔ _
  by_cases accepted : (Namespace.ofSource? text).any (Namespace.accepts · reference.qualifier) = true
  · rw [if_pos accepted, Option.map_eq_some_iff]
    constructor
    · rintro ⟨first, found, same⟩
      cases same
      exact ⟨namespaced.mp accepted, found, rfl⟩
    · rintro ⟨_, found, rfl⟩
      exact ⟨fragment, found, rfl⟩
  · rw [if_neg accepted]
    exact iff_of_false (by simp) fun serves => accepted (namespaced.mpr serves.1)

-- The search goes on past candidates of the namespace that do not declare the name.
theorem lookup_told (candidates : List Path) :
    (∀ (origin : SourceFile) (fragment : Fragment),
      (source.library candidates).find? reference = some (origin, fragment) ↔
        ∃ before path later text, candidates = before ++ path :: later ∧
          (∀ earlier ∈ before, ¬ source.Qualifies reference earlier) ∧
          source.read path = some text ∧ Namespaced reference text ∧
          (fragments text).find? (·.name = reference.name) = some fragment ∧
          origin = SourceFile.ofText (some path) text) ∧
      ((source.library candidates).find? reference = none ↔
        ∀ path ∈ candidates, ¬ source.Qualifies reference path) ∧
      ∀ front requested, Namespace.accepts (front ++ requested) requested = true ↔
        requested ≠ [] ∧ (front = [] ∨ front.getLast? = some '.') := by
  refine ⟨fun origin fragment => ?_, ?_, Namespace.accepts_ending⟩
  · rw [find_in_library, Option.bind_eq_some_iff]
    constructor
    · rintro ⟨path, first, answer⟩
      obtain ⟨_, before, later, split, earlier⟩ := List.find?_eq_some_iff_append.mp first
      obtain ⟨text, serves⟩ := (source.answer_eq_some_iff reference path origin fragment).mp answer
      refine ⟨before, path, later, text, split, fun other among => ?_, serves⟩
      rw [← answers_iff, Bool.not_eq_true]
      simpa using earlier other among
    · rintro ⟨before, path, later, text, split, earlier, serves⟩
      have answer := (source.answer_eq_some_iff reference path origin fragment).mpr ⟨text, serves⟩
      have told := source.answer_is_some reference path
      rw [answer, Option.isSome_some] at told
      refine ⟨path, List.find?_eq_some_iff_append.mpr ⟨told.symm, before, later, split, fun other among => ?_⟩, answer⟩
      have silent := earlier other among
      rw [← answers_iff, Bool.not_eq_true] at silent
      rw [silent, Bool.not_false]
  · rw [no_answer_iff]
    refine forall_congr' fun path => forall_congr' fun _ => ?_
    rw [← answers_iff, Bool.not_eq_true]

example : Namespace.accepts "acme.catalog" "me.catalog" = false := by decide

end Source

end SchemaDiagram
