import Mathlib.Data.List.DropRight
import SchemaDiagram.Proofs.NormalPath
import SchemaDiagram.Proofs.OneLine

/-!
Paths with a name put behind them, however they are spelled. The path above such a path can be spelled shorter than the
one that it was made of, but has the same components.
-/

set_option autoImplicit false

namespace SchemaDiagram

theorem Text.intercalate_last (sep : Char) (init : List Text) (last : Text) :
    [sep].intercalate (init ++ [last]) = [sep].intercalate (init ++ [[]]) ++ last := by
  by_cases filled : init = []
  · rw [filled, List.nil_append, List.nil_append, List.intercalate_singleton, List.intercalate_singleton,
      List.nil_append]
  · rw [intercalate_concat sep init filled, intercalate_concat sep init filled, List.append_assoc]
    rfl

theorem Text.intercalate_front (sep : Char) (front rest : List Text) :
    [sep].intercalate front <+: [sep].intercalate (front ++ rest) := by
  induction rest using List.reverseRecOn with
  | nil => simp
  | append_singleton init last ih =>
    by_cases filled : front ++ init = []
    · rw [(List.append_eq_nil_iff.mp filled).1]
      exact List.nil_prefix
    · rw [← List.append_assoc, intercalate_concat sep _ filled]
      exact ih.trans (List.prefix_append _ _)

namespace Path

theorem names_kept (pieces : List Text) : (pieces.rdropWhile (!names ·)).filter names = pieces.filter names := by
  induction pieces using List.reverseRecOn with
  | nil => rfl
  | append_singleton init last ih =>
    rw [List.rdropWhile_concat]
    split
    · rename_i unnamed
      rw [ih, List.filter_append, List.filter_cons_of_neg (by simpa using unnamed), List.filter_nil, List.append_nil]
    · rfl

-- What a path names behind its root or dot.
def inner (path : Path) : List Text := path.pieces.filter names

theorem text_of_parts (path : Path) : path.text = path.lead ++ ['/'].intercalate path.pieces := by
  rw [pieces, Text.intercalate_fields]
  rcases path.lead_cases with ⟨lead, rest, text⟩ | ⟨lead, text | ⟨rest, text⟩⟩ | ⟨lead, -⟩ <;> simp [*]

theorem pieces_undivided (path : Path) : ∀ piece ∈ path.pieces, '/' ∉ piece := by
  intro piece member slash
  simpa using Text.fields_apart _ _ piece member '/' slash

-- A root, a dot with a slash behind it unless nothing follows, or a first piece that names something.
inductive Spelled : Text → List Text → Prop where
  | absolute (pieces : List Text) : Spelled ['/'] pieces
  | dot : Spelled ['.'] []
  | dotted (others : List Text) : Spelled ['.'] ([] :: others)
  | plain (first : Text) (others : List Text) (named : names first = true) : Spelled [] (first :: others)

theorem spelled (path : Path) (filled : path.text ≠ []) : Spelled path.lead path.pieces := by
  have parts : path.pieces = Text.fields (· = '/') (path.text.drop path.lead.length) := rfl
  rcases path.lead_cases with ⟨lead, rest, text⟩ | ⟨lead, text | ⟨rest, text⟩⟩ | ⟨lead, other⟩
  · rw [lead]
    exact .absolute _
  · rw [parts, lead, text]
    exact .dotted []
  · rw [parts, lead, text]
    exact .dotted _
  · have whole := path.text_of_parts
    rw [lead] at whole ⊢
    cases split : path.pieces with
    | nil => exact absurd (parts ▸ split) (Text.fields_ne_nil _ _)
    | cons first others =>
      rw [split, List.nil_append] at whole
      refine .plain first others ?_
      by_contra unnamed
      have either : first = [] ∨ first = ['.'] := by simpa [names, or_iff_not_imp_left] using unnamed
      cases others with
      | nil =>
        rw [List.intercalate_singleton] at whole
        rcases either with rfl | rfl
        · exact filled whole
        · exact (other []).2.1 whole
      | cons second more =>
        rw [List.intercalate_cons_cons] at whole
        rcases either with rfl | rfl
        · exact (other _).1 whole
        · exact (other _).2.2 whole

-- What the later pieces are makes no difference.
theorem Spelled.other_end (lead : Text) (front rest other : List Text) (spelled : Spelled lead (front ++ rest))
    (filled : lead = ['/'] ∨ front ≠ []) : Spelled lead (front ++ other) := by
  cases front with
  | nil =>
    rw [filled.resolve_right (not_not_intro rfl)]
    exact .absolute _
  | cons first others =>
    cases spelled with
    | absolute => exact .absolute _
    | dotted => exact .dotted _
    | plain _ _ named => exact .plain first _ named

-- What comes behind the last piece that names something can be left out.
theorem Spelled.kept (lead : Text) (pieces kept : List Text) (spelled : Spelled lead pieces) (inside : kept <+: pieces)
    (shown : kept.filter names = pieces.filter names) : Spelled lead kept := by
  cases kept with
  | nil =>
    cases spelled with
    | absolute => exact .absolute _
    | dot => exact .dot
    | dotted => exact .dot
    | plain first others named =>
      rw [List.filter_cons_of_pos named] at shown
      contradiction
  | cons first others =>
    obtain ⟨rest, rfl⟩ := inside
    simpa using spelled.other_end lead (first :: others) rest [] (.inr (List.cons_ne_nil _ _))

theorem Spelled.text_filled (lead : Text) (pieces : List Text) (spelled : Spelled lead pieces) :
    lead ++ ['/'].intercalate pieces ≠ [] := by
  cases spelled with
  | absolute => simp
  | dot => simp
  | dotted => simp
  | plain first others named =>
    have filled : first ≠ [] := by
      rintro rfl
      contradiction
    cases others <;> simp [filled]

theorem Spelled.lead_stays (lead : Text) (pieces : List Text) (spelled : Spelled lead pieces)
    (undivided : ∀ piece ∈ pieces, '/' ∉ piece) : Path.lead ⟨lead ++ ['/'].intercalate pieces⟩ = lead := by
  cases spelled with
  | absolute pieces => rfl
  | dot => rfl
  | dotted others =>
    cases others with
    | nil => rfl
    | cons second more => rfl
  | plain first others named =>
    have split := Text.fields_intercalate '/' (first :: others) (List.cons_ne_nil _ _) undivided
    -- The text is cut into these pieces and no others, and the first one names something.
    have apart (piece : Text) (more : List Text) (unnamed : names piece = false)
        (begins : Text.fields (· = '/') (['/'].intercalate (first :: others)) = piece :: more) : False := by
      rw [split] at begins
      rw [(List.cons.inj begins).1, unnamed] at named
      contradiction
    rw [List.nil_append]
    rcases Path.lead_cases ⟨['/'].intercalate (first :: others)⟩ with
      ⟨-, rest, text⟩ | ⟨-, text | ⟨rest, text⟩⟩ | ⟨lead, -⟩
    · exact (apart [] _ (by decide) (congrArg (Text.fields (· = '/')) text)).elim
    · exact (apart ['.'] [] (by decide) (congrArg (Text.fields (· = '/')) text)).elim
    · exact (apart ['.'] _ (by decide)
        ((congrArg (Text.fields (· = '/')) text).trans (Text.fields_joined '/' ['.'] rest))).elim
    · exact lead

theorem Spelled.inner_stays (lead : Text) (pieces : List Text) (spelled : Spelled lead pieces)
    (undivided : ∀ piece ∈ pieces, '/' ∉ piece) :
    inner ⟨lead ++ ['/'].intercalate pieces⟩ = pieces.filter names := by
  rw [inner, Path.pieces, spelled.lead_stays lead pieces undivided, List.drop_left]
  by_cases filled : pieces = []
  · rw [filled]
    rfl
  · rw [Text.fields_intercalate '/' pieces filled undivided]

-- Without a root or a dot a path is nothing but the pieces between its slashes.
theorem inner_of_fields (path : Path) : (Text.fields (· = '/') path.text).filter names = path.inner := by
  rw [inner, pieces]
  rcases path.lead_cases with ⟨lead, rest, text⟩ | ⟨lead, text | ⟨rest, text⟩⟩ | ⟨lead, -⟩
  · rw [lead, text]
    rfl
  · rw [lead, text]
    rfl
  · rw [lead, text]
    exact (congrArg (List.filter names) (Text.fields_joined '/' ['.'] rest)).trans rfl
  · rw [lead]
    rfl

-- The same path, spelled by the front of its text.
structure Shortens (short path : Path) : Prop where
  lead : short.lead = path.lead
  inner : short.inner = path.inner
  filled : short.text ≠ []
  front : short.text <+: path.text

theorem shortens_itself (path : Path) (filled : path.text ≠ []) : path.Shortens path :=
  ⟨rfl, rfl, filled, List.prefix_refl _⟩

theorem components_of_inner (path : Path) :
    path.components = (if path.lead.isEmpty then [] else [path.lead]) ++ path.inner := rfl

section

variable (base : Path) (filled : base.text ≠ []) (name : Text) (named : IsName name)

include filled named

-- A slash is put in front of the name unless there is one already.
theorem join_text : ∃ trunk, (base.join ⟨name⟩).text = trunk ++ '/' :: name ∧
    (base.text = trunk ∨ base.text = trunk ++ ['/']) := by
  have relative := relative_of_names [name] (by simpa using named)
  rw [of_name] at relative
  rw [join, relative, Bool.false_or, if_neg (by simpa using filled)]
  split
  · rename_i slash
    obtain ⟨trunk, spelled⟩ := List.getLast?_eq_some_iff.mp slash
    exact ⟨trunk, by simp [spelled], .inr spelled⟩
  · exact ⟨base.text, rfl, .inl rfl⟩

-- The name becomes the last piece, or the last but a slash.
theorem join_parts : ∃ front, (base.pieces = front ∨ base.pieces = front ++ [[]]) ∧
    (base.join ⟨name⟩).text = base.lead ++ ['/'].intercalate (front ++ [name]) ∧
      Spelled base.lead (front ++ [name]) := by
  obtain ⟨trunk, joined, spelling⟩ := base.join_text filled name named
  have whole := base.text_of_parts
  have spelled := base.spelled filled
  have pieced : base.pieces ≠ [] := Text.fields_ne_nil _ _
  rcases spelling with same | slash
  · refine ⟨base.pieces, .inl rfl, ?_, ?_⟩
    · rw [Text.intercalate_concat '/' base.pieces pieced, ← List.append_assoc, ← whole, same, joined]
    · exact Spelled.other_end _ base.pieces [] _ (by rwa [List.append_nil]) (.inr pieced)
  · obtain ⟨front, last, parts⟩ := List.eq_nil_or_concat base.pieces |>.resolve_left pieced
    rw [List.concat_eq_append] at parts
    rw [parts, Text.intercalate_last, ← List.append_assoc] at whole
    have ends : base.text.getLast? = some '/' := by simp [slash]
    have ended : last = [] := by
      by_contra more
      rw [whole, List.getLast?_append_of_ne_nil _ more] at ends
      exact base.pieces_undivided last (by simp [parts]) (List.mem_of_getLast? ends)
    subst ended
    rw [List.append_nil] at whole
    refine ⟨front, .inr parts, ?_, ?_⟩
    · rw [Text.intercalate_last, ← List.append_assoc, ← whole, slash, joined]
      simp
    · rw [parts] at spelled
      refine spelled.other_end _ front _ _ ?_
      by_contra neither
      rw [not_or, not_not] at neither
      rw [whole, neither.2, List.nil_append, List.intercalate_singleton, List.append_nil] at ends
      rcases base.lead_cases with ⟨lead, -⟩ | ⟨lead, -⟩ | ⟨lead, -⟩
      · exact neither.1 lead
      · simp [lead] at ends
      · simp [lead] at ends

omit filled in
theorem join_undivided (front : List Text) (parts : base.pieces = front ∨ base.pieces = front ++ [[]]) :
    ∀ piece ∈ front ++ [name], '/' ∉ piece := by
  intro piece member
  rcases List.mem_append.mp member with inside | last
  · apply base.pieces_undivided piece
    rcases parts with same | longer
    · rwa [same]
    · rw [longer]
      exact List.mem_append_left _ inside
  · rw [List.mem_singleton.mp last]
    exact named.2.1

theorem join_lead : (base.join ⟨name⟩).lead = base.lead := by
  obtain ⟨front, parts, text, spelled⟩ := base.join_parts filled name named
  exact (congrArg (fun text => Path.lead ⟨text⟩) text).trans
    (spelled.lead_stays _ _ (base.join_undivided name named front parts))

theorem join_pieces :
    ∃ front, (base.pieces = front ∨ base.pieces = front ++ [[]]) ∧ (base.join ⟨name⟩).pieces = front ++ [name] := by
  obtain ⟨front, parts, text, -⟩ := base.join_parts filled name named
  refine ⟨front, parts, ?_⟩
  rw [pieces, base.join_lead filled name named, text, List.drop_left]
  exact Text.fields_intercalate '/' _ (by simp) (base.join_undivided name named front parts)

theorem join_inner : (base.join ⟨name⟩).inner = base.inner ++ [name] := by
  obtain ⟨front, parts, joined⟩ := base.join_pieces filled name named
  have seen : [name].filter names = [name] := names_of_names [name] (by simpa using named)
  have unseen : [([] : Text)].filter names = [] := rfl
  rw [inner, inner, joined, List.filter_append, seen]
  rcases parts with same | longer
  · rw [same]
  · rw [longer, List.filter_append, unseen, List.append_nil]

theorem join_components : (base.join ⟨name⟩).components = base.components ++ [name] := by
  rw [components_of_inner, components_of_inner, base.join_lead filled name named, base.join_inner filled name named,
    List.append_assoc]

theorem join_file_name : (base.join ⟨name⟩).fileName? = some name := by
  obtain ⟨front, -, joined⟩ := base.join_pieces filled name named
  have seen : names name = true := by simp [names, named.1, named.2.2.1]
  rw [fileName?, fromLast, joined, List.reverse_append, List.reverse_singleton, List.singleton_append,
    List.dropWhile_cons_of_neg (by simp [seen]), List.head?_cons]
  simpa using named.2.2.2

theorem join_parent : ∃ parent, (base.join ⟨name⟩).parent? = some parent ∧ parent.Shortens base := by
  obtain ⟨front, parts, joined⟩ := base.join_pieces filled name named
  have seen : names name = true := by simp [names, named.1, named.2.2.1]
  have above : (base.join ⟨name⟩).parent? =
      some ⟨base.lead ++ ['/'].intercalate (front.rdropWhile (!names ·))⟩ := by
    rw [parent?, fromLast, joined, List.reverse_append, List.reverse_singleton, List.singleton_append,
      List.dropWhile_cons_of_neg (by simp [seen]), base.join_lead filled name named]
    rfl
  generalize kept : front.rdropWhile (!names ·) = shorter at above
  have inside : shorter <+: base.pieces := by
    have front_inside : front <+: base.pieces := by
      rcases parts with same | longer
      · exact same ▸ List.prefix_refl _
      · exact longer ▸ List.prefix_append _ _
    exact kept ▸ (List.rdropWhile_prefix (!names ·) front).trans front_inside
  have shown : shorter.filter names = base.pieces.filter names := by
    rw [← kept, names_kept]
    rcases parts with same | longer
    · rw [same]
    · rw [longer, List.filter_append]
      exact (List.append_nil _).symm
  have undivided : ∀ piece ∈ shorter, '/' ∉ piece := fun piece member =>
    base.pieces_undivided piece (inside.subset member)
  have spelled := (base.spelled filled).kept _ _ shorter inside shown
  refine ⟨_, above, spelled.lead_stays _ _ undivided, ?_, spelled.text_filled, ?_⟩
  · rw [spelled.inner_stays _ _ undivided, shown, inner]
  · obtain ⟨rest, whole⟩ := inside
    rw [base.text_of_parts, List.prefix_append_right_inj, ← whole]
    exact Text.intercalate_front '/' shorter rest

theorem join_sibling (other : Text) : ∃ parent : Path,
    (base.join ⟨name⟩).sibling other = parent.join ⟨other⟩ ∧ parent.Shortens base := by
  obtain ⟨parent, above, shortens⟩ := base.join_parent filled name named
  refine ⟨parent, ?_, shortens⟩
  rw [sibling, base.join_file_name filled name named, above]
  rfl

end

theorem Shortens.join_same (short base : Path) (shortens : short.Shortens base) (filled : base.text ≠ []) (name : Text)
    (named : IsName name) : (short.join ⟨name⟩).same (base.join ⟨name⟩) = true := by
  rw [same, short.join_components shortens.filled name named, base.join_components filled name named,
    components_of_inner, components_of_inner, shortens.lead, shortens.inner]
  exact decide_eq_true rfl

end Path

end SchemaDiagram
