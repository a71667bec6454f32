import SchemaDiagram.Proofs.Trimming
import SchemaDiagram.Proofs.Words

/-!
Relationship clauses around a plain name. Reading such a clause gives back the name, and what becomes of the
name is up to the table of types alone.
-/

set_option autoImplicit false

namespace SchemaDiagram

namespace Text

theorem fields_whole (separates : Char → Bool) (t : Text) (free : ∀ c ∈ t, separates c = false) :
    fields separates t = [t] := by
  induction t with
  | nil => rfl
  | cons c rest ih =>
    rw [fields, free c List.mem_cons_self, ih fun d member => free d (List.mem_cons_of_mem c member)]
    rfl

theorem words_of_solid (t : Text) (filled : t ≠ []) (solid : t.Solid) : words t = [t] := by
  rw [words, fields_whole isWhite t solid]
  simp [filled]

end Text

namespace TypeClause

theorem without_condition_solid (t rest : Text) (solid : t.Solid) :
    withoutCondition (t ++ rest) = t ++ withoutCondition rest := by
  induction t with
  | nil => rfl
  | cons c t ih =>
    rw [List.cons_append, withoutCondition, solid c List.mem_cons_self, Bool.false_and, if_neg (by simp),
      ih fun d member => solid d (List.mem_cons_of_mem c member)]
    rfl

theorem without_condition_blank (t : Text) (first : t.dropWhile isWhite = t)
    (free : Text.afterWord? "on" t = none) :
    withoutCondition (' ' :: t) = ' ' :: withoutCondition t := by
  rw [withoutCondition, first, isCondition, free]
  simp

theorem without_parameters_none (t : Text) (free : '(' ∉ t) : withoutParameters t = t := by
  induction t with
  | nil => rw [withoutParameters]
  | cons c rest ih =>
    rw [List.mem_cons, not_or] at free
    rw [withoutParameters, if_neg (by simp [Ne.symm free.1]), ih free.2]

-- The words that a clause may still have in front of its target, and the one that starts a condition.
def leadWords : List Text := ["one", "many", "on"]

-- Names that a clause can have for its target: no word of a clause stands in front. Of a name of word
-- characters this says that it is none of these words.
structure IsTarget (name : Text) : Prop where
  filled : name ≠ []
  word : ∀ c ∈ name, Scan.isWordChar c = true
  undotted : '.' ∉ name
  plain : ∀ lead ∈ leadWords, Text.afterWord? lead name = none

namespace IsTarget

variable {name : Text} (isTarget : IsTarget name)

include isTarget

theorem solid : name.Solid := fun c member => Scan.word_char_not_white c (isTarget.word c member)

theorem without (c : Char) (other : Scan.isWordChar c = false) : c ∉ name := by
  intro member
  rw [isTarget.word c member] at other
  contradiction

theorem drop_white : name.dropWhile isWhite = name := by
  have start := Text.trim_start_solid name [] isTarget.filled isTarget.solid
  rwa [List.append_nil] at start

end IsTarget

section

variable (name : Text) (isTarget : IsTarget name)

include isTarget

theorem target_of_name (link : Text) (among : link ∈ (["of", "to"] : List Text)) :
    target (' ' :: link ++ ' ' :: name) = name := by
  have lead : target (' ' :: link ++ ' ' :: name) = afterOneOf ["one", "many"] (name.dropWhile isWhite) := by
    rcases List.mem_cons.mp among with rfl | later
    · rfl
    · rcases List.mem_singleton.mp later with rfl
      rfl
  have one := isTarget.plain "one" (by decide)
  have many := isTarget.plain "many" (by decide)
  rw [lead, isTarget.drop_white, afterOneOf]
  simp only [List.findSome?_cons, List.findSome?_nil, one, many]

-- A clause of three words holds no condition, whatever its last word is.
theorem clause_stays (keyword link : Text) (keywordFilled : keyword ≠ []) (keywordSolid : keyword.Solid)
    (linkSolid : link.Solid) (linkFilled : link ≠ []) (free : Text.afterWord? "on" (link ++ ' ' :: name) = none) :
    (withoutCondition (keyword ++ ' ' :: link ++ ' ' :: name).trim).trim = keyword ++ ' ' :: link ++ ' ' :: name := by
  have whole : (keyword ++ ' ' :: link ++ ' ' :: name).trim = keyword ++ ' ' :: link ++ ' ' :: name := by
    have between := Text.trim_between keyword (' ' :: link ++ [' ']) name keywordFilled isTarget.filled
      keywordSolid isTarget.solid
    simpa using between
  have last : withoutCondition name = name := by
    have alone := without_condition_solid name [] isTarget.solid
    rwa [List.append_nil, withoutCondition, List.append_nil] at alone
  have kept : withoutCondition (keyword ++ ' ' :: link ++ ' ' :: name) = keyword ++ ' ' :: link ++ ' ' :: name := by
    rw [List.append_assoc, List.cons_append, without_condition_solid keyword _ keywordSolid,
      without_condition_blank (link ++ ' ' :: name) (Text.trim_start_solid link _ linkFilled linkSolid) free,
      without_condition_solid link _ linkSolid,
      without_condition_blank name isTarget.drop_white (isTarget.plain "on" (by decide)), last]
  rw [whole, kept, whole]

theorem of_plain_clause (raw : Text)
    (spelled : raw = "Association to ".toList ++ name ∨ raw = "Composition of ".toList ++ name) :
    ∃ kind, ofText raw = .relationship kind name := by
  have line : onOneLine name = some name := by
    have unbroken := isTarget.without '\n' (by decide)
    rw [onOneLine, if_neg (by simpa using unbroken), Text.trim_solid name isTarget.filled isTarget.solid]
  rcases spelled with rfl | rfl
  · refine ⟨.association, ?_⟩
    have stays := clause_stays name isTarget "Association" "to" (by decide) (by decide)
      (by decide) (by decide) rfl
    have read : relationship? ("Association".toList ++ ' ' :: "to".toList ++ ' ' :: name) =
        (onOneLine (target (' ' :: "to".toList ++ ' ' :: name))).map (relationship .association) := rfl
    rw [target_of_name name isTarget "to" (by decide), line] at read
    change ofText ("Association".toList ++ ' ' :: "to".toList ++ ' ' :: name) = _
    rw [ofText, stays, read]
    rfl
  · refine ⟨.composition, ?_⟩
    have stays := clause_stays name isTarget "Composition" "of" (by decide) (by decide)
      (by decide) (by decide) rfl
    have read : relationship? ("Composition".toList ++ ' ' :: "of".toList ++ ' ' :: name) =
        (onOneLine (target (' ' :: "of".toList ++ ' ' :: name))).map (relationship .composition) := rfl
    rw [target_of_name name isTarget "of" (by decide), line] at read
    change ofText ("Composition".toList ++ ' ' :: "of".toList ++ ' ' :: name) = _
    rw [ofText, stays, read]
    rfl

end

end TypeClause

namespace Resolution

-- A relation leads to the label that the table has for its target, or else to the target itself.
theorem relation_of_plain_clause (types : TypeTable) (file : SourceFile) (name raw : Text)
    (isTarget : TypeClause.IsTarget name)
    (spelled : raw = "Association to ".toList ++ name ∨ raw = "Composition of ".toList ++ name) :
    ∃ kind, (resolve types file raw).relation = some ⟨kind, (types.lookup? name).getD name⟩ := by
  obtain ⟨kind, clause⟩ := TypeClause.of_plain_clause name isTarget raw spelled
  have entity : isStruct name = false := by
    have brace := isTarget.without '{' (by decide)
    cases name with
    | nil => exact absurd rfl isTarget.filled
    | cons c rest =>
      rw [List.mem_cons, not_or] at brace
      simp [isStruct, Ne.symm brace.1]
  have bare := TypeClause.without_parameters_none name (isTarget.without '(' (by decide))
  have chosen : targetName name = name := by
    rw [targetName, Text.words_of_solid name isTarget.filled isTarget.solid]
    exact bare
  have undotted : Reference.ofQualified? name = none := by
    have whole : name.reverse.dropWhile (· ≠ '.') = [] := by
      rw [List.dropWhile_eq_nil_iff]
      intro c member
      exact decide_eq_true fun same => isTarget.undotted (same ▸ List.mem_reverse.mp member)
    rw [Reference.ofQualified?, Text.splitLast?, whole]
  refine ⟨kind, ?_⟩
  rw [resolve, clause]
  simp only [ofRelationship, entity, Bool.false_eq_true, if_false, chosen, ofName, bare,
    Text.trim_solid name isTarget.filled isTarget.solid, undotted]
  cases types.lookup? name <;> rfl

end Resolution

end SchemaDiagram
