import SchemaDiagram.Proofs.StatementTokens

/-!
The shapes of an annotation: a name, a name with a word, a literal or a bracketed group for its value, or a bracketed
group alone. What is written in one of them is read as one token.
-/

set_option autoImplicit false

namespace SchemaDiagram

open Scan

namespace Scan

-- What may stand between the brackets of a group: literals that are closed, and groups.
inductive Enclosed : Text → Prop where
  | nil : Enclosed []
  | other (c : Char) (t : Text) : opens c = false → closes c = false → c ≠ '\'' → Enclosed t → Enclosed (c :: t)
  | literal (inside t : Text) : '\'' ∉ inside → Enclosed t → Enclosed ('\'' :: (inside ++ '\'' :: t))
  | group (c d : Char) (inside t : Text) : opens c = true → closes d = true → Enclosed inside → Enclosed t →
      Enclosed (c :: (inside ++ d :: t))

theorem opening_open (c : Char) (opening : opens c = true) : closes c = false := by
  simp only [opens, Bool.or_eq_true, decide_eq_true_eq] at opening
  rcases opening with (rfl | rfl) | rfl <;> decide

theorem Enclosed.after_inside (inside u : Text) (enclosed : Enclosed inside) (closing : Closes u) :
    (afterInside (inside ++ u)).1 = u := by
  induction enclosed generalizing u with
  | nil => exact inside_of_closes u closing
  | other c t unopened open_ plain _ ih => exact (inside_other c _ open_ unopened plain).trans (ih u closing)
  | literal first t free _ ih =>
    rw [List.cons_append, List.append_assoc, List.cons_append, inside_quote '\'' _ (by decide) (by decide) rfl,
      after_quote_inside first _ free]
    exact ih u closing
  | group c d first t opening last _ _ ihFirst ih =>
    have inner := ihFirst (d :: (t ++ u)) ⟨d, t ++ u, rfl, last⟩
    rw [List.cons_append, List.append_assoc, List.cons_append, inside_opens c _ (opening_open c opening) opening,
      afterGroup, inner]
    exact ih u closing

theorem Enclosed.after_group (inside u : Text) (d : Char) (enclosed : Enclosed inside) (last : closes d = true) :
    afterGroup (inside ++ d :: u) = u := by
  rw [afterGroup, enclosed.after_inside inside (d :: u) ⟨d, u, rfl, last⟩]
  rfl

-- What stands behind the colon of an annotation; `bare` says of a value that it ends where it meets no more of its
-- characters.
inductive Value : Bool → Text → Prop where
  | word (c : Char) (t : Text) : c ≠ '\'' → opens c = false → (∀ d ∈ c :: t, isValueChar d = true) → Value true (c :: t)
  | literal (inside : Text) : '\'' ∉ inside → Value false ('\'' :: (inside ++ ['\'']))
  | group (c d : Char) (inside : Text) : opens c = true → closes d = true → Enclosed inside →
      Value false (c :: (inside ++ [d]))

theorem Value.read (bare : Bool) (value u : Text) (valued : Value bare value)
    (ends : bare = true → u.head?.any isValueChar = false) : ofValue? (value ++ u) = some u := by
  cases valued with
  | word c t quote opening letters =>
    obtain ⟨first, others⟩ := List.forall_mem_cons.mp letters
    have passed : (t ++ u).dropWhile isValueChar = u := by
      rw [List.dropWhile_append_of_pos others]
      cases u with
      | nil => rfl
      | cons d u => exact List.dropWhile_cons_of_neg (by simpa using ends rfl)
    rw [List.cons_append, ofValue?, if_neg quote, if_neg (by simp [opening]), if_pos first, passed]
  | literal inside free =>
    rw [List.cons_append, List.append_assoc, ofValue?, if_pos rfl]
    exact congrArg some (after_quote_inside inside u free)
  | group c d inside opening last enclosed =>
    have quote : c ≠ '\'' := by
      rintro rfl
      contradiction
    rw [List.cons_append, List.append_assoc, ofValue?, if_neg quote, if_pos opening]
    exact congrArg some (enclosed.after_group inside u d last)

-- A text in front of which a scan of `test` stops.
theorem drop_while_front (test : Char → Bool) (front u : Text) (all : ∀ c ∈ front, test c = true)
    (stops : u.head?.any test = false) : (front ++ u).dropWhile test = u := by
  rw [List.dropWhile_append_of_pos all]
  cases u with
  | nil => rfl
  | cons c u => exact List.dropWhile_cons_of_neg (by simpa using stops)

theorem Value.solid (bare : Bool) (value u : Text) (valued : Value bare value) :
    (value ++ u).head?.any isBlank = false := by
  cases valued with
  | word c t _ _ letters =>
    have solid := letters c List.mem_cons_self
    cases blank : isBlank c with
    | false => exact blank
    | true =>
      rw [isValueChar, blank_white c blank] at solid
      contradiction
  | literal => rfl
  | group c d inside opening =>
    cases blank : isBlank c with
    | false => exact blank
    | true =>
      rw [(blank_tests c blank).2.2.1] at opening
      contradiction

theorem Value.behind_colon (bare : Bool) (before behind value u : Text) (blanks : ∀ c ∈ before, isBlank c = true)
    (gap : ∀ c ∈ behind, isBlank c = true) (valued : Value bare value)
    (ends : bare = true → u.head?.any isValueChar = false) :
    afterValue? (before ++ ':' :: (behind ++ (value ++ u))) = some u := by
  rw [after_value_eq, drop_while_front isBlank before _ blanks rfl]
  change ofValue? ((behind ++ (value ++ u)).dropWhile isBlank) = some u
  rw [drop_while_front isBlank behind _ gap (valued.solid bare value u)]
  exact valued.read bare value u ends

end Scan

-- An annotation without its first character; `bare` says that its value is a word.
inductive Annotation : Bool → Text → Prop where
  | named (name : Text) : name ≠ [] → (∀ c ∈ name, isWordChar c = true) → Annotation false name
  | valued (bare : Bool) (name before behind value : Text) : name ≠ [] → (∀ c ∈ name, isWordChar c = true) →
      (∀ c ∈ before, isBlank c = true) → (∀ c ∈ behind, isBlank c = true) → Value bare value →
      Annotation bare (name ++ (before ++ ':' :: (behind ++ value)))
  | group (c d : Char) (inside : Text) : opens c = true → closes d = true → Enclosed inside →
      Annotation false (c :: (inside ++ [d]))

-- A text that goes on with no annotation in front of it; only a word as its value may take in what follows.
structure Follows (bare : Bool) (u : Text) : Prop where
  unnamed : u.head?.any isWordChar = false
  unvalued : afterValue? u = none
  apart : bare = true → u.head?.any isValueChar = false

namespace Annotation

theorem after_tag (bare : Bool) (body u : Text) (shape : Annotation bare body) (follows : Follows bare u) :
    afterTag (body ++ u) = u := by
  have unopened (name v : Text) (filled : name ≠ []) (letters : ∀ c ∈ name, isWordChar c = true) :
      ¬ (name ++ v).head?.any opens = true := by
    obtain ⟨c, name, rfl⟩ := List.exists_cons_of_ne_nil filled
    rw [List.cons_append, List.head?_cons, Option.any_some, (word_char_apart c (letters c List.mem_cons_self)).2.2.2.2]
    exact Bool.false_ne_true
  cases shape with
  | named _ filled letters =>
    rw [after_tag_eq, if_neg (unopened body u filled letters)]
    exact after_name_alone body u (List.all_eq_true.mpr letters) follows.unnamed follows.unvalued
  | valued _ name before behind value filled letters blanks gap valued =>
    have stops : (before ++ ':' :: (behind ++ (value ++ u))).head?.any isWordChar = false := by
      cases before with
      | nil => rfl
      | cons c before => exact (blank_tests c (blanks c List.mem_cons_self)).1
    have whole : name ++ (before ++ ':' :: (behind ++ value)) ++ u =
        name ++ (before ++ ':' :: (behind ++ (value ++ u))) := by simp
    rw [whole, after_tag_eq, if_neg (unopened name _ filled letters), afterName,
      drop_while_front isWordChar name _ letters stops,
      valued.behind_colon bare before behind value u blanks gap follows.apart]
    rfl
  | group c d inside opening last enclosed =>
    rw [after_tag_eq, List.cons_append, if_pos (by simpa using opening), List.append_assoc]
    exact enclosed.after_group inside u d last

theorem cut (bare : Bool) (body u : Text) (shape : Annotation bare body) (follows : Follows bare u) :
    Cut '@' (body ++ u) .tag u := by
  have read := Cut.tag (body ++ u)
  rwa [shape.after_tag bare body u follows] at read

end Annotation

end SchemaDiagram
