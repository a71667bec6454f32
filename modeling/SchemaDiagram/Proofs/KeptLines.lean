import SchemaDiagram.Proofs.Fence
import SchemaDiagram.Proofs.Fronts

/-!
The lines of a text whose comments are removed. Where a comment goes its line breaks stay, so that the lines keep their
numbers, and each of them loses what comments have on it and nothing else.
-/

set_option autoImplicit false

namespace SchemaDiagram

namespace Text

-- Lines are counted from zero. There is nothing on those beyond the end.
def line (t : Text) (number : Nat) : Text := t.lines.getD number []

def breaks (t : Text) : Nat := t.count '\n'

section

variable (t : Text) (number : Nat)

theorem line_nil : line [] number = [] := by
  cases number with
  | zero => rfl
  | succ number => rfl

theorem line_break_first : line ('\n' :: t) 0 = [] := by
  rw [line, lines, fields, if_pos (by decide)]
  rfl

theorem line_break_later : line ('\n' :: t) (number + 1) = line t number := by
  rw [line, lines, fields, if_pos (by decide)]
  rfl

theorem line_first (c : Char) (other : c ≠ '\n') : line (c :: t) 0 = c :: line t 0 := by
  obtain ⟨first, others, split⟩ := fields_first (· = '\n') t
  rw [line, line, lines, lines, fields_other _ c t first others (decide_eq_false other) split, split]
  rfl

theorem line_later (c : Char) (other : c ≠ '\n') : line (c :: t) (number + 1) = line t (number + 1) := by
  obtain ⟨first, others, split⟩ := fields_first (· = '\n') t
  rw [line, line, lines, lines, fields_other _ c t first others (decide_eq_false other) split, split]
  rfl

end

theorem breaks_break (t : Text) : breaks ('\n' :: t) = breaks t + 1 := List.count_cons_self

theorem breaks_other (t : Text) (c : Char) (other : c ≠ '\n') : breaks (c :: t) = breaks t := List.count_cons_of_ne other

theorem breaks_append (a b : Text) : breaks (a ++ b) = breaks a + breaks b := List.count_append

theorem lines_length (t : Text) : t.lines.length = t.breaks + 1 := by
  induction t with
  | nil => rfl
  | cons c t ih =>
    by_cases feed : c = '\n'
    · rw [feed, breaks_break, ← ih, lines, fields, if_pos (by decide)]
      rfl
    · obtain ⟨first, others, split⟩ := fields_first (· = '\n') t
      rw [breaks_other t c feed, ← ih, lines, lines, fields_other _ c t first others (decide_eq_false feed) split, split]
      rfl

-- The second text goes on with the last line of the first.
theorem line_append (a b : Text) (number : Nat) :
    line (a ++ b) number = line a number ++ if breaks a ≤ number then line b (number - breaks a) else [] := by
  induction a generalizing number with
  | nil => simp [line_nil, breaks]
  | cons c a ih =>
    rw [List.cons_append]
    by_cases feed : c = '\n'
    · rw [feed, breaks_break]
      cases number with
      | zero => rw [line_break_first, line_break_first, if_neg (by omega), List.append_nil]
      | succ number =>
        rw [line_break_later, line_break_later, ih, Nat.add_sub_add_right]
        simp only [Nat.add_le_add_iff_right]
    · rw [breaks_other a c feed]
      cases number with
      | zero => rw [line_first _ c feed, line_first _ c feed, ih, List.cons_append]
      | succ number => rw [line_later _ _ c feed, line_later _ _ c feed, ih]

theorem line_of_breaks (t : Text) (number : Nat) : line (t.filter (· = '\n')) number = [] := by
  induction t generalizing number with
  | nil => exact line_nil number
  | cons c t ih =>
    by_cases feed : c = '\n'
    · rw [feed, List.filter_cons_of_pos (by decide)]
      cases number with
      | zero => exact line_break_first _
      | succ number => rw [line_break_later, ih]
    · rw [List.filter_cons_of_neg (by simpa using feed), ih]

theorem breaks_of_breaks (t : Text) : breaks (t.filter (· = '\n')) = breaks t := List.count_filter (by decide)

end Text

open Text

namespace Token

theorem without_comment_breaks (token : Token) : breaks token.withoutComment = breaks token.text := by
  rw [withoutComment]
  split
  · exact breaks_of_breaks token.text
  · rfl

theorem without_comment_line (token : Token) (number : Nat) :
    line token.withoutComment number = if token.kind = .comment then [] else line token.text number := by
  rw [withoutComment]
  split
  · exact line_of_breaks token.text number
  · rfl

end Token

-- Whether a comment has a character on a line. It begins on the line that the tokens before it end on.
def CommentOn (tokens : List Token) (number : Nat) : Prop :=
  ∃ before comment after, tokens = before ++ comment :: after ∧ comment.kind = .comment ∧
    breaks (untokenize before) ≤ number ∧ line comment.text (number - breaks (untokenize before)) ≠ []

theorem comment_on_cons (token : Token) (rest : List Token) (number : Nat) :
    CommentOn (token :: rest) number ↔
      (token.kind = .comment ∧ line token.text number ≠ []) ∨
        (breaks token.text ≤ number ∧ CommentOn rest (number - breaks token.text)) := by
  have onward (before : List Token) :
      breaks (untokenize (token :: before)) = breaks token.text + breaks (untokenize before) := breaks_append _ _
  constructor
  · rintro ⟨before, comment, after, split, kind, within, filled⟩
    cases before with
    | nil =>
      obtain ⟨rfl, rfl⟩ := List.cons.inj split
      exact .inl ⟨kind, filled⟩
    | cons first before =>
      obtain ⟨rfl, rfl⟩ := List.cons.inj split
      rw [onward] at within filled
      refine .inr ⟨by omega, before, comment, after, rfl, kind, by omega, ?_⟩
      rwa [Nat.sub_sub]
  · rintro (⟨kind, filled⟩ | ⟨within, before, comment, after, rfl, kind, further, filled⟩)
    · exact ⟨[], token, rest, rfl, kind, Nat.zero_le number, filled⟩
    · refine ⟨token :: before, comment, after, rfl, kind, ?_, ?_⟩
      · rw [onward]
        omega
      · rwa [onward, ← Nat.sub_sub]

theorem append_eq_iff_of_sublist {a b c d : Text} (first : a.Sublist b) (second : c.Sublist d) :
    a ++ c = b ++ d ↔ a = b ∧ c = d := by
  constructor
  · intro same
    have lengths := congrArg List.length same
    have less := first.length_le
    exact List.append_inj same (by have := second.length_le; simp only [List.length_append] at lengths; omega)
  · rintro ⟨rfl, rfl⟩
    rfl

theorem breaks_kept (tokens : List Token) : breaks (tokens.flatMap Token.withoutComment) = breaks (untokenize tokens) := by
  induction tokens with
  | nil => rfl
  | cons token rest ih =>
    rw [untokenize, List.flatMap_cons, List.flatMap_cons, breaks_append, breaks_append, token.without_comment_breaks, ih]
    rfl

theorem lines_kept (tokens : List Token) (number : Nat) :
    (line (tokens.flatMap Token.withoutComment) number).Sublist (line (untokenize tokens) number) ∧
      (line (tokens.flatMap Token.withoutComment) number = line (untokenize tokens) number ↔
        ¬ CommentOn tokens number) := by
  induction tokens generalizing number with
  | nil =>
    refine ⟨List.Sublist.refl _, iff_of_true rfl ?_⟩
    rintro ⟨before, comment, after, split, _⟩
    simp at split
  | cons token rest ih =>
    rw [untokenize, List.flatMap_cons, List.flatMap_cons, line_append, line_append, token.without_comment_line,
      token.without_comment_breaks, comment_on_cons, not_or, not_and, not_and, not_not]
    obtain ⟨sublist, same⟩ := ih (number - breaks token.text)
    rw [untokenize] at sublist same
    have first : (if token.kind = .comment then [] else line token.text number).Sublist (line token.text number) ∧
        ((if token.kind = .comment then [] else line token.text number) = line token.text number ↔
          (token.kind = .comment → line token.text number = [])) := by
      by_cases comment : token.kind = .comment
      · rw [if_pos comment]
        exact ⟨List.nil_sublist _, fun same _ => same.symm, fun nothing => (nothing comment).symm⟩
      · rw [if_neg comment]
        exact ⟨List.Sublist.refl _, iff_of_true rfl fun kind => absurd kind comment⟩
    by_cases reached : breaks token.text ≤ number
    · rw [if_pos reached, if_pos reached, append_eq_iff_of_sublist first.1 sublist, first.2, same]
      exact ⟨first.1.append sublist, and_congr_right fun _ => ⟨fun free _ => free, fun free => free reached⟩⟩
    · rw [if_neg reached, if_neg reached, List.append_nil, List.append_nil, first.2]
      exact ⟨first.1, (and_iff_left fun within => absurd within reached).symm⟩

-- A text has as many lines without its comments, each made of characters of the line with the same number. It is that
-- line itself if and only if no comment has a character there.
theorem comments_leave_lines (t : Text) :
    (withoutComments t).count '\n' = t.count '\n' ∧ (withoutComments t).lines.length = t.lines.length ∧
      ∀ number, (line (withoutComments t) number).Sublist (line t number) ∧
        (line (withoutComments t) number = line t number ↔ ¬ CommentOn (tokenize t) number) := by
  have whole := untokenize_tokens_from 0 t
  rw [← tokenize] at whole
  have kept := breaks_kept (tokenize t)
  have each := lines_kept (tokenize t)
  rw [whole] at kept each
  refine ⟨kept, ?_, each⟩
  rw [lines_length, lines_length]
  exact congrArg (· + 1) kept

example : (withoutComments "a // b\n'/*' /* c\n\n d */ e".toList).lines =
    ["a ".toList, "'/*' ".toList, [], " e".toList] := by decide +kernel

end SchemaDiagram
