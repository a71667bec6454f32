import Mathlib.Data.List.TakeWhile
import SchemaDiagram.Toml.Document
import SchemaDiagram.Toml.Printer

/-!
What is written as a string or as a key reads back as itself, in each of the notations. A character is left as it
stands or escaped by a code of its own; what ends a literal does not come up inside of it, and over several lines
at most two quotes of the closing kind stand in a row.
-/

set_option autoImplicit false

namespace SchemaDiagram

namespace Toml

theorem plain_is_no_break (c : Char) (plain : isPlain c = true) : c ≠ '\n' ∧ c ≠ '\r' := by
  constructor <;> rintro rfl <;> contradiction

theorem line_end_none (c : Char) (rest : Text) (feed : c ≠ '\n') (back : c ≠ '\r') : lineEnd? (c :: rest) = none := by
  unfold lineEnd?
  split <;> simp_all

theorem control_code (c : Char) (plain : isPlain c = false) : c.toNat < 128 := by
  by_contra large
  have beyond : 0x20 ≤ c.toNat ∧ c.toNat ≠ 0x7F := by omega
  simp [isPlain, beyond] at plain

theorem hex4_reads : ∀ n < 128, (hex4 n).length = 4 ∧ digits? 16 (hex4 n) = some n ∧ n.isValidChar := by
  decide

theorem numbered_hex4 (c : Char) (rest : Text) (plain : isPlain c = false) :
    numbered? 4 (hex4 c.toNat ++ rest) = some (c, rest) := by
  obtain ⟨four, read, valid⟩ := hex4_reads c.toNat (control_code c plain)
  rw [numbered?, List.take_left' four, if_neg (by simp [four]), read, List.drop_left' four]
  simp [valid, Char.ofNat_toNat]

-- How a character is written: as it is, or as a backslash and a code that reads back. No code starts with a blank
-- or a line end, for which a backslash over several lines has another meaning.
theorem escaped_reads (c : Char) :
    (escaped c = [c] ∧ isPlain c = true ∧ c ≠ '\\') ∨
      ∃ code, escaped c = '\\' :: code ∧ ∀ rest, escape? (code ++ rest) = some (c, rest) ∧
        lineEnd? ((code ++ rest).dropWhile isGap) = none := by
  by_cases coded : c ∈ ['\x08', '\t', '\n', '\x0C', '\r', '\\']
  · right
    simp only [List.mem_cons, List.not_mem_nil, or_false] at coded
    rcases coded with rfl | rfl | rfl | rfl | rfl | rfl
    all_goals exact ⟨_, rfl, fun rest => ⟨rfl, rfl⟩⟩
  · simp only [List.mem_cons, List.not_mem_nil, or_false, not_or] at coded
    obtain ⟨back, tab, feed, form, ret, slash⟩ := coded
    by_cases plain : isPlain c = true
    · exact .inl ⟨by simp [escaped, back, tab, feed, form, ret, slash, plain], plain, slash⟩
    · right
      refine ⟨'u' :: hex4 c.toNat, by simp [escaped, back, tab, feed, form, ret, slash, plain], ?_⟩
      intro rest
      exact ⟨numbered_hex4 c rest (by simpa using plain), rfl⟩

section

variable (steps : Nat) (c : Char) (rest : Text)

theorem basic_closes : basic? steps ('"' :: rest) = some ([], rest) := by
  cases steps <;> rfl

theorem basic_plain (quote : c ≠ '"') (slash : c ≠ '\\') (plain : isPlain c = true) :
    basic? (steps + 1) (c :: rest) = lead c (basic? steps rest) := by
  rw [basic?, if_pos plain]
  · exact quote
  · exact slash

theorem basic_escape (code : Text) (read : escape? (code ++ rest) = some (c, rest)) :
    basic? (steps + 1) ('\\' :: code ++ rest) = lead c (basic? steps rest) := by
  rw [List.cons_append, basic?, read, Option.bind_some]

end

theorem inside_plain (multiline : Bool) (quotes run : Nat) (c : Char) (t : Text) (quote : c ≠ '"')
    (stays : (multiline && c = '\n') = false) :
    insideQuotes multiline quotes run (c :: t) = escaped c ++ insideQuotes multiline quotes 0 t := by
  rw [insideQuotes, if_neg quote, stays]
  rfl

theorem inside_break (quotes run : Nat) (t : Text) :
    insideQuotes true quotes run ('\n' :: t) = '\n' :: insideQuotes true quotes 0 t := rfl

theorem inside_quote (multiline : Bool) (quotes run : Nat) (t : Text) :
    insideQuotes multiline quotes run ('"' :: t) =
      if run < quotes then '"' :: insideQuotes multiline quotes (run + 1) t
      else '\\' :: '"' :: insideQuotes multiline quotes 0 t := by
  rw [insideQuotes, if_pos rfl]

theorem escaped_ne_nil (c : Char) : 1 ≤ (escaped c).length := by
  rcases escaped_reads c with ⟨same, _⟩ | ⟨code, same, _⟩
  · rw [same, List.length_singleton]
  · rw [same, List.length_cons]
    exact Nat.le_add_left 1 _

-- Every character takes up at least one in print.
theorem inside_length (multiline : Bool) (quotes run : Nat) (t : Text) :
    t.length ≤ (insideQuotes multiline quotes run t).length := by
  fun_induction insideQuotes multiline quotes run t with
  | case1 => exact Nat.le_refl _
  | case2 run rest few ih => simpa using ih
  | case3 run rest many ih =>
    simp only [List.length_cons]
    omega
  | case4 run c rest quote ih =>
    have one : 1 ≤ (if (multiline && decide (c = '\n')) = true then ['\n'] else escaped c).length := by
      split
      · exact Nat.le_refl 1
      · exact escaped_ne_nil c
    simp only [List.length_append, List.length_cons]
    omega

-- The print of another character than the quote starts with none, and with a line end only where the line ends.
theorem inside_head (multiline : Bool) (quotes run : Nat) (c : Char) (t : Text) (quote : c ≠ '"') :
    ∃ d front, insideQuotes multiline quotes run (c :: t) = d :: front ∧ d ≠ '"' ∧ d ≠ '\r' ∧
      (c ≠ '\n' → d ≠ '\n') := by
  by_cases stays : (multiline && c = '\n') = true
  · have feed : c = '\n' := by simp_all
    rw [insideQuotes, if_neg quote, stays]
    exact ⟨'\n', _, rfl, by decide, by decide, fun other => absurd feed other⟩
  · rw [inside_plain multiline quotes run c t quote (by simpa using stays)]
    rcases escaped_reads c with ⟨same, plain, _⟩ | ⟨code, same, _⟩
    · rw [same]
      exact ⟨c, _, rfl, quote, (plain_is_no_break c plain).2, id⟩
    · rw [same]
      exact ⟨'\\', _, rfl, by decide, by decide, fun _ => by decide⟩

theorem basic_append (t rest : Text) :
    basic t ++ rest = '"' :: (insideQuotes false 0 0 t ++ '"' :: rest) := by
  rw [basic, between, List.append_assoc, List.append_assoc]
  rfl

theorem literal_append (t rest : Text) : literal t ++ rest = '\'' :: (t ++ '\'' :: rest) := by
  rw [literal, between, List.append_assoc, List.append_assoc]
  rfl

theorem basic_reads (t rest : Text) (run steps : Nat) (enough : t.length ≤ steps) :
    basic? steps (insideQuotes false 0 run t ++ '"' :: rest) = some (t, rest) := by
  induction t generalizing run steps with
  | nil => exact basic_closes steps rest
  | cons c t ih =>
    obtain ⟨steps, rfl⟩ : ∃ fewer, steps = fewer + 1 := ⟨steps - 1, by simp at enough; omega⟩
    have further := ih 0 steps (by simpa using enough)
    have read (front : basic? (steps + 1) (insideQuotes false 0 run (c :: t) ++ '"' :: rest) =
        lead c (basic? steps (insideQuotes false 0 0 t ++ '"' :: rest))) :
        basic? (steps + 1) (insideQuotes false 0 run (c :: t) ++ '"' :: rest) = some (c :: t, rest) := by
      rw [front, further]
      rfl
    apply read
    by_cases quote : c = '"'
    · rw [quote, inside_quote, if_neg (Nat.not_lt_zero run)]
      exact basic_escape steps '"' _ ['"'] rfl
    · rw [inside_plain false 0 run c t quote rfl, List.append_assoc]
      rcases escaped_reads c with ⟨same, plain, slash⟩ | ⟨code, same, reads⟩
      · rw [same]
        exact basic_plain steps c _ quote slash plain
      · rw [same]
        exact basic_escape steps c _ code (reads _).1

theorem literal_reads (t rest : Text) (plain : ∀ c ∈ t, isPlain c = true ∧ c ≠ '\'') :
    literal? (t ++ '\'' :: rest) = some (t, rest) := by
  have within : ∀ c ∈ t, (isPlain c && decide (c ≠ '\'')) = true := by
    intro c member
    simp [plain c member]
  rw [literal?, List.dropWhile_append_of_pos within, List.takeWhile_append_of_pos within]
  simp

section

variable (quote : Char) (escapes : Bool) (steps : Nat) (c : Char) (rest : Text)

theorem multiline_at_quote :
    multiline? quote escapes (steps + 1) (quote :: rest) =
      if 3 ≤ ((quote :: rest).takeWhile (· = quote)).length then
        some (List.replicate (min (((quote :: rest).takeWhile (· = quote)).length - 3) 2) quote,
          (quote :: rest).drop (min (((quote :: rest).takeWhile (· = quote)).length - 3) 2 + 3))
      else lead quote (multiline? quote escapes steps rest) :=
  if_pos rfl

theorem multiline_at_other (apart : c ≠ quote) :
    multiline? quote escapes (steps + 1) (c :: rest) =
      if escapes && c = '\\' then
        match lineEnd? (rest.dropWhile isGap) with
        | some below => multiline? quote escapes steps (afterBlankLines below)
        | none => (escape? rest).bind fun (c, rest) => lead c (multiline? quote escapes steps rest)
      else
        match lineEnd? (c :: rest) with
        | some below => lead '\n' (multiline? quote escapes steps below)
        | none => if isPlain c then lead c (multiline? quote escapes steps rest) else none :=
  if_neg apart

-- Up to two quotes in front of the three that close.
theorem multiline_closes (inner : Nat) (few : inner ≤ 2) (apart : rest.head? ≠ some quote) :
    multiline? quote escapes (steps + 1) (List.replicate (inner + 3) quote ++ rest) =
      some (List.replicate inner quote, rest) := by
  have run : ((List.replicate (inner + 3) quote ++ rest).takeWhile (· = quote)).length = inner + 3 := by
    rw [List.takeWhile_append_of_pos (by simp), List.length_append, List.length_replicate]
    cases rest with
    | nil => rfl
    | cons d rest =>
      have other : d ≠ quote := by simpa using apart
      rw [List.takeWhile_cons_of_neg (by simpa using other)]
      rfl
  have front : List.replicate (inner + 3) quote ++ rest =
      quote :: (List.replicate (inner + 2) quote ++ rest) := rfl
  rw [front] at run ⊢
  have least : min (inner + 3 - 3) 2 = inner := by omega
  rw [multiline_at_quote, run, if_pos (by omega), least, ← front, List.drop_left' (List.length_replicate)]

theorem multiline_quote (few : ((quote :: rest).takeWhile (· = quote)).length < 3) :
    multiline? quote escapes (steps + 1) (quote :: rest) = lead quote (multiline? quote escapes steps rest) := by
  rw [multiline_at_quote, if_neg (by omega)]

theorem multiline_escape (apart : '\\' ≠ quote) (code : Text) (read : escape? (code ++ rest) = some (c, rest))
    (stays : lineEnd? ((code ++ rest).dropWhile isGap) = none) :
    multiline? quote true (steps + 1) ('\\' :: code ++ rest) = lead c (multiline? quote true steps rest) := by
  rw [List.cons_append, multiline_at_other quote true steps '\\' _ apart, if_pos (by decide), stays]
  change (escape? (code ++ rest)).bind _ = _
  rw [read, Option.bind_some]

theorem multiline_plain (apart : c ≠ quote) (slash : (escapes && c = '\\') = false) (plain : isPlain c = true) :
    multiline? quote escapes (steps + 1) (c :: rest) = lead c (multiline? quote escapes steps rest) := by
  have stays := line_end_none c rest (plain_is_no_break c plain).1 (plain_is_no_break c plain).2
  rw [multiline_at_other quote escapes steps c rest apart, if_neg (by simp [slash]), stays]
  exact if_pos plain

theorem multiline_break (apart : '\n' ≠ quote) :
    multiline? quote escapes (steps + 1) ('\n' :: rest) = lead '\n' (multiline? quote escapes steps rest) := by
  rw [multiline_at_other quote escapes steps '\n' rest apart, if_neg (by simp)]
  rfl

end

-- From a place in the print on, quotes run up to the end and with the closing ones, or are too few to close.
theorem quotes_ahead (t rest : Text) (run : Nat) (few : run ≤ 2) :
    (∃ inner, t = List.replicate inner '"' ∧ run + inner ≤ 2 ∧
      insideQuotes true 2 run t = List.replicate inner '"') ∨
    run + ((insideQuotes true 2 run t ++ rest).takeWhile (· = '"')).length ≤ 2 := by
  induction t generalizing run with
  | nil => exact .inl ⟨0, rfl, few, rfl⟩
  | cons c t ih =>
    by_cases quote : c = '"'
    · subst quote
      by_cases more : run < 2
      · rw [inside_quote, if_pos more]
        rcases ih (run + 1) more with ⟨inner, same, total, printed⟩ | fewer
        · refine .inl ⟨inner + 1, ?_, by omega, ?_⟩
          · rw [same, List.replicate_succ]
          · rw [printed, List.replicate_succ]
        · right
          rw [List.cons_append, List.takeWhile_cons_of_pos (by simp), List.length_cons]
          omega
      · rw [inside_quote, if_neg more]
        exact .inr (by simpa using few)
    · right
      obtain ⟨d, front, printed, other, _⟩ := inside_head true 2 run c t quote
      rw [printed, List.cons_append, List.takeWhile_cons_of_neg (by simpa using other)]
      exact few

theorem multiline_basic_reads (t rest : Text) (run steps : Nat) (few : run ≤ 2) (enough : t.length < steps)
    (apart : rest.head? ≠ some '"') :
    multiline? '"' true steps (insideQuotes true 2 run t ++ (List.replicate 3 '"' ++ rest)) = some (t, rest) := by
  obtain ⟨steps, rfl⟩ : ∃ fewer, steps = fewer + 1 := ⟨steps - 1, by omega⟩
  induction t generalizing run steps with
  | nil => exact multiline_closes '"' true steps rest 0 (by decide) apart
  | cons c t ih =>
    rw [List.length_cons] at enough
    obtain ⟨steps, rfl⟩ : ∃ fewer, steps = fewer + 1 := ⟨steps - 1, by omega⟩
    have further (run : Nat) (few : run ≤ 2) := ih run few steps (by omega)
    by_cases quote : c = '"'
    · subst quote
      rcases quotes_ahead ('"' :: t) (List.replicate 3 '"' ++ rest) run few with
        ⟨inner, same, total, printed⟩ | fewer
      · rw [printed, ← List.append_assoc, List.replicate_append_replicate, same]
        exact multiline_closes '"' true _ rest inner (by omega) apart
      · rw [inside_quote] at fewer ⊢
        by_cases more : run < 2
        · rw [if_pos more, List.cons_append] at fewer ⊢
          rw [multiline_quote '"' true _ _ (by omega), further (run + 1) more]
          rfl
        · rw [if_neg more]
          have escape := multiline_escape '"' (steps + 1) '"'
            (insideQuotes true 2 0 t ++ (List.replicate 3 '"' ++ rest)) (by decide) ['"'] rfl rfl
          rw [further 0 (Nat.zero_le 2)] at escape
          exact escape
    · by_cases feed : c = '\n'
      · rw [feed, inside_break, List.cons_append, multiline_break '"' true _ _ (by decide), further 0 (Nat.zero_le 2)]
        rfl
      · rw [inside_plain true 2 run c t quote (by simp [feed]), List.append_assoc]
        rcases escaped_reads c with ⟨same, plain, slash⟩ | ⟨code, same, reads⟩
        · rw [same, List.singleton_append, multiline_plain '"' true _ c _ quote (by simp [slash]) plain,
            further 0 (Nat.zero_le 2)]
          rfl
        · rw [same, multiline_escape '"' _ c _ (by decide) code (reads _).1 (reads _).2, further 0 (Nat.zero_le 2)]
          rfl

theorem run_le_longest (c : Char) (run : Nat) (t : Text) : run ≤ longestRun c run t := by
  fun_induction longestRun c run t with
  | case1 => exact Nat.le_refl _
  | case2 run rest ih => omega
  | case3 run d rest other ih => exact Nat.le_max_left _ _

theorem longest_run_zero (c : Char) (t : Text) (none : longestRun c 0 t = 0) : c ∉ t := by
  induction t with
  | nil => exact List.not_mem_nil
  | cons d t ih =>
    rw [longestRun] at none
    split at none
    · have one := run_le_longest c (0 + 1) t
      omega
    · rename_i other
      rw [Nat.zero_max] at none
      rw [List.mem_cons, not_or]
      exact ⟨Ne.symm other, ih none⟩

theorem single_quotes_ahead (t rest : Text) (run : Nat) (few : longestRun '\'' run t ≤ 2) :
    (∃ inner, t = List.replicate inner '\'' ∧ run + inner ≤ 2) ∨
      run + ((t ++ rest).takeWhile (· = '\'')).length ≤ 2 := by
  induction t generalizing run with
  | nil => exact .inl ⟨0, rfl, few⟩
  | cons c t ih =>
    rw [longestRun] at few
    by_cases quote : c = '\''
    · rw [if_pos quote] at few
      subst quote
      rcases ih (run + 1) few with ⟨inner, same, total⟩ | fewer
      · refine .inl ⟨inner + 1, ?_, by omega⟩
        rw [same, List.replicate_succ]
      · right
        rw [List.cons_append, List.takeWhile_cons_of_pos (by simp), List.length_cons]
        omega
    · rw [if_neg quote] at few
      right
      rw [List.cons_append, List.takeWhile_cons_of_neg (by simpa using quote), List.length_nil]
      exact (Nat.le_max_left _ _).trans few

theorem multiline_literal_reads (t rest : Text) (run steps : Nat) (few : longestRun '\'' run t ≤ 2)
    (clean : ∀ c ∈ t, isPlain c = true ∨ c = '\n') (enough : t.length < steps) (apart : rest.head? ≠ some '\'') :
    multiline? '\'' false steps (t ++ (List.replicate 3 '\'' ++ rest)) = some (t, rest) := by
  obtain ⟨steps, rfl⟩ : ∃ fewer, steps = fewer + 1 := ⟨steps - 1, by omega⟩
  induction t generalizing run steps with
  | nil => exact multiline_closes '\'' false steps rest 0 (by decide) apart
  | cons c t ih =>
    rw [List.length_cons] at enough
    obtain ⟨steps, rfl⟩ : ∃ fewer, steps = fewer + 1 := ⟨steps - 1, by omega⟩
    have further (run : Nat) (few : longestRun '\'' run t ≤ 2) :=
      ih run few (fun d member => clean d (List.mem_cons_of_mem c member)) steps (by omega)
    have ahead := single_quotes_ahead (c :: t) (List.replicate 3 '\'' ++ rest) run few
    rw [longestRun] at few
    by_cases quote : c = '\''
    · rw [if_pos quote] at few
      subst quote
      rcases ahead with ⟨inner, same, total⟩ | fewer
      · rw [same, ← List.append_assoc, List.replicate_append_replicate]
        exact multiline_closes '\'' false _ rest inner (by omega) apart
      · rw [List.cons_append] at fewer ⊢
        rw [multiline_quote '\'' false _ _ (by omega), further (run + 1) few]
        rfl
    · rw [if_neg quote] at few
      have others := further 0 ((Nat.le_max_right _ _).trans few)
      rw [List.cons_append]
      rcases clean c List.mem_cons_self with plain | feed
      · rw [multiline_plain '\'' false _ c _ quote rfl plain, others]
        rfl
      · rw [feed, multiline_break '\'' false _ _ (by decide), others]
        rfl

theorem string_single (u : Text) (apart : ∀ v, u ≠ '"' :: '"' :: v) : string? ('"' :: u) = basic? u.length u := by
  unfold string?
  split
  · rename_i rest same
    exact absurd (List.cons.inj same).2 (apart rest)
  · rename_i same
    exact absurd (List.cons.inj same).1 (by decide)
  · rename_i same
    rw [(List.cons.inj same).2]
  · rename_i same
    exact absurd (List.cons.inj same).1 (by decide)
  · rename_i other _
    exact absurd rfl (other u)

theorem string_of_basic (t rest : Text) (apart : rest.head? ≠ some '"') :
    string? (basic t ++ rest) = some (t, rest) := by
  have single : ∀ v, insideQuotes false 0 0 t ++ '"' :: rest ≠ '"' :: '"' :: v := by
    intro v same
    cases t with
    | nil =>
      have behind : rest = '"' :: v := (List.cons.inj same).2
      exact apart (by rw [behind, List.head?_cons])
    | cons c t =>
      by_cases quote : c = '"'
      · rw [quote, inside_quote, if_neg (Nat.not_lt_zero 0), List.cons_append] at same
        exact absurd (List.cons.inj same).1 (by decide)
      · obtain ⟨d, front, printed, other, _⟩ := inside_head false 0 0 c t quote
        rw [printed, List.cons_append] at same
        exact other (List.cons.inj same).1
  rw [basic_append, string_single _ single]
  exact basic_reads t rest 0 _ ((inside_length false 0 0 t).trans (by simp))

theorem string_of_literal (t rest : Text) (plain : ∀ c ∈ t, isPlain c = true ∧ c ≠ '\'')
    (apart : rest.head? ≠ some '\'') : string? (literal t ++ rest) = some (t, rest) := by
  rw [literal_append]
  unfold string?
  split
  · rename_i same
    exact absurd (List.cons.inj same).1 (by decide)
  · rename_i v same
    have behind := (List.cons.inj same).2
    cases t with
    | nil =>
      have next : rest = '\'' :: v := (List.cons.inj behind).2
      exact absurd (by rw [next, List.head?_cons]) apart
    | cons c t => exact absurd (List.cons.inj behind).1 (plain c List.mem_cons_self).2
  · rename_i same
    exact absurd (List.cons.inj same).1 (by decide)
  · rename_i same
    rw [← (List.cons.inj same).2]
    exact literal_reads t rest plain
  · rename_i other
    exact absurd rfl (other _)

-- The line feed that opens a string of several lines is no part of it.
theorem opened_reads (quote : Char) (escapes : Bool) (t u : Text) (first : '\n' ∉ t → lineEnd? u = none) :
    ∃ steps, u.length < steps ∧ openedMultiline? quote escapes (opening t ++ u) = multiline? quote escapes steps u := by
  by_cases broken : '\n' ∈ t
  · have front : opening t = ['\n'] := by simp [opening, broken]
    rw [front]
    exact ⟨('\n' :: u).length + 1, by rw [List.length_cons]; omega, rfl⟩
  · have front : opening t = [] := by simp [opening, broken]
    rw [front, List.nil_append, openedMultiline?, first broken]
    exact ⟨u.length + 1, Nat.lt_succ_self _, rfl⟩

theorem string_of_multiline_basic (t rest : Text) (apart : rest.head? ≠ some '"') :
    string? (multilineBasic t ++ rest) = some (t, rest) := by
  have whole : multilineBasic t ++ rest =
      '"' :: '"' :: '"' :: (opening t ++ (insideQuotes true 2 0 t ++ (List.replicate 3 '"' ++ rest))) := by
    rw [multilineBasic, between, List.append_assoc, List.append_assoc, List.append_assoc]
    rfl
  have first : '\n' ∉ t → lineEnd? (insideQuotes true 2 0 t ++ (List.replicate 3 '"' ++ rest)) = none := by
    intro unbroken
    cases t with
    | nil => rfl
    | cons c t =>
      rw [List.mem_cons, not_or] at unbroken
      by_cases quote : c = '"'
      · rw [quote, inside_quote, if_pos (by decide)]
        rfl
      · obtain ⟨d, front, printed, _, back, feed⟩ := inside_head true 2 0 c t quote
        rw [printed, List.cons_append]
        exact line_end_none d _ (feed (Ne.symm unbroken.1)) back
  obtain ⟨steps, enough, opened⟩ := opened_reads '"' true t _ first
  have longer := inside_length true 2 0 t
  rw [List.length_append] at enough
  rw [whole]
  change openedMultiline? '"' true _ = _
  rw [opened]
  exact multiline_basic_reads t rest 0 steps (Nat.zero_le 2) (by omega) apart

theorem string_of_multiline_literal (t rest : Text) (few : longestRun '\'' 0 t ≤ 2)
    (clean : ∀ c ∈ t, isPlain c = true ∨ c = '\n') (apart : rest.head? ≠ some '\'') :
    string? (multilineLiteral t ++ rest) = some (t, rest) := by
  have whole : multilineLiteral t ++ rest =
      '\'' :: '\'' :: '\'' :: (opening t ++ (t ++ (List.replicate 3 '\'' ++ rest))) := by
    rw [multilineLiteral, between, List.append_assoc, List.append_assoc, List.append_assoc]
    rfl
  have first : '\n' ∉ t → lineEnd? (t ++ (List.replicate 3 '\'' ++ rest)) = none := by
    intro unbroken
    cases t with
    | nil => rfl
    | cons c t =>
      rw [List.mem_cons, not_or] at unbroken
      have plain := (clean c List.mem_cons_self).resolve_right (Ne.symm unbroken.1)
      exact line_end_none c _ (plain_is_no_break c plain).1 (plain_is_no_break c plain).2
  obtain ⟨steps, enough, opened⟩ := opened_reads '\'' false t _ first
  rw [List.length_append] at enough
  rw [whole]
  change openedMultiline? '\'' false _ = _
  rw [opened]
  exact multiline_literal_reads t rest 0 steps few clean (by omega) apart

theorem string_reads (t rest : Text) (double : rest.head? ≠ some '"') (single : rest.head? ≠ some '\'') :
    string? (string t ++ rest) = some (t, rest) := by
  have clean (controls : t.any needsEscape = false) : ∀ c ∈ t, isPlain c = true ∨ c = '\n' := by
    intro c member
    have kept := List.any_eq_false.mp controls c member
    by_cases feed : c = '\n'
    · exact .inr feed
    · exact .inl (by simpa [needsEscape, feed] using kept)
  unfold string
  dsimp only
  split
  · exact string_of_basic t rest double
  · split
    · rename_i chosen
      simp only [Bool.and_eq_true, Bool.not_eq_true', decide_eq_true_eq] at chosen
      obtain ⟨⟨controls, singles⟩, newline⟩ := chosen
      apply string_of_literal t rest _ single
      intro c member
      have unbroken : c ≠ '\n' := by
        rintro rfl
        simp [member] at newline
      refine ⟨(clean controls c member).resolve_right unbroken, ?_⟩
      rintro rfl
      exact longest_run_zero '\'' t singles member
    · split
      · exact string_of_multiline_basic t rest double
      · split
        · rename_i chosen
          simp only [Bool.and_eq_true, Bool.not_eq_true', decide_eq_true_eq] at chosen
          exact string_of_multiline_literal t rest chosen.2 (clean chosen.1) single
        · split
          · exact string_of_multiline_basic t rest double
          · exact string_of_basic t rest double

theorem key_bare (t rest : Text) (filled : t ≠ []) (bare : ∀ c ∈ t, isBareKeyChar c = true)
    (ends : ∀ c, rest.head? = some c → isBareKeyChar c = false) : key? (t ++ rest) = some (t, rest) := by
  have stops : rest.takeWhile isBareKeyChar = [] ∧ rest.dropWhile isBareKeyChar = rest := by
    cases rest with
    | nil => exact ⟨rfl, rfl⟩
    | cons c rest => simp [ends c rfl]
  have taken : (t ++ rest).takeWhile isBareKeyChar = t := by
    rw [List.takeWhile_append_of_pos bare, stops.1, List.append_nil]
  have left : (t ++ rest).dropWhile isBareKeyChar = rest := by
    rw [List.dropWhile_append_of_pos bare, stops.2]
  obtain ⟨c, t, rfl⟩ := List.exists_cons_of_ne_nil filled
  have first := bare c List.mem_cons_self
  unfold key?
  split
  · rename_i same
    rw [(List.cons.inj same).1] at first
    contradiction
  · rename_i same
    rw [(List.cons.inj same).1] at first
    contradiction
  · dsimp only
    rw [taken, left]
    rfl

theorem key_reads (t rest : Text) (ends : ∀ c, rest.head? = some c → isBareKeyChar c = false) :
    key? (key t ++ rest) = some (t, rest) := by
  have quoted : key? (basic t ++ rest) = some (t, rest) := by
    rw [basic_append]
    exact basic_reads t rest 0 _ ((inside_length false 0 0 t).trans (by simp))
  unfold key
  dsimp only
  split
  · rename_i bare
    simp only [Bool.and_eq_true, Bool.not_eq_true', List.isEmpty_eq_false_iff, List.all_eq_true] at bare
    exact key_bare t rest bare.1 bare.2 ends
  · split
    · exact quoted
    · split
      · rename_i chosen
        simp only [Bool.and_eq_true, Bool.not_eq_true', List.any_eq_false,
          List.elem_eq_mem, decide_eq_false_iff_not] at chosen
        rw [literal_append]
        refine literal_reads t rest fun c member => ⟨by simpa using chosen.1 c member, ?_⟩
        rintro rfl
        exact chosen.2 member
      · exact quoted

end Toml

end SchemaDiagram
