import SchemaDiagram.Proofs.Fronts

/-!
The tokens of a text lie one behind another from its start to its end, and nothing is left out between them. Each is
read again as it is where it stands alone, without the text around it that told where it ends.
-/

set_option autoImplicit false

namespace SchemaDiagram

-- Tokens one behind another from one place to another, each with a text of its own.
def Tiles : (start : Nat) → List Token → (stop : Nat) → Prop
  | start, [], stop => start = stop
  | start, token :: rest, stop => token.start = start ∧ token.text ≠ [] ∧ Tiles token.stop rest stop

theorem tokens_tile (start : Nat) (t : Text) : Tiles start (tokensFrom start t) (start + t.byteSize) := by
  induction t using text_induction generalizing start with
  | nil =>
    rw [tokensFrom]
    rfl
  | token c front rest kind cut ih =>
    rw [tokens_of_cut start c front rest kind cut, ← List.cons_append, Text.byte_size_append, ← Nat.add_assoc]
    exact ⟨rfl, by simp, ih _⟩

open Scan

-- Where the text ends no token goes on.
theorem Token.goes_on_nothing (token : Token) : token.goesOn [] = false := by
  have unvalued : afterValue? [] = none := rfl
  have uncommented : afterComment? [] = none := rfl
  unfold goesOn
  cases token.kind <;> simp [unvalued, uncommented]

theorem Scan.Cut.alone (c : Char) (front rest : Text) (kind : TokenKind) (cut : Cut c (front ++ rest) kind rest) :
    Cut c front kind [] := by
  have kept := cut.kept c front rest [] kind List.nil_prefix rfl (Token.goes_on_nothing _)
  rwa [List.append_nil] at kept

theorem tokenize_token (start : Nat) (t : Text) (token : Token) (member : token ∈ tokensFrom start t) :
    tokenize token.text = [{ token with start := 0 }] := by
  obtain ⟨c, front, rest, text, cut⟩ := cut_of_token start t token member
  have alone := cut.alone c front rest token.kind
  rw [← List.append_nil front] at alone
  have read := tokenize_of_cut c front [] token.kind alone
  rw [List.append_nil, ← text, tokenize_nil] at read
  exact read

-- A token is as long as it can be: what is behind it does not go on with it.
theorem token_ended (t : Text) (before after : List Token) (token : Token)
    (split : tokenize t = before ++ token :: after) : token.goesOn (untokenize after) = false := by
  obtain ⟨c, front, text, cut⟩ := cut_at_token 0 t before after token split
  have apart := cut.apart token.start
  rwa [← text] at apart

-- Nothing of a text is lost or left behind, no token is cut short, and each is one token with the same kind by itself.
theorem tokens_lossless_and_stable (t : Text) :
    Tiles 0 (tokenize t) t.byteSize ∧ untokenize (tokenize t) = t ∧
      (∀ before token after, tokenize t = before ++ token :: after → token.goesOn (untokenize after) = false) ∧
      ∀ token ∈ tokenize t, tokenize token.text = [{ token with start := 0 }] := by
  have tiles := tokens_tile 0 t
  rw [Nat.zero_add] at tiles
  exact ⟨tiles, untokenize_tokens_from 0 t, fun before token after => token_ended t before after token,
    tokenize_token 0 t⟩

-- A CR by itself, brackets of different kinds, a comment over lines, and a literal in a group that are never closed.
def ragged : Text := "//\ra @b: (['\x7d'\x7d]) /* c\n */ @([ 'd"

def openTag : Token := ⟨.tag, "@([ 'd", 27⟩

theorem ragged_lossless_and_stable :
    tokenize ragged = (tokenize ragged).take 10 ++ openTag :: [] ∧ openTag ∈ tokenize ragged ∧
      Tiles 0 (tokenize ragged) ragged.byteSize ∧ openTag.goesOn [] = false ∧
      tokenize openTag.text = [{ openTag with start := 0 }] := by
  have last : tokenize ragged = (tokenize ragged).take 10 ++ openTag :: [] := by decide +kernel
  have member : openTag ∈ tokenize ragged := by rw [last]; simp
  obtain ⟨tiles, _, ended, alone⟩ := tokens_lossless_and_stable ragged
  exact ⟨last, member, tiles, ended _ openTag [] last, alone openTag member⟩

end SchemaDiagram
