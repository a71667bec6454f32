import SchemaDiagram.Proofs.Endings

/-!
Headers inside of declarations. A header begins a declaration of its own unless it stands in an earlier one, behind a
brace that is open there. The names that a text declares are those of the headers of both kinds.
-/

set_option autoImplicit false

namespace SchemaDiagram

namespace Header

-- A header inside of a declaration that starts in front of it.
def Within (declaration : Declaration) (header : Header) : Prop :=
  declaration.start < header.start ∧ header.start < declaration.stop

-- A header that a declaration begins with.
def Begins (declaration : Declaration) (header : Header) : Prop :=
  declaration.start = header.start ∧ declaration.kind = header.kind ∧ declaration.name = header.name

end Header

namespace Declaration

theorem begins_or_within (consumed : Nat) (headers : List Header)
    (increasing : headers.Pairwise fun a b => a.start < b.start) :
    ∀ header ∈ headers, header.start < consumed ∨ (∃ declaration ∈ ofHeaders consumed headers,
      header.Begins declaration) ∨ ∃ declaration ∈ ofHeaders consumed headers, header.Within declaration := by
  induction headers generalizing consumed with
  | nil => simp
  | cons first others ih =>
    obtain ⟨later, rest⟩ := List.pairwise_cons.mp increasing
    intro header member
    rw [ofHeaders]
    split
    · rename_i inside
      rcases List.mem_cons.mp member with rfl | behind
      · exact .inl inside
      · exact ih consumed rest header behind
    · right
      rcases List.mem_cons.mp member with rfl | behind
      · exact .inl ⟨_, List.mem_cons_self, rfl, rfl, rfl⟩
      · rcases ih _ rest header behind with inside | ⟨declaration, further, begins⟩ | ⟨declaration, further, within⟩
        · exact .inr ⟨_, List.mem_cons_self, later header behind, inside⟩
        · exact .inl ⟨declaration, List.mem_cons_of_mem _ further, begins⟩
        · exact .inr ⟨declaration, List.mem_cons_of_mem _ further, within⟩

-- What a declaration begins with stands in no other.
theorem start_not_within (declarations : List Declaration) (apart : declarations.Pairwise fun a b => a.stop ≤ b.start) :
    ∀ declaration ∈ declarations, ∀ other ∈ declarations,
      ¬ (other.start < declaration.start ∧ declaration.start < other.stop) := by
  have ordered (declaration : Declaration) : declaration.start ≤ declaration.stop := Nat.le_add_right _ _
  induction declarations with
  | nil => simp
  | cons first others ih =>
    obtain ⟨later, rest⟩ := List.pairwise_cons.mp apart
    intro declaration member other among
    rcases List.mem_cons.mp member with rfl | behind
    · rcases List.mem_cons.mp among with rfl | further
      · omega
      · have beyond := later other further
        have := ordered declaration
        omega
    · rcases List.mem_cons.mp among with rfl | further
      · have beyond := later declaration behind
        omega
      · exact ih rest declaration behind other further

theorem extent_opens (bound : Nat) (tokens : List Token) :
    (∀ token ∈ (extent (some bound) 0 tokens).1, token.start < bound) ∨
      ∃ opening ∈ (extent (some bound) 0 tokens).1, opening.isPunct '\x7b' = true ∧ opening.start < bound := by
  induction tokens with
  | nil => simp [extent]
  | cons token rest ih =>
    rw [extent]
    split
    · exact .inl (by simp)
    · rename_i before
      have sooner : token.start < bound := by simpa using before
      split
      · rename_i brace
        exact .inr ⟨token, List.mem_cons_self, brace, sooner⟩
      · rw [if_neg (by simp)]
        split
        · exact .inl (by simpa using sooner)
        · rcases ih with all | ⟨opening, member, brace, start⟩
          · exact .inl (List.forall_mem_cons.mpr ⟨sooner, all⟩)
          · exact .inr ⟨opening, List.mem_cons_of_mem token member, brace, start⟩

-- A declaration goes on beyond the next header only where it has a brace open.
theorem opened_in_front (t : Text) (declaration : Declaration) (member : declaration ∈ ofText t) (header : Header)
    (written : header ∈ Header.ofText t) (within : header.Within declaration) :
    ∃ opening ∈ declaration.rest, opening.isPunct '\x7b' = true ∧ opening.start < header.start := by
  obtain ⟨first, among, limit, limits, rfl⟩ := of_text_limits t declaration member
  obtain ⟨before, gap, keyword, name, placed⟩ := first.placed t among
  obtain ⟨bound, rfl, least⟩ := limits.first header written within.1
  have inside := within.2
  rcases placed.limit_behind _ limits with apart | ⟨limited, filled, _⟩
  · rcases extent_opens bound first.rest with all | ⟨opening, taken, brace, start⟩
    · -- Otherwise its tokens all start in front of the next header, and it ends there at the latest.
      obtain ⟨token, behind, rfl⟩ := placed.token_at_limit bound limits apart
      obtain ⟨after, taken⟩ := extent_taken (some token.start) 0 first.rest
      have whole := taken_place placed _ after taken
      have stop := stop_whole placed _ apart
      rw [← taken, List.mem_append] at behind
      rcases behind with early | beyond
      · have sooner := all token early
        omega
      · obtain ⟨front, back, rfl⟩ := List.append_of_mem beyond
        rw [← List.append_assoc] at whole
        have far := token_start 0 t _ _ token whole
        rw [untokenize_append _ front, Text.byte_size_append] at far
        omega
    · exact ⟨opening, taken, brace, by omega⟩
  · cases limited
    have stop := stop_nameless placed filled
    omega

end Declaration

-- A header begins a declaration or stands in one, where a brace of it is open, and never both. Only the names of the
-- latter are declared beyond those of what is shown or dropped.
theorem declared_names_told (source : Text) :
    (∀ header : Header, header.Written (tokenize (withoutComments source)) →
      ((∃ declaration ∈ Declaration.ofText (withoutComments source), header.Begins declaration) ↔
        ¬ ∃ declaration ∈ Declaration.ofText (withoutComments source), header.Within declaration) ∧
      ∀ declaration ∈ Declaration.ofText (withoutComments source), header.Within declaration →
        ∃ opening ∈ declaration.rest, opening.isPunct '\x7b' = true ∧ opening.start < header.start) ∧
      ∀ name, name ∈ declaredNames source ↔
        (∃ fragment ∈ fragments source, fragment.name = name) ∨
          (∃ declaration ∈ Declaration.ofText (withoutComments source),
            (Fragment.ofDeclaration declaration).isView = true ∧ declaration.name = name) ∨
          ∃ header : Header, header.Written (tokenize (withoutComments source)) ∧ header.name = name ∧
            ∃ declaration ∈ Declaration.ofText (withoutComments source), header.Within declaration := by
  have increasing := Header.collected_increasing true _ (tokens_increasing 0 (withoutComments source))
  have apart := Declaration.of_headers_apart 0 (Header.ofText (withoutComments source))
  have told := Declaration.begins_or_within 0 _ increasing
  refine ⟨?_, ?_⟩
  · intro header written
    have among := (Header.written_iff _ header).mpr written
    refine ⟨⟨?_, ?_⟩, fun declaration member within =>
      Declaration.opened_in_front _ declaration member header among within⟩
    · rintro ⟨declaration, member, start, _⟩ ⟨other, further, within⟩
      rw [Header.Within, ← start] at within
      exact Declaration.start_not_within _ apart declaration member other further within
    · intro outside
      rcases told header among with before | begins | within
      · exact absurd before (Nat.not_lt_zero _)
      · exact begins
      · exact absurd within outside
  · intro name
    constructor
    · intro declared
      obtain ⟨header, among, rfl⟩ := List.mem_map.mp declared
      rcases told header among with before | ⟨declaration, member, _, _, named⟩ | within
      · exact absurd before (Nat.not_lt_zero _)
      · cases view : (Fragment.ofDeclaration declaration).isView with
        | true => exact .inr (.inl ⟨declaration, member, view, named⟩)
        | false =>
          refine .inl ⟨_, List.mem_filter.mpr ⟨List.mem_map_of_mem member, ?_⟩, named⟩
          rw [view]
          rfl
      · exact .inr (.inr ⟨header, (Header.written_iff _ header).mp among, rfl, within⟩)
    · have named (declaration : Declaration) (member : declaration ∈ Declaration.ofText (withoutComments source)) :
          declaration.name ∈ declaredNames source := by
        obtain ⟨header, among, _, rfl⟩ := Declaration.of_headers_member 0 _ declaration member
        exact List.mem_map_of_mem among
      rintro (⟨fragment, shown, rfl⟩ | ⟨declaration, member, _, rfl⟩ | ⟨header, written, rfl, _⟩)
      · obtain ⟨declaration, member, rfl⟩ := List.mem_map.mp (List.mem_filter.mp shown).1
        exact named declaration member
      · exact named declaration member
      · exact List.mem_map_of_mem ((Header.written_iff _ header).mpr written)

-- The element of the body starts like a declaration.
theorem inner_name_declared :
    ¬ ∀ source name, name ∈ declaredNames source ↔
      ∃ declaration ∈ Declaration.ofText (withoutComments source), declaration.name = name := by
  intro told
  have declared := told "entity A \x7b\n  type name\n\x7d" "name"
  revert declared
  decide +kernel

end SchemaDiagram
