import SchemaDiagram.Resolution

/-! Where requests come from: a dotted name that no table and no header of its own file knows. -/

set_option autoImplicit false

namespace SchemaDiagram

theorem Reference.of_qualified_pending (qualified : Text) (reference : Reference)
    (read : Reference.ofQualified? qualified = some reference) : reference.progress = .pending := by
  unfold ofQualified? at read
  split at read
  · contradiction
  · split at read
    · contradiction
    · cases read
      rfl

namespace Resolution

theorem of_name_asks (types : TypeTable) (file : SourceFile) (name : Text) (reference : Reference)
    (asks : (ofName types file name).2 = some reference) :
    Reference.ofQualified? (TypeClause.withoutParameters name).trim = some reference ∧
      file.declares reference.name = false := by
  unfold ofName at asks
  dsimp only at asks
  split at asks
  · contradiction
  · split at asks
    · contradiction
    · rename_i read
      split at asks
      · contradiction
      · rename_i undeclared
        cases asks
        exact ⟨read, by simpa using undeclared⟩

theorem resolve_asks (types : TypeTable) (file : SourceFile) (raw : Text) (reference : Reference)
    (asks : (resolve types file raw).pending = some reference) :
    ∃ qualified, Reference.ofQualified? qualified = some reference ∧
      file.declares reference.name = false := by
  unfold resolve at asks
  cases clause : TypeClause.ofText raw with
  | relationship kind target =>
    simp only [clause, ofRelationship] at asks
    split at asks
    · contradiction
    · exact ⟨_, of_name_asks types file _ reference asks⟩
  | array element =>
    simp only [clause, ofArray] at asks
    split at asks
    · contradiction
    · split at asks
      · contradiction
      · exact ⟨_, of_name_asks types file _ reference asks⟩
  | struct =>
    simp only [clause] at asks
    contradiction
  | name text =>
    simp only [clause] at asks
    exact ⟨_, of_name_asks types file text reference asks⟩

end Resolution

end SchemaDiagram
