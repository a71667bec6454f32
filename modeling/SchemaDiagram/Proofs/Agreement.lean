import SchemaDiagram.Proofs.KnownTypes
import SchemaDiagram.Proofs.Naming

/-!
The label, the relation and the request that a type is resolved to are made of one name. A relation leads to the label
as it is without the mark of an array, and what is asked for in other files is the declaration that the relation leads
to.
-/

set_option autoImplicit false

namespace SchemaDiagram

theorem Reference.of_qualified_filled (qualified : Text) (reference : Reference)
    (read : ofQualified? qualified = some reference) : reference.qualifier ≠ [] ∧ reference.name ≠ [] := by
  unfold ofQualified? at read
  split at read
  · contradiction
  · split at read
    · contradiction
    · rename_i filled
      cases read
      simpa using filled

namespace TypeClause

-- The mark that the label of a clause ends with.
def mark : TypeClause → Text
  | array _ => Resolution.arraySuffix
  | _ => []

-- A relationship is of the kind that its word says, and no array.
theorem relationship_single (raw : Text) (kind : EdgeKind) (target : Text)
    (clause : ofText raw = relationship kind target) : kind ≠ .arrayDerived := by
  unfold ofText at clause
  dsimp only at clause
  split at clause
  · rename_i read
    unfold relationship? at read
    split at read
    · obtain ⟨line, _, rfl⟩ := Option.map_eq_some_iff.mp read
      cases clause
      exact EdgeKind.noConfusion
    · obtain ⟨line, _, rfl⟩ := Option.map_eq_some_iff.mp read
      cases clause
      exact EdgeKind.noConfusion
    · contradiction
  · split at clause
    · rename_i read
      obtain ⟨element, rfl⟩ := clause_of_array _ _ read
      contradiction
    · split at clause <;> contradiction

end TypeClause

def EdgeKind.mark : EdgeKind → Text
  | arrayDerived => Resolution.arraySuffix
  | _ => []

namespace Resolution

-- What a file can ask other files for.
structure Asks (file : SourceFile) (reference : Reference) : Prop where
  qualified : reference.qualifier ≠ []
  named : reference.name ≠ []
  undotted : '.' ∉ reference.name
  pending : reference.progress = .pending
  undeclared : file.declares reference.name = false

-- Label, relation and request agree on a name that ends with the mark of the clause in the label alone.
structure Agrees (file : SourceFile) (mark : Text) (resolution : Resolution) : Prop where
  relates : ∀ relation, resolution.relation = some relation →
    resolution.label = relation.target ++ mark ∧ relation.kind.mark = mark
  asks : ∀ reference, resolution.pending = some reference →
    Asks file reference ∧ resolution.label = reference.name ++ mark

variable (types : TypeTable) (file : SourceFile)

theorem of_name_label (name : Text) (reference : Reference) (asks : (ofName types file name).2 = some reference) :
    Asks file reference ∧ (ofName types file name).1 = reference.name := by
  obtain ⟨read, undeclared⟩ := of_name_asks types file name reference asks
  obtain ⟨qualified, named⟩ := Reference.of_qualified_filled _ reference read
  have undotted := Reference.of_qualified_undotted _ reference read
  refine ⟨⟨qualified, named, undotted, Reference.of_qualified_pending _ reference read, undeclared⟩, ?_⟩
  unfold ofName at asks ⊢
  dsimp only at asks ⊢
  split at asks
  · contradiction
  · rw [read]

theorem plain_agrees (mark label : Text) : Agrees file mark ⟨label, none, none⟩ where
  relates relation found := by contradiction
  asks reference found := by contradiction

theorem related_agrees (kind : EdgeKind) (name : Text) :
    Agrees file kind.mark ⟨(ofName types file name).1 ++ kind.mark, some ⟨kind, (ofName types file name).1⟩,
      (ofName types file name).2⟩ where
  relates relation found := by
    cases found
    exact ⟨rfl, rfl⟩
  asks reference found := by
    obtain ⟨asks, named⟩ := of_name_label types file name reference found
    exact ⟨asks, congrArg (· ++ kind.mark) named⟩

theorem relationship_agrees (kind : EdgeKind) (single : kind ≠ .arrayDerived) (target : Text) :
    Agrees file [] (ofRelationship types file kind target) := by
  have unmarked : kind.mark = [] := by
    cases kind with
    | arrayDerived => contradiction
    | composition | association => rfl
  unfold ofRelationship
  split
  · exact plain_agrees file [] structLabel
  · have agrees := related_agrees types file kind (targetName target)
    rw [unmarked, List.append_nil] at agrees
    exact agrees

theorem array_agrees (element : Text) : Agrees file arraySuffix (ofArray types file element) := by
  unfold ofArray
  split
  · exact plain_agrees file arraySuffix _
  · split
    · exact plain_agrees file arraySuffix _
    · exact related_agrees types file .arrayDerived (targetName element)

theorem resolve_agrees (raw : Text) : Agrees file (TypeClause.ofText raw).mark (resolve types file raw) := by
  unfold resolve
  cases clause : TypeClause.ofText raw with
  | relationship kind target =>
    exact relationship_agrees types file kind (TypeClause.relationship_single raw kind target clause) target
  | array element => exact array_agrees types file element
  | struct => exact plain_agrees file [] structLabel
  | name text =>
    refine ⟨fun relation found => by contradiction, fun reference found => ?_⟩
    obtain ⟨asks, named⟩ := of_name_label types file text reference found
    exact ⟨asks, named.trans (List.append_nil _).symm⟩

-- What is found for a request is the declaration that the edge leads to.
theorem resolution_consistent (raw : Text) :
    let resolution := resolve types file raw
    (∀ relation, resolution.relation = some relation →
      (resolution.label = relation.target ↔ relation.kind ≠ .arrayDerived) ∧
        (resolution.label = relation.target ++ arraySuffix ↔ relation.kind = .arrayDerived)) ∧
      ∀ reference, resolution.pending = some reference →
        Asks file reference ∧ resolution.label = reference.name ++ (TypeClause.ofText raw).mark ∧
          ∀ relation, resolution.relation = some relation → relation.target = reference.name ∧
            ∀ (library : Library) (origin : SourceFile) (fragment : Fragment),
              library.find? reference = some (origin, fragment) → fragment.name = relation.target := by
  intro resolution
  have agrees : Agrees file _ resolution := resolve_agrees types file raw
  refine ⟨fun relation found => ?_, fun reference found => ?_⟩
  · obtain ⟨label, mark⟩ := agrees.relates relation found
    rw [label, ← mark]
    cases relation.kind <;> simp [EdgeKind.mark, arraySuffix]
  · obtain ⟨asks, label⟩ := agrees.asks reference found
    refine ⟨asks, label, fun relation related => ?_⟩
    have same : relation.target = reference.name :=
      List.append_cancel_right ((agrees.relates relation related).1.symm.trans label)
    refine ⟨same, fun library origin fragment answer => ?_⟩
    rw [same]
    exact (library.mem_fragments_of_find reference origin fragment answer).2

-- An array of books of another file.
theorem shelved_books_asked_for :
    let resolution := resolve {} (SourceFile.ofText none []) "many shop.Book(9) on x"
    resolution.pending = some ⟨"shop", "Book", .pending⟩ ∧
      Asks (SourceFile.ofText none []) ⟨"shop", "Book", .pending⟩ ∧
      resolution.label = "Book[]" ∧ resolution.relation = some ⟨.arrayDerived, "Book"⟩ := by
  intro resolution
  have pending : resolution.pending = some ⟨"shop", "Book", .pending⟩ := by decide +kernel
  have related : resolution.relation = some ⟨.arrayDerived, "Book"⟩ := by decide +kernel
  have consistent := resolution_consistent {} (SourceFile.ofText none []) "many shop.Book(9) on x"
  exact ⟨pending, (consistent.2 _ pending).1, (consistent.1 _ related).2.mpr rfl, related⟩

end Resolution

end SchemaDiagram
