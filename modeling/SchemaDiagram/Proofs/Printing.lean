import SchemaDiagram.Proofs.Fence

/-!
What a document prints: each entity and each edge of its report, in their order and once. A block tells the name
of its entity and a line of an edge the names that it joins, so that neither is printed for another.
-/

set_option autoImplicit false

namespace SchemaDiagram

theorem Scan.word_without_blank (name : Text) (word : ∀ c ∈ name, isWordChar c = true) : ' ' ∉ name :=
  fun blank => absurd (word ' ' blank) (by decide)

namespace Entity

theorem block_fields (entity : Entity) (name : ' ' ∉ entity.name) :
    ∃ others, Text.fields (· = ' ') entity.block = "class".toList :: entity.name :: others := by
  have opening : "class ".toList = "class".toList ++ [' '] := by decide
  have brace : " \x7b\n".toList = ' ' :: "\x7b\n".toList := by decide
  obtain ⟨rest, spelled⟩ : ∃ rest, entity.block = "class".toList ++ ' ' :: (entity.name ++ ' ' :: rest) := by
    unfold block
    rw [opening, brace]
    simp only [List.append_assoc, List.cons_append, List.nil_append]
    exact ⟨_, rfl⟩
  rw [spelled, Text.fields_append ' ' "class".toList _ (by decide), Text.fields_append ' ' entity.name _ name]
  exact ⟨_, rfl⟩

theorem name_of_block (a b : Entity) (first : ' ' ∉ a.name) (second : ' ' ∉ b.name) (same : a.block = b.block) :
    a.name = b.name := by
  obtain ⟨others, read⟩ := a.block_fields first
  obtain ⟨more, again⟩ := b.block_fields second
  rw [same, again] at read
  exact (List.cons.inj (List.cons.inj read).2).1.symm

theorem blocks_distinct (entities : List Entity) (distinct : (entities.map Entity.name).Nodup)
    (plain : ∀ entity ∈ entities, ' ' ∉ entity.name) : (entities.map Entity.block).Nodup := by
  rw [List.nodup_map_iff_inj_on distinct.of_map]
  intro a first b second same
  have named := name_of_block a b (plain a first) (plain b second) same
  exact List.inj_on_of_nodup_map distinct first second named

end Entity

namespace Edge

theorem connector_parts (edge : Edge) :
    ∃ start arrow stop, edge.cardinality.connector edge.kind = start ++ ' ' :: (arrow ++ ' ' :: stop) ∧
      ' ' ∉ start ∧ ' ' ∉ arrow ∧ ' ' ∉ stop := by
  refine ⟨Cardinality.quoted edge.cardinality.ends.1, edge.kind.arrow,
    Cardinality.quoted edge.cardinality.ends.2, ?_, ?_, ?_, ?_⟩
  · simp [Cardinality.connector]
  · cases edge.cardinality <;> decide
  · cases edge.kind <;> decide
  · cases edge.cardinality <;> decide

theorem line_fields (edge : Edge) (owner : ' ' ∉ edge.owner) (target : ' ' ∉ edge.target) :
    ∃ start arrow stop others,
      Text.fields (· = ' ') edge.line = edge.owner :: start :: arrow :: stop :: edge.target :: others := by
  obtain ⟨start, arrow, stop, spelled, free⟩ := edge.connector_parts
  have whole : edge.line =
      edge.owner ++ ' ' :: (start ++ ' ' :: (arrow ++ ' ' :: (stop ++ ' ' :: (edge.target ++ ' ' :: (':' :: ' ' ::
        edge.label))))) := by
    simp [line, spelled]
  refine ⟨start, arrow, stop, Text.fields (· = ' ') (':' :: ' ' :: edge.label), ?_⟩
  rw [whole, Text.fields_append ' ' _ _ owner, Text.fields_append ' ' _ _ free.1, Text.fields_append ' ' _ _ free.2.1,
    Text.fields_append ' ' _ _ free.2.2, Text.fields_append ' ' _ _ target]

theorem pair_of_line (a b : Edge) (first : ' ' ∉ a.owner ∧ ' ' ∉ a.target) (second : ' ' ∉ b.owner ∧ ' ' ∉ b.target)
    (same : a.line = b.line) : a.pair = b.pair := by
  obtain ⟨_, _, _, _, read⟩ := a.line_fields first.1 first.2
  obtain ⟨_, _, _, _, again⟩ := b.line_fields second.1 second.2
  rw [same, again] at read
  simp only [List.cons.injEq] at read
  exact Prod.ext read.1.symm read.2.2.2.2.1.symm

theorem lines_distinct (edges : List Edge) (distinct : (edges.map Edge.pair).Nodup)
    (plain : ∀ edge ∈ edges, ' ' ∉ edge.owner ∧ ' ' ∉ edge.target) : (edges.map Edge.line).Nodup := by
  rw [List.nodup_map_iff_inj_on distinct.of_map]
  intro a first b second same
  have joined := pair_of_line a b (plain a first) (plain b second) same
  exact List.inj_on_of_nodup_map distinct first second joined

end Edge

theorem document_prints_report (source : Source) (settings : Settings) (input : Input) :
    let report := input.report source settings
    report.document =
        Document.header settings (input.title? settings) ++ report.entities.flatMap Entity.block ++
          report.edges.flatMap (fun edge => "  ".toList ++ edge.line ++ ['\n']) ++ "```\n".toList ∧
      (report.entities.map Entity.name).Nodup ∧ (report.entities.map Entity.block).Nodup ∧
      (report.edges.map Edge.pair).Nodup ∧ (report.edges.map Edge.line).Nodup := by
  intro report
  obtain ⟨visits, rendered, _, ledger⟩ := input.run_ledger source settings
  obtain ⟨_, _, shown, _⟩ := input.report_registered source settings visits rendered ledger
  have names : (report.entities.map Entity.name).Nodup := by
    have distinct := ledger.distinct
    rw [input.report_entities source settings visits rendered ledger, List.map_map]
    exact distinct
  have pairs : (report.edges.map Edge.pair).Nodup := by
    rw [shown]
    exact (firsts_nodup Edge.pair _).sublist (List.filter_sublist.map Edge.pair)
  have plain (name : Text) (among : name ∈ report.entities.map Entity.name) : ' ' ∉ name := by
    obtain ⟨entity, member, rfl⟩ := List.mem_map.mp among
    exact Scan.word_without_blank _ (input.entity_name_chars source settings entity member)
  refine ⟨?_, names, ?_, pairs, ?_⟩
  · have blocks : report.entities.flatMap Entity.block = (report.entities.map Entity.block).flatten :=
      List.flatMap_def
    rw [blocks]
    exact input.report_document source settings
  · exact Entity.blocks_distinct _ names fun entity member => plain _ (List.mem_map_of_mem member)
  · apply Edge.lines_distinct _ pairs
    intro edge member
    obtain ⟨owner, target, _⟩ := input.edge_shown_between source settings edge member
    exact ⟨plain _ owner, plain _ target⟩

end SchemaDiagram
