import SchemaDiagram.Proofs.Input

/-!
The edges of a report are told by its entities alone: of each ordered pair the first edge that their elements
declare, in the order of emission, less those that lead to no entity of the report.
-/

set_option autoImplicit false

namespace SchemaDiagram

theorem Edge.pair_among_kept (edges : List Edge) (names : List Text) (owner target : Text) :
    (owner, target) ∈ (edges.filter (·.target ∈ names)).map Edge.pair ↔
      (owner, target) ∈ edges.map Edge.pair ∧ target ∈ names := by
  constructor
  · intro member
    obtain ⟨edge, kept, same⟩ := List.mem_map.mp member
    obtain ⟨inside, shown⟩ := List.mem_filter.mp kept
    cases same
    exact ⟨List.mem_map_of_mem inside, of_decide_eq_true shown⟩
  · rintro ⟨member, shown⟩
    obtain ⟨edge, inside, same⟩ := List.mem_map.mp member
    cases same
    exact List.mem_map_of_mem (List.mem_filter.mpr ⟨inside, decide_eq_true shown⟩)

namespace Input

variable (source : Source) (settings : Settings) (input : Input)

theorem edges_told_by_entities (seen : List Fragment) (rendered : List Rendering)
    (emitted : Run.Emitted settings.types (input.library source settings) (input.sourceFile source) seen rendered) :
    (rendered.map Rendering.entity).flatMap (input.declaredEdges source settings) =
      rendered.flatMap Rendering.edges := by
  apply input.told_by_entities source settings _ _ _ seen rendered rendered emitted (List.Subset.refl rendered)
  intro origin fragment
  exact fragment.edges_of_elements settings.types origin

theorem emitted_edge_ends (seen : List Fragment) (rendered : List Rendering)
    (emitted : Run.Emitted settings.types (input.library source settings) (input.sourceFile source) seen rendered)
    (edge : Edge) (member : edge ∈ rendered.flatMap Rendering.edges) :
    edge.owner ∈ rendered.map Rendering.name ∧ edge.target ≠ edge.owner := by
  obtain ⟨rendering, inside, declared⟩ := List.mem_flatMap.mp member
  obtain ⟨origin, fragment, rfl, _⟩ := Run.emitted_origin _ _ _ seen rendered emitted rendering inside
  have named := Fragment.edge_ends settings.types origin fragment edge declared
  rw [named.1]
  exact ⟨List.mem_map_of_mem inside, named.2⟩

-- While a run goes on nothing is known of orphans; they are found in the report only.
theorem run_without_orphans :
    (input.run source settings).diagnostics.filter (·.code = .orphanRelationship) = [] := by
  apply Run.of_file_stable settings.types (input.library source settings) (input.sourceFile source)
    fun run => run.diagnostics.filter (·.code = .orphanRelationship) = []
  · constructor
    · intro run origin fragment none
      change (run.diagnostics ++ (fragment.render settings.types origin).findings).filter _ = []
      rw [List.filter_append, none, List.nil_append, List.filter_eq_nil_iff]
      intro finding member
      rcases Fragment.finding_code settings.types origin fragment finding member with code | code <;> simp [code]
    · intro run reference none
      change (run.diagnostics ++ [_]).filter _ = []
      rw [List.filter_append, none]
      rfl
    · intro run worklist none
      exact none
  · cases input with
    | file path =>
      simp only [start]
      split <;> rfl
    | text given candidates title => rfl

-- What the report makes of the registry, told by its entities.
theorem report_registered (visits : List Visit) (rendered : List Rendering)
    (ledger : Run.Ledger settings.types (input.library source settings) (input.sourceFile source)
      (input.sourceFile source).fragments visits rendered [] (input.run source settings)) :
    let report := input.report source settings
    let names := report.entities.map Entity.name
    let declared := firsts Edge.pair (report.entities.flatMap (input.declaredEdges source settings))
    declared = firsts Edge.pair (rendered.flatMap Rendering.edges) ∧
      names = rendered.map Rendering.name ∧
      report.edges = declared.filter (·.target ∈ names) ∧
      report.diagnostics.filter (·.code = .orphanRelationship) =
        (declared.filter (·.target ∉ names)).map Diagnostic.orphan := by
  intro report names declared
  have entities : report.entities = rendered.map Rendering.entity :=
    input.report_entities source settings visits rendered ledger
  have told : declared = firsts Edge.pair (rendered.flatMap Rendering.edges) := by
    rw [← input.edges_told_by_entities source settings _ rendered ledger.emitted, ← entities]
  have named : names = rendered.map Rendering.name := by
    simp [names, entities, Rendering.name, Function.comp_def]
  have registered : (input.run source settings).registry.edges = declared := by rw [told, ledger.registry]
  have shown (name : Text) : (input.run source settings).catalog.contains name = decide (name ∈ names) := by
    rw [named, Bool.eq_iff_iff, decide_eq_true_iff]
    exact Run.ledger_contains _ _ _ _ visits rendered [] _ ledger name
  refine ⟨told, named, ?_, ?_⟩
  · simp only [report, input.report_of_run source settings, Report.ofRun, shown, registered]
  · have before := input.run_without_orphans source settings
    simp only [report, input.report_of_run source settings, Report.ofRun, shown, registered,
      List.filter_append, before]
    rw [List.nil_append, List.filter_eq_self.mpr]
    · simp
    · intro finding member
      obtain ⟨edge, _, rfl⟩ := List.mem_map.mp member
      rfl

end Input

theorem edges_of_entities (source : Source) (settings : Settings) (input : Input) :
    let report := input.report source settings
    let names := report.entities.map Entity.name
    let told := report.entities.flatMap (input.declaredEdges source settings)
    let declared := firsts Edge.pair told
    (∀ entity ∈ report.entities, (input.fragmentOf? source entity).isSome) ∧
      report.edges = declared.filter (·.target ∈ names) ∧
      report.diagnostics.filter (·.code = .orphanRelationship) =
        (declared.filter (·.target ∉ names)).map Diagnostic.orphan ∧
      (report.edges.map Edge.pair).Nodup ∧
      (∀ edge ∈ report.edges, edge.owner ≠ edge.target ∧ edge.owner ∈ names ∧ edge.target ∈ names) ∧
      ∀ owner target, (owner, target) ∈ report.edges.map Edge.pair ↔
        (owner, target) ∈ told.map Edge.pair ∧ target ∈ names := by
  intro report names told declared
  obtain ⟨visits, rendered, _, ledger⟩ := input.run_ledger source settings
  obtain ⟨same, named, edges, orphans⟩ := input.report_registered source settings visits rendered ledger
  have distinct : (declared.map Edge.pair).Nodup := firsts_nodup Edge.pair _
  refine ⟨?_, edges, orphans, ?_, ?_, ?_⟩
  · intro entity member
    rw [input.report_entities source settings visits rendered ledger] at member
    obtain ⟨rendering, inside, rfl⟩ := List.mem_map.mp member
    obtain ⟨origin, fragment, located, _⟩ :=
      input.fragment_of_emitted source settings _ rendered ledger.emitted rendering inside
    rw [located]
    rfl
  · rw [edges]
    exact distinct.sublist (List.filter_sublist.map Edge.pair)
  · intro edge member
    rw [edges] at member
    obtain ⟨inside, shown⟩ := List.mem_filter.mp member
    rw [same] at inside
    obtain ⟨rendering, apart⟩ := input.emitted_edge_ends source settings _ rendered ledger.emitted edge
      (mem_of_mem_firsts Edge.pair _ edge inside)
    rw [← named] at rendering
    exact ⟨apart.symm, rendering, of_decide_eq_true shown⟩
  · intro owner target
    rw [edges, Edge.pair_among_kept, key_of_firsts]

end SchemaDiagram
