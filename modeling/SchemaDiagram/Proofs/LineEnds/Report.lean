import SchemaDiagram.Proofs.BodyLines
import SchemaDiagram.Proofs.Fence
import SchemaDiagram.Proofs.Findings
import SchemaDiagram.Proofs.LineEnds.Run

/-!
Line ends do not matter to a report. Where LF becomes CR and LF in files without CRs, the report stays the same but
for the CRs in its text, whichever of the files change.
-/

set_option autoImplicit false

namespace SchemaDiagram

open Text

/-! A report with the CRs taken away from everything that it says. -/

def Attribute.withoutReturns (element : Attribute) : Attribute :=
  ⟨element.name.withoutReturns, element.rawType.withoutReturns, element.label.withoutReturns, element.connects⟩

def Member.withoutReturns : Member → Member
  | typed element => typed element.withoutReturns
  | verbatim line => verbatim line.withoutReturns

def Path.withoutReturns (path : Path) : Path := ⟨path.text.withoutReturns⟩

def Entity.withoutReturns (entity : Entity) : Entity where
  name := entity.name.withoutReturns
  kind := entity.kind
  members := entity.members.map Member.withoutReturns
  source := entity.source.map Path.withoutReturns

def Edge.withoutReturns (edge : Edge) : Edge :=
  { edge with
    owner := edge.owner.withoutReturns
    target := edge.target.withoutReturns
    label := edge.label.withoutReturns }

def Diagnostic.withoutReturns (finding : Diagnostic) : Diagnostic :=
  ⟨finding.code, finding.entity.map Text.withoutReturns, finding.message.withoutReturns⟩

def Report.withoutReturns (report : Report) : Report where
  document := report.document.withoutReturns
  entities := report.entities.map Entity.withoutReturns
  edges := report.edges.map Edge.withoutReturns
  diagnostics := report.diagnostics.map Diagnostic.withoutReturns

/-! What a document prints without the CRs is printed of entities and edges without theirs. -/

theorem Member.line_without_returns (member : Member) : member.line.withoutReturns = member.withoutReturns.line := by
  cases member with
  | verbatim line => rfl
  | typed element =>
    have colon : Text.withoutReturns " : ".toList = " : ".toList := by decide
    rw [line, without_returns_append, without_returns_append, without_returns_other _ ' ' (by decide),
      without_returns_other _ ' ' (by decide), colon]
    rfl

theorem Entity.block_without_returns (entity : Entity) : entity.block.withoutReturns = entity.withoutReturns.block := by
  have opening : Text.withoutReturns "class ".toList = "class ".toList := by decide
  have brace : Text.withoutReturns " \x7b\n".toList = " \x7b\n".toList := by decide
  have mark : Text.withoutReturns (if entity.kind = .typeAlias then "  <<type>>\n".toList else []) =
      if entity.kind = .typeAlias then "  <<type>>\n".toList else [] := by
    split <;> decide
  have closing : Text.withoutReturns "\x7d\n".toList = "\x7d\n".toList := by decide
  have line (member : Member) :
      Text.withoutReturns (member.line ++ ['\n']) = member.withoutReturns.line ++ ['\n'] := by
    rw [without_returns_append, member.line_without_returns]
    rfl
  have members : Text.withoutReturns (entity.members.flatMap fun member => member.line ++ ['\n']) =
      entity.withoutReturns.members.flatMap fun member => member.line ++ ['\n'] := by
    change _ = (entity.members.map Member.withoutReturns).flatMap _
    rw [without_returns_flat_map, List.flatMap_map]
    exact List.flatMap_congr fun member _ => line member
  have name : Text.withoutReturns entity.name = entity.withoutReturns.name := rfl
  have named := without_returns_join _ _ _ _ (without_returns_join _ _ _ _ opening name) brace
  exact without_returns_join _ _ _ _
    (without_returns_join _ _ _ _ (without_returns_join _ _ _ _ named mark) members) closing

theorem Edge.line_without_returns (edge : Edge) :
    (Document.edgeLine edge).withoutReturns = Document.edgeLine edge.withoutReturns := by
  have connector : Text.withoutReturns (edge.cardinality.connector edge.kind) =
      edge.cardinality.connector edge.kind := by
    cases edge.cardinality <;> cases edge.kind <;> decide
  have colon : Text.withoutReturns " : ".toList = " : ".toList := by decide
  simp only [Document.edgeLine, line, without_returns_append, List.cons_append, connector, colon,
    without_returns_other _ ' ' (by decide)]
  rfl

namespace Document

theorem option_lacks (c : Char) (name value : Text) (named : c ∉ name ++ ": ".toList ++ ['\n']) (free : c ∉ value) :
    c ∉ option name value := by
  simp only [List.mem_append, not_or] at named
  simp only [option, List.mem_append, not_or]
  exact ⟨⟨named.1, free⟩, named.2⟩

theorem header_without_returns (settings : Settings) (title : Option Text)
    (free : ∀ text ∈ settings.texts ++ title.toList, '\r' ∉ text) :
    Text.withoutReturns (header settings title) = header settings title := by
  have look : '\r' ∉ settings.look := free _ (by simp [Settings.texts])
  have layout : '\r' ∉ settings.layout := free _ (by simp [Settings.texts])
  have theme : '\r' ∉ settings.theme := free _ (by simp [Settings.texts])
  apply without_returns_free
  unfold header
  simp only [List.mem_append, not_or]
  refine ⟨⟨⟨⟨⟨⟨⟨?_, ?_⟩, ?_⟩, ?_⟩, ?_⟩, ?_⟩, ?_⟩, ?_⟩
  · decide
  · decide
  · cases title with
    | none => exact List.not_mem_nil
    | some title => exact option_lacks _ _ _ (by decide) (free title (by simp))
  · decide
  · exact option_lacks _ _ _ (by decide) look
  · exact option_lacks _ _ _ (by decide) layout
  · exact option_lacks _ _ _ (by decide) theme
  · decide

theorem assemble_without_returns (settings : Settings) (title : Option Text)
    (free : ∀ text ∈ settings.texts ++ title.toList, '\r' ∉ text) (entities : List Entity) (edges : List Edge) :
    Text.withoutReturns (assemble settings title (entities.map Entity.block) edges) =
      assemble settings title ((entities.map Entity.withoutReturns).map Entity.block)
        (edges.map Edge.withoutReturns) := by
  have closing : Text.withoutReturns fenceClose = fenceClose := by decide
  have blocks : Text.withoutReturns (entities.map Entity.block).flatten =
      ((entities.map Entity.withoutReturns).map Entity.block).flatten := by
    rw [← List.flatMap_def, without_returns_flat_map, funext Entity.block_without_returns, List.map_map,
      List.flatMap_def]
    rfl
  have lines : Text.withoutReturns (edges.flatMap edgeLine) = (edges.map Edge.withoutReturns).flatMap edgeLine := by
    rw [without_returns_flat_map, funext Edge.line_without_returns, List.flatMap_map]
  rw [assemble, assemble, without_returns_append, without_returns_append, without_returns_append, closing, blocks,
    lines, header_without_returns settings title free]

end Document

/-! What a run makes of files that may hold CRs holds them nowhere else but where text is shown as it stands. -/

theorem Diagnostic.without_returns_clean (finding : Diagnostic)
    (owner : ∀ name, finding.entity = some name → '\r' ∉ name)
    (told : finding.code ≠ .unparsableLine → '\r' ∉ finding.message) : finding.withoutReturns = finding.bare := by
  have same : finding.entity.map Text.withoutReturns = finding.entity := by
    cases named : finding.entity with
    | none => rfl
    | some name => exact congrArg some (without_returns_free name (owner name named))
  rw [withoutReturns, bare, same]
  split
  · rfl
  · rename_i code
    rw [without_returns_free _ (told code)]

theorem Edge.without_returns_clean (edge : Edge) (owner : '\r' ∉ edge.owner) (target : '\r' ∉ edge.target)
    (label : '\r' ∉ edge.label) : edge.withoutReturns = edge := by
  rw [withoutReturns, without_returns_free _ owner, without_returns_free _ target, without_returns_free _ label]

theorem Diagnostic.quoted_lacks (c : Char) (quote : c ≠ '\'') (t : Text) (free : c ∉ t) : c ∉ quoted t := by
  simp [quoted, quote, free]

theorem Diagnostic.unknown_type_lacks (owner name label : Text) (first : '\r' ∉ name) (second : '\r' ∉ label) :
    '\r' ∉ (unknownType owner name label).message := by
  simp only [unknownType, List.mem_append, not_or]
  exact ⟨⟨⟨⟨by decide, quoted_lacks _ (by decide) label second⟩, by decide⟩, quoted_lacks _ (by decide) name first⟩,
    by decide⟩

theorem Diagnostic.not_found_lacks (reference : Reference) (count : Nat)
    (free : '\r' ∉ reference.qualifier ∧ '\r' ∉ reference.name) : '\r' ∉ (notFound reference count).message := by
  have asked : '\r' ∉ reference.qualifier ++ '.' :: reference.name := by simp [free]
  have number : '\r' ∉ decimal count := fun member => absurd (decimal_digits count '\r' member) (by decide)
  simp only [notFound, List.mem_append, not_or]
  exact ⟨⟨⟨quoted_lacks _ (by decide) _ asked, by decide⟩, number⟩, by decide⟩

theorem Diagnostic.orphan_lacks (edge : Edge) (target : '\r' ∉ edge.target) : '\r' ∉ (orphan edge).message := by
  simp only [orphan, List.mem_append, not_or]
  exact ⟨by decide, quoted_lacks _ (by decide) _ target⟩

theorem Diagnostic.unreadable_lacks (path : Path) (free : '\r' ∉ path.text) : '\r' ∉ (unreadable path).message := by
  simp only [unreadable, List.mem_append, not_or]
  exact ⟨⟨by decide, free⟩, by decide⟩

namespace Fragment

variable (types : TypeTable) (labels : ∀ entry ∈ types.project, '\r' ∉ entry.2) (file : SourceFile)

include labels

theorem resolved_clean (statement name rawType : Text) (read : BodyLine.read statement = .element name rawType) :
    '\r' ∉ name ∧ '\r' ∉ rawType ∧ (Resolution.resolve types file rawType).Lacks '\r' := by
  obtain ⟨letters, plain⟩ := BodyLine.read_element statement name rawType read
  have free := plain '\r' (by decide) (by decide)
  refine ⟨fun member => absurd (letters '\r' member) (by decide), free, ?_⟩
  exact Resolution.resolve_lacks types '\r' (by decide) labels file rawType free

variable (fragment : Fragment)

theorem element_lacks (element : Element) (among : element ∈ fragment.elements) :
    (Resolution.resolve types file element.rawType).Lacks '\r' := by
  obtain ⟨statement, _, read⟩ := List.mem_filterMap.mp among
  unfold Element.ofStatement? at read
  split at read
  · rename_i name rawType told
    cases read
    exact (resolved_clean types labels file statement name rawType told).2.2
  · contradiction

theorem request_lacks (reference : Reference) (asked : reference ∈ (fragment.render types file).requests) :
    '\r' ∉ reference.qualifier ∧ '\r' ∉ reference.name := by
  rw [requests_of_elements] at asked
  obtain ⟨element, among, pending⟩ := List.mem_filterMap.mp asked
  exact (element_lacks types labels file fragment element among).pending reference pending

theorem member_clean (member : Member) (shown : member ∈ (fragment.render types file).entity.members) :
    member.withoutReturns = member.bare := by
  cases member with
  | verbatim line => rfl
  | typed element =>
    obtain ⟨statement, read, label⟩ := fragment.typed_member types file element shown
    obtain ⟨letters, plain, resolved⟩ := resolved_clean types labels file statement _ _ read
    have free := resolved.label
    rw [← label] at free
    rw [Member.withoutReturns, Attribute.withoutReturns, without_returns_free _ letters, without_returns_free _ plain,
      without_returns_free _ free]
    rfl

variable (name : '\r' ∉ fragment.name)

include name

theorem entity_clean (place : ∀ path, file.path = some path → '\r' ∉ path.text) :
    (fragment.render types file).entity.withoutReturns = (fragment.render types file).entity.bare := by
  have named : fragment.name.withoutReturns = fragment.name := without_returns_free _ name
  have members : (fragment.render types file).entity.members.map Member.withoutReturns =
      (fragment.render types file).entity.members.map Member.bare :=
    List.map_congr_left fun member shown => member_clean types labels file fragment member shown
  have source : file.path.map Path.withoutReturns = file.path := by
    cases found : file.path with
    | none => rfl
    | some path => rw [Option.map_some, Path.withoutReturns, without_returns_free _ (place path found)]
  rw [Entity.withoutReturns, members]
  change (⟨fragment.name.withoutReturns, _, _, file.path.map Path.withoutReturns⟩ : Entity) = _
  rw [named, source]
  rfl

theorem edge_clean (edge : Edge) (shown : edge ∈ (fragment.render types file).edges) : edge.withoutReturns = edge := by
  have label := fragment.edge_label_chars types file edge shown
  rw [edges_of_elements] at shown
  obtain ⟨element, among, declares⟩ := List.mem_filterMap.mp shown
  obtain ⟨relation, outward, rfl⟩ := Option.map_eq_some_iff.mp declares
  have related := (Option.filter_eq_some_iff.mp outward).1
  apply Edge.without_returns_clean
  · exact name
  · exact (element_lacks types labels file fragment element among).target relation related
  · exact fun member => absurd (label '\r' member) (by decide)

theorem finding_clean (finding : Diagnostic) (told : finding ∈ (fragment.render types file).findings) :
    finding.withoutReturns = finding.bare := by
  rw [findings_of_statements] at told
  obtain ⟨statement, _, tells⟩ := List.mem_filterMap.mp told
  have owned := (Diagnostic.of_statement_body types file fragment.name statement finding tells).2
  apply Diagnostic.without_returns_clean
  · intro owner same
    rw [owned] at same
    cases same
    exact name
  · intro code
    unfold Diagnostic.ofStatement? at tells
    split at tells
    · rename_i element rawType read
      dsimp only at tells
      split at tells
      · cases tells
        obtain ⟨letters, _, resolved⟩ := resolved_clean types labels file statement element rawType read
        exact Diagnostic.unknown_type_lacks _ _ _ letters resolved.label
      · contradiction
    · contradiction
    · cases tells
      contradiction
    · contradiction

end Fragment

namespace Run

-- A run that holds CRs nowhere else but in text shown as it stands.
structure Clean (run : Run) : Prop where
  entities : ∀ entity ∈ run.catalog.entities, entity.withoutReturns = entity.bare
  edges : ∀ edge ∈ run.registry.edges, edge.withoutReturns = edge
  findings : ∀ finding ∈ run.diagnostics, finding.isOfBody = true → finding.withoutReturns = finding.bare

theorem add_clean (run : Run) (rendering : Rendering) (clean : run.Clean)
    (entity : rendering.entity.withoutReturns = rendering.entity.bare)
    (edges : ∀ edge ∈ rendering.edges, edge.withoutReturns = edge)
    (findings : ∀ finding ∈ rendering.findings, finding.withoutReturns = finding.bare)
    (fresh : run.catalog.contains rendering.entity.name = false) : (run.add rendering).Clean := by
  constructor
  · intro other member
    rw [add, Catalog.entities, Catalog.insert_fresh _ _ _ fresh, List.map_append, List.mem_append] at member
    rcases member with old | new
    · exact clean.entities other old
    · rw [List.mem_singleton.mp new]
      exact entity
  · intro edge member
    rw [add, Registry.add_all_edges, List.mem_append] at member
    rcases member with old | new
    · exact clean.edges edge old
    · exact edges edge (mem_firsts_beyond Edge.pair _ _ edge new).1
  · intro finding member
    rcases List.mem_append.mp member with old | new
    · exact clean.findings finding old
    · exact fun _ => findings finding new

end Run

namespace Input

variable (source : Source) (settings : Settings) (input : Input)
  (labels : ∀ entry ∈ settings.projectTypes, '\r' ∉ entry.2)

include labels

-- What was searched for in vain was asked for by a type.
theorem not_found_clean (reference : Reference) (count : Nat)
    (reported : Diagnostic.notFound reference count ∈ (input.report source settings).diagnostics) :
    '\r' ∉ (Diagnostic.notFound reference count).message := by
  obtain ⟨visits, rendered, course, ledger⟩ := input.run_ledger source settings
  obtain ⟨visit, member, _, same⟩ := input.searched_in_vain source settings visits course reference count reported
  have asked : visit.reference ∈ firsts Reference.name (rendered.flatMap Rendering.requests) := by
    rw [← ledger.asked, List.append_nil]
    exact List.mem_map_of_mem member
  obtain ⟨rendering, inside, asks⟩ := List.mem_flatMap.mp (mem_of_mem_firsts Reference.name _ _ asked)
  obtain ⟨origin, fragment, rfl, _⟩ := Run.emitted_origin _ _ _ _ rendered ledger.emitted rendering inside
  rw [same]
  exact Diagnostic.not_found_lacks _ _ (fragment.request_lacks settings.types labels origin visit.reference asks)

variable (places : ∀ path text, source.read path = some text → '\r' ∉ path.text)
  (place : ∀ path, input.path? = some path → '\r' ∉ path.text)

include places place

theorem run_clean : (input.run source settings).Clean := by
  apply Run.of_file_grows settings.types (input.library source settings) (input.sourceFile source) Run.Clean
  · constructor
    · intro run origin fragment among first fresh clean
      have declared := (SourceFile.fragment_found origin fragment.name fragment first).1
      obtain ⟨text, inside, lies⟩ : ∃ text, fragment ∈ fragments text ∧
          ∀ path, origin.path = some path → '\r' ∉ path.text := by
        rcases among with rfl | candidate
        · exact ⟨input.content source, declared, place⟩
        · obtain ⟨path, text, read, rfl⟩ := library_file source settings input origin candidate
          refine ⟨text, declared, ?_⟩
          intro other same
          cases same
          exact places path text read
      have name : '\r' ∉ fragment.name := fun member =>
        absurd (fragment_name_chars text fragment inside '\r' member) (by decide)
      apply Run.add_clean run _ clean _ _ _ fresh
      · exact fragment.entity_clean settings.types labels origin name lies
      · exact fragment.edge_clean settings.types labels origin name
      · exact fragment.finding_clean settings.types labels origin name
    · intro run reference clean
      refine ⟨clean.entities, clean.edges, ?_⟩
      intro finding member ofBody
      rcases List.mem_append.mp member with old | new
      · exact clean.findings finding old ofBody
      · rw [List.mem_singleton.mp new] at ofBody
        contradiction
    · exact fun run worklist clean => ⟨clean.entities, clean.edges, clean.findings⟩
  · cases input with
    | text given candidates title => exact ⟨by simp [start, Catalog.entities], by simp [start], by simp [start]⟩
    | file path =>
      simp only [start]
      split
      · exact ⟨by simp [Catalog.entities], by simp, by simp⟩
      · refine ⟨by simp [Catalog.entities], by simp, ?_⟩
        intro finding member ofBody
        rw [List.mem_singleton.mp member] at ofBody
        contradiction

theorem report_clean :
    let report := input.report source settings
    (∀ entity ∈ report.entities, entity.withoutReturns = entity.bare) ∧
      (∀ edge ∈ report.edges, edge.withoutReturns = edge) ∧
      ∀ finding ∈ report.diagnostics, finding.withoutReturns = finding.bare := by
  intro report
  have clean := input.run_clean source settings labels places place
  have same : report = Report.ofRun settings (input.title? settings) (input.run source settings) :=
    input.report_of_run source settings
  refine ⟨?_, ?_, ?_⟩
  · rw [same]
    exact clean.entities
  · rw [same]
    exact fun edge shown => clean.edges edge (List.mem_filter.mp shown).1
  · intro finding told
    have among := told
    rw [same, Report.ofRun, List.mem_append] at among
    rcases among with during | orphan
    · rcases input.run_other_findings source settings finding during with
        ofBody | ⟨path, given, rfl⟩ | ⟨reference, rfl⟩
      · exact clean.findings finding during ofBody
      · apply Diagnostic.without_returns_clean
        · exact fun name named => by cases named
        · exact fun _ => Diagnostic.unreadable_lacks path (place path given)
      · apply Diagnostic.without_returns_clean
        · exact fun name named => by cases named
        · exact fun _ => input.not_found_clean source settings labels reference _ told
    · obtain ⟨edge, registered, rfl⟩ := List.mem_map.mp orphan
      have whole := clean.edges edge (List.mem_filter.mp registered).1
      have owner : '\r' ∉ edge.owner := by
        rw [← whole]
        exact return_not_left edge.owner
      have target : '\r' ∉ edge.target := by
        rw [← whole]
        exact return_not_left edge.target
      apply Diagnostic.without_returns_clean
      · intro name named
        cases named
        exact owner
      · exact fun _ => Diagnostic.orphan_lacks edge target

variable (files : source.Paired) (given : pairedReturns (input.content source) = true)
  (free : ∀ text ∈ settings.texts ++ (input.title? settings).toList, '\r' ∉ text)

include files given free

theorem report_without_returns :
    (input.report source settings).withoutReturns = input.withoutReturns.report source.withoutReturns settings := by
  obtain ⟨entities, edges, diagnostics⟩ := input.report_bare source settings files given
  obtain ⟨shown, joined, told⟩ := input.report_clean source settings labels places place
  have document := input.report_document source settings
  have other := input.withoutReturns.report_document source.withoutReturns settings
  have title : input.withoutReturns.title? settings = input.title? settings := by cases input <;> rfl
  have alike : (input.report source settings).entities.map Entity.withoutReturns =
      (input.withoutReturns.report source.withoutReturns settings).entities := by
    rw [entities]
    exact List.map_congr_left shown
  have lines : (input.report source settings).edges.map Edge.withoutReturns = (input.report source settings).edges := by
    rw [List.map_congr_left joined]
    exact List.map_id' _
  have findings : (input.report source settings).diagnostics.map Diagnostic.withoutReturns =
      (input.withoutReturns.report source.withoutReturns settings).diagnostics := by
    rw [diagnostics]
    exact List.map_congr_left told
  dsimp only at document other
  rw [Report.withoutReturns, alike, lines, findings, document, Document.assemble_without_returns settings _ free, alike,
    lines, ← edges, ← title, ← other]

end Input

/-! Files whose lines end with LF, and the same files with CR and LF in some of them. -/

def Text.ended (returns : Bool) (t : Text) : Text := if returns then t.withReturns else t

-- A text that is given itself has no path, and `none` stands for it.
def Source.withReturns (source : Source) (chosen : Option Path → Bool) : Source :=
  { source with read := fun path => (source.read path).map (Text.ended (chosen (some path))) }

def Input.withReturns (input : Input) (chosen : Option Path → Bool) : Input :=
  match input with
  | file path => file path
  | text given candidates title => text (given.ended (chosen none)) candidates title

theorem Text.ended_paired (returns : Bool) (t : Text) (free : '\r' ∉ t) :
    pairedReturns (ended returns t) = true ∧ withoutReturns (ended returns t) = t := by
  cases returns with
  | false => exact ⟨paired_free t free, without_returns_free t free⟩
  | true => exact ⟨paired_with_returns t free, without_returns_with_returns t free⟩

-- What a user spells out for an input.
def Input.spelled : Input → Text
  | file path => path.text
  | text given _ _ => given

section

variable (source : Source) (settings : Settings) (input : Input) (chosen : Option Path → Bool)
  (files : ∀ path text, source.read path = some text → '\r' ∉ path.text ∧ '\r' ∉ text)

include files

theorem Source.with_returns_paired : (source.withReturns chosen).Paired ∧
    (source.withReturns chosen).withoutReturns = source := by
  refine ⟨?_, ?_⟩
  · intro path text read
    obtain ⟨text, found, rfl⟩ := Option.map_eq_some_iff.mp read
    exact (ended_paired _ text (files path text found).2).1
  · have same : (fun path => ((source.read path).map (Text.ended (chosen (some path)))).map Text.withoutReturns) =
        source.read := by
      funext path
      cases found : source.read path with
      | none => rfl
      | some text => exact congrArg some (ended_paired _ text (files path text found).2).2
    exact congrArg (Source.mk source.list) same

theorem Input.with_returns_paired (own : '\r' ∉ input.spelled) :
    pairedReturns ((input.withReturns chosen).content (source.withReturns chosen)) = true ∧
      (input.withReturns chosen).withoutReturns = input := by
  cases input with
  | text given candidates title =>
    obtain ⟨paired, same⟩ := ended_paired (chosen none) given own
    exact ⟨paired, congrArg (Input.text · candidates title) same⟩
  | file path =>
    refine ⟨?_, rfl⟩
    change pairedReturns (((source.read path).map (Text.ended (chosen (some path)))).getD []) = true
    cases found : source.read path with
    | none => rfl
    | some text => exact (ended_paired _ text (files path text found).2).1

end

theorem line_ends_do_not_matter (source : Source) (settings : Settings) (input : Input) (chosen : Option Path → Bool)
    (files : ∀ path text, source.read path = some text → '\r' ∉ path.text ∧ '\r' ∉ text)
    (own : '\r' ∉ input.spelled)
    (free : ∀ text ∈ settings.texts ++ (input.title? settings).toList, '\r' ∉ text) :
    ((input.withReturns chosen).report (source.withReturns chosen) settings).withoutReturns =
      input.report source settings := by
  obtain ⟨paired, sources⟩ := source.with_returns_paired chosen files
  obtain ⟨given, inputs⟩ := input.with_returns_paired source chosen files own
  have labels := settings.label_lacks '\r' fun text member => free text (List.mem_append_left _ member)
  have places (path : Path) (text : Text) (read : (source.withReturns chosen).read path = some text) :
      '\r' ∉ path.text := by
    obtain ⟨before, found, _⟩ := Option.map_eq_some_iff.mp read
    exact (files path before found).1
  have place (path : Path) (same : (input.withReturns chosen).path? = some path) : '\r' ∉ path.text := by
    cases input with
    | file given =>
      cases same
      exact own
    | text given candidates title => contradiction
  have title : (input.withReturns chosen).title? settings = input.title? settings := by cases input <;> rfl
  rw [← title] at free
  rw [Input.report_without_returns (source.withReturns chosen) settings (input.withReturns chosen) labels places place
    paired given free, sources, inputs]

-- A candidate with a literal over two lines, which its block shows as it stands.
def linedFile : Source where
  list _ := []
  read path :=
    if path = ⟨"d/c.cds"⟩ then some "namespace q;\nentity B \x7b\n  see 'the\n  notes' below\n  x : UUID;\n\x7d"
    else none

def lined : Input := .text "entity A \x7b\n  a note // here\n  b : q.B;\n  : 1;\n\x7d" [⟨"d/c.cds"⟩] (some "notes")

theorem lined_alike :
    (∀ path text, linedFile.read path = some text → '\r' ∉ path.text ∧ '\r' ∉ text) ∧ '\r' ∉ lined.spelled ∧
      (∀ text ∈ Settings.texts {} ++ (lined.title? {}).toList, '\r' ∉ text) ∧
      ((lined.withReturns fun _ => true).report (linedFile.withReturns fun _ => true) {}).withoutReturns =
        lined.report linedFile {} := by
  have files : ∀ path text, linedFile.read path = some text → '\r' ∉ path.text ∧ '\r' ∉ text := by
    intro path text read
    unfold linedFile at read
    dsimp only at read
    split at read
    · rename_i same
      cases read
      rw [same]
      decide
    · contradiction
  have own : '\r' ∉ lined.spelled := by decide
  have free : ∀ text ∈ Settings.texts {} ++ (lined.title? {}).toList, '\r' ∉ text := by decide
  exact ⟨files, own, free, line_ends_do_not_matter linedFile {} lined (fun _ => true) files own free⟩

-- The CR in the literal is shown, so that it has to be taken away.
example : '\r' ∈ ((lined.withReturns fun _ => true).report (linedFile.withReturns fun _ => true) {}).document := by
  decide +kernel

end SchemaDiagram
