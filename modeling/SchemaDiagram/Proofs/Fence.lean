import SchemaDiagram.Proofs.Entities
import SchemaDiagram.Proofs.NormalPath
import SchemaDiagram.Proofs.OneLine
import SchemaDiagram.Proofs.Relationships
import SchemaDiagram.Proofs.Words

/-!
The lines of a document. Its first and its last line are fences. Of the lines between them only those can open
with a fence which a block shows as they stand in the schema; the names, types and labels that all the others
are made of break no line and stand behind a mark of their own.
-/

set_option autoImplicit false

namespace SchemaDiagram

namespace Text

def ofLines (lines : List Text) : Text := lines.flatMap (· ++ ['\n'])

theorem of_lines_append (a b : List Text) : ofLines (a ++ b) = ofLines a ++ ofLines b := List.flatMap_append

theorem of_lines_cons (line : Text) (others : List Text) :
    ofLines (line :: others) = line ++ ['\n'] ++ ofLines others := List.flatMap_cons

theorem of_line (line : Text) : ofLines [line] = line ++ ['\n'] := List.append_nil _

theorem lines_of_lines (lines : List Text) (unbroken : ∀ line ∈ lines, '\n' ∉ line) :
    Text.lines (ofLines lines) = lines ++ [[]] := by
  induction lines with
  | nil => rfl
  | cons line others ih =>
    have further := ih fun other member => unbroken other (List.mem_cons_of_mem line member)
    rw [Text.lines] at further
    rw [of_lines_cons, List.append_assoc, List.singleton_append, Text.lines,
      fields_append '\n' line _ (unbroken line List.mem_cons_self), further, List.cons_append]

-- Lines are put back together by the breaks between them, and one break more ends the last.
theorem of_lines_lines (t : Text) : ofLines t.lines = t ++ ['\n'] := by
  induction t with
  | nil => rfl
  | cons c rest ih =>
    unfold Text.lines at ih ⊢
    rw [fields]
    split
    · rename_i feed
      rw [of_lines_cons, ih, of_decide_eq_true feed]
      rfl
    · split
      · rename_i nothing
        exact absurd nothing (fields_ne_nil _ rest)
      · rename_i first others split
        rw [split] at ih
        rw [of_lines_cons] at ih ⊢
        rw [List.cons_append, List.cons_append, ih, List.cons_append]

end Text

namespace Document

def opensFence (line : Text) : Bool := Text.startsWith "```" line.trimStart

-- Whatever a line goes on with, it opens with no fence where another mark stands first.
theorem opens_fence_led (lead rest : Text) (seen : lead.any (!isWhite ·) = true) (free : '\x60' ∉ lead) :
    opensFence (lead ++ rest) = false := by
  induction lead with
  | nil => contradiction
  | cons c lead ih =>
    rw [List.mem_cons, not_or] at free
    by_cases white : isWhite c = true
    · have behind : lead.any (!isWhite ·) = true := by simpa [white] using seen
      rw [← ih behind free.2]
      simp [opensFence, Text.trimStart, white]
    · simp [opensFence, Text.trimStart, white, Text.startsWith, Text.after?, free.1]

end Document

namespace Member

def lines : Member → List Text
  | typed element => [line (typed element)]
  | verbatim text => text.lines

def echoed : Member → List Text
  | typed _ => []
  | verbatim text => text.lines

theorem line_of_lines (member : Member) : member.line ++ ['\n'] = Text.ofLines member.lines := by
  cases member with
  | typed element => simp [lines, Text.ofLines]
  | verbatim text => exact (Text.of_lines_lines text).symm

end Member

namespace Entity

-- What an entity shows of its body as it stands there.
def echoed (entity : Entity) : List Text := entity.members.flatMap Member.echoed

def blockLines (entity : Entity) : List Text :=
  ["class ".toList ++ entity.name ++ " \x7b".toList] ++
    (if entity.kind = .typeAlias then ["  <<type>>".toList] else []) ++
    entity.members.flatMap Member.lines ++ ["\x7d".toList]

theorem block_of_lines (entity : Entity) : entity.block = Text.ofLines entity.blockLines := by
  have members : entity.members.flatMap (fun member => member.line ++ ['\n']) =
      Text.ofLines (entity.members.flatMap Member.lines) := by
    rw [Text.ofLines, List.flatMap_assoc]
    exact List.flatMap_congr fun member _ => member.line_of_lines
  have opening : " \x7b\n".toList = " \x7b".toList ++ ['\n'] := by decide
  have closing : "\x7d\n".toList = "\x7d".toList ++ ['\n'] := by decide
  have alone : "  <<type>>\n".toList = Text.ofLines ["  <<type>>".toList] := by decide
  have mark : (if entity.kind = .typeAlias then "  <<type>>\n".toList else []) =
      Text.ofLines (if entity.kind = .typeAlias then ["  <<type>>".toList] else []) := by
    simp only [alone]
    split <;> rfl
  unfold block blockLines
  rw [members]
  simp only [Text.of_lines_append, Text.of_line]
  simp only [mark, opening, closing, List.append_assoc]

end Entity

namespace Document

def optionLine (name value : Text) : Text := name ++ ": ".toList ++ value

def frontLines (settings : Settings) (title : Option Text) : List Text :=
  ["---".toList] ++ title.toList.map (optionLine "title") ++ ["config:".toList] ++
    [optionLine "  look" settings.look] ++ [optionLine "  layout" settings.layout] ++
    [optionLine "  theme" settings.theme] ++ ["---".toList, "classDiagram".toList]

def innerLines (settings : Settings) (title : Option Text) (entities : List Entity) (edges : List Edge) : List Text :=
  frontLines settings title ++ entities.flatMap Entity.blockLines ++ edges.map (fun edge => ' ' :: ' ' :: edge.line)

theorem header_of_lines (settings : Settings) (title : Option Text) :
    header settings title = Text.ofLines (["```mermaid".toList] ++ frontLines settings title) := by
  simp only [frontLines, ← List.append_assoc]
  simp only [Text.of_lines_append, Text.of_line]
  cases title with
  | none => rfl
  | some title =>
    rw [Option.toList_some, List.map_singleton, Text.of_line]
    rfl

theorem assemble_of_lines (settings : Settings) (title : Option Text) (entities : List Entity) (edges : List Edge) :
    assemble settings title (entities.map Entity.block) edges =
      Text.ofLines (["```mermaid".toList] ++ innerLines settings title entities edges ++ ["```".toList]) := by
  have blocks : (entities.map Entity.block).flatten = Text.ofLines (entities.flatMap Entity.blockLines) := by
    rw [Text.ofLines, List.flatMap_assoc, ← List.flatMap_def]
    exact List.flatMap_congr fun entity _ => entity.block_of_lines
  have lines : edges.flatMap edgeLine = Text.ofLines (edges.map fun edge => ' ' :: ' ' :: edge.line) := by
    rw [Text.ofLines, List.flatMap_map]
    rfl
  have closing : fenceClose = Text.ofLines ["```".toList] := by decide
  rw [assemble, header_of_lines, blocks, lines, closing, innerLines]
  simp only [Text.of_lines_append, List.append_assoc]

end Document

theorem Edge.label_chars (kind : EdgeKind) (clause : Text) : ∀ c ∈ labelOf kind clause, c.isAlpha = true ∨ c = ' ' := by
  have all : (labelOf kind clause).all (fun c => c.isAlpha || c == ' ') = true := by
    unfold labelOf
    split
    · cases kind <;> decide
    · split <;> cases kind <;> decide
  intro c member
  simpa using List.all_eq_true.mp all c member

theorem Fragment.edge_label_chars (types : TypeTable) (file : SourceFile) (fragment : Fragment) (edge : Edge)
    (member : edge ∈ (fragment.render types file).edges) : ∀ c ∈ edge.label, c.isAlpha = true ∨ c = ' ' := by
  rw [edges_of_elements] at member
  obtain ⟨element, _, declares⟩ := List.mem_filterMap.mp member
  obtain ⟨relation, _, rfl⟩ := Option.map_eq_some_iff.mp declares
  exact Edge.label_chars relation.kind _

theorem Fragment.typed_member (types : TypeTable) (file : SourceFile) (fragment : Fragment) (element : Attribute)
    (member : .typed element ∈ (fragment.render types file).entity.members) :
    ∃ statement, BodyLine.read statement = .element element.name element.rawType ∧
      element.label = (Resolution.resolve types file element.rawType).label := by
  obtain ⟨yield, told, shows⟩ := List.mem_filterMap.mp member
  obtain ⟨statement, _, rfl⟩ := List.mem_map.mp told
  unfold Yield.ofStatement at shows
  split at shows
  · rename_i name rawType read
    cases shows
    exact ⟨statement, read, rfl⟩
  · cases shows
  · cases shows
  · cases shows

namespace Input

variable (source : Source) (settings : Settings) (input : Input)

theorem report_document :
    let report := input.report source settings
    report.document = Document.assemble settings (input.title? settings) (report.entities.map Entity.block)
      report.edges := by
  intro report
  obtain ⟨visits, rendered, _, ledger⟩ := input.run_ledger source settings
  have blocks : (input.run source settings).catalog.entries.map Prod.snd = report.entities.map Entity.block := by
    rw [input.report_entities source settings visits rendered ledger, ledger.catalog, List.map_map, List.map_map]
    rfl
  rw [← blocks]
  simp only [report, input.report_of_run source settings]
  rfl

theorem entity_rendered (entity : Entity) (member : entity ∈ (input.report source settings).entities) :
    ∃ file text fragment, fragment ∈ fragments text ∧ entity = (fragment.render settings.types file).entity := by
  obtain ⟨visits, rendered, _, ledger⟩ := input.run_ledger source settings
  rw [input.report_entities source settings visits rendered ledger] at member
  obtain ⟨rendering, inside, rfl⟩ := List.mem_map.mp member
  obtain ⟨origin, fragment, rfl, first, place⟩ :=
    Run.emitted_origin _ _ _ _ rendered ledger.emitted rendering inside
  have declared := (SourceFile.fragment_found origin fragment.name fragment first).1
  rcases place with rfl | candidate
  · exact ⟨_, input.content source, fragment, declared, rfl⟩
  · obtain ⟨path, text, _, rfl⟩ := library_file source settings input origin candidate
    exact ⟨_, text, fragment, declared, rfl⟩

theorem entity_name_chars (entity : Entity) (member : entity ∈ (input.report source settings).entities) :
    ∀ c ∈ entity.name, Scan.isWordChar c = true := by
  obtain ⟨file, text, fragment, declared, rfl⟩ := input.entity_rendered source settings entity member
  exact fragment_name_chars text fragment declared

theorem edge_shown_between (edge : Edge) (member : edge ∈ (input.report source settings).edges) :
    let names := (input.report source settings).entities.map Entity.name
    edge.owner ∈ names ∧ edge.target ∈ names ∧ ∀ c ∈ edge.label, c.isAlpha = true ∨ c = ' ' := by
  obtain ⟨visits, rendered, _, ledger⟩ := input.run_ledger source settings
  obtain ⟨told, named, edges, _⟩ := input.report_registered source settings visits rendered ledger
  rw [edges] at member
  obtain ⟨among, shown⟩ := List.mem_filter.mp member
  rw [told] at among
  have declared := mem_of_mem_firsts Edge.pair _ edge among
  have ends := input.emitted_edge_ends source settings _ rendered ledger.emitted edge declared
  rw [← named] at ends
  refine ⟨ends.1, of_decide_eq_true shown, ?_⟩
  obtain ⟨rendering, inside, tells⟩ := List.mem_flatMap.mp declared
  obtain ⟨origin, fragment, rfl, _⟩ := Run.emitted_origin _ _ _ _ rendered ledger.emitted rendering inside
  exact fragment.edge_label_chars settings.types origin edge tells

end Input

namespace Entity

-- The names and labels that an entity shows break no line, and its names open no fence.
structure Inline (entity : Entity) : Prop where
  name : '\n' ∉ entity.name
  elements : ∀ element, .typed element ∈ entity.members →
    '\n' ∉ element.name ∧ '\x60' ∉ element.name ∧ '\n' ∉ element.label

theorem typed_line (element : Attribute) (name : '\n' ∉ element.name ∧ '\x60' ∉ element.name)
    (label : '\n' ∉ element.label) :
    '\n' ∉ Member.line (.typed element) ∧ Document.opensFence (Member.line (.typed element)) = false := by
  constructor
  · simp [Member.line, name.1, label]
  · apply Document.opens_fence_led (' ' :: ' ' :: element.name ++ " : ".toList) element.label
    · exact List.any_eq_true.mpr ⟨':', by simp, by decide⟩
    · simp [name.2]

theorem class_line (entity : Entity) (name : '\n' ∉ entity.name) :
    '\n' ∉ "class ".toList ++ entity.name ++ " \x7b".toList ∧
      Document.opensFence ("class ".toList ++ entity.name ++ " \x7b".toList) = false := by
  constructor
  · simp [name]
  · rw [List.append_assoc]
    exact Document.opens_fence_led "class ".toList _ (by decide) (by decide)

variable (entity : Entity) (inline : entity.Inline)

include inline

theorem block_lines_unbroken : ∀ line ∈ entity.blockLines, '\n' ∉ line := by
  intro line member
  simp only [blockLines, List.mem_append, List.mem_singleton, List.mem_flatMap] at member
  rcases member with ((rfl | mark) | ⟨shown, inside, among⟩) | rfl
  · exact (class_line entity inline.name).1
  · split at mark
    · rw [List.mem_singleton.mp mark]
      decide
    · simp at mark
  · cases shown with
    | typed element =>
      have parts := inline.elements element inside
      rw [List.mem_singleton.mp among]
      exact (typed_line element ⟨parts.1, parts.2.1⟩ parts.2.2).1
    | verbatim text =>
      intro broken
      simpa using Text.fields_apart _ text line among '\n' broken
  · decide

theorem block_lines_fences :
    entity.blockLines.filter Document.opensFence = entity.echoed.filter Document.opensFence := by
  have mark : (if entity.kind = .typeAlias then ["  <<type>>".toList] else []).filter Document.opensFence = [] := by
    split
    · decide
    · rfl
  have closing : Document.opensFence "\x7d".toList = false := by decide
  have members : (entity.members.flatMap Member.lines).filter Document.opensFence =
      entity.echoed.filter Document.opensFence := by
    rw [echoed, List.filter_flatMap, List.filter_flatMap]
    apply List.flatMap_congr
    intro member inside
    cases member with
    | typed element =>
      have parts := inline.elements element inside
      simp [Member.lines, Member.echoed, (typed_line element ⟨parts.1, parts.2.1⟩ parts.2.2).2]
    | verbatim text => rfl
  rw [blockLines, List.filter_append, List.filter_append, List.filter_append, mark, members,
    List.filter_cons_of_neg (by rw [(class_line entity inline.name).2]; exact Bool.false_ne_true),
    List.filter_cons_of_neg (by rw [closing]; exact Bool.false_ne_true), List.filter_nil, List.append_nil,
    List.append_nil, List.nil_append]

end Entity

namespace Edge

theorem connector_chars (edge : Edge) :
    '\n' ∉ edge.cardinality.connector edge.kind ∧ '\x60' ∉ edge.cardinality.connector edge.kind ∧
      '"' ∈ edge.cardinality.connector edge.kind := by
  cases edge.cardinality <;> cases edge.kind <;> decide

theorem line_shown (edge : Edge) (owner : ∀ c ∈ edge.owner, Scan.isWordChar c = true)
    (target : ∀ c ∈ edge.target, Scan.isWordChar c = true) (label : '\n' ∉ edge.label) :
    '\n' ∉ ' ' :: ' ' :: edge.line ∧ Document.opensFence (' ' :: ' ' :: edge.line) = false := by
  obtain ⟨unbroken, free, quoted⟩ := edge.connector_chars
  have ownerLine : '\n' ∉ edge.owner := fun member => absurd (owner '\n' member) (by decide)
  have ownerFree : '\x60' ∉ edge.owner := fun member => absurd (owner '\x60' member) (by decide)
  have targetLine : '\n' ∉ edge.target := fun member => absurd (target '\n' member) (by decide)
  constructor
  · simp [line, ownerLine, unbroken, targetLine, label]
  · have led := Document.opens_fence_led (' ' :: ' ' :: edge.owner ++ ' ' :: edge.cardinality.connector edge.kind)
      (' ' :: edge.target ++ " : ".toList ++ edge.label) (List.any_eq_true.mpr ⟨'"', by simp [quoted], by decide⟩)
      (by simp [ownerFree, free])
    simpa [line] using led

end Edge

namespace Document

theorem option_line (name value : Text)
    (named : name ∈ ["title".toList, "  look".toList, "  layout".toList, "  theme".toList]) (unbroken : '\n' ∉ value) :
    '\n' ∉ optionLine name value ∧ opensFence (optionLine name value) = false := by
  have plain : ∀ name ∈ ["title".toList, "  look".toList, "  layout".toList, "  theme".toList],
      '\n' ∉ name ∧ name.any (!isWhite ·) = true ∧ '\x60' ∉ name := by decide
  obtain ⟨whole, seen, free⟩ := plain name named
  constructor
  · simp [optionLine, whole, unbroken]
  · rw [optionLine, List.append_assoc]
    exact opens_fence_led name _ seen free

end Document

-- The texts of the settings that a document can show.
def Settings.texts (settings : Settings) : List Text :=
  [settings.look, settings.layout, settings.theme] ++ settings.projectTypes.flatMap fun entry => [entry.1, entry.2]

theorem Settings.label_lacks (settings : Settings) (c : Char) (free : ∀ text ∈ settings.texts, c ∉ text) :
    ∀ entry ∈ settings.projectTypes, c ∉ entry.2 := by
  intro entry member
  apply free
  apply List.mem_append_right
  exact List.mem_flatMap.mpr ⟨entry, member, by simp⟩

theorem Document.front_line (settings : Settings) (title : Option Text)
    (unbroken : ∀ text ∈ settings.texts ++ title.toList, '\n' ∉ text) :
    ∀ line ∈ frontLines settings title, '\n' ∉ line ∧ opensFence line = false := by
  intro line member
  simp only [frontLines, List.mem_append, List.mem_cons, List.not_mem_nil, or_false] at member
  rcases member with (((((rfl | given) | rfl) | rfl) | rfl) | rfl) | (rfl | rfl)
  · decide
  · obtain ⟨text, chosen, rfl⟩ := List.mem_map.mp given
    exact option_line _ text (by simp) (unbroken text (List.mem_append_right _ chosen))
  · decide
  · exact option_line _ _ (by simp) (unbroken _ (by simp [Settings.texts]))
  · exact option_line _ _ (by simp) (unbroken _ (by simp [Settings.texts]))
  · exact option_line _ _ (by simp) (unbroken _ (by simp [Settings.texts]))
  · decide
  · decide

namespace Input

variable (source : Source) (settings : Settings) (input : Input)

theorem entity_inline (unbroken : ∀ text ∈ settings.texts, '\n' ∉ text) (entity : Entity)
    (member : entity ∈ (input.report source settings).entities) : entity.Inline := by
  constructor
  · intro broken
    exact absurd (input.entity_name_chars source settings entity member '\n' broken) (by decide)
  · intro element shown
    obtain ⟨file, text, fragment, _, rfl⟩ := input.entity_rendered source settings entity member
    obtain ⟨statement, read, label⟩ := fragment.typed_member settings.types file element shown
    obtain ⟨letters, line⟩ := BodyLine.read_element statement element.name element.rawType read
    have resolved := Resolution.resolve_lacks settings.types '\n' (by decide) (settings.label_lacks '\n' unbroken) file
      element.rawType (line '\n' (by decide) (by decide))
    refine ⟨?_, ?_, ?_⟩
    · exact fun broken => absurd (letters '\n' broken) (by decide)
    · exact fun tick => absurd (letters '\x60' tick) (by decide)
    · rw [label]
      exact resolved.label

theorem edge_shown (edge : Edge) (member : edge ∈ (input.report source settings).edges) :
    '\n' ∉ ' ' :: ' ' :: edge.line ∧ Document.opensFence (' ' :: ' ' :: edge.line) = false := by
  have named (name : Text) (among : name ∈ (input.report source settings).entities.map Entity.name) :
      ∀ c ∈ name, Scan.isWordChar c = true := by
    obtain ⟨entity, inside, rfl⟩ := List.mem_map.mp among
    exact input.entity_name_chars source settings entity inside
  obtain ⟨owner, target, label⟩ := input.edge_shown_between source settings edge member
  exact edge.line_shown (named _ owner) (named _ target) fun broken => absurd (label '\n' broken) (by decide)

-- What stands between the fences.
def inner : List Text :=
  Document.innerLines settings (input.title? settings) (input.report source settings).entities
    (input.report source settings).edges

variable (unbroken : ∀ text ∈ settings.texts ++ (input.title? settings).toList, '\n' ∉ text)

include unbroken

theorem shown_inline (entity : Entity) (shown : entity ∈ (input.report source settings).entities) : entity.Inline :=
  input.entity_inline source settings (fun text member => unbroken text (List.mem_append_left _ member)) entity shown

theorem inner_unbroken : ∀ line ∈ input.inner source settings, '\n' ∉ line := by
  intro line member
  simp only [inner, Document.innerLines, List.mem_append, List.mem_flatMap, List.mem_map] at member
  rcases member with (among | ⟨entity, shown, among⟩) | ⟨edge, shown, rfl⟩
  · exact (Document.front_line settings _ unbroken line among).1
  · exact entity.block_lines_unbroken (input.shown_inline source settings unbroken entity shown) line among
  · exact (input.edge_shown source settings edge shown).1

theorem document_lines :
    Text.lines (input.report source settings).document =
      "```mermaid".toList :: input.inner source settings ++ ["```".toList, []] := by
  have document : (input.report source settings).document =
      Text.ofLines ("```mermaid".toList :: (input.inner source settings ++ ["```".toList])) :=
    (input.report_document source settings).trans (Document.assemble_of_lines settings _ _ _)
  have each : ∀ line ∈ "```mermaid".toList :: (input.inner source settings ++ ["```".toList]), '\n' ∉ line := by
    intro line member
    rcases List.mem_cons.mp member with rfl | behind
    · decide
    · rcases List.mem_append.mp behind with between | last
      · exact input.inner_unbroken source settings unbroken line between
      · rw [List.mem_singleton.mp last]
        decide
  rw [document, Text.lines_of_lines _ each, List.cons_append, List.cons_append, List.append_assoc]
  rfl

theorem inner_fences :
    (input.inner source settings).filter Document.opensFence =
      ((input.report source settings).entities.flatMap Entity.echoed).filter Document.opensFence := by
  have front : (Document.frontLines settings (input.title? settings)).filter Document.opensFence = [] := by
    rw [List.filter_eq_nil_iff]
    intro line among
    rw [(Document.front_line settings _ unbroken line among).2]
    exact Bool.false_ne_true
  have edges : ((input.report source settings).edges.map fun edge => ' ' :: ' ' :: edge.line).filter
      Document.opensFence = [] := by
    rw [List.filter_eq_nil_iff]
    intro line among
    obtain ⟨edge, shown, rfl⟩ := List.mem_map.mp among
    rw [(input.edge_shown source settings edge shown).2]
    exact Bool.false_ne_true
  simp only [inner, Document.innerLines, List.filter_append, front, edges, List.nil_append, List.append_nil,
    List.filter_flatMap]
  exact List.flatMap_congr fun entity shown =>
    entity.block_lines_fences (input.shown_inline source settings unbroken entity shown)

end Input

theorem fences_of_document (source : Source) (settings : Settings) (input : Input)
    (unbroken : ∀ text ∈ settings.texts ++ (input.title? settings).toList, '\n' ∉ text) :
    let report := input.report source settings
    let lines := Text.lines report.document
    ∃ inner, lines = "```mermaid".toList :: inner ++ ["```".toList, []] ∧
      inner.filter Document.opensFence = (report.entities.flatMap Entity.echoed).filter Document.opensFence ∧
      (lines.countP Document.opensFence = 2 ↔
        ∀ entity ∈ report.entities, ∀ line ∈ entity.echoed, Document.opensFence line = false) := by
  intro report lines
  have split := input.document_lines source settings unbroken
  have fences := input.inner_fences source settings unbroken
  refine ⟨input.inner source settings, split, fences, ?_⟩
  have first : Document.opensFence "```mermaid".toList = true := by decide
  have last : ["```".toList, []].countP Document.opensFence = 1 := by decide
  have between : (input.inner source settings).countP Document.opensFence = 0 ↔
      ∀ entity ∈ report.entities, ∀ line ∈ entity.echoed, Document.opensFence line = false := by
    rw [List.countP_eq_length_filter, fences, List.length_eq_zero_iff, List.filter_eq_nil_iff]
    simp only [List.mem_flatMap, Bool.not_eq_true]
    constructor
    · exact fun each entity shown line among => each line ⟨entity, shown, among⟩
    · rintro each line ⟨entity, shown, among⟩
      exact each entity shown line among
  rw [← between]
  change (Text.lines (input.report source settings).document).countP _ = 2 ↔ _
  rw [split, List.countP_append, List.countP_cons_of_pos first, last]
  omega

-- A body with a line that is shown as it stands.
def noted : Input := .text "entity A \x7b\n  see below\n  x : UUID;\n\x7d" [] (some "notes")

theorem noted_fences :
    (∀ text ∈ Settings.texts {} ++ (noted.title? {}).toList, '\n' ∉ text) ∧
      (Text.lines (noted.report twoFiles {}).document).countP Document.opensFence = 2 := by
  have unbroken : ∀ text ∈ Settings.texts {} ++ (noted.title? {}).toList, '\n' ∉ text := by decide
  obtain ⟨_, _, _, twice⟩ := fences_of_document twoFiles {} noted unbroken
  exact ⟨unbroken, twice.mpr (by decide +kernel)⟩

-- The same with a line that looks like a fence.
def fenced : Input := .text "entity A \x7b\n\x60\x60\x60\n\x7d" [] none

theorem echoed_line_closes_fence :
    ¬ ∀ (source : Source) (settings : Settings) (input : Input),
      (∀ text ∈ settings.texts ++ (input.title? settings).toList, '\n' ∉ text ∧ '\x60' ∉ text) →
        (Text.lines (input.report source settings).document).countP Document.opensFence = 2 := by
  intro always
  have twice := always twoFiles {} fenced (by decide)
  have thrice : (Text.lines (fenced.report twoFiles {}).document).countP Document.opensFence = 3 := by
    decide +kernel
  rw [thrice] at twice
  contradiction

end SchemaDiagram
