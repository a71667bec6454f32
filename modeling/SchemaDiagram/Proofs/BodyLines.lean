import SchemaDiagram.Proofs.Growth
import SchemaDiagram.Proofs.Input

/-!
Every line of a body is accounted for. A statement gives its entity a member, or a finding that names the entity,
or it holds nothing but white space, lone punctuation, annotations and comments; and the findings of a report that
tell of lines are those of its entities, in their order and once.
-/

set_option autoImplicit false

namespace SchemaDiagram

namespace BodyLine

-- Lone punctuation and white space, or annotations and comments with white space.
def Idle (statement : Text) : Prop :=
  (∀ token ∈ tokenize statement, isFiller token = true ∨ token.isPunct ';' = true) ∨
    ∀ token ∈ tokenize statement, token.isRemark = true ∨ token.isSpace = true ∨ token.isPunct ';' = true

theorem filler_kind (token : Token) (filler : isFiller token = true) : token.kind = .space ∨ token.kind = .punct := by
  simp only [isFiller, Token.isSpace, Token.isPunct, List.any_eq_true, Bool.or_eq_true, Bool.and_eq_true,
    decide_eq_true_eq] at filler
  rcases filler with space | ⟨_, _, punct, _⟩
  · exact .inl space
  · exact .inr punct

theorem filler_no_colon (token : Token) (filler : isFiller token = true) : token.isPunct ':' = false := by
  cases colon : token.isPunct ':' with
  | false => rfl
  | true =>
    simp only [Token.isPunct, Bool.and_eq_true, decide_eq_true_eq] at colon
    simp [isFiller, Token.isSpace, Token.isPunct, colon.1, colon.2] at filler

theorem remark_kind (token : Token) : token.isRemark = true ↔ token.kind = .comment ∨ token.kind = .tag := by
  simp [Token.isRemark]

theorem no_colon_no_split (depth : Nat) (tokens : List Token) (free : ∀ token ∈ tokens, token.isPunct ':' = false) :
    splitAtColon? depth tokens = none := by
  induction tokens generalizing depth with
  | nil => rfl
  | cons token rest ih =>
    have others := ih (token.depthAfter depth) fun other member => free other (List.mem_cons_of_mem token member)
    rw [splitAtColon?, free token List.mem_cons_self, others]
    simp

theorem mem_code (tokens : List Token) (token : Token) :
    token ∈ code tokens ↔ token ∈ tokens ∧ token.isRemark = false ∧ token.isPunct ';' = false := by
  simp [code]

theorem of_sides_not_idle (name type : List Token) (reason : SkipReason) (idle : reason ≠ .unusable) :
    ofSides name type ≠ .skip reason := by
  unfold ofSides
  split
  · exact fun same => idle (BodyLine.skip.inj same).symm
  · exact fun same => by cases same

theorem filler_unremarked (token : Token) (filler : isFiller token = true ∨ token.isPunct ';' = true) :
    token.isRemark = false := by
  cases remark : token.isRemark with
  | false => rfl
  | true =>
    have kind := (remark_kind token).mp remark
    rcases filler with filler | semicolon
    · rcases filler_kind token filler with same | same <;> simp [same] at kind
    · simp only [Token.isPunct, Bool.and_eq_true, decide_eq_true_eq] at semicolon
      simp [semicolon.1] at kind

theorem plain_iff (tokens : List Token) :
    tokens.any Token.isRemark = false ∧ (code tokens).all isFiller = true ↔
      ∀ token ∈ tokens, isFiller token = true ∨ token.isPunct ';' = true := by
  constructor
  · rintro ⟨unremarked, filler⟩ token member
    cases semicolon : token.isPunct ';' with
    | true => exact .inr rfl
    | false =>
      have remark := List.any_eq_false.mp unremarked token member
      exact .inl (List.all_eq_true.mp filler token ((mem_code tokens token).mpr
        ⟨member, by simpa using remark, semicolon⟩))
  · intro plain
    refine ⟨?_, ?_⟩
    · rw [List.any_eq_false]
      intro token member
      rw [filler_unremarked token (plain token member)]
      exact Bool.false_ne_true
    · rw [List.all_eq_true]
      intro token among
      obtain ⟨member, _, semicolon⟩ := (mem_code tokens token).mp among
      rcases plain token member with filler | stop
      · exact filler
      · rw [semicolon] at stop
        contradiction

theorem plain_of_blank (statement : Text) (tokens : List Token) (blank : ofTokens statement tokens = .skip .blank) :
    tokens.any Token.isRemark = false ∧ (code tokens).all isFiller = true := by
  unfold ofTokens at blank
  dsimp only at blank
  split at blank
  · rename_i spaces
    cases remarked : tokens.any Token.isRemark with
    | true => simp [remarked] at blank
    | false =>
      refine ⟨rfl, List.all_eq_true.mpr fun token among => ?_⟩
      simp [isFiller, List.all_eq_true.mp spaces token among]
  · split at blank
    · unfold ofColonless at blank
      split at blank
      · cases blank
      · rename_i refused
        split at blank
        · rename_i filler
          exact ⟨(Bool.or_eq_false_iff.mp (Bool.eq_false_iff.mpr refused)).1, filler⟩
        · cases blank
    · exact absurd blank (of_sides_not_idle _ _ .blank (by decide))

theorem blank_of_plain (statement : Text) (tokens : List Token) (unremarked : tokens.any Token.isRemark = false)
    (filler : (code tokens).all isFiller = true) : ofTokens statement tokens = .skip .blank := by
  have each := List.all_eq_true.mp filler
  have wordless : (code tokens).filter (·.kind = .word) = [] := by
    rw [List.filter_eq_nil_iff]
    intro token among
    rcases filler_kind token (each token among) with same | same <;> simp [same]
  have undivided := no_colon_no_split 0 (code tokens) fun token among => filler_no_colon token (each token among)
  simp only [ofTokens, unremarked, undivided, ofColonless, wordless, relates, filler]
  split <;> rfl

theorem of_tokens_blank (statement : Text) (tokens : List Token) :
    ofTokens statement tokens = .skip .blank ↔
      ∀ token ∈ tokens, isFiller token = true ∨ token.isPunct ';' = true := by
  rw [← plain_iff]
  exact ⟨plain_of_blank statement tokens, fun plain => blank_of_plain statement tokens plain.1 plain.2⟩

theorem of_tokens_remarks (statement : Text) (tokens : List Token) :
    ofTokens statement tokens = .skip .remarks ↔
      (∃ token ∈ tokens, token.isRemark = true) ∧
        ∀ token ∈ tokens, token.isRemark = true ∨ token.isSpace = true ∨ token.isPunct ';' = true := by
  have spaces : (code tokens).all Token.isSpace = true ↔
      ∀ token ∈ tokens, token.isRemark = true ∨ token.isSpace = true ∨ token.isPunct ';' = true := by
    rw [List.all_eq_true]
    constructor
    · intro each token member
      cases remark : token.isRemark with
      | true => exact .inl rfl
      | false =>
        cases semicolon : token.isPunct ';' with
        | true => exact .inr (.inr rfl)
        | false => exact .inr (.inl (each token ((mem_code tokens token).mpr ⟨member, remark, semicolon⟩)))
    · intro each token among
      obtain ⟨member, remark, semicolon⟩ := (mem_code tokens token).mp among
      rcases each token member with same | same | same
      · rw [remark] at same
        contradiction
      · exact same
      · rw [semicolon] at same
        contradiction
  rw [← List.any_eq_true, ← spaces]
  unfold ofTokens
  dsimp only
  split
  · rename_i alone
    cases tokens.any Token.isRemark <;> simp [alone]
  · rename_i more
    refine ⟨?_, fun both => absurd both.2 more⟩
    split
    · unfold ofColonless
      intro same
      split at same
      · cases same
      · split at same <;> cases same
    · exact fun same => absurd same (of_sides_not_idle _ _ .remarks (by decide))

theorem idle_iff (statement : Text) :
    Idle statement ↔ BodyLine.read statement = .skip .blank ∨ BodyLine.read statement = .skip .remarks := by
  rw [BodyLine.read, of_tokens_blank, of_tokens_remarks, Idle]
  by_cases remarked : ∃ token ∈ tokenize statement, token.isRemark = true
  · simp [remarked]
  · have plain : (∀ token ∈ tokenize statement,
        token.isRemark = true ∨ token.isSpace = true ∨ token.isPunct ';' = true) →
          ∀ token ∈ tokenize statement, isFiller token = true ∨ token.isPunct ';' = true := by
      intro each token member
      rcases each token member with remark | space | semicolon
      · exact absurd ⟨token, member, remark⟩ remarked
      · exact .inl (by simp [isFiller, space])
      · exact .inr semicolon
    simp only [remarked, false_and, or_false]
    exact ⟨fun idle => idle.elim id plain, .inl⟩

end BodyLine

-- What the block of an entity shows of a statement.
def Member.ofStatement? (types : TypeTable) (file : SourceFile) (owner statement : Text) : Option Member :=
  match BodyLine.read statement with
  | .element name rawType => some (.typed (Element.shown types file owner ⟨statement, name, rawType⟩))
  | .verbatim text => some (.verbatim text)
  | .skip _ => none

namespace Diagnostic

-- What is reported of a statement: that it cannot be used, or that nothing is known of its type.
def ofStatement? (types : TypeTable) (file : SourceFile) (owner statement : Text) : Option Diagnostic :=
  match BodyLine.read statement with
  | .element name rawType =>
    let resolution := Resolution.resolve types file rawType
    if resolution.isOpaque types file then some (unknownType owner name resolution.label) else none
  | .verbatim _ => none
  | .skip .unusable => some (unusable owner statement)
  | .skip _ => none

-- Whether it tells of a line: findings on files, on references and on orphans do not.
def isOfBody (diagnostic : Diagnostic) : Bool :=
  diagnostic.code = .unparsableLine || (diagnostic.code = .unresolvedType && diagnostic.entity.isSome)

end Diagnostic

theorem silent_iff_idle (types : TypeTable) (file : SourceFile) (owner statement : Text) :
    Member.ofStatement? types file owner statement = none ∧ Diagnostic.ofStatement? types file owner statement = none ↔
      BodyLine.Idle statement := by
  rw [BodyLine.idle_iff, Member.ofStatement?, Diagnostic.ofStatement?]
  cases BodyLine.read statement with
  | element name rawType => simp
  | verbatim text => simp
  | skip reason => cases reason <;> simp

namespace Yield

variable (types : TypeTable) (file : SourceFile) (owner statement : Text)

theorem member_of_statement : (ofStatement types file owner statement).member =
    Member.ofStatement? types file owner statement := by
  unfold ofStatement Member.ofStatement?
  cases BodyLine.read statement with
  | element name rawType => rfl
  | verbatim text => rfl
  | skip reason => cases reason <;> rfl

theorem finding_of_body : (ofStatement types file owner statement).finding =
    Diagnostic.ofStatement? types file owner statement := by
  unfold ofStatement Diagnostic.ofStatement?
  cases BodyLine.read statement with
  | element name rawType => rfl
  | verbatim text => rfl
  | skip reason => cases reason <;> rfl

end Yield

theorem Diagnostic.of_statement_body (types : TypeTable) (file : SourceFile) (owner statement : Text)
    (finding : Diagnostic) (tells : ofStatement? types file owner statement = some finding) :
    finding.isOfBody = true ∧ finding.entity = some owner := by
  unfold ofStatement? at tells
  split at tells
  · dsimp only at tells
    split at tells
    · cases tells
      exact ⟨rfl, rfl⟩
    · contradiction
  · contradiction
  · cases tells
    exact ⟨rfl, rfl⟩
  · contradiction

namespace Fragment

variable (types : TypeTable) (file : SourceFile) (fragment : Fragment)

theorem members_of_statements : (fragment.render types file).entity.members =
    fragment.statements.filterMap (Member.ofStatement? types file fragment.name) := by
  change (fragment.yields types file).filterMap Yield.member = _
  rw [yields, List.filterMap_map]
  exact List.filterMap_congr fun statement _ => Yield.member_of_statement types file fragment.name statement

theorem findings_of_statements : (fragment.render types file).findings =
    fragment.statements.filterMap (Diagnostic.ofStatement? types file fragment.name) := by
  change (fragment.yields types file).filterMap Yield.finding = _
  rw [yields, List.filterMap_map]
  exact List.filterMap_congr fun statement _ => Yield.finding_of_body types file fragment.name statement

theorem findings_of_body (finding : Diagnostic) (member : finding ∈ (fragment.render types file).findings) :
    finding.isOfBody = true := by
  rw [findings_of_statements] at member
  obtain ⟨statement, _, tells⟩ := List.mem_filterMap.mp member
  exact (Diagnostic.of_statement_body types file fragment.name statement finding tells).1

end Fragment

namespace Input

variable (source : Source) (settings : Settings) (input : Input)

-- What is reported of the body of an entity.
def bodyFindings : Entity → List Diagnostic :=
  input.told source fun origin fragment =>
    fragment.statements.filterMap (Diagnostic.ofStatement? settings.types origin fragment.name)

theorem body_findings_of_render (origin : SourceFile) (fragment : Fragment)
    (place : origin = input.sourceFile source ∨ origin ∈ (input.library source settings).files)
    (first : origin.fragment? fragment.name = some fragment) :
    input.bodyFindings source settings (fragment.render settings.types origin).entity =
      (fragment.render settings.types origin).findings := by
  have located : input.fileOf? source origin.path = some origin := by
    rcases place with rfl | candidate
    · exact if_pos rfl
    · exact input.file_of_candidate source settings origin candidate
  rw [bodyFindings, told, input.fragment_of_render source settings origin fragment located first,
    Fragment.findings_of_statements]

-- Findings on lines come with the entity whose lines they are.
theorem run_body_findings :
    (input.run source settings).diagnostics.filter Diagnostic.isOfBody =
      (input.run source settings).catalog.entities.flatMap (input.bodyFindings source settings) := by
  apply Run.of_file_grows settings.types (input.library source settings) (input.sourceFile source)
    fun run => run.diagnostics.filter Diagnostic.isOfBody =
      run.catalog.entities.flatMap (input.bodyFindings source settings)
  · constructor
    · intro run origin fragment place first absent kept
      have findings : (fragment.render settings.types origin).findings.filter Diagnostic.isOfBody =
          (fragment.render settings.types origin).findings :=
        List.filter_eq_self.mpr (fragment.findings_of_body settings.types origin)
      have fresh : run.catalog.contains (fragment.render settings.types origin).entity.name = false := absent
      have entities : (run.add (fragment.render settings.types origin)).catalog.entities =
          run.catalog.entities ++ [(fragment.render settings.types origin).entity] := by
        rw [Run.add, Catalog.entities, Catalog.insert_fresh _ _ _ fresh, List.map_append]
        rfl
      rw [entities, List.flatMap_append, List.flatMap_singleton, ← kept,
        input.body_findings_of_render source settings origin fragment place first, ← findings]
      exact List.filter_append _ _
    · intro run reference kept
      rw [Run.report, List.filter_append, kept]
      exact List.append_nil _
    · intro run worklist kept
      exact kept
  · cases input with
    | file path =>
      simp only [start]
      split <;> rfl
    | text given candidates title => rfl

-- What a run reports besides: that its input could not be read, and what it looked for in vain.
theorem run_other_findings (finding : Diagnostic) (member : finding ∈ (input.run source settings).diagnostics) :
    finding.isOfBody = true ∨ (∃ path, input.path? = some path ∧ finding = Diagnostic.unreadable path) ∨
      ∃ reference, finding = Diagnostic.notFound reference (input.candidates source settings).length := by
  revert finding
  apply Run.of_file_stable settings.types (input.library source settings) (input.sourceFile source)
    fun run => ∀ finding ∈ run.diagnostics, finding.isOfBody = true ∨
      (∃ path, input.path? = some path ∧ finding = Diagnostic.unreadable path) ∨
      ∃ reference, finding = Diagnostic.notFound reference (input.candidates source settings).length
  · constructor
    · intro run origin fragment told finding member
      rcases List.mem_append.mp member with old | new
      · exact told finding old
      · exact .inl (fragment.findings_of_body settings.types origin finding new)
    · intro run reference told finding member
      rcases List.mem_append.mp member with old | new
      · exact told finding old
      · exact .inr (.inr ⟨reference, List.mem_singleton.mp new⟩)
    · intro run worklist told
      exact told
  · cases input with
    | file path =>
      simp only [start]
      split
      · simp
      · intro finding member
        exact .inr (.inl ⟨path, rfl, List.mem_singleton.mp member⟩)
    | text given candidates title => simp [start]

end Input

theorem lines_accounted_for (source : Source) (settings : Settings) (input : Input) :
    let report := input.report source settings
    (∀ entity ∈ report.entities, ∃ origin fragment,
        input.fragmentOf? source entity = some (origin, fragment) ∧
        entity.members = fragment.statements.filterMap (Member.ofStatement? settings.types origin entity.name)) ∧
      report.diagnostics.filter Diagnostic.isOfBody =
        report.entities.flatMap (input.bodyFindings source settings) ∧
      (∀ finding ∈ report.diagnostics, finding.isOfBody = false →
        (∃ path, input.path? = some path ∧ finding = Diagnostic.unreadable path) ∨
        (∃ reference, finding = Diagnostic.notFound reference (input.candidates source settings).length) ∨
        ∃ edge, finding = Diagnostic.orphan edge) ∧
      ∀ types file owner statement,
        (∀ finding, Diagnostic.ofStatement? types file owner statement = some finding →
          finding.isOfBody = true ∧ finding.entity = some owner) ∧
        (Member.ofStatement? types file owner statement = none ∧
          Diagnostic.ofStatement? types file owner statement = none ↔ BodyLine.Idle statement) := by
  intro report
  obtain ⟨visits, rendered, _, ledger⟩ := input.run_ledger source settings
  refine ⟨?_, ?_, ?_, ?_⟩
  · simp only [report, input.report_entities source settings visits rendered ledger]
    intro entity member
    obtain ⟨rendering, inside, rfl⟩ := List.mem_map.mp member
    obtain ⟨origin, fragment, located, rfl⟩ :=
      input.fragment_of_emitted source settings _ rendered ledger.emitted rendering inside
    exact ⟨origin, fragment, located, fragment.members_of_statements settings.types origin⟩
  · have orphans (edges : List Edge) : (edges.map Diagnostic.orphan).filter Diagnostic.isOfBody = [] := by
      rw [List.filter_eq_nil_iff]
      intro finding member
      obtain ⟨edge, _, rfl⟩ := List.mem_map.mp member
      exact Bool.false_ne_true
    simp only [report, input.report_of_run source settings, Report.ofRun, List.filter_append, orphans,
      List.append_nil]
    exact input.run_body_findings source settings
  · simp only [report, input.report_of_run source settings, Report.ofRun]
    intro finding member other
    rcases List.mem_append.mp member with during | orphan
    · rcases input.run_other_findings source settings finding during with body | path | reference
      · rw [body] at other
        contradiction
      · exact .inl path
      · exact .inr (.inl reference)
    · obtain ⟨edge, _, same⟩ := List.mem_map.mp orphan
      exact .inr (.inr ⟨edge, same.symm⟩)
  · intro types file owner statement
    exact ⟨Diagnostic.of_statement_body types file owner statement, silent_iff_idle types file owner statement⟩

end SchemaDiagram
