import SchemaDiagram.Proofs.Naming
import SchemaDiagram.Proofs.Requests

/-!
Findings that belong to no entity. A run makes one for each reference that was searched for in vain, in the
order of the searches. So a name that was reported as not found is shown only where the input declares it.
-/

set_option autoImplicit false

namespace SchemaDiagram

theorem Yield.finding_owned (types : TypeTable) (file : SourceFile) (owner statement : Text)
    (finding : Diagnostic) (yields : (Yield.ofStatement types file owner statement).finding = some finding) :
    finding.entity = some owner := by
  unfold Yield.ofStatement at yields
  split at yields
  · simp only [Yield.ofElement] at yields
    split at yields
    · cases yields
      rfl
    · contradiction
  · contradiction
  · cases yields
    rfl
  · contradiction

theorem Fragment.findings_owned (types : TypeTable) (file : SourceFile) (fragment : Fragment) :
    (fragment.render types file).findings.filter (·.entity.isNone) = [] := by
  rw [List.filter_eq_nil_iff]
  intro finding member
  obtain ⟨yield, inside, yields⟩ := List.mem_filterMap.mp member
  obtain ⟨statement, _, rfl⟩ := List.mem_map.mp inside
  rw [Yield.finding_owned types file fragment.name statement finding yields]
  simp

-- What a visit adds to the findings.
def Visit.finding? (library : Library) (visit : Visit) : Option Diagnostic :=
  if visit.searched && (library.find? visit.reference).isNone then
    some (Diagnostic.notFound visit.reference library.candidates)
  else none

theorem Visit.of_finding (library : Library) (visit : Visit) (finding : Diagnostic)
    (adds : visit.finding? library = some finding) :
    library.find? visit.reference = none ∧ finding = Diagnostic.notFound visit.reference library.candidates := by
  unfold Visit.finding? at adds
  split at adds
  · rename_i vain
    cases adds
    rw [Bool.and_eq_true, Option.isNone_iff_eq_none] at vain
    exact ⟨vain.2, rfl⟩
  · contradiction

namespace Run

variable (types : TypeTable) (library : Library) (file : SourceFile)

def ownerless (run : Run) : List Diagnostic := run.diagnostics.filter (·.entity.isNone)

theorem add_ownerless (run : Run) (origin : SourceFile) (fragment : Fragment) :
    (run.add (fragment.render types origin)).ownerless = run.ownerless := by
  rw [ownerless, add, List.filter_append, Fragment.findings_owned, List.append_nil]
  rfl

theorem render_ownerless (run : Run) (fragment : Fragment) :
    (run.render types file fragment).ownerless = run.ownerless := by
  cases known : run.catalog.contains fragment.name with
  | true => rw [render_known types file fragment run known]
  | false => rw [render_fresh types file fragment run known, add_ownerless]

theorem round_ownerless (run after : Run) (visit : Visit) (round : Round types library run visit after) :
    after.ownerless = run.ownerless ++ (visit.finding? library).toList := by
  cases round with
  | known reference rest _ _ => simp [Visit.finding?, mark, ownerless]
  | found reference rest origin fragment _ _ answer =>
    have added := add_ownerless types (mark { run with worklist := rest } reference.name .resolved) origin fragment
    simp only [Visit.finding?, answer]
    rw [Option.isNone_some, Bool.and_false, if_neg Bool.false_ne_true, Option.toList_none, List.append_nil]
    exact added
  | missing reference rest _ _ answer =>
    simp [Visit.finding?, answer, mark, ownerless, report, Diagnostic.notFound]

theorem rounds_ownerless (run final : Run) (visits : List Visit) (rounds : Rounds types library run visits final) :
    final.ownerless = run.ownerless ++ visits.filterMap (Visit.finding? library) := by
  induction rounds with
  | idle run _ => simp [ownerless]
  | round run middle final visit visits first _ ih =>
    rw [ih, round_ownerless types library run middle visit first, List.append_assoc]
    cases adds : visit.finding? library <;> simp [adds]

theorem course_ownerless (fragments : List Fragment) (run final : Run) (visits : List Visit)
    (course : Course types library file fragments run visits final) :
    final.ownerless = run.ownerless ++ visits.filterMap (Visit.finding? library) := by
  induction course with
  | nil run => simp
  | cons fragment rest run middle final visits others rounds _ ih =>
    rw [ih, rounds_ownerless types library _ middle visits rounds, render_ownerless, List.filterMap_append,
      List.append_assoc]

theorem emitted_undotted (seen : List Fragment) (rendered : List Rendering)
    (emitted : Emitted types library file seen rendered) (reference : Reference)
    (member : reference ∈ rendered.flatMap Rendering.requests) : '.' ∉ reference.name := by
  obtain ⟨rendering, inside, asks⟩ := List.mem_flatMap.mp member
  obtain ⟨origin, fragment, rfl, _⟩ := emitted_origin types library file seen rendered emitted rendering inside
  rw [Fragment.requests_of_elements] at asks
  obtain ⟨element, _, pending⟩ := List.mem_filterMap.mp asks
  obtain ⟨qualified, read, _⟩ := Resolution.resolve_asks types origin element.rawType reference pending
  exact Reference.of_qualified_undotted qualified reference read

end Run

theorem Source.answers_undotted (source : Source) (reference : Reference) (path : Path)
    (answers : source.answers reference path = true) : '.' ∉ reference.name := by
  obtain ⟨text, _, both⟩ := (Option.any_eq_true _ _).mp answers
  obtain ⟨fragment, member, named⟩ := List.any_eq_true.mp (Bool.and_eq_true_iff.mp both).2
  rw [← of_decide_eq_true named]
  exact fragment_undotted text fragment member

namespace Input

variable (source : Source) (settings : Settings) (input : Input)

theorem own_names_undotted (name : Text) (own : name ∈ input.ownNames source) : '.' ∉ name := by
  obtain ⟨fragment, member, rfl⟩ := List.mem_map.mp own
  exact fragment_undotted _ fragment member

theorem start_without_searches (reference : Reference) (count : Nat) :
    Diagnostic.notFound reference count ∉ (input.start source).diagnostics := by
  cases input with
  | file path =>
    rw [start]
    split
    · exact List.not_mem_nil
    · intro member
      have codes := congrArg Diagnostic.code (List.mem_singleton.mp member)
      contradiction
  | text given candidates title => exact List.not_mem_nil

theorem searched_in_vain (visits : List Visit)
    (course : Run.Course settings.types (input.library source settings) (input.sourceFile source)
      (input.sourceFile source).fragments (input.start source) visits (input.run source settings))
    (reference : Reference) (count : Nat)
    (reported : Diagnostic.notFound reference count ∈ (input.report source settings).diagnostics) :
    ∃ visit ∈ visits, (input.library source settings).find? visit.reference = none ∧
      Diagnostic.notFound reference count =
        Diagnostic.notFound visit.reference (input.candidates source settings).length := by
  rw [report_of_run, Report.ofRun, List.mem_append] at reported
  rcases reported with during | orphan
  · have member : Diagnostic.notFound reference count ∈ (input.run source settings).ownerless :=
      List.mem_filter.mpr ⟨during, rfl⟩
    rw [Run.course_ownerless _ _ _ _ _ _ visits course, List.mem_append] at member
    rcases member with before | later
    · exact absurd (List.mem_filter.mp before).1 (input.start_without_searches source reference count)
    · obtain ⟨visit, inside, adds⟩ := List.mem_filterMap.mp later
      obtain ⟨missing, finding⟩ := Visit.of_finding _ visit _ adds
      exact ⟨visit, inside, missing, finding⟩
  · obtain ⟨edge, _, same⟩ := List.mem_map.mp orphan
    have owners := congrArg Diagnostic.entity same
    contradiction

-- Where the first request for a name has no answer, only the input itself brings the name up.
theorem own_if_unanswered (visits : List Visit) (rendered : List Rendering)
    (ledger : Run.Ledger settings.types (input.library source settings) (input.sourceFile source)
      (input.sourceFile source).fragments visits rendered [] (input.run source settings))
    (first : Reference)
    (found : (rendered.flatMap Rendering.requests).find? (·.name = first.name) = some first)
    (missing : (input.library source settings).find? first = none) (rendering : Rendering)
    (shown : rendering ∈ rendered) (named : rendering.name = first.name) :
    first.name ∈ input.ownNames source ∧ input.own? source settings first.name = some rendering.entity := by
  obtain ⟨earlier, later, split⟩ := List.append_of_mem shown
  rcases input.origin_at source settings visits rendered ledger earlier later rendering split with
    own | ⟨reference, path, _, _, asked, chosen, _⟩
  · rwa [named] at own
  · rw [named, found] at asked
    cases asked
    have silent := (source.no_answer_iff first _).mp missing path (List.mem_of_find?_eq_some chosen)
    rw [List.find?_some chosen] at silent
    contradiction

theorem entity_undotted (visits : List Visit) (rendered : List Rendering)
    (ledger : Run.Ledger settings.types (input.library source settings) (input.sourceFile source)
      (input.sourceFile source).fragments visits rendered [] (input.run source settings))
    (rendering : Rendering) (shown : rendering ∈ rendered) : '.' ∉ rendering.name := by
  obtain ⟨earlier, later, split⟩ := List.append_of_mem shown
  rcases input.origin_at source settings visits rendered ledger earlier later rendering split with
    own | ⟨reference, path, _, named, _, chosen, _⟩
  · exact input.own_names_undotted source rendering.name own.1
  · rw [← named]
    exact source.answers_undotted reference path (List.find?_some chosen)

end Input

theorem not_found_is_true (source : Source) (settings : Settings) (input : Input) (qualifier name : Text)
    (count : Nat)
    (reported : Diagnostic.notFound { qualifier, name } count ∈ (input.report source settings).diagnostics) :
    count = (input.candidates source settings).length ∧
      (∀ path ∈ input.candidates source settings, source.answers { qualifier, name } path = false) ∧
      ∀ entity ∈ (input.report source settings).entities, entity.name = name →
        name ∈ input.ownNames source ∧ input.own? source settings name = some entity := by
  obtain ⟨visits, rendered, course, ledger⟩ := input.run_ledger source settings
  obtain ⟨⟨reference, searched⟩, member, missing, same⟩ :=
    input.searched_in_vain source settings visits course _ count reported
  obtain ⟨texts, counts⟩ := Diagnostic.not_found_tells _ _ count _ same
  have asked : reference ∈ firsts Reference.name (rendered.flatMap Rendering.requests) := by
    rw [← ledger.asked, List.append_nil]
    exact List.mem_map_of_mem member
  -- A dot in the name would leave open where the namespace ends, but nothing has such a name.
  have told (undotted : '.' ∉ name) : reference = { qualifier, name } := by
    have plain := Run.emitted_undotted _ _ _ _ rendered ledger.emitted _
      (mem_of_mem_firsts Reference.name _ _ asked)
    have pending := Run.emitted_pending _ _ _ _ rendered ledger.emitted _ asked
    have names : name = reference.name := by
      rw [← Text.after_last_append '.' qualifier name undotted, texts]
      exact Text.after_last_append '.' reference.qualifier reference.name plain
    rw [names] at texts
    have qualifiers : qualifier = reference.qualifier := List.append_cancel_right texts
    rw [names, qualifiers, ← pending]
  refine ⟨counts, ?_, ?_⟩
  · intro path candidate
    by_contra answers
    rw [Bool.not_eq_false] at answers
    rw [told (source.answers_undotted _ path answers)] at missing
    rw [(source.no_answer_iff _ _).mp missing path candidate] at answers
    contradiction
  · rw [input.report_entities source settings visits rendered ledger]
    intro entity shown named
    obtain ⟨rendering, inside, rfl⟩ := List.mem_map.mp shown
    have undotted := input.entity_undotted source settings visits rendered ledger rendering inside
    change rendering.name = name at named
    rw [told (named ▸ undotted)] at missing asked
    have found := find_of_mem_firsts Reference.name _ _ asked
    exact input.own_if_unanswered source settings visits rendered ledger _ found missing rendering inside named

-- A text of the namespace `q` that is no candidate itself. It comes to `B` after it was looked for.
def lateDeclaration : Input := .text "namespace q;entity A{x:q.C;}entity B{}" [⟨"d/c.cds"⟩] none

theorem late_declaration_reported :
    Diagnostic.notFound { qualifier := ['q'], name := ['B'] } 1 ∈
      (lateDeclaration.report twoFiles {}).diagnostics := by
  decide +kernel

theorem late_declaration_own :
    Diagnostic.notFound { qualifier := ['q'], name := ['B'] } 1 ∈
        (lateDeclaration.report twoFiles {}).diagnostics ∧
      1 = (lateDeclaration.candidates twoFiles {}).length ∧
      (∀ path ∈ lateDeclaration.candidates twoFiles {},
        twoFiles.answers { qualifier := ['q'], name := ['B'] } path = false) ∧
      ∀ entity ∈ (lateDeclaration.report twoFiles {}).entities, entity.name = ['B'] →
        ['B'] ∈ lateDeclaration.ownNames twoFiles ∧ lateDeclaration.own? twoFiles {} ['B'] = some entity :=
  ⟨late_declaration_reported,
    not_found_is_true twoFiles {} lateDeclaration ['q'] ['B'] 1 late_declaration_reported⟩

theorem reported_name_not_always_absent :
    ¬ ∀ (source : Source) (settings : Settings) (input : Input) (qualifier name : Text) (count : Nat),
      Diagnostic.notFound { qualifier, name } count ∈ (input.report source settings).diagnostics →
        name ∉ (input.report source settings).entities.map Entity.name := by
  intro always
  have shown : ['B'] ∈ (lateDeclaration.report twoFiles {}).entities.map Entity.name := by decide +kernel
  exact always twoFiles {} lateDeclaration ['q'] ['B'] 1 late_declaration_reported shown

end SchemaDiagram
