import SchemaDiagram.Catalog
import SchemaDiagram.Library
import SchemaDiagram.Rendering

/-!
A run over one schema file. Its declarations are rendered in order, and after each of them the references
to other files that came up are followed, until none is left. A name is rendered once. Following
references ends, for each step renders a declaration of the library that was not rendered before, or
shortens the queue.
-/

set_option autoImplicit false

namespace SchemaDiagram

structure Run where
  catalog : Catalog := {}
  registry : Registry := {}
  worklist : Worklist := {}
  diagnostics : List Diagnostic := []
deriving Repr

namespace Run

def report (run : Run) (diagnostic : Diagnostic) : Run :=
  { run with diagnostics := run.diagnostics ++ [diagnostic] }

def mark (run : Run) (name : Text) (progress : Progress) : Run :=
  { run with worklist := run.worklist.mark name progress }

-- Queues what a type asks for elsewhere, or else notes that nothing is known of it.
def note (types : TypeTable) (file : SourceFile) (owner name : Text) (resolution : Resolution) (run : Run) :
    Run :=
  match resolution.pending with
  | some reference => { run with worklist := run.worklist.add reference }
  | none =>
    if resolution.isOpaque types file then
      run.report (Diagnostic.unknownType owner name resolution.label)
    else run

-- Takes in an element. The registry tells whether it connects its owner to another entity.
def element (types : TypeTable) (file : SourceFile) (owner statement name rawType : Text) (run : Run) :
    Attribute × Run :=
  let resolution := Resolution.resolve types file rawType
  let run := run.note types file owner name resolution
  match resolution.relation with
  | none => (⟨name, rawType, resolution.label, false⟩, run)
  | some ⟨kind, target⟩ =>
    let (edge, registry) := run.registry.register (withoutRemarks statement) owner target kind
    (⟨name, rawType, resolution.label, edge.isSome⟩, { run with registry })

-- Takes in a statement of a body; the answer is what the block of its entity shows for it.
def statement (types : TypeTable) (file : SourceFile) (owner statement : Text) (run : Run) :
    Option Member × Run :=
  match BodyLine.read statement with
  | .element name rawType =>
    let (shown, run) := run.element types file owner statement name rawType
    (some (.typed shown), run)
  | .verbatim text => (some (.verbatim text), run)
  | .skip .unusable => (none, run.report (Diagnostic.unusable owner statement))
  | .skip _ => (none, run)

def body (types : TypeTable) (file : SourceFile) (owner : Text) : List Text → Run → List Member × Run
  | [], run => ([], run)
  | statement :: rest, run =>
    let (member, run) := run.statement types file owner statement
    let (members, run) := body types file owner rest run
    (member.toList ++ members, run)

def render (types : TypeTable) (file : SourceFile) (fragment : Fragment) (run : Run) : Run :=
  if run.catalog.contains fragment.name then run
  else
    let (members, run) := body types file fragment.name fragment.statements run
    let entity : Entity := ⟨fragment.name, fragment.kind, members, file.path⟩
    { run with catalog := run.catalog.insert entity entity.block }

-- Takes in at once what statements yield, their members apart.
def gather (run : Run) (yields : List Yield) : Run where
  catalog := run.catalog
  registry := run.registry.addAll (yields.filterMap Yield.edge)
  worklist := run.worklist.addAll (yields.filterMap Yield.request)
  diagnostics := run.diagnostics ++ yields.filterMap Yield.finding

-- Takes in a rendering that was made apart from the run.
def add (run : Run) (rendering : Rendering) : Run where
  catalog := run.catalog.insert rendering.entity rendering.entity.block
  registry := run.registry.addAll rendering.edges
  worklist := run.worklist.addAll rendering.requests
  diagnostics := run.diagnostics ++ rendering.findings

theorem gather_one (run : Run) (member : Option Member) (edge : Option Edge) (request : Option Reference)
    (finding : Option Diagnostic) :
    run.gather [⟨member, edge, request, finding⟩] =
      ⟨run.catalog, run.registry.addAll edge.toList, run.worklist.addAll request.toList,
        run.diagnostics ++ finding.toList⟩ := by
  cases edge <;> cases request <;> cases finding <;> rfl

theorem note_eq (types : TypeTable) (file : SourceFile) (owner name : Text) (resolution : Resolution)
    (run : Run) :
    run.note types file owner name resolution =
      ⟨run.catalog, run.registry, run.worklist.addAll resolution.pending.toList, run.diagnostics ++
        (if resolution.isOpaque types file then some (Diagnostic.unknownType owner name resolution.label)
          else none).toList⟩ := by
  unfold note
  cases asks : resolution.pending with
  | none =>
    by_cases known : resolution.isOpaque types file <;> simp [known, report, Worklist.addAll]
  | some reference => simp [Resolution.isOpaque, asks, Worklist.addAll]

-- The frame of an element: it yields the same whatever was registered, queued or reported before, and of
-- what a run holds it changes only the ends of three lists.
theorem element_yields (types : TypeTable) (file : SourceFile) (owner statement name rawType : Text)
    (run : Run) :
    some (.typed (run.element types file owner statement name rawType).1) =
        (Yield.ofElement types file owner statement name rawType).member ∧
      (run.element types file owner statement name rawType).2 =
        run.gather [Yield.ofElement types file owner statement name rawType] := by
  simp only [element, Yield.ofElement, gather_one, note_eq]
  cases (Resolution.resolve types file rawType).relation with
  | none => exact ⟨rfl, rfl⟩
  | some relation =>
    obtain ⟨kind, target⟩ := relation
    by_cases same : target = owner
    · subst same
      simp [Registry.register_self, Registry.addAll, Option.filter]
    · obtain ⟨answered, added⟩ :=
        Registry.register_other run.registry (withoutRemarks statement) owner target kind same
      simp [answered, added, same, Registry.addAll, Option.filter]

theorem statement_yields (types : TypeTable) (file : SourceFile) (owner statement : Text) (run : Run) :
    run.statement types file owner statement =
      ((Yield.ofStatement types file owner statement).member,
        run.gather [Yield.ofStatement types file owner statement]) := by
  unfold Run.statement Yield.ofStatement
  cases BodyLine.read statement with
  | element name rawType =>
    have yielded := element_yields types file owner statement name rawType run
    rw [← yielded.1, ← yielded.2]
  | verbatim text => simp [gather, Registry.addAll, Worklist.addAll]
  | skip reason => cases reason <;> simp [gather, report, Registry.addAll, Worklist.addAll]

theorem gather_cons (run : Run) (yield : Yield) (others : List Yield) :
    (run.gather [yield]).gather others = run.gather (yield :: others) := by
  cases edge : yield.edge <;> cases request : yield.request <;> cases finding : yield.finding <;>
    simp [gather, Registry.addAll, Worklist.addAll, edge, request, finding]

theorem body_yields (types : TypeTable) (file : SourceFile) (owner : Text) (statements : List Text)
    (run : Run) :
    run.body types file owner statements =
      ((statements.map (Yield.ofStatement types file owner)).filterMap Yield.member,
        run.gather (statements.map (Yield.ofStatement types file owner))) := by
  induction statements generalizing run with
  | nil => simp [body, gather, Registry.addAll, Worklist.addAll]
  | cons statement rest ih =>
    simp only [body, statement_yields, ih, gather_cons, List.map_cons, Prod.mk.injEq, and_true]
    cases shown : (Yield.ofStatement types file owner statement).member <;> simp [shown]

theorem render_known (types : TypeTable) (file : SourceFile) (fragment : Fragment) (run : Run)
    (known : run.catalog.contains fragment.name = true) : run.render types file fragment = run := by
  rw [render, if_pos known]

theorem render_fresh (types : TypeTable) (file : SourceFile) (fragment : Fragment) (run : Run)
    (fresh : run.catalog.contains fragment.name = false) :
    run.render types file fragment = run.add (fragment.render types file) := by
  rw [render, if_neg (by simp [fresh]), body_yields]
  rfl

-- Renders the declaration that a reference asks for, unless its name is rendered already.
def settle (types : TypeTable) (library : Library) (reference : Reference) (run : Run) : Run :=
  let settled :=
    if run.catalog.contains reference.name then run
    else
      match library.find? reference with
      | some (file, fragment) => (run.mark reference.name .resolved).render types file fragment
      | none => run.report (Diagnostic.notFound reference library.candidates)
  settled.mark reference.name .drained

def unrendered (library : Library) (run : Run) : Nat :=
  (library.fragments.filter fun entry => !run.catalog.contains entry.2.name).length

def requestBound (types : TypeTable) (library : Library) : Nat :=
  (library.fragments.flatMap fun entry => (entry.2.render types entry.1).requests).length

-- What following a reference makes smaller.
def distance (types : TypeTable) (library : Library) (run : Run) : Nat :=
  run.unrendered library * (requestBound types library + 1) + run.worklist.queue.length

theorem requests_le_bound (types : TypeTable) (library : Library) (file : SourceFile) (fragment : Fragment)
    (member : (file, fragment) ∈ library.fragments) :
    (fragment.render types file).requests.length ≤ requestBound types library := by
  have requested : (fragment.render types file).requests ∈
      library.fragments.map fun entry => (entry.2.render types entry.1).requests :=
    List.mem_map.mpr ⟨(file, fragment), member, rfl⟩
  exact (List.sublist_flatten_of_mem requested).length_le

theorem unrendered_insert_lt (library : Library) (run : Run) (file : SourceFile) (fragment : Fragment)
    (entity : Entity) (text : Text) (member : (file, fragment) ∈ library.fragments)
    (named : entity.name = fragment.name) (fresh : run.catalog.contains fragment.name = false) :
    (library.fragments.filter fun entry =>
        !(run.catalog.insert entity text).contains entry.2.name).length < run.unrendered library := by
  have split (entry : SourceFile × Fragment) :
      (!(run.catalog.insert entity text).contains entry.2.name) =
        (!(decide (entity.name = entry.2.name)) && !run.catalog.contains entry.2.name) := by
    simp [Catalog.contains_insert, Bool.and_comm]
  simp only [split, ← List.filter_filter, unrendered]
  refine List.length_filter_lt_length_iff_exists.mpr ⟨(file, fragment), ?_, ?_⟩
  · exact List.mem_filter.mpr ⟨member, by simp [fresh]⟩
  · simp [named]

theorem settle_distance (types : TypeTable) (library : Library) (reference : Reference) (run : Run)
    (rest : Worklist) (next : run.worklist.next? = some (reference, rest)) :
    ({ run with worklist := rest }.settle types library reference).distance types library <
      run.distance types library := by
  have shorter := Worklist.next_shorter _ _ _ next
  unfold settle
  by_cases known : run.catalog.contains reference.name
  · simp only [known, if_true]
    exact Nat.add_lt_add_left shorter _
  · simp only [known, Bool.false_eq_true, if_false]
    cases found : library.find? reference with
    | none => exact Nat.add_lt_add_left shorter _
    | some entry =>
      obtain ⟨file, fragment⟩ := entry
      obtain ⟨member, named⟩ := Library.mem_fragments_of_find _ _ _ _ found
      have fresh : run.catalog.contains fragment.name = false := by simpa [named] using known
      have rendered := render_fresh types file fragment
        (mark { run with worklist := rest } reference.name .resolved) fresh
      simp only [rendered]
      simp only [mark, add, distance]
      have fewer := unrendered_insert_lt library run file fragment (fragment.render types file).entity
        (fragment.render types file).entity.block member rfl fresh
      have queued := Worklist.add_all_queue_length (rest.mark reference.name .resolved)
        (fragment.render types file).requests
      have bound := requests_le_bound types library file fragment member
      simp only [unrendered, Worklist.mark] at fewer queued ⊢
      generalize (library.fragments.filter fun entry =>
        !(run.catalog.insert _ _).contains entry.2.name).length = after at fewer ⊢
      generalize (library.fragments.filter fun entry => !run.catalog.contains entry.2.name).length =
        before at fewer ⊢
      generalize requestBound types library = most at bound ⊢
      have product : (after + 1) * (most + 1) ≤ before * (most + 1) := Nat.mul_le_mul_right _ fewer
      rw [Nat.add_mul] at product
      omega

-- Follows references until the queue holds none that is not drained.
def drain (types : TypeTable) (library : Library) (run : Run) : Run :=
  match next : run.worklist.next? with
  | none => { run with worklist := run.worklist.exhausted }
  | some (reference, rest) =>
    have := settle_distance types library reference run rest next
    drain types library ({ run with worklist := rest }.settle types library reference)
termination_by run.distance types library

theorem drain_idle (types : TypeTable) (library : Library) (run : Run) (next : run.worklist.next? = none) :
    run.drain types library = { run with worklist := run.worklist.exhausted } := by
  rw [drain]
  split
  · rfl
  · rename_i handed
    rw [next] at handed
    contradiction

theorem drain_round (types : TypeTable) (library : Library) (run : Run) (reference : Reference)
    (rest : Worklist) (next : run.worklist.next? = some (reference, rest)) :
    run.drain types library =
      ({ run with worklist := rest }.settle types library reference).drain types library := by
  rw [drain]
  split
  · rename_i idle
    rw [next] at idle
    contradiction
  · rename_i handed
    rw [next] at handed
    cases handed
    rfl

def renderEach (types : TypeTable) (library : Library) (file : SourceFile) (fragments : List Fragment)
    (start : Run) : Run :=
  fragments.foldl (fun run fragment => (run.render types file fragment).drain types library) start

def ofFile (types : TypeTable) (library : Library) (file : SourceFile) (start : Run) : Run :=
  (renderEach types library file file.fragments start).drain types library

end Run

end SchemaDiagram
