import SchemaDiagram.Proofs.Registrations

/-!
Registries kept as graphs. A name becomes a node of the graph when it first takes part in a connection, and its number is
looked up from then on; edges stand at the arcs. Over any library of graphs that numbers nodes and arcs in the order of
their addition such a registry shows what the list of edges shows.
-/

set_option autoImplicit false

namespace SchemaDiagram

structure Arc where
  tail : Nat
  head : Nat
  edge : Edge
deriving DecidableEq, Repr

-- A library of directed graphs with names at their nodes. Nodes and arcs are known by their numbers.
structure GraphLibrary (Graph : Type) where
  empty : Graph
  addNode : Graph → Text → Nat × Graph
  addArc : Graph → Arc → Nat × Graph
  findArc? : Graph → Nat → Nat → Option Nat
  edge? : Graph → Nat → Option Edge
  edges : Graph → List Edge

-- What a library promises of the nodes and arcs of its graphs. Arcs can be added between nodes that are there.
structure GraphLibrary.Lawful {Graph : Type} (library : GraphLibrary Graph) (nodes : Graph → List Text)
    (arcs : Graph → List Arc) : Prop where
  noNodes : nodes library.empty = []
  noArcs : arcs library.empty = []
  nodeAdded : ∀ graph name, (library.addNode graph name).1 = (nodes graph).length ∧
    nodes (library.addNode graph name).2 = nodes graph ++ [name] ∧ arcs (library.addNode graph name).2 = arcs graph
  arcAdded : ∀ graph arc, arc.tail < (nodes graph).length → arc.head < (nodes graph).length →
    (library.addArc graph arc).1 = (arcs graph).length ∧
      nodes (library.addArc graph arc).2 = nodes graph ∧ arcs (library.addArc graph arc).2 = arcs graph ++ [arc]
  arcFound : ∀ graph tail head number, library.findArc? graph tail head = some number →
    ∃ edge, (arcs graph)[number]? = some ⟨tail, head, edge⟩
  arcFinds : ∀ graph, ∀ arc ∈ arcs graph, (library.findArc? graph arc.tail arc.head).isSome = true
  edgeAt : ∀ graph number, library.edge? graph number = (arcs graph)[number]?.map Arc.edge
  edgesListed : ∀ graph, library.edges graph = (arcs graph).map Arc.edge

theorem get_concat_iff {α : Type} (items : List α) (last item : α) (position : Nat) :
    (items ++ [last])[position]? = some item ↔
      items[position]? = some item ∨ (position = items.length ∧ item = last) := by
  rcases Nat.lt_trichotomy position items.length with below | end_of | above
  · rw [List.getElem?_append_left below]
    simp [Nat.ne_of_lt below]
  · subst end_of
    simp [eq_comm]
  · have beyond : (items ++ [last]).length ≤ position := by simpa using Nat.succ_le_of_lt above
    rw [List.getElem?_eq_none beyond, List.getElem?_eq_none (Nat.le_of_lt above)]
    simp [Nat.ne_of_gt above]

structure Network (Graph : Type) where
  graph : Graph
  numbers : List (Text × Nat)

namespace Network

section

variable {Graph : Type} (library : GraphLibrary Graph)

-- The number of a name, which becomes a node if it is none.
def node (network : Network Graph) (name : Text) : Nat × Network Graph :=
  match network.numbers.lookup name with
  | some number => (number, network)
  | none =>
    let (number, graph) := library.addNode network.graph name
    (number, ⟨graph, (name, number) :: network.numbers⟩)

-- The number of the arc between two nodes, which is added if there is none.
def connect (network : Network Graph) (arc : Arc) : Nat × Network Graph :=
  match library.findArc? network.graph arc.tail arc.head with
  | some number => (number, network)
  | none =>
    let (number, graph) := library.addArc network.graph arc
    (number, ⟨graph, network.numbers⟩)

def enter (network : Network Graph) (call : Registration) : Option Edge × Network Graph :=
  if call.owner = call.target then (none, network)
  else
    let (tail, network) := node library network call.owner
    let (head, network) := node library network call.target
    let (number, network) := connect library network ⟨tail, head, call.edge⟩
    (library.edge? network.graph number, network)

def find? (network : Network Graph) (owner target : Text) : Option Edge :=
  match network.numbers.lookup owner, network.numbers.lookup target with
  | some tail, some head => (library.findArc? network.graph tail head).bind (library.edge? network.graph)
  | _, _ => none

def edges (network : Network Graph) : List Edge := library.edges network.graph

def after (calls : List Registration) : Network Graph :=
  calls.foldl (fun network call => (enter library network call).2) ⟨library.empty, []⟩

end

section

variable {Graph : Type} {library : GraphLibrary Graph} {nodes : Graph → List Text} {arcs : Graph → List Arc}

-- The names that are numbered are the nodes, and an edge stands between the nodes of its names.
structure Mirrors (nodes : Graph → List Text) (arcs : Graph → List Arc) (network : Network Graph)
    (registry : Registry) : Prop where
  numbered : ∀ name number, network.numbers.lookup name = some number ↔ (nodes network.graph)[number]? = some name
  ends : ∀ arc ∈ arcs network.graph, (nodes network.graph)[arc.tail]? = some arc.edge.owner ∧
    (nodes network.graph)[arc.head]? = some arc.edge.target
  same : (arcs network.graph).map Arc.edge = registry.edges
  distinct : (registry.edges.map Edge.pair).Nodup

variable {network : Network Graph} {registry : Registry}

theorem Mirrors.number_unique (mirrors : Mirrors nodes arcs network registry) (name : Text) (a b : Nat)
    (first : (nodes network.graph)[a]? = some name) (second : (nodes network.graph)[b]? = some name) : a = b := by
  have known := (mirrors.numbered name a).mpr first
  rw [(mirrors.numbered name b).mpr second] at known
  exact (Option.some.inj known).symm

theorem Mirrors.arc_of_find (mirrors : Mirrors nodes arcs network registry) (owner target : Text) (edge : Edge)
    (found : registry.find? owner target = some edge) :
    ∃ arc ∈ arcs network.graph, (nodes network.graph)[arc.tail]? = some owner ∧
      (nodes network.graph)[arc.head]? = some target := by
  obtain ⟨member, pair⟩ := (registry.find_some_iff mirrors.distinct owner target edge).mp found
  rw [← mirrors.same] at member
  obtain ⟨arc, among, rfl⟩ := List.mem_map.mp member
  cases pair
  exact ⟨arc, among, mirrors.ends arc among⟩

-- An arc between two nodes is the edge of their names, if there is one.
theorem Mirrors.find_arc (mirrors : Mirrors nodes arcs network registry) (lawful : library.Lawful nodes arcs)
    (owner target : Text) (tail head : Nat) (owned : (nodes network.graph)[tail]? = some owner)
    (targeted : (nodes network.graph)[head]? = some target) :
    (library.findArc? network.graph tail head).bind (library.edge? network.graph) = registry.find? owner target := by
  cases found : library.findArc? network.graph tail head with
  | none =>
    cases stood : registry.find? owner target with
    | none => rfl
    | some edge =>
      obtain ⟨arc, among, atTail, atHead⟩ := mirrors.arc_of_find owner target edge stood
      have there := lawful.arcFinds network.graph arc among
      rw [mirrors.number_unique owner _ _ atTail owned, mirrors.number_unique target _ _ atHead targeted, found] at there
      contradiction
  | some number =>
    obtain ⟨edge, stands⟩ := lawful.arcFound network.graph tail head number found
    have among := List.mem_of_getElem? stands
    obtain ⟨atTail, atHead⟩ := mirrors.ends _ among
    have owners : edge.owner = owner := Option.some.inj (atTail.symm.trans owned)
    have targets : edge.target = target := Option.some.inj (atHead.symm.trans targeted)
    have member : edge ∈ registry.edges := by
      rw [← mirrors.same]
      exact List.mem_map.mpr ⟨_, among, rfl⟩
    rw [Option.bind_some, lawful.edgeAt, stands, Option.map_some]
    exact ((registry.find_some_iff mirrors.distinct owner target edge).mpr
      ⟨member, by rw [Edge.pair, owners, targets]⟩).symm

theorem mirrors_start (lawful : library.Lawful nodes arcs) :
    Mirrors nodes arcs ⟨library.empty, []⟩ ({} : Registry) where
  numbered name number := by simp [lawful.noNodes]
  ends arc member := by
    rw [lawful.noArcs] at member
    contradiction
  same := by
    rw [lawful.noArcs]
    rfl
  distinct := List.nodup_nil

-- A name that has no number yet takes the one behind all others.
theorem Mirrors.numbered_next (mirrors : Mirrors nodes arcs network registry) (name : Text)
    (unknown : network.numbers.lookup name = none) (other : Text) (position : Nat) :
    ((name, (nodes network.graph).length) :: network.numbers).lookup other = some position ↔
      (nodes network.graph ++ [name])[position]? = some other := by
  rw [get_concat_iff, List.lookup_cons]
  by_cases same : other = name
  · have unused : (nodes network.graph)[position]? ≠ some name := by
      intro stood
      rw [(mirrors.numbered name position).mpr stood] at unknown
      contradiction
    rw [same, beq_self_eq_true]
    simp [unused, eq_comm]
  · rw [beq_false_of_ne same]
    simp [mirrors.numbered other position, same]

-- A name gets its own number, and those that had one keep theirs.
theorem node_mirrors (lawful : library.Lawful nodes arcs) (mirrors : Mirrors nodes arcs network registry)
    (name : Text) :
    Mirrors nodes arcs (node library network name).2 registry ∧
      (nodes (node library network name).2.graph)[(node library network name).1]? = some name ∧
      ∀ (position : Nat) (other : Text), (nodes network.graph)[position]? = some other →
        (nodes (node library network name).2.graph)[position]? = some other := by
  unfold node
  cases known : network.numbers.lookup name with
  | some number => exact ⟨mirrors, (mirrors.numbered name number).mp known, fun _ _ stood => stood⟩
  | none =>
    obtain ⟨number, added, kept⟩ := lawful.nodeAdded network.graph name
    have still (position : Nat) (other : Text) (stood : (nodes network.graph)[position]? = some other) :
        (nodes (library.addNode network.graph name).2)[position]? = some other := by
      rw [added]
      exact (get_concat_iff _ _ _ _).mpr (.inl stood)
    refine ⟨⟨?_, ?_, ?_, mirrors.distinct⟩, ?_, still⟩
    · have next := mirrors.numbered_next name known
      rw [← added, ← number] at next
      exact next
    · intro arc member
      rw [kept] at member
      obtain ⟨atTail, atHead⟩ := mirrors.ends arc member
      exact ⟨still _ _ atTail, still _ _ atHead⟩
    · rw [kept]
      exact mirrors.same
    · change (nodes (library.addNode network.graph name).2)[(library.addNode network.graph name).1]? = some name
      rw [number, added]
      exact List.getElem?_concat_length

-- The arc between the nodes of two names stands for the edge that was there, or else for the new one.
theorem connect_mirrors (lawful : library.Lawful nodes arcs) (mirrors : Mirrors nodes arcs network registry) (arc : Arc)
    (owned : (nodes network.graph)[arc.tail]? = some arc.edge.owner)
    (targeted : (nodes network.graph)[arc.head]? = some arc.edge.target) :
    library.edge? (connect library network arc).2.graph (connect library network arc).1 =
        some ((registry.find? arc.edge.owner arc.edge.target).getD arc.edge) ∧
      Mirrors nodes arcs (connect library network arc).2 (registry.add arc.edge) := by
  have answer := mirrors.find_arc lawful _ _ arc.tail arc.head owned targeted
  unfold connect
  cases found : library.findArc? network.graph arc.tail arc.head with
  | some number =>
    obtain ⟨edge, stands⟩ := lawful.arcFound network.graph arc.tail arc.head number found
    rw [found, Option.bind_some, lawful.edgeAt, stands, Option.map_some] at answer
    have known : registry.find? arc.edge.owner arc.edge.target ≠ none := by
      rw [← answer]
      exact Option.some_ne_none edge
    rw [Registry.add_known registry arc.edge known, lawful.edgeAt, stands, ← answer]
    exact ⟨rfl, mirrors⟩
  | none =>
    rw [found, Option.bind_none] at answer
    obtain ⟨tailBound, _⟩ := List.getElem?_eq_some_iff.mp owned
    obtain ⟨headBound, _⟩ := List.getElem?_eq_some_iff.mp targeted
    obtain ⟨number, kept, added⟩ := lawful.arcAdded network.graph arc tailBound headBound
    have fresh : arc.edge.pair ∉ registry.edges.map Edge.pair := by
      rw [← Registry.find_is_some registry arc.edge, ← answer]
      exact Bool.false_ne_true
    rw [Registry.add_absent registry arc.edge answer.symm, ← answer]
    refine ⟨?_, ?_, ?_, ?_, ?_⟩
    · rw [lawful.edgeAt, number, added, List.getElem?_concat_length]
      rfl
    · rw [kept]
      exact mirrors.numbered
    · intro other member
      rw [added] at member
      rw [kept]
      rcases List.mem_append.mp member with earlier | new
      · exact mirrors.ends other earlier
      · rw [List.mem_singleton.mp new]
        exact ⟨owned, targeted⟩
    · rw [added, List.map_append, mirrors.same]
      rfl
    · rw [List.map_append, List.map_singleton, ← List.concat_eq_append]
      exact mirrors.distinct.concat fresh

theorem enter_mirrors (lawful : library.Lawful nodes arcs) (mirrors : Mirrors nodes arcs network registry)
    (call : Registration) :
    (enter library network call).1 = (registry.enter call).1 ∧
      Mirrors nodes arcs (enter library network call).2 (registry.enter call).2 := by
  by_cases same : call.owner = call.target
  · rw [enter, if_pos same, Registry.enter_self registry call same]
    exact ⟨rfl, mirrors⟩
  · rw [enter, if_neg same, Registry.enter_other registry call same]
    obtain ⟨between, owned, _⟩ := node_mirrors lawful mirrors call.owner
    obtain ⟨both, targeted, still⟩ := node_mirrors lawful between call.target
    exact connect_mirrors lawful both ⟨_, _, call.edge⟩ (still _ _ owned) targeted

theorem entered_mirrors (lawful : library.Lawful nodes arcs) (calls : List Registration)
    (mirrors : Mirrors nodes arcs network registry) :
    Mirrors nodes arcs (calls.foldl (fun network call => (enter library network call).2) network)
      (calls.foldl (fun registry call => (registry.enter call).2) registry) := by
  induction calls generalizing network registry with
  | nil => exact mirrors
  | cons call rest ih => exact ih (enter_mirrors lawful mirrors call).2

theorem after_mirrors (lawful : library.Lawful nodes arcs) (calls : List Registration) :
    Mirrors nodes arcs (after library calls) (Registry.after calls) :=
  entered_mirrors lawful calls (mirrors_start lawful)

-- A name that is no node has no edge, whichever side it is asked for on.
theorem find_mirrors (lawful : library.Lawful nodes arcs) (mirrors : Mirrors nodes arcs network registry)
    (owner target : Text) : find? library network owner target = registry.find? owner target := by
  have unknown (absent : network.numbers.lookup owner = none ∨ network.numbers.lookup target = none) :
      registry.find? owner target = none := by
    cases stood : registry.find? owner target with
    | none => rfl
    | some edge =>
      obtain ⟨arc, _, atTail, atHead⟩ := mirrors.arc_of_find owner target edge stood
      rw [← mirrors.numbered] at atTail atHead
      rcases absent with noOwner | noTarget
      · rw [noOwner] at atTail
        contradiction
      · rw [noTarget] at atHead
        contradiction
  unfold find?
  cases owned : network.numbers.lookup owner with
  | none => exact (unknown (.inl owned)).symm
  | some tail =>
    cases targeted : network.numbers.lookup target with
    | none => exact (unknown (.inr targeted)).symm
    | some head =>
      exact mirrors.find_arc lawful owner target tail head ((mirrors.numbered owner tail).mp owned)
        ((mirrors.numbered target head).mp targeted)

theorem edges_mirrors (lawful : library.Lawful nodes arcs) (mirrors : Mirrors nodes arcs network registry) :
    edges library network = registry.edges := by
  rw [edges, lawful.edgesListed, mirrors.same]

end

-- A list of edges and a graph show the same of every history, and later calls only add to it.
theorem registrations_recorded {Graph : Type} (library : GraphLibrary Graph) (nodes : Graph → List Text)
    (arcs : Graph → List Arc) (lawful : library.Lawful nodes arcs) (calls : List Registration) :
    let registry := Registry.after calls
    let network := after library calls
    Registry.Records calls registry.edges registry.find? (fun call => (registry.enter call).1) ∧
      Registry.Records calls (edges library network) (find? library network)
        (fun call => (enter library network call).1) ∧
      ∀ more, registry.edges <+: (Registry.after (calls ++ more)).edges ∧
        edges library network <+: edges library (after library (calls ++ more)) := by
  intro registry network
  have records := Registry.after_records calls
  have mirrors : Mirrors nodes arcs network registry := after_mirrors lawful calls
  have listed : edges library network = registry.edges := edges_mirrors lawful mirrors
  have found : find? library network = registry.find? :=
    funext fun owner => funext fun target => find_mirrors lawful mirrors owner target
  have answered : (fun call => (enter library network call).1) = fun call => (registry.enter call).1 :=
    funext fun call => (enter_mirrors lawful mirrors call).1
  refine ⟨records, ?_, fun more => ?_⟩
  · rw [listed, found, answered]
    exact records
  · have longer : registry.edges <+: (Registry.after (calls ++ more)).edges := by
      rw [Registry.after_edges, Registry.after_edges]
      exact Registry.recorded_append calls more
    refine ⟨longer, ?_⟩
    rw [listed, edges_mirrors lawful (after_mirrors lawful (calls ++ more))]
    exact longer

-- Graphs as the lists of their nodes and arcs.
def listGraphs : GraphLibrary (List Text × List Arc) where
  empty := ([], [])
  addNode graph name := (graph.1.length, (graph.1 ++ [name], graph.2))
  addArc graph arc := (graph.2.length, (graph.1, graph.2 ++ [arc]))
  findArc? graph tail head := graph.2.findIdx? fun arc => arc.tail = tail && arc.head = head
  edge? graph number := graph.2[number]?.map Arc.edge
  edges graph := graph.2.map Arc.edge

theorem list_graphs_lawful : listGraphs.Lawful Prod.fst Prod.snd where
  noNodes := rfl
  noArcs := rfl
  nodeAdded graph name := ⟨rfl, rfl, rfl⟩
  arcAdded graph arc _ _ := ⟨rfl, rfl, rfl⟩
  arcFound graph tail head number found := by
    obtain ⟨below, between, _⟩ := List.findIdx?_eq_some_iff_getElem.mp found
    simp only [Bool.and_eq_true, decide_eq_true_eq] at between
    refine ⟨graph.2[number].edge, ?_⟩
    rw [List.getElem?_eq_getElem below, ← between.1, ← between.2]
  arcFinds graph arc member := by
    rw [listGraphs, List.findIdx?_isSome, List.any_eq_true]
    exact ⟨arc, member, by simp⟩
  edgeAt graph number := rfl
  edgesListed graph := rfl

def shelfCalls : List Registration := [
  ⟨"books : Association to many Books", "Shelves", "Books", .association⟩,
  ⟨"next : Association to Shelves", "Shelves", "Shelves", .association⟩,
  ⟨"shelf : Composition of one Shelves", "Books", "Shelves", .composition⟩,
  ⟨"all : Composition of many Books", "Shelves", "Books", .composition⟩]

def shelvedBooks : Edge := ⟨"Shelves", "Books", .association, .manyToOne, "associates to many"⟩
def bookShelf : Edge := ⟨"Books", "Shelves", .composition, .oneToOptional, "composes one"⟩

-- Both ways between two names, one of them twice, and a name with itself.
theorem shelves_and_books_recorded :
    let network := after listGraphs shelfCalls
    listGraphs.Lawful Prod.fst Prod.snd ∧ edges listGraphs network = [shelvedBooks, bookShelf] ∧
      find? listGraphs network "Books" "Shelves" = some bookShelf ∧
      find? listGraphs network "Books" "Authors" = none ∧
      (enter listGraphs network ⟨"b : many Books", "Shelves", "Books", .arrayDerived⟩).1 = some shelvedBooks := by
  intro network
  have records := (registrations_recorded listGraphs Prod.fst Prod.snd list_graphs_lawful shelfCalls).2.1
  refine ⟨list_graphs_lawful, records.inOrder.trans (by decide), (records.first _ _).trans (by decide),
    (records.first _ _).trans (by decide), ?_⟩
  rw [records.answers, records.first]
  decide

end Network

end SchemaDiagram
