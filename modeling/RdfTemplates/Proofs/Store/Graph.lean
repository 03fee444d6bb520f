import RdfTemplates.Proofs.Store.Structure
import RdfTemplates.Store.Graph

/-!
# The graph and its store

A graph stands for a store: its nodes for the entries and its edges for the calls, with
the IRIs that the ends of the edges carry. While the index finds exactly the nodes that
there are, adding to the graph does to the store what the operation of that name does,
and the index stays so.
-/

namespace RdfTemplates

/-- The status that the kind and the parameters of a node amount to. -/
def Node.status (node : Node) : Status :=
  let ps := node.parameters?.getD []
  match node.kind with
  | .undefined => .undefined
  | .signature => .signature ps
  | .base => .base ps
  | .definition => .definition ps

namespace Node

variable (node : Node)

/-- The kind of a node tells its status but for the parameters. -/
@[simp] theorem isUndefined_status : node.status.isUndefined = (node.kind == .undefined) := by
  obtain ⟨iri, kind, parameters?⟩ := node
  cases kind <;> rfl

@[simp] theorem isDefinition_status : node.status.isDefinition = (node.kind == .definition) := by
  obtain ⟨iri, kind, parameters?⟩ := node
  cases kind <;> rfl

@[simp] theorem isResolved_status :
    node.status.isResolved = (node.kind == .base || node.kind == .definition) := by
  obtain ⟨iri, kind, parameters?⟩ := node
  cases kind <;> rfl

@[simp] theorem isMissing_status :
    node.status.isMissing = (node.kind == .undefined || node.kind == .signature) := by
  obtain ⟨iri, kind, parameters?⟩ := node
  cases kind <;> rfl

end Node

/-- The node without its number. -/
def Node.entry (node : Node) : Entry := ⟨node.iri, node.status⟩

namespace Graph

variable {g g' : Graph} {iri : Iri} {n m : Nat} {node : Node}

/-- An edge as a call, with the IRI that its source has. -/
def call (g : Graph) (e : Edge) : Call := ⟨g.iriAt e.source, g.instanceOf e⟩

/-- The store that the graph stands for. -/
def store (g : Graph) : Store where
  entries := g.nodes.map Node.entry
  calls := g.edges.map g.call
  predicateUses := g.predicateUses
  failed := g.failed
  library := g.library
  messages := g.messages
  config := g.config

/-- The index finds the nodes that there are and no others, the declared nodes are those with
parameters, and the ends of all edges are there. -/
structure Coherent (g : Graph) : Prop where
  nodes : g.nodes.Sound
  edges : g.edges.Sound
  indexed : ∀ iri n, g.number? iri = some n ↔ ∃ node, g.nodeAt? n = some node ∧ node.iri = iri
  declared : ∀ n node, g.nodeAt? n = some node →
    (node.parameters?.isSome = true ↔ node.kind ≠ .undefined)
  ends : ∀ e ∈ g.edges.latestFirst, (g.nodeAt? e.source).isSome ∧ (g.nodeAt? e.target).isSome

/-- Only nodes, edges and index matter. -/
theorem Coherent.congr (coherent : g.Coherent) (nodes : g'.nodes = g.nodes)
    (edges : g'.edges = g.edges) (index : g'.index = g.index) : g'.Coherent := by
  cases g
  cases g'
  cases nodes
  cases edges
  cases index
  exact ⟨coherent.nodes, coherent.edges, coherent.indexed, coherent.declared, coherent.ends⟩

theorem coherent_empty (config : StoreConfig) : (empty config).Coherent where
  nodes := Numbered.sound_empty
  edges := Numbered.sound_empty
  indexed := by simp [number?, empty, nodeAt?, Numbered.get?, Numbered.empty]
  declared := by simp [empty, nodeAt?, Numbered.get?, Numbered.empty]
  ends := by simp [empty, Numbered.empty, Numbered.latestFirst]

theorem iriAt_eq (found : g.nodeAt? n = some node) : g.iriAt n = node.iri := by
  rw [iriAt, found]
  rfl

/-- Edges stand for the same calls where their ends carry the same IRIs. -/
theorem map_call_congr {edges : Numbered Edge} (same : ∀ e ∈ edges.latestFirst,
    g'.iriAt e.source = g.iriAt e.source ∧ g'.iriAt e.target = g.iriAt e.target) :
    edges.map g'.call = edges.map g.call := by
  refine Numbered.map_congr fun e listed => ?_
  obtain ⟨source, target⟩ := same e listed
  rw [call, call, instanceOf, instanceOf, source, target]

namespace Coherent

variable (coherent : g.Coherent)

include coherent

/-- No IRI has two nodes. -/
theorem unique {a b : Node} (first : g.nodeAt? n = some a) (second : g.nodeAt? m = some b)
    (same : a.iri = b.iri) : n = m := by
  have here := (coherent.indexed a.iri n).mpr ⟨a, first, rfl⟩
  have there := (coherent.indexed a.iri m).mpr ⟨b, second, same.symm⟩
  exact Option.some.inj (here.symm.trans there)

/-- The index finds the node that has the IRI, and no other. -/
theorem node?_eq_some_iff :
    g.node? iri = some node ↔ ∃ n, g.nodeAt? n = some node ∧ node.iri = iri := by
  rw [node?, Option.bind_eq_some_iff]
  constructor
  · rintro ⟨n, indexed, found⟩
    obtain ⟨other, there, carries⟩ := (coherent.indexed iri n).mp indexed
    obtain rfl := Option.some.inj (found.symm.trans there)
    exact ⟨n, found, carries⟩
  · rintro ⟨n, found, carries⟩
    exact ⟨n, (coherent.indexed iri n).mpr ⟨node, found, carries⟩, found⟩

/-- Nodes are told apart by their IRIs. -/
theorem iriAt_eq_iff (first : (g.nodeAt? n).isSome) (second : (g.nodeAt? m).isSome) :
    g.iriAt n = g.iriAt m ↔ n = m := by
  obtain ⟨a, hn⟩ := Option.isSome_iff_exists.mp first
  obtain ⟨b, hm⟩ := Option.isSome_iff_exists.mp second
  rw [iriAt_eq hn, iriAt_eq hm]
  constructor
  · exact coherent.unique hn hm
  · rintro rfl
    rw [Option.some.inj (hn.symm.trans hm)]

theorem iris_nodup : (g.store.entries.latestFirst.map (·.iri)).Nodup := by
  have listed : g.store.entries.latestFirst.map (·.iri) = g.nodes.items.map (·.2.iri) := by
    simp [store, Numbered.latestFirst, Numbered.map, Node.entry]
  rw [listed]
  have apart := coherent.nodes.numbers_nodup
  refine (List.nodup_map_iff_inj_on (List.Nodup.of_map _ apart)).mpr ?_
  rintro ⟨n, a⟩ first ⟨m, b⟩ second same
  have hn := coherent.nodes.get?_eq_some_iff.mpr first
  have hm := coherent.nodes.get?_eq_some_iff.mpr second
  obtain rfl := coherent.unique hn hm same
  rw [coherent.nodes.item_unique first second]

/-- What a search through the entries would find is what the index finds. -/
theorem status?_store : g.store.status? iri = (g.node? iri).map Node.status := by
  apply Option.ext
  intro status
  rw [Store.status?_eq_some_iff coherent.iris_nodup, Option.map_eq_some_iff]
  constructor
  · rintro ⟨n, listed⟩
    obtain ⟨⟨k, node⟩, here, same⟩ := List.mem_map.mp listed
    obtain ⟨rfl, entry⟩ := Prod.mk.inj same
    obtain ⟨carries, rfl⟩ := Entry.mk.inj entry
    exact ⟨node, coherent.node?_eq_some_iff.mpr
      ⟨k, coherent.nodes.get?_eq_some_iff.mpr here, carries⟩, rfl⟩
  · rintro ⟨node, found, rfl⟩
    obtain ⟨n, there, rfl⟩ := coherent.node?_eq_some_iff.mp found
    exact ⟨n, List.mem_map.mpr ⟨(n, node), coherent.nodes.get?_eq_some_iff.mp there, rfl⟩⟩

theorem status?_iriAt (found : g.nodeAt? n = some node) :
    g.store.status? node.iri = some node.status := by
  rw [coherent.status?_store, coherent.node?_eq_some_iff.mpr ⟨n, found, rfl⟩]
  rfl

/-- The index has a number for just the IRIs that have an entry. -/
theorem entry?_isSome : (g.store.entry? iri).isSome = (g.number? iri).isSome := by
  have known : (g.store.entry? iri).isSome = (g.store.status? iri).isSome := by
    rw [Store.status?, Option.isSome_map]
  rw [known, coherent.status?_store, Option.isSome_map, Bool.eq_iff_iff]
  constructor
  · intro found
    obtain ⟨node, found⟩ := Option.isSome_iff_exists.mp found
    obtain ⟨n, there, carries⟩ := coherent.node?_eq_some_iff.mp found
    rw [(coherent.indexed iri n).mpr ⟨node, there, carries⟩]
    rfl
  · intro found
    obtain ⟨n, found⟩ := Option.isSome_iff_exists.mp found
    obtain ⟨node, there, carries⟩ := (coherent.indexed iri n).mp found
    rw [coherent.node?_eq_some_iff.mpr ⟨n, there, carries⟩]
    rfl

end Coherent

/-- Nodes stay where they are, and keep their IRIs. -/
def Grows (g g' : Graph) : Prop :=
  ∀ n node, g.nodeAt? n = some node → ∃ node', g'.nodeAt? n = some node' ∧ node'.iri = node.iri

theorem Grows.isSome (grows : g.Grows g') (there : (g.nodeAt? n).isSome) :
    (g'.nodeAt? n).isSome := by
  obtain ⟨node, found⟩ := Option.isSome_iff_exists.mp there
  obtain ⟨node', still, -⟩ := grows n node found
  rw [still]
  rfl

theorem Grows.iriAt_eq (grows : g.Grows g') (there : (g.nodeAt? n).isSome) :
    g'.iriAt n = g.iriAt n := by
  obtain ⟨node, found⟩ := Option.isSome_iff_exists.mp there
  obtain ⟨node', still, same⟩ := grows n node found
  rw [Graph.iriAt_eq found, Graph.iriAt_eq still, same]

theorem Grows.trans {g'' : Graph} (first : g.Grows g') (second : g'.Grows g'') : g.Grows g'' := by
  intro n node found
  obtain ⟨node', still, same⟩ := first n node found
  obtain ⟨node'', last, same'⟩ := second n node' still
  exact ⟨node'', last, same'.trans same⟩

/-- The edges of a graph that grows stay the same calls. -/
theorem Grows.map_call (grows : g.Grows g') (coherent : g.Coherent) :
    g.edges.map g'.call = g.edges.map g.call :=
  map_call_congr fun e listed =>
    ⟨grows.iriAt_eq (coherent.ends e listed).1, grows.iriAt_eq (coherent.ends e listed).2⟩

/-- A node is found in the index or made under the next number. -/
theorem ensureNode_cases (g : Graph) (iri : Iri) :
    (∃ n, g.number? iri = some n ∧ g.ensureNode iri = (g, n)) ∨
      g.number? iri = none ∧ g.ensureNode iri = ({ g with
        nodes := g.nodes.add ⟨iri, .undefined, none⟩
        index := (iri, g.nodes.next) :: g.index }, g.nodes.next) := by
  unfold ensureNode
  split
  · rename_i n found
    exact .inl ⟨n, found, rfl⟩
  · rename_i unknown
    exact .inr ⟨unknown, rfl⟩

theorem nodeAt?_ensureNode_of_unknown (unknown : g.number? iri = none) (n : Nat) :
    (g.ensureNode iri).1.nodeAt? n =
      if n = g.nodes.next then some ⟨iri, .undefined, none⟩ else g.nodeAt? n := by
  rw [ensureNode, unknown]
  exact g.nodes.get?_add _ n

theorem edges_ensureNode (g : Graph) (iri : Iri) : (g.ensureNode iri).1.edges = g.edges := by
  rcases g.ensureNode_cases iri with ⟨n, -, same⟩ | ⟨-, new⟩
  · rw [same]
  · rw [new]

namespace Coherent

/-- The nodes that were there keep their numbers. -/
theorem keeps_ensureNode (coherent : g.Coherent) (iri : Iri) (found : g.nodeAt? n = some node) :
    (g.ensureNode iri).1.nodeAt? n = some node := by
  rcases g.ensureNode_cases iri with ⟨m, -, same⟩ | ⟨unknown, -⟩
  · rwa [same]
  · rw [nodeAt?_ensureNode_of_unknown unknown, if_neg]
    · exact found
    · rintro rfl
      rw [nodeAt?, coherent.nodes.get?_next] at found
      cases found

theorem grows_ensureNode (coherent : g.Coherent) (iri : Iri) : g.Grows (g.ensureNode iri).1 :=
  fun _ node found => ⟨node, coherent.keeps_ensureNode iri found, rfl⟩

theorem nodeAt?_ensureNode (coherent : g.Coherent) (iri : Iri) :
    ∃ node, (g.ensureNode iri).1.nodeAt? (g.ensureNode iri).2 = some node ∧ node.iri = iri := by
  rcases g.ensureNode_cases iri with ⟨n, known, same⟩ | ⟨unknown, new⟩
  · rw [same]
    exact (coherent.indexed iri n).mp known
  · rw [nodeAt?_ensureNode_of_unknown unknown, new, if_pos rfl]
    exact ⟨_, rfl, rfl⟩

/-- A new node goes into the index with its number, so the two stay in step. -/
theorem ensureNode (coherent : g.Coherent) (iri : Iri) : (g.ensureNode iri).1.Coherent := by
  have grows := coherent.grows_ensureNode iri
  rcases g.ensureNode_cases iri with ⟨n, -, same⟩ | ⟨unknown, new⟩
  · rwa [same]
  · have at? := nodeAt?_ensureNode_of_unknown unknown
    have absent (n node) (found : g.nodeAt? n = some node) : node.iri ≠ iri := by
      intro carries
      rw [(coherent.indexed iri n).mpr ⟨node, found, carries⟩] at unknown
      cases unknown
    have free : g.nodeAt? g.nodes.next = none := coherent.nodes.get?_next
    constructor
    case nodes =>
      rw [new]
      exact coherent.nodes.add _
    case edges =>
      rw [edges_ensureNode]
      exact coherent.edges
    case indexed =>
      intro other n
      have lookup : (g.ensureNode iri).1.number? other =
          if other = iri then some g.nodes.next else g.number? other := by
        rw [new]
        exact lookup_cons_ite other iri _ g.index
      rw [lookup, at?]
      by_cases here : other = iri
      · subst here
        rw [if_pos rfl]
        constructor
        · rintro ⟨⟩
          exact ⟨_, if_pos rfl, rfl⟩
        · rintro ⟨node, found, carries⟩
          split at found
          · rename_i same
            rw [same]
          · exact absurd carries (absent n node found)
      · rw [if_neg here, coherent.indexed other n]
        refine exists_congr fun node => and_congr_left fun carries => ?_
        split
        · rename_i same
          rw [same, free]
          constructor
          · nofun
          · intro made
            obtain rfl := Option.some.inj made
            exact absurd carries.symm here
        · exact Iff.rfl
    case declared =>
      intro n node found
      rw [at?] at found
      split at found
      · obtain rfl := Option.some.inj found
        simp
      · exact coherent.declared n node found
    case ends =>
      rw [edges_ensureNode]
      exact fun e listed => ⟨grows.isSome (coherent.ends e listed).1,
        grows.isSome (coherent.ends e listed).2⟩

/-- What a graph does to its nodes is what the store does to its entries. -/
theorem store_ensureNode (coherent : g.Coherent) (iri : Iri) :
    (g.ensureNode iri).1.store = g.store.ensure iri := by
  have calls := (coherent.grows_ensureNode iri).map_call coherent
  have known : (g.store.entry? iri).isSome = (g.number? iri).isSome := coherent.entry?_isSome
  rcases g.ensureNode_cases iri with ⟨n, found, same⟩ | ⟨unknown, new⟩
  · rw [found, Option.isSome_some] at known
    rw [same, Store.ensure, if_pos known]
  · rw [unknown] at known
    rw [Store.ensure, if_neg (by simp [known])]
    rw [new] at calls ⊢
    simp only [store, Numbered.map_add, calls]
    rfl

end Coherent

/-- The kind and the parameters of one node are exchanged together. -/
theorem nodeAt?_change (kind : NodeKind) (ps : Option ParameterList) :
    (g.change n kind ps).nodeAt? m = if m = n then
      (g.nodeAt? m).map fun node => { node with kind, parameters? := ps } else g.nodeAt? m :=
  g.nodes.get?_modify n m _

theorem grows_change (g : Graph) (n : Nat) (kind : NodeKind) (ps : Option ParameterList) :
    g.Grows (g.change n kind ps) := by
  intro m node found
  rw [nodeAt?_change, found]
  split
  · exact ⟨_, rfl, rfl⟩
  · exact ⟨node, rfl, rfl⟩

/-- They are exchanged for such that fit each other. -/
theorem Coherent.change (coherent : g.Coherent) (n : Nat) {kind : NodeKind}
    {ps : Option ParameterList} (fits : ps.isSome = true ↔ kind ≠ .undefined) :
    (g.change n kind ps).Coherent where
  nodes := coherent.nodes.modify n fun node => { node with kind, parameters? := ps }
  edges := coherent.edges
  indexed := by
    intro iri m
    refine (coherent.indexed iri m).trans ?_
    rw [nodeAt?_change]
    split
    · cases g.nodeAt? m <;> simp
    · exact Iff.rfl
  declared := by
    intro m node found
    rw [nodeAt?_change] at found
    split at found
    · obtain ⟨old, -, rfl⟩ := Option.map_eq_some_iff.mp found
      exact fits
    · exact coherent.declared m node found
  ends := fun e listed => ⟨(g.grows_change n kind ps).isSome (coherent.ends e listed).1,
    (g.grows_change n kind ps).isSome (coherent.ends e listed).2⟩

/-- Changing the node of an IRI is giving the entry another status. -/
theorem Coherent.store_change (coherent : g.Coherent) (found : g.nodeAt? n = some node)
    (kind : NodeKind) (ps : Option ParameterList) :
    (g.change n kind ps).store =
      g.store.setStatus node.iri (Node.status ⟨node.iri, kind, ps⟩) := by
  have known : (g.store.entry? node.iri).isSome = true := by
    rw [coherent.entry?_isSome, (coherent.indexed node.iri n).mpr ⟨node, found, rfl⟩]
    rfl
  have calls := (g.grows_change n kind ps).map_call coherent
  have entries : (g.change n kind ps).nodes.map Node.entry =
      (g.nodes.map Node.entry).map fun e =>
        if e.iri == node.iri then { e with status := Node.status ⟨node.iri, kind, ps⟩ } else e := by
    simp only [Graph.change, Numbered.modify, Numbered.map, List.map_map, Numbered.mk.injEq,
      and_true]
    refine List.map_congr_left ?_
    rintro ⟨m, other⟩ listed
    have there : g.nodeAt? m = some other := coherent.nodes.get?_eq_some_iff.mpr listed
    by_cases here : m = n
    · subst here
      obtain rfl := Option.some.inj (found.symm.trans there)
      simp [Node.entry, Node.status]
    · have apart : other.iri ≠ node.iri := fun same => here (coherent.unique there found same)
      simp [Node.entry, here, apart]
  rw [Store.setStatus, Store.ensure, if_pos known]
  simp only [store, entries]
  congr 1

theorem Coherent.declare (coherent : g.Coherent) (iri : Iri) {kind : NodeKind}
    (declared : kind ≠ .undefined) (ps : ParameterList) :
    (g.declare iri kind ps).1.Coherent :=
  (coherent.ensureNode iri).change _ (by simpa using declared)

theorem Coherent.nodeAt?_declare (coherent : g.Coherent) (iri : Iri) (kind : NodeKind)
    (ps : ParameterList) : ∃ node,
      (g.declare iri kind ps).1.nodeAt? (g.declare iri kind ps).2 = some node ∧ node.iri = iri := by
  obtain ⟨node, found, carries⟩ := coherent.nodeAt?_ensureNode iri
  refine ⟨{ node with kind, parameters? := some ps }, ?_, carries⟩
  rw [Graph.declare, nodeAt?_change, if_pos rfl, found]
  rfl

/-- Declaring a node sets the status of its IRI. -/
theorem Coherent.store_declare (coherent : g.Coherent) (iri : Iri) (kind : NodeKind)
    (ps : ParameterList) : (g.declare iri kind ps).1.store =
      g.store.setStatus iri (Node.status ⟨iri, kind, some ps⟩) := by
  obtain ⟨node, found, rfl⟩ := coherent.nodeAt?_ensureNode iri
  have changed := (coherent.ensureNode node.iri).store_change found kind (some ps)
  rw [coherent.store_ensureNode] at changed
  refine changed.trans ?_
  rw [Store.setStatus, Store.ensure_ensure]
  rfl

/-- An edge leads to a node that is there, or is made for it. -/
theorem Coherent.addEdge (coherent : g.Coherent) (there : (g.nodeAt? n).isSome) (i : Instance) :
    (g.addEdge n i).Coherent := by
  have grown := coherent.ensureNode i.iri
  have grows := coherent.grows_ensureNode i.iri
  obtain ⟨target, found, -⟩ := coherent.nodeAt?_ensureNode i.iri
  refine ⟨grown.nodes, grown.edges.add _, grown.indexed, grown.declared, ?_⟩
  intro e listed
  rw [Graph.addEdge, Numbered.latestFirst_add] at listed
  rcases List.mem_cons.mp listed with rfl | old
  · exact ⟨grows.isSome there, Option.isSome_iff_exists.mpr ⟨target, found⟩⟩
  · exact grown.ends e old

theorem Coherent.grows_addEdge (coherent : g.Coherent) (n : Nat) (i : Instance) :
    g.Grows (g.addEdge n i) := coherent.grows_ensureNode i.iri

/-- An edge is a call. -/
theorem Coherent.store_addEdge (coherent : g.Coherent) (there : (g.nodeAt? n).isSome)
    (i : Instance) : (g.addEdge n i).store = g.store.addCall (g.iriAt n) i := by
  obtain ⟨target, found, carries⟩ := coherent.nodeAt?_ensureNode i.iri
  have uses : (g.ensureNode i.iri).1.predicateUses = g.predicateUses := by
    rcases g.ensureNode_cases i.iri with ⟨n, -, same⟩ | ⟨-, new⟩
    · rw [same]
    · rw [new]
  let grown := (g.ensureNode i.iri).1
  let e : Edge := ⟨n, (g.ensureNode i.iri).2, i.arguments⟩
  have new : grown.call e = ⟨g.iriAt n, i⟩ := by
    rw [call, instanceOf, (coherent.grows_ensureNode i.iri).iriAt_eq there, iriAt_eq found, carries]
  calc (g.addEdge n i).store
      = { grown.store with
          calls := (grown.edges.add e).map grown.call
          predicateUses := Store.noteUse g.predicateUses (g.iriAt n) i } := rfl
    _ = { grown.store with
          calls := grown.store.calls.add ⟨g.iriAt n, i⟩
          predicateUses := Store.noteUse grown.store.predicateUses (g.iriAt n) i } := by
        rw [Numbered.map_add, new, ← uses]
        rfl
    _ = g.store.addCall (g.iriAt n) i := by
        rw [coherent.store_ensureNode i.iri]
        rfl

section Body

variable (body : List Instance)

theorem Coherent.foldl_addEdge (coherent : g.Coherent) (there : (g.nodeAt? n).isSome) :
    (body.foldl (·.addEdge n ·) g).Coherent := by
  induction body generalizing g with
  | nil => exact coherent
  | cons i body ih =>
      exact ih (coherent.addEdge there i) ((coherent.grows_addEdge n i).isSome there)

/-- The edges of a body are its calls. -/
theorem Coherent.store_foldl_addEdge (coherent : g.Coherent) (there : (g.nodeAt? n).isSome) :
    (body.foldl (·.addEdge n ·) g).store = body.foldl (·.addCall (g.iriAt n) ·) g.store := by
  induction body generalizing g with
  | nil => rfl
  | cons i body ih =>
      have grows := coherent.grows_addEdge n i
      rw [List.foldl_cons, ih (coherent.addEdge there i) (grows.isSome there),
        coherent.store_addEdge there, grows.iriAt_eq there, List.foldl_cons]

end Body

/-- The graph is coherent and stands for the store. -/
structure StandsFor (g : Graph) (s : Store) : Prop where
  coherent : g.Coherent
  store : g.store = s

/-- An operation on a graph has done what an operation on its store does, with its answer. -/
structure Mirrors (done : Graph × Bool) (told : Store × Bool) : Prop where
  graph : done.1.StandsFor told.1
  answer : done.2 = told.2

namespace Coherent

theorem say (coherent : g.Coherent) (m : Message) : (g.say m).StandsFor (g.store.say m) :=
  ⟨coherent.congr rfl rfl rfl, rfl⟩

theorem refuse (coherent : g.Coherent) (iri : Iri) (reason : String) :
    Mirrors (g.refuse iri reason) (g.store.refuse iri reason) :=
  ⟨coherent.say _, rfl⟩

/-- To declare a node is to set a status. -/
theorem mirrors_declare (coherent : g.Coherent) (iri : Iri) (kind : NodeKind)
    (declared : kind ≠ .undefined) (ps : ParameterList) :
    Mirrors ((g.declare iri kind ps).1, true)
      (g.store.setStatus iri (Node.status ⟨iri, kind, some ps⟩), true) :=
  ⟨⟨coherent.declare iri declared ps, coherent.store_declare iri kind ps⟩, rfl⟩

/-- A definition of the graph stands for one of the store, body and predicates included. -/
theorem define (coherent : g.Coherent) (t : Template) :
    (g.define t).StandsFor (g.store.define t) := by
  have defined : NodeKind.definition ≠ .undefined := nofun
  have declared := coherent.declare t.iri defined t.parameters
  obtain ⟨node, found, carries⟩ := coherent.nodeAt?_declare t.iri .definition t.parameters
  have there := Option.isSome_iff_exists.mpr ⟨node, found⟩
  have added := declared.store_foldl_addEdge t.body there
  rw [iriAt_eq found, carries, coherent.store_declare] at added
  exact ⟨declared.foldl_addEdge t.body there, added⟩

/-- A declared node has parameters and an undefined one has none. -/
theorem node_cases (coherent : g.Coherent) (known : g.node? iri = some node) :
    (node.kind = .undefined ∧ node.parameters? = none) ∨
      node.kind ≠ .undefined ∧ ∃ ps, node.parameters? = some ps := by
  obtain ⟨n, found, -⟩ := coherent.node?_eq_some_iff.mp known
  have declared := coherent.declared n node found
  by_cases undefined : node.kind = .undefined
  · exact .inl ⟨undefined, by simpa [undefined] using declared⟩
  · exact .inr ⟨undefined, Option.isSome_iff_exists.mp (declared.mpr undefined)⟩

/-- Both take a base or refuse it with the same message. -/
theorem addBase (coherent : g.Coherent) (iri : Iri) (ps : ParameterList) :
    Mirrors (g.addBase iri ps) (g.store.addBase iri ps) := by
  have declare := coherent.mirrors_declare iri .base nofun ps
  unfold Graph.addBase Store.addBase
  rw [coherent.status?_store]
  cases known : g.node? iri with
  | none => exact declare
  | some node =>
      have parameters := coherent.node_cases known
      obtain ⟨own, kind, parameters?⟩ := node
      rcases parameters with ⟨rfl, rfl⟩ | ⟨declared, existing, rfl⟩
      · exact declare
      · cases kind with
        | undefined => exact absurd rfl declared
        | signature | base =>
            cases same : existing.sameShape ps with
            | true => simpa [Node.status, same] using declare
            | false => simpa [Node.status, same] using coherent.refuse iri _
        | definition => exact coherent.refuse iri _

theorem addSignature (coherent : g.Coherent) (s : Signature) :
    Mirrors (g.addSignature s) (g.store.addSignature s) := by
  have declare := coherent.mirrors_declare s.iri .signature nofun s.parameters
  unfold Graph.addSignature Store.addSignature
  split
  · exact coherent.addBase s.iri s.parameters
  · rw [coherent.status?_store, kind?]
    cases g.node? s.iri with
    | none => exact declare
    | some node =>
        obtain ⟨own, kind, parameters?⟩ := node
        cases kind with
        | undefined => exact declare
        | signature | base | definition => exact ⟨coherent.say _, rfl⟩

/-- Both take a template or refuse it with the same message. -/
theorem addTemplate (coherent : g.Coherent) (t : Template) :
    Mirrors (g.addTemplate t) (g.store.addTemplate t) := by
  have define : Mirrors (g.define t, true) (g.store.define t, true) := ⟨coherent.define t, rfl⟩
  unfold Graph.addTemplate Store.addTemplate
  rw [coherent.status?_store]
  cases known : g.node? t.iri with
  | none => exact define
  | some node =>
      have parameters := coherent.node_cases known
      obtain ⟨own, kind, parameters?⟩ := node
      rcases parameters with ⟨rfl, rfl⟩ | ⟨declared, existing, rfl⟩
      · exact define
      · cases kind with
        | undefined => exact absurd rfl declared
        | signature =>
            cases same : existing.sameShape t.parameters with
            | true => simpa [Node.status, same] using define
            | false => simpa [Node.status, same] using coherent.refuse t.iri _
        | base | definition => exact coherent.refuse t.iri _

/-- Whatever is declared, the graph goes on to stand for its store. -/
theorem accept (coherent : g.Coherent) (d : Declaration) :
    Mirrors (g.accept d) (g.store.accept d) := by
  cases d with
  | signature s => exact coherent.addSignature s
  | template t => exact coherent.addTemplate t

end Coherent

end Graph

end RdfTemplates
