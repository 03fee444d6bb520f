import RdfTemplates.Proofs.Store.Graph

/-!
# Removing from a graph

The edges from a node are the calls of the entry, and those to it are the calls that the
entry has. So dropping edges, pruning, removing a template and editing a body do to the
store what the operation of that name does. A node goes only with its place in the index,
after the edges at it.
-/

namespace RdfTemplates

namespace Graph

variable {g g' : Graph} {iri : Iri} {n m : Nat} {node : Node}

theorem filter_calls (g : Graph) {p : Call → Bool} {q : Edge → Bool}
    (same : ∀ e ∈ g.edges.latestFirst, p (g.call e) = q e) :
    (g.store.calls.items.filter fun item => p item.2) =
      (g.edges.items.filter fun item => q item.2).map fun (k, e) => (k, g.call e) := by
  have items : g.store.calls.items = g.edges.items.map fun (k, e) => (k, g.call e) := rfl
  rw [items, List.filter_map]
  congr 1
  exact List.filter_congr fun item listed => same item.2 (List.mem_map_of_mem listed)

namespace Coherent

/-- The edges that go out of a node are the calls from its IRI. -/
theorem callsFrom_store (coherent : g.Coherent) (there : (g.nodeAt? n).isSome) :
    g.store.callsFrom (g.iriAt n) = (g.edgesFrom n).map fun (k, e) => (k, g.call e) := by
  refine g.filter_calls (p := (·.caller == g.iriAt n)) (q := (·.source == n)) fun e listed => ?_
  rw [Bool.eq_iff_iff, beq_iff_eq, beq_iff_eq]
  exact coherent.iriAt_eq_iff (coherent.ends e listed).1 there

/-- The edges that come into a node are the calls to its IRI. -/
theorem callsTo_store (coherent : g.Coherent) (there : (g.nodeAt? n).isSome) :
    g.store.callsTo (g.iriAt n) = (g.edgesTo n).map fun (k, e) => (k, g.call e) := by
  refine g.filter_calls (p := (·.callee == g.iriAt n)) (q := (·.target == n)) fun e listed => ?_
  rw [Bool.eq_iff_iff, beq_iff_eq, beq_iff_eq]
  exact coherent.iriAt_eq_iff (coherent.ends e listed).2 there

/-- The body at a node is the body of its IRI. -/
theorem bodyOf_store (coherent : g.Coherent) (there : (g.nodeAt? n).isSome) :
    g.store.bodyOf (g.iriAt n) = g.bodyAt n := by
  let called (item : Nat × Edge) : Nat × Call := (item.1, g.call item.2)
  have sorted : stableSort (fun a b => decide (a.1 ≤ b.1)) ((g.edgesFrom n).map called) =
      (stableSort (fun a b => decide (a.1 ≤ b.1)) (g.edgesFrom n)).map called :=
    stableSort_map (fun _ _ => rfl) (g.edgesFrom n)
  rw [Store.bodyOf, coherent.callsFrom_store there, bodyAt]
  exact (congrArg (List.map (·.2.target)) sorted).trans List.map_map

end Coherent

theorem store_dropEdges (g : Graph) (doomed : List (Nat × Edge)) :
    (g.dropEdges doomed).store =
      { g.store with calls := g.store.calls.removeAll (doomed.map Prod.fst) } := by
  have calls := g.edges.map_removeAll (doomed.map Prod.fst) g.call
  rw [store, store, ← calls]
  rfl

/-- Edges can go without harm. -/
theorem Coherent.dropEdges (coherent : g.Coherent) {doomed : List (Nat × Edge)}
    (used : doomed.Sublist g.edges.items) : (g.dropEdges doomed).Coherent := by
  refine ⟨coherent.nodes, ?_, coherent.indexed, coherent.declared, ?_⟩
  · exact coherent.edges.removeAll ((used.map Prod.fst).nodup coherent.edges.numbers_nodup)
      fun _ listed => (used.map Prod.fst).subset listed
  · intro e listed
    exact coherent.ends e (((g.edges.sublist_removeAll _).map Prod.snd).subset listed)

/-- No edge leads from the node or to it. -/
def Bare (g : Graph) (n : Nat) : Prop :=
  ∀ e ∈ g.edges.latestFirst, e.source ≠ n ∧ e.target ≠ n

theorem Bare.edgesFrom_eq (bare : g.Bare n) : g.edgesFrom n = [] := by
  refine List.filter_eq_nil_iff.mpr fun item listed => ?_
  simpa using (bare item.2 (List.mem_map_of_mem listed)).1

theorem Bare.edgesTo_eq (bare : g.Bare n) : g.edgesTo n = [] := by
  refine List.filter_eq_nil_iff.mpr fun item listed => ?_
  simpa using (bare item.2 (List.mem_map_of_mem listed)).2

theorem Bare.removeNode_eq (bare : g.Bare n) :
    g.removeNode n = { g with nodes := g.nodes.remove n } := by
  have first : g.dropEdges (g.edgesFrom n) = g := by
    rw [bare.edgesFrom_eq]
    rfl
  have second : g.dropEdges (g.edgesTo n) = g := by
    rw [bare.edgesTo_eq]
    rfl
  rw [removeNode, first, second]

theorem Bare.discard_eq (bare : g.Bare n) (found : g.nodeAt? n = some node) :
    g.discard n = { g with
      nodes := g.nodes.remove n
      index := g.index.filter (·.1 != node.iri) } := by
  rw [discard, found, bare.removeNode_eq]
  rfl

theorem Bare.nodeAt?_discard (bare : g.Bare n) (found : g.nodeAt? n = some node) (m : Nat) :
    (g.discard n).nodeAt? m = if m = n then none else g.nodeAt? m := by
  rw [bare.discard_eq found]
  exact g.nodes.get?_remove n m

/-- A node without edges is taken out with its number in the index, so no number is left that leads
nowhere. -/
theorem Coherent.discard (coherent : g.Coherent) (bare : g.Bare n)
    (found : g.nodeAt? n = some node) : (g.discard n).Coherent := by
  have at? := bare.nodeAt?_discard found
  have number? (iri : Iri) : (g.discard n).number? iri =
      if iri = node.iri then none else g.number? iri := by
    rw [bare.discard_eq found]
    exact lookup_filter_ne iri node.iri g.index
  have edges : (g.discard n).edges = g.edges := by rw [bare.discard_eq found]
  constructor
  case nodes =>
    rw [bare.discard_eq found]
    exact coherent.nodes.remove
      (List.mem_map.mpr ⟨(n, node), coherent.nodes.get?_eq_some_iff.mp found, rfl⟩)
  case edges => exact edges ▸ coherent.edges
  case indexed =>
    intro iri m
    rw [number?, at?]
    by_cases here : m = n
    · subst here
      rw [if_pos rfl]
      split
      · simp
      · rename_i apart
        rw [coherent.indexed iri m, found]
        simp [Ne.symm apart]
    · rw [if_neg here]
      split
      · rename_i same
        subst same
        refine ⟨nofun, ?_⟩
        rintro ⟨other, there, same⟩
        exact absurd (coherent.unique there found same) here
      · exact coherent.indexed iri m
  case declared =>
    intro m other there
    rw [at?] at there
    split at there
    · cases there
    · exact coherent.declared m other there
  case ends =>
    intro e listed
    rw [edges] at listed
    rw [at?, at?, if_neg (bare e listed).1, if_neg (bare e listed).2]
    exact coherent.ends e listed

/-- To the store this is the removal of an entry. -/
theorem Bare.store_discard (bare : g.Bare n) (found : g.nodeAt? n = some node) :
    (g.discard n).store = { g.store with entries := g.store.entries.remove n } := by
  have kept (m : Nat) (apart : m ≠ n) : (g.discard n).iriAt m = g.iriAt m := by
    rw [iriAt, bare.nodeAt?_discard found, if_neg apart]
    rfl
  have calls : g.edges.map (g.discard n).call = g.edges.map g.call :=
    map_call_congr fun e listed => ⟨kept _ (bare e listed).1, kept _ (bare e listed).2⟩
  rw [bare.discard_eq found] at calls ⊢
  simp only [store, Numbered.map_remove, calls]

/-- Nodes without edges are taken out one after the other. -/
theorem Coherent.foldl_discard (coherent : g.Coherent) {ns : List Nat} (nodup : ns.Nodup)
    (bare : ∀ n ∈ ns, (g.nodeAt? n).isSome ∧ g.Bare n) :
    (ns.foldl Graph.discard g).StandsFor
      { g.store with entries := g.store.entries.removeAll ns } := by
  induction ns generalizing g with
  | nil => exact ⟨coherent, rfl⟩
  | cons n ns ih =>
      obtain ⟨new, nodup⟩ := List.nodup_cons.mp nodup
      obtain ⟨there, alone⟩ := bare n List.mem_cons_self
      obtain ⟨node, found⟩ := Option.isSome_iff_exists.mp there
      have edges : (g.discard n).edges = g.edges := by rw [alone.discard_eq found]
      have next := ih (coherent.discard alone found) nodup fun m listed => by
        have apart : m ≠ n := fun same => new (same ▸ listed)
        rw [alone.nodeAt?_discard found, if_neg apart, Bare, edges]
        exact bare m (List.mem_cons_of_mem n listed)
      rw [alone.store_discard found] at next
      exact next

theorem Coherent.definition_of_source (coherent : g.Coherent) (wf : g.store.WellFormed) {e : Edge}
    (listed : e ∈ g.edges.latestFirst) (found : g.nodeAt? e.source = some node) :
    node.kind = .definition := by
  have used : g.call e ∈ g.store.calls.latestFirst := by
    rw [store, Numbered.latestFirst_map]
    exact List.mem_map_of_mem listed
  obtain ⟨item, here, same⟩ := List.mem_map.mp used
  have defined := wf.callers item here
  rw [same, call, iriAt_eq found, Store.isDefinition, coherent.status?_iriAt found,
    Option.any_some, Node.isDefinition_status] at defined
  exact eq_of_beq defined

/-- No edge leads to a node that nothing instantiates. -/
theorem target_ne_of_uncalled (uncalled : (g.edgesTo n).isEmpty = true) {e : Edge}
    (listed : e ∈ g.edges.latestFirst) : e.target ≠ n := by
  rintro rfl
  obtain ⟨item, here, rfl⟩ := List.mem_map.mp listed
  have leads := List.filter_eq_nil_iff.mp (List.isEmpty_iff.mp uncalled) item here
  simp at leads

/-- A node without a definition that nothing instantiates is bare. -/
theorem Coherent.bare (coherent : g.Coherent) (wf : g.store.WellFormed)
    (found : g.nodeAt? n = some node) (other : node.kind ≠ .definition)
    (uncalled : (g.edgesTo n).isEmpty = true) : g.Bare n := by
  refine fun e listed => ⟨?_, target_ne_of_uncalled uncalled listed⟩
  rintro rfl
  exact other (coherent.definition_of_source wf listed found)

/-- Graph and store prune the same numbers. -/
theorem Coherent.orphans_store (coherent : g.Coherent) :
    g.store.orphans.map Prod.fst = g.orphans := by
  have entries : g.store.entries.numberedInOrder =
      g.nodes.numberedInOrder.map fun item => (item.1, item.2.entry) :=
    g.nodes.numberedInOrder_map Node.entry
  rw [Store.orphans, entries, List.filter_map, List.map_map, orphans]
  congr 1
  refine List.filter_congr ?_
  rintro ⟨n, node⟩ listed
  have found : g.nodeAt? n = some node :=
    coherent.nodes.get?_eq_some_iff.mpr (g.nodes.numberedInOrder_perm.mem_iff.mp listed)
  have calls := coherent.callsTo_store (Option.isSome_iff_exists.mpr ⟨node, found⟩)
  rw [iriAt_eq found] at calls
  simp [Node.entry, calls]

/-- Pruning the graph prunes its store. -/
theorem Coherent.prune (coherent : g.Coherent) (wf : g.store.WellFormed) :
    g.prune.StandsFor g.store.prune := by
  have inOrder := g.nodes.numberedInOrder_perm
  have nodup : g.orphans.Nodup :=
    (List.filter_sublist.map Prod.fst).nodup
      ((inOrder.map Prod.fst).nodup_iff.mpr coherent.nodes.numbers_nodup)
  rw [Store.prune_eq, Store.dropEntries, coherent.orphans_store]
  refine coherent.foldl_discard nodup fun n listed => ?_
  obtain ⟨⟨n, node⟩, orphan, rfl⟩ := List.mem_map.mp listed
  obtain ⟨here, undefined⟩ := List.mem_filter.mp orphan
  obtain ⟨undefined, uncalled⟩ := Bool.and_eq_true _ _ |>.mp undefined
  have found : g.nodeAt? n = some node :=
    coherent.nodes.get?_eq_some_iff.mpr (inOrder.mem_iff.mp here)
  refine ⟨Option.isSome_iff_exists.mpr ⟨node, found⟩, coherent.bare wf found ?_ uncalled⟩
  rw [eq_of_beq undefined]
  nofun

theorem Coherent.node?_eq_none (coherent : g.Coherent) (unknown : g.number? iri = none) :
    g.store.status? iri = none := by
  rw [coherent.status?_store, node?, unknown]
  rfl

/-- The graph with the body of a node dropped. -/
def silenced (g : Graph) (n : Nat) (iri : Iri) : Graph :=
  let g := g.dropEdges (g.edgesFrom n)
  { g with predicateUses := Store.forgetUses g.predicateUses iri }

theorem Coherent.silenced (coherent : g.Coherent) (found : g.nodeAt? n = some node) :
    (g.silenced n node.iri).StandsFor (g.store.silenced node.iri) := by
  have dropped := coherent.dropEdges (List.filter_sublist : (g.edgesFrom n).Sublist _)
  refine ⟨dropped.congr rfl rfl rfl, ?_⟩
  have calls := coherent.callsFrom_store (Option.isSome_iff_exists.mpr ⟨node, found⟩)
  have numbers : (g.store.callsFrom node.iri).map Prod.fst = (g.edgesFrom n).map Prod.fst := by
    rw [iriAt_eq found] at calls
    simp [calls]
  have store := g.store_dropEdges (g.edgesFrom n)
  rw [Store.silenced, Store.dropCalls, numbers]
  exact congrArg (fun s : Store => { s with
    predicateUses := Store.forgetUses s.predicateUses node.iri }) store

/-- Where a body was dropped, no edge leads from the node. -/
theorem source_ne_of_silenced {e : Edge} (listed : e ∈ (g.silenced n iri).edges.latestFirst) :
    e.source ≠ n := by
  rintro rfl
  obtain ⟨item, here, rfl⟩ := List.mem_map.mp listed
  obtain ⟨used, kept⟩ := Numbered.mem_removeAll.mp here
  exact kept (List.mem_map_of_mem (List.mem_filter.mpr ⟨used, by simp⟩))

/-- The entry of an IRI is the one of its node. -/
theorem Coherent.filter_entries (coherent : g.Coherent) (found : g.nodeAt? n = some node) :
    (g.store.entries.items.filter (·.2.iri == node.iri)).map Prod.fst = [n] := by
  have nodup : (g.store.entries.items.map Prod.fst).Nodup :=
    (coherent.nodes.map Node.entry).numbers_nodup
  refine List.perm_singleton.mp ((List.perm_ext_iff_of_nodup
    ((List.filter_sublist.map Prod.fst).nodup nodup) (List.nodup_singleton n)).mpr fun m => ?_)
  rw [List.mem_map, List.mem_singleton]
  constructor
  · rintro ⟨⟨k, e⟩, listed, rfl⟩
    obtain ⟨here, carries⟩ := List.mem_filter.mp listed
    obtain ⟨⟨l, other⟩, there, same⟩ := List.mem_map.mp here
    obtain ⟨rfl, rfl⟩ := Prod.mk.inj same
    exact coherent.unique (coherent.nodes.get?_eq_some_iff.mpr there) found (eq_of_beq carries)
  · rintro rfl
    refine ⟨(m, node.entry), List.mem_filter.mpr ⟨List.mem_map.mpr ⟨(m, node), ?_, rfl⟩, ?_⟩, rfl⟩
    · exact coherent.nodes.get?_eq_some_iff.mp found
    · exact beq_self_eq_true node.iri

/-- The graph without what is declared about the IRI of a node, before pruning. -/
def cleared (g : Graph) (n : Nat) (iri : Iri) : Graph :=
  let silent := g.silenced n iri
  if (silent.edgesTo n).isEmpty then (silent.removeNode n).forgetIri iri
  else silent.change n .undefined none

/-- A node that is called stays, without its kind and its parameters, and one that is not goes. -/
theorem Coherent.cleared (coherent : g.Coherent) (found : g.nodeAt? n = some node) :
    (g.cleared n node.iri).StandsFor (g.store.cleared node.iri) := by
  obtain ⟨silent, store⟩ := coherent.silenced found
  have found : (g.silenced n node.iri).nodeAt? n = some node := found
  have calls := silent.callsTo_store (Option.isSome_iff_exists.mpr ⟨node, found⟩)
  rw [iriAt_eq found] at calls
  have empty : ((g.store.silenced node.iri).callsTo node.iri).isEmpty =
      ((g.silenced n node.iri).edgesTo n).isEmpty := by
    rw [← store, calls]
    simp
  have cleared : g.store.cleared node.iri =
      if ((g.store.silenced node.iri).callsTo node.iri).isEmpty then
        (g.store.silenced node.iri).removeEntry node.iri
      else (g.store.silenced node.iri).setStatus node.iri .undefined := rfl
  rw [cleared, empty, Graph.cleared]
  split
  · rename_i uncalled
    have bare : (g.silenced n node.iri).Bare n := fun e listed =>
      ⟨source_ne_of_silenced listed, target_ne_of_uncalled uncalled listed⟩
    have discarded : ((g.silenced n node.iri).removeNode n).forgetIri node.iri =
        (g.silenced n node.iri).discard n := by
      rw [Graph.discard, found]
    rw [discarded]
    refine ⟨silent.discard bare found, ?_⟩
    rw [bare.store_discard found, Store.removeEntry, ← store, silent.filter_entries found]
    rfl
  · refine ⟨silent.change n (by simp), ?_⟩
    rw [silent.store_change found, store]
    rfl

/-- A template is removed from the graph and from its store alike. -/
theorem Coherent.remove (coherent : g.Coherent) (wf : g.store.WellFormed) (iri : Iri) :
    Mirrors (g.remove iri) (g.store.remove iri) := by
  unfold Graph.remove
  cases known : g.number? iri with
  | none =>
      have unknown : ¬ g.store.contains iri = true := by
        rw [Store.contains, coherent.node?_eq_none known]
        nofun
      rw [Store.remove_of_not_contains unknown]
      exact ⟨⟨coherent, rfl⟩, rfl⟩
  | some n =>
      obtain ⟨node, found, rfl⟩ := (coherent.indexed iri n).mp known
      have contains : g.store.contains node.iri = !(node.kind == .undefined) := by
        rw [Store.contains, coherent.status?_iriAt found, Option.any_some,
          Node.isUndefined_status]
      dsimp only
      rw [found, Option.all_some]
      split
      · rename_i undefined
        rw [undefined] at contains
        rw [Store.remove_of_not_contains (by simp [contains])]
        exact ⟨⟨coherent, rfl⟩, rfl⟩
      · rename_i declared
        rw [Store.remove_of_contains (by simpa [contains] using declared)]
        obtain ⟨cleared, store⟩ := coherent.cleared found
        have pruned := cleared.prune (store ▸ wf.cleared node.iri)
        rw [store] at pruned
        exact ⟨pruned, rfl⟩

theorem Coherent.keeps_addMissingEdge (coherent : g.Coherent) (i : Instance)
    (found : g.nodeAt? m = some node) : (g.addMissingEdge n i).nodeAt? m = some node := by
  unfold Graph.addMissingEdge
  split
  · exact found
  · exact coherent.keeps_ensureNode i.iri found

/-- An edge is added where the store adds a call. -/
theorem Coherent.addMissingEdge (coherent : g.Coherent) (found : g.nodeAt? n = some node)
    (i : Instance) :
    (g.addMissingEdge n i).StandsFor (g.store.addMissingCall node.iri i) := by
  have there := Option.isSome_iff_exists.mpr ⟨node, found⟩
  have listed : (g.store.callsFrom node.iri).any (·.2.target == i) =
      (g.edgesFrom n).any (g.instanceOf ·.2 == i) := by
    rw [← iriAt_eq found, coherent.callsFrom_store there, List.any_map]
    rfl
  rw [Store.addMissingCall, listed, Graph.addMissingEdge]
  split
  · exact ⟨coherent, rfl⟩
  · refine ⟨coherent.addEdge there i, ?_⟩
    rw [coherent.store_addEdge there i, iriAt_eq found]

theorem Coherent.foldl_addMissingEdge (coherent : g.Coherent) (found : g.nodeAt? n = some node)
    (into : List Instance) :
    (into.foldl (·.addMissingEdge n ·) g).StandsFor
        (into.foldl (·.addMissingCall node.iri ·) g.store) ∧
      (into.foldl (·.addMissingEdge n ·) g).nodeAt? n = some node := by
  induction into generalizing g with
  | nil => exact ⟨⟨coherent, rfl⟩, found⟩
  | cons i into ih =>
      obtain ⟨added, store⟩ := coherent.addMissingEdge found i
      have kept := coherent.keeps_addMissingEdge (n := n) i found
      rw [List.foldl_cons, List.foldl_cons, ← store]
      exact ih added kept

/-- The graph with a body edited, before pruning. -/
def edited (g : Graph) (n : Nat) (iri : Iri) (out into : List Instance) : Graph :=
  let doomed := (g.edgesFrom n).filter fun (_, e) => out.contains (g.instanceOf e)
  (into.foldl (·.addMissingEdge n ·) (g.dropEdges doomed)).renewUses iri

theorem Coherent.body?_eq (coherent : g.Coherent) (found : g.nodeAt? n = some node)
    (defined : node.kind = .definition) : g.body? node.iri = some (g.bodyAt n) := by
  rw [body?, (coherent.indexed node.iri n).mpr ⟨node, found, rfl⟩]
  simp [found, defined]

/-- A body is edited in the graph and in its store alike. -/
theorem Coherent.edited (coherent : g.Coherent) (found : g.nodeAt? n = some node)
    (defined : node.kind = .definition) (out into : List Instance) :
    (g.edited n node.iri out into).StandsFor (g.store.edited node.iri out into) := by
  let doomed := (g.edgesFrom n).filter fun (_, e) => out.contains (g.instanceOf e)
  have there := Option.isSome_iff_exists.mpr ⟨node, found⟩
  have used : doomed.Sublist g.edges.items := List.filter_sublist.trans List.filter_sublist
  have taken : (g.store.taken node.iri out).map Prod.fst = doomed.map Prod.fst := by
    rw [Store.taken, ← iriAt_eq found, coherent.callsFrom_store there, List.filter_map,
      List.map_map]
    rfl
  have dropped : (g.dropEdges doomed).store =
      g.store.dropCalls (g.store.taken node.iri out) g.store.predicateUses := by
    rw [Store.dropCalls, taken]
    exact g.store_dropEdges doomed
  obtain ⟨⟨put, store⟩, kept⟩ := (coherent.dropEdges used).foldl_addMissingEdge found into
  have body := put.bodyOf_store (Option.isSome_iff_exists.mpr ⟨node, kept⟩)
  rw [iriAt_eq kept, store, dropped] at body
  rw [dropped] at store
  refine ⟨put.congr rfl rfl rfl, ?_⟩
  rw [Store.edited, Graph.edited, renewUses, put.body?_eq kept defined, body, ← store]
  rfl

theorem Coherent.editBody (coherent : g.Coherent) (wf : g.store.WellFormed) (iri : Iri)
    (out into : List Instance) :
    Mirrors (g.editBody iri out into) (g.store.editBody iri out into) := by
  unfold Graph.editBody
  cases known : g.number? iri with
  | none =>
      have unknown : ¬ g.store.isDefinition iri = true := by
        rw [Store.isDefinition, coherent.node?_eq_none known]
        nofun
      rw [Store.editBody_of_not_definition unknown]
      exact ⟨⟨coherent, rfl⟩, rfl⟩
  | some n =>
      obtain ⟨node, found, rfl⟩ := (coherent.indexed iri n).mp known
      have definition : g.store.isDefinition node.iri = (node.kind == .definition) := by
        rw [Store.isDefinition, coherent.status?_iriAt found, Option.any_some,
          Node.isDefinition_status]
      dsimp only
      rw [found, Option.any_some]
      split
      · rename_i defined
        rw [Store.editBody_of_definition (by rw [definition, defined])]
        obtain ⟨edited, store⟩ := coherent.edited found (eq_of_beq defined) out into
        have pruned := edited.prune (store ▸ wf.edited (by rw [definition, defined]) out into)
        rw [store] at pruned
        exact ⟨pruned, rfl⟩
      · rename_i other
        rw [Store.editBody_of_not_definition (by rwa [definition])]
        exact ⟨⟨coherent, rfl⟩, rfl⟩

end Graph

end RdfTemplates
