import RdfTemplates.Proofs.Store.GraphRemoval

/-!
# Fetching into a graph

What every operation keeps up, fetching keeps up if the reader does. If the reader does to
graphs what another one does to their stores, fetching does so too.
-/

namespace RdfTemplates

namespace Graph

/-- What every operation keeps up. -/
structure Kept (g : Graph) : Prop where
  coherent : g.Coherent
  wellFormed : g.store.WellFormed
  tidy : g.store.Tidy
  libraryMade : g.store.LibraryMade

variable {g : Graph}

theorem kept_empty (config : StoreConfig) : (empty config).Kept where
  coherent := coherent_empty config
  wellFormed := Store.wellFormed_empty config
  tidy := Store.Tidy.empty config
  libraryMade := by simp [Store.LibraryMade, store, empty]

namespace Kept

variable (kept : g.Kept)

include kept

/-- A graph that stands for a changed store keeps up what its store keeps up. -/
theorem change {g' : Graph} {s : Store} (done : g'.StandsFor s) (change : Store.Change g.store s) :
    g'.Kept := by
  obtain ⟨coherent, rfl⟩ := done
  exact ⟨coherent, change.wellFormed kept.wellFormed, change.tidy kept.wellFormed kept.tidy,
    change.libraryMade kept.libraryMade⟩

theorem addBase (iri : Iri) (ps : ParameterList) : (g.addBase iri ps).1.Kept :=
  kept.change (kept.coherent.addBase iri ps).graph (.base _ iri ps)

theorem addSignature (s : Signature) : (g.addSignature s).1.Kept :=
  kept.change (kept.coherent.addSignature s).graph (.signature _ s)

theorem addTemplate (iri : Iri) (ps : ParameterList) (body : List Instance) :
    (g.addTemplate (.make iri ps body)).1.Kept :=
  kept.change (kept.coherent.addTemplate _).graph (.template _ iri ps body)

/-- Declarations that have been made keep what fetching relies on. -/
theorem accept {d : Declaration} (made : d.Made) : (g.accept d).1.Kept :=
  kept.change (kept.coherent.accept d).graph (.accept _ made)

theorem remove (iri : Iri) : (g.remove iri).1.Kept :=
  kept.change (kept.coherent.remove kept.wellFormed iri).graph (.removal _ iri)

theorem editBody (iri : Iri) (out into : List Instance) : (g.editBody iri out into).1.Kept :=
  kept.change (kept.coherent.editBody kept.wellFormed iri out into).graph (.edit _ iri out into)

theorem notes (failed : List Iri) (messages : Messages) :
    Kept { g with failed, messages } :=
  kept.change ⟨kept.coherent.congr rfl rfl rfl, rfl⟩ (.notes _ failed messages)

theorem takeMessages : g.takeMessages.2.Kept := kept.notes g.failed []

end Kept

/-- What a graph offers was made from the parameters and the body of a node. -/
theorem made_of_offers (g : Graph) {d : Declaration} (offered : d ∈ g.offers) : d.Made := by
  obtain ⟨iri, -, offer⟩ := List.mem_filterMap.mp offered
  obtain ⟨node, -, offer⟩ := Option.bind_eq_some_iff.mp offer
  split at offer
  · obtain ⟨ps, -, offer⟩ := Option.bind_eq_some_iff.mp offer
    obtain ⟨body, -, offer⟩ := Option.bind_eq_some_iff.mp offer
    obtain rfl := Option.some.inj offer
    exact ⟨iri, ps, body, rfl⟩
  · obtain ⟨s, -, offer⟩ := Option.bind_eq_some_iff.mp offer
    obtain rfl := Option.some.inj offer
    trivial
  · cases offer

/-- The library of a graph offers templates that have been made. -/
theorem Kept.registerLibrary (kept : g.Kept) (library : Graph) :
    (g.registerLibrary library).Kept where
  coherent := kept.coherent.congr rfl rfl rfl
  wellFormed := kept.wellFormed.congr rfl rfl
  tidy := ⟨kept.tidy.called, kept.tidy.bodies⟩
  libraryMade := fun _ offered => library.made_of_offers offered

theorem Coherent.isResolved_store (coherent : g.Coherent) (iri : Iri) :
    g.store.isResolved iri = g.isResolved iri := by
  rw [Store.isResolved, coherent.status?_store, Graph.isResolved, kind?, Option.any_map,
    Option.any_map]
  simp

theorem entryList_store (g : Graph) : g.store.entryList = g.nodes.inOrder.map Node.entry :=
  g.nodes.inOrder_map _

/-- Where a status is told by the kind, the entries of a status are the nodes of a kind. -/
theorem listed_store (g : Graph) {p : Status → Bool} {q : NodeKind → Bool}
    (told : ∀ node : Node, p node.status = q node.kind) :
    (g.store.entryList.filter (p ·.status)).map (·.iri) =
      (g.nodes.inOrder.filter (q ·.kind)).map (·.iri) := by
  rw [entryList_store, List.filter_map, List.map_map]
  simp [Function.comp_def, Node.entry, told]

/-- The store misses what the graph misses, in the same order. -/
theorem missing_store (g : Graph) : g.store.missing = g.missing :=
  g.listed_store (q := fun kind => kind == .undefined || kind == .signature)
    Node.isMissing_status

theorem definitionIris_store (g : Graph) : g.store.definitionIris = g.irisOf .definition :=
  g.listed_store (q := (· == .definition)) Node.isDefinition_status

/-- Graph and store want the same IRIs to be fetched. -/
theorem Kept.unfetched_store (kept : g.Kept) : g.store.unfetched = g.unfetched := by
  have once : (g.missing.filter (!g.failed.contains ·)).Nodup := by
    rw [← missing_store]
    exact (kept.wellFormed.listed_nodup Status.isMissing).filter _
  have same : firsts (g.missing.filter (!g.failed.contains ·)) =
      g.missing.filter (!g.failed.contains ·) :=
    firsts_of_pairwise (once.imp fun apart => by simpa using apart)
  rw [Store.unfetched, missing_store, unfetched, same]
  rfl

/-- Both take from the library what it offers. -/
theorem Coherent.fetchFromLibrary (coherent : g.Coherent) (iri : Iri) :
    Mirrors (g.fetchFromLibrary iri) (g.store.fetchFromLibrary iri) := by
  have library : g.store.library = g.library := rfl
  have config : g.store.config = g.config := rfl
  unfold Graph.fetchFromLibrary Store.fetchFromLibrary
  rw [library, config]
  cases g.config.useLibrary with
  | false => exact ⟨⟨coherent, rfl⟩, rfl⟩
  | true =>
      cases (g.library.getD []).find? (·.iri == iri) with
      | none => exact ⟨⟨coherent, rfl⟩, rfl⟩
      | some d => exact coherent.accept d

/-- A definition of the graph is offered as the template that the store reads back. -/
theorem Coherent.offer?_of_definition (coherent : g.Coherent) {iri : Iri}
    (listed : iri ∈ g.irisOf .definition) :
    g.offer? iri = (g.store.getTemplate iri).toOption.map .template := by
  obtain ⟨node, kept, rfl⟩ := List.mem_map.mp listed
  obtain ⟨among, defined⟩ := List.mem_filter.mp kept
  obtain ⟨⟨n, node⟩, here, rfl⟩ := List.mem_map.mp (g.nodes.inOrder_perm.mem_iff.mp among)
  have found : g.nodeAt? n = some node := coherent.nodes.get?_eq_some_iff.mpr here
  have known := coherent.node?_eq_some_iff.mpr ⟨n, found, rfl⟩
  have body := coherent.bodyOf_store (Option.isSome_iff_exists.mpr ⟨node, found⟩)
  have parameters := coherent.node_cases known
  rw [offer?, known, coherent.body?_eq found (eq_of_beq defined), ← body, iriAt_eq found,
    Store.getTemplate, coherent.status?_iriAt found]
  obtain ⟨own, kind, parameters?⟩ := node
  obtain rfl := eq_of_beq defined
  rcases parameters with ⟨⟨⟩, -⟩ | ⟨-, ps, rfl⟩
  rfl

/-- A base of the graph is offered as the signature of its entry. -/
theorem Coherent.offer?_of_base (coherent : g.Coherent) {node : Node}
    (listed : node ∈ g.nodes.inOrder) :
    (if node.kind == .base then g.offer? node.iri else none) =
      ((node.entry.signature?).filter (·.isBase)).map .signature := by
  obtain ⟨⟨n, node⟩, here, rfl⟩ := List.mem_map.mp (g.nodes.inOrder_perm.mem_iff.mp listed)
  have found : g.nodeAt? n = some node := coherent.nodes.get?_eq_some_iff.mpr here
  have known := coherent.node?_eq_some_iff.mpr ⟨n, found, rfl⟩
  have parameters := coherent.node_cases known
  rw [offer?, known]
  obtain ⟨own, kind, parameters?⟩ := node
  rcases parameters with ⟨rfl, rfl⟩ | ⟨declared, ps, rfl⟩
  · rfl
  · cases kind <;> rfl

/-- A graph offers what its store does. -/
theorem Coherent.offers_store (coherent : g.Coherent) : g.store.offers = g.offers := by
  have templates : g.store.templates.map .template = (g.irisOf .definition).filterMap g.offer? := by
    rw [Store.templates, definitionIris_store, List.map_filterMap]
    exact List.filterMap_congr fun iri listed => (coherent.offer?_of_definition listed).symm
  have bases : (g.store.signatures.filter (·.isBase)).map .signature =
      (g.irisOf .base).filterMap g.offer? := by
    rw [Store.signatures, entryList_store, List.filterMap_map, List.filter_filterMap,
      List.map_filterMap, irisOf, List.filterMap_map, List.filterMap_filter]
    exact List.filterMap_congr fun node listed => (coherent.offer?_of_base listed).symm
  rw [Store.offers, templates, bases, offers, List.filterMap_append]

/-- Both register the same offers. -/
theorem Coherent.registerLibrary {library : Graph} (coherent : g.Coherent)
    (offering : library.Coherent) :
    (g.registerLibrary library).StandsFor (g.store.registerLibrary library.store) := by
  refine ⟨coherent.congr rfl rfl rfl, ?_⟩
  rw [Store.registerLibrary, offering.offers_store]
  rfl

/-- What a fetching into a graph is to the store. -/
def Fetching.told {σ : Type} (f : Fetching σ) : RdfTemplates.Fetching σ :=
  ⟨f.graph.store, f.messages, f.memory⟩

section Fetching

variable {σ : Type} {reader : Reader σ} {f : Fetching σ}
variable (lawful : ∀ iri g memory, Kept g → (reader iri g memory).2.1.Kept)

theorem Kept.fetchFromLibrary (kept : g.Kept) (iri : Iri) : (g.fetchFromLibrary iri).1.Kept := by
  unfold Graph.fetchFromLibrary
  split
  · rename_i found
    exact kept.accept (kept.libraryMade _ (List.mem_of_find?_eq_some found))
  · exact kept

include lawful

/-- A reader that keeps the graph in order is asked for one IRI. -/
theorem Kept.fetchFromReader (kept : f.graph.Kept) (iri : Iri) :
    (fetchFromReader reader f iri).graph.Kept := by
  have left := lawful iri f.graph f.memory kept
  unfold Graph.fetchFromReader Fetching.report
  rcases asked : reader iri f.graph f.memory with ⟨answer, g, memory⟩
  rw [asked] at left
  dsimp only
  split
  · exact left
  · exact left.notes _ g.messages

/-- One attempt, by the library or by the reader. -/
theorem Kept.fetchOne (kept : f.graph.Kept) (iri : Iri) : (fetchOne reader f iri).graph.Kept := by
  have offered := kept.fetchFromLibrary iri
  unfold Graph.fetchOne
  split
  · rename_i found
    rw [found] at offered
    exact offered
  · rename_i g missed
    rw [missed] at offered
    exact Kept.fetchFromReader (f := { f with graph := g }) lawful offered iri

theorem Kept.fetchEach (kept : f.graph.Kept) (iris : List Iri) :
    (fetchEach reader iris f).graph.Kept := by
  induction iris generalizing f with
  | nil => exact kept
  | cons iri iris ih => exact ih (kept.fetchOne lawful iri)

/-- Attempts in rounds, each from what the graph lacks by then. -/
theorem Kept.fetchRounds (kept : f.graph.Kept) (rounds : Nat) (wanted : List Iri) :
    (fetchRounds reader rounds wanted f).1.graph.Kept := by
  induction rounds generalizing wanted f with
  | zero => cases wanted <;> exact kept
  | succ rounds ih =>
      cases wanted with
      | nil => exact kept
      | cons iri wanted =>
          have round := kept.fetchEach lawful (iri :: wanted)
          simp only [Graph.fetchRounds]
          split
          · exact round
          · exact ih round _

theorem Kept.fetchMissing (kept : g.Kept) (memory : σ) :
    (g.fetchMissing reader memory).graph.Kept := by
  have silent : Kept { g with messages := [] } := kept.notes g.failed []
  have rounds := Kept.fetchRounds (f := ⟨{ g with messages := [] }, [], memory⟩) lawful silent
    g.config.maxFetchRounds g.unfetched
  unfold Graph.fetchMissing Fetching.report
  dsimp only
  split
  · exact rounds.notes _ g.messages
  · exact rounds.notes _ g.messages

theorem Kept.fetchOnly (kept : g.Kept) (iris : List Iri) (memory : σ) :
    (g.fetchOnly iris reader memory).graph.Kept :=
  Kept.fetchEach (f := ⟨g, [], memory⟩) lawful kept _

variable {teller : RdfTemplates.Reader σ}
variable (tells : ∀ iri g memory, Kept g → teller iri g.store memory =
  ((reader iri g memory).1, (reader iri g memory).2.1.store, (reader iri g memory).2.2))

include tells

theorem Kept.told_fetchFromReader (kept : f.graph.Kept) (iri : Iri) :
    (Graph.fetchFromReader reader f iri).told = Store.fetchFromReader teller f.told iri := by
  have left := lawful iri f.graph f.memory kept
  have same := tells iri f.graph f.memory kept
  rcases asked : reader iri f.graph f.memory with ⟨answer, g, memory⟩
  rw [asked] at left same
  have resolved := left.coherent.isResolved_store iri
  simp only [Graph.fetchFromReader, Store.fetchFromReader, asked, Fetching.told, same, resolved]
  cases answer with
  | error e => rfl
  | ok given =>
      cases answered : g.isResolved iri <;> rfl

/-- What an attempt does to the graph, the attempt told of stores does to the store. -/
theorem Kept.told_fetchOne (kept : f.graph.Kept) (iri : Iri) :
    (Graph.fetchOne reader f iri).told = Store.fetchOne teller f.told iri := by
  have offered := kept.fetchFromLibrary iri
  obtain ⟨⟨-, store⟩, answer⟩ := kept.coherent.fetchFromLibrary iri
  unfold Graph.fetchOne Store.fetchOne
  rcases given : f.graph.fetchFromLibrary iri with ⟨g, found⟩
  rw [given] at offered store answer
  have told : f.told.store.fetchFromLibrary iri = (g.store, found) :=
    Prod.ext store.symm answer.symm
  rw [told]
  cases found with
  | true => rfl
  | false => exact Kept.told_fetchFromReader (f := { f with graph := g }) lawful tells offered iri

theorem Kept.told_fetchEach (kept : f.graph.Kept) (iris : List Iri) :
    (Graph.fetchEach reader iris f).told = Store.fetchEach teller iris f.told := by
  induction iris generalizing f with
  | nil => rfl
  | cons iri iris ih =>
      have next := ih (kept.fetchOne lawful iri)
      rwa [kept.told_fetchOne lawful tells iri] at next

/-- So do the rounds, which make the same lists. -/
theorem Kept.told_fetchRounds (kept : f.graph.Kept) (rounds : Nat) (wanted : List Iri) :
    (Graph.fetchRounds reader rounds wanted f).map Fetching.told id =
      Store.fetchRounds teller rounds wanted f.told := by
  induction rounds generalizing wanted f with
  | zero => cases wanted <;> rfl
  | succ rounds ih =>
      cases wanted with
      | nil => rfl
      | cons iri wanted =>
          have round := kept.fetchEach lawful (iri :: wanted)
          have told := kept.told_fetchEach lawful tells (iri :: wanted)
          have next : (Graph.fetchEach reader (iri :: wanted) f).told.store.unfetched =
              (Graph.fetchEach reader (iri :: wanted) f).graph.unfetched := round.unfetched_store
          simp only [Graph.fetchRounds, Store.fetchRounds, ← told, next]
          split
          · rfl
          · exact ih round _

/-- Fetching what a graph lacks does to its store what fetching there does. -/
theorem Kept.told_fetchMissing (kept : g.Kept) (memory : σ) :
    (g.fetchMissing reader memory).told = g.store.fetchMissing teller memory := by
  have silent : Kept { g with messages := [] } := kept.notes g.failed []
  have told := Kept.told_fetchRounds (f := ⟨{ g with messages := [] }, [], memory⟩) lawful tells
    silent g.config.maxFetchRounds g.unfetched
  rcases ended : Graph.fetchRounds reader g.config.maxFetchRounds g.unfetched
    ⟨{ g with messages := [] }, [], memory⟩ with ⟨f, left⟩
  rw [ended] at told
  have rounds : Store.fetchRounds teller g.store.config.maxFetchRounds g.store.unfetched
      ⟨{ g.store with messages := [] }, [], memory⟩ = (f.told, left) := by
    rw [kept.unfetched_store]
    exact told.symm
  simp only [Graph.fetchMissing, Store.fetchMissing, ended, rounds]
  cases left <;> rfl

theorem Kept.told_fetchOnly (kept : g.Kept) (iris : List Iri) (memory : σ) :
    (g.fetchOnly iris reader memory).told = g.store.fetchOnly iris teller memory := by
  have told := Kept.told_fetchEach (f := ⟨g, [], memory⟩) lawful tells kept
  have wanted : (fun iri => !g.store.isResolved iri && !g.store.failed.contains iri) =
      fun iri => !g.isResolved iri && !g.failed.contains iri := by
    funext iri
    rw [kept.coherent.isResolved_store]
    rfl
  rw [Graph.fetchOnly, Store.fetchOnly, wanted, told]
  rfl

end Fetching

end Graph

end RdfTemplates
