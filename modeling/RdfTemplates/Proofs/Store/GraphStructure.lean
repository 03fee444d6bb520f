import RdfTemplates.Proofs.Store.GraphFetching

/-!
# The structure of a graph

Whatever operations a graph went through, the index leads from the IRIs to the nodes that
carry them and back, the nodes with parameters are those that are not undefined, only
definitions have edges, an undefined node is called, and a body has no instance twice.
The index and the parameters are kept up by each operation; the rest the graph has from
the store that it stands for.
-/

namespace RdfTemplates

namespace Graph

variable {g : Graph}

/-- What a graph is taken to by operations. A reader that is asked while fetching works on
the graph by such operations itself. -/
inductive LeadsTo : Graph → Graph → Prop where
  | start (g : Graph) : LeadsTo g g
  | addBase {g g' : Graph} (earlier : LeadsTo g g') (iri : Iri) (ps : ParameterList) :
      LeadsTo g (g'.addBase iri ps).1
  | addSignature {g g' : Graph} (earlier : LeadsTo g g') (s : Signature) :
      LeadsTo g (g'.addSignature s).1
  | addTemplate {g g' : Graph} (earlier : LeadsTo g g') (iri : Iri) (ps : ParameterList)
      (body : List Instance) : LeadsTo g (g'.addTemplate (.make iri ps body)).1
  | accept {g g' : Graph} (earlier : LeadsTo g g') {d : Declaration} (made : d.Made) :
      LeadsTo g (g'.accept d).1
  | remove {g g' : Graph} (earlier : LeadsTo g g') (iri : Iri) : LeadsTo g (g'.remove iri).1
  | editBody {g g' : Graph} (earlier : LeadsTo g g') (iri : Iri) (out into : List Instance) :
      LeadsTo g (g'.editBody iri out into).1
  | registerLibrary {g g' : Graph} (earlier : LeadsTo g g') (library : Graph) :
      LeadsTo g (g'.registerLibrary library)
  | takeMessages {g g' : Graph} (earlier : LeadsTo g g') : LeadsTo g g'.takeMessages.2
  | fetchMissing {σ : Type} {g g' : Graph} (earlier : LeadsTo g g') (reader : Reader σ)
      (memory : σ) (asked : ∀ iri g memory, LeadsTo g (reader iri g memory).2.1) :
      LeadsTo g (g'.fetchMissing reader memory).graph
  | fetchOnly {σ : Type} {g g' : Graph} (earlier : LeadsTo g g') (iris : List Iri)
      (reader : Reader σ) (memory : σ)
      (asked : ∀ iri g memory, LeadsTo g (reader iri g memory).2.1) :
      LeadsTo g (g'.fetchOnly iris reader memory).graph

theorem LeadsTo.kept {g g' : Graph} (leads : LeadsTo g g') (kept : g.Kept) : g'.Kept := by
  induction leads with
  | start => exact kept
  | addBase _ iri ps ih => exact (ih kept).addBase iri ps
  | addSignature _ s ih => exact (ih kept).addSignature s
  | addTemplate _ iri ps body ih => exact (ih kept).addTemplate iri ps body
  | accept _ made ih => exact (ih kept).accept made
  | remove _ iri ih => exact (ih kept).remove iri
  | editBody _ iri out into ih => exact (ih kept).editBody iri out into
  | registerLibrary _ library ih => exact (ih kept).registerLibrary library
  | takeMessages _ ih => exact (ih kept).takeMessages
  | fetchMissing _ reader memory _ ih lawful => exact (ih kept).fetchMissing lawful memory
  | fetchOnly _ iris reader memory _ ih lawful => exact (ih kept).fetchOnly lawful iris memory

/-- The index leads from each IRI to the node that carries it, and to each node from one IRI
alone. Nodes have parameters unless they are undefined, edges lead from definitions to nodes
that are there, an edge leads to every undefined node, and no body has equal instances. -/
structure Structured (g : Graph) : Prop where
  numbers : (g.nodes.items.map Prod.fst).Nodup
  index : ∀ iri n, g.number? iri = some n ↔ ∃ node, g.nodeAt? n = some node ∧ node.iri = iri
  indexed : ∀ n, (g.nodeAt? n).isSome → ∃! iri, g.number? iri = some n
  parameters : ∀ n node, g.nodeAt? n = some node →
    (node.parameters?.isSome = true ↔ node.kind ≠ .undefined)
  sources : ∀ e ∈ g.edges.latestFirst,
    ∃ node, g.nodeAt? e.source = some node ∧ node.kind = .definition
  targets : ∀ e ∈ g.edges.latestFirst, (g.nodeAt? e.target).isSome
  called : ∀ n node, g.nodeAt? n = some node → node.kind = .undefined →
    ∃ e ∈ g.edges.latestFirst, e.target = n
  bodies : ∀ n, Distinct (g.bodyAt n)

theorem Coherent.indexed_unique (coherent : g.Coherent) {n : Nat} (there : (g.nodeAt? n).isSome) :
    ∃! iri, g.number? iri = some n := by
  obtain ⟨node, found⟩ := Option.isSome_iff_exists.mp there
  refine ⟨node.iri, (coherent.indexed node.iri n).mpr ⟨node, found, rfl⟩, fun iri leads => ?_⟩
  obtain ⟨other, same, carries⟩ := (coherent.indexed iri n).mp leads
  rw [Option.some.inj (found.symm.trans same), carries]

theorem Kept.structured (kept : g.Kept) : g.Structured where
  numbers := kept.coherent.nodes.numbers_nodup
  index := kept.coherent.indexed
  indexed := fun _ there => kept.coherent.indexed_unique there
  parameters := kept.coherent.declared
  sources := by
    intro e listed
    obtain ⟨node, found⟩ := Option.isSome_iff_exists.mp (kept.coherent.ends e listed).1
    exact ⟨node, found, kept.coherent.definition_of_source kept.wellFormed listed found⟩
  targets := fun e listed => (kept.coherent.ends e listed).2
  called := by
    intro n node found undefined
    have status : g.store.status? node.iri = some .undefined := by
      rw [kept.coherent.status?_iriAt found, Node.status, undefined]
    obtain ⟨item, used, callee⟩ := kept.tidy.called node.iri status
    obtain ⟨⟨k, e⟩, here, rfl⟩ := List.mem_map.mp used
    have listed : e ∈ g.edges.latestFirst := List.mem_map.mpr ⟨(k, e), here, rfl⟩
    have there := Option.isSome_iff_exists.mpr ⟨node, found⟩
    refine ⟨e, listed, (kept.coherent.iriAt_eq_iff (kept.coherent.ends e listed).2 there).mp ?_⟩
    rw [iriAt_eq found]
    exact callee
  bodies := by
    intro n
    by_cases there : (g.nodeAt? n).isSome
    · rw [← kept.coherent.bodyOf_store there]
      exact kept.tidy.bodies (g.iriAt n)
    · have empty : g.edgesFrom n = [] := by
        refine List.filter_eq_nil_iff.mpr fun item here source => there ?_
        rw [← eq_of_beq source]
        exact (kept.coherent.ends item.2 (List.mem_map_of_mem here)).1
      rw [bodyAt, empty]
      exact List.Pairwise.nil

/-- Every graph that operations lead to from an empty one has its structure. -/
theorem structured_of_leadsTo {config : StoreConfig} (leads : LeadsTo (empty config) g) :
    g.Structured :=
  (leads.kept (kept_empty config)).structured

/-- Gives books, which have titles, and fails for everything else. -/
def bookseller : Reader Unit := fun iri g _ =>
  if iri = "Book" then
    (.ok (), (g.addTemplate (.make "Book" [] [.ofTerms "Title" []])).1, ())
  else (.error (.notFound iri), g, ())

/-- A shelf that lists itself is fetched what it lacks. Its books are then exchanged for maps. -/
def stocked : Graph :=
  let shelved := ((empty .standard).addTemplate
    (.make "Shelf" [] [.ofTerms "Shelf" [], .ofTerms "Book" [], .ofTerms "Note" []])).1
  ((shelved.fetchMissing bookseller ()).graph.editBody "Shelf" [.ofTerms "Book" []]
    [.ofTerms "Map" [], .ofTerms "Note" []]).1

theorem leadsTo_stocked : LeadsTo (empty .standard) stocked := by
  have asked : ∀ iri g memory, LeadsTo g (bookseller iri g memory).2.1 := by
    intro iri g memory
    unfold bookseller
    split
    · exact .addTemplate (.start g) "Book" [] [.ofTerms "Title" []]
    · exact .start g
  exact .editBody (.fetchMissing (.addTemplate (.start _) "Shelf" [] _) bookseller () asked)
    "Shelf" _ _

/-- The shelf and what only it lists leave the index, and a new node takes a number of theirs. -/
theorem structured_of_leadsTo_shelf :
    LeadsTo (empty .standard) stocked ∧ stocked.Structured ∧
    stocked.index = [("Map", 4), ("Title", 3), ("Note", 2), ("Book", 1), ("Shelf", 0)] ∧
    (stocked.remove "Shelf").1.Structured ∧
    (stocked.remove "Shelf").1.index = [("Title", 3), ("Book", 1)] ∧
    ((stocked.remove "Shelf").1.addBase "Note" []).1.Structured ∧
    ((stocked.remove "Shelf").1.addBase "Note" []).1.index =
      [("Note", 4), ("Title", 3), ("Book", 1)] := by
  have removed := leadsTo_stocked.remove "Shelf"
  exact ⟨leadsTo_stocked, structured_of_leadsTo leadsTo_stocked, by decide +kernel,
    structured_of_leadsTo removed, by decide +kernel,
    structured_of_leadsTo (removed.addBase "Note" []), by decide +kernel⟩

end Graph

end RdfTemplates
