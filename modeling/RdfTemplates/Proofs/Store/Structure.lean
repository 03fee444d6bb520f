import RdfTemplates.Proofs.Store.Bodies
import RdfTemplates.Proofs.Store.DependencyOrder
import RdfTemplates.Proofs.Store.Reachability

/-!
# What a store is led to

Whatever operations a store went through, an undefined entry is called and a body
has no instance twice. An undefined entry comes with a call of it and is pruned
with the last one. An instance is put into a body only where the body is known to
be without it.
-/

namespace RdfTemplates

namespace Store

/-- No undefined entry is left over and every body is a set. -/
structure Tidy (store : Store) : Prop where
  called : ∀ iri, store.status? iri = some .undefined →
    ∃ call ∈ store.calls.items, call.2.callee = iri
  bodies : ∀ iri, Distinct (store.bodyOf iri)

namespace Tidy

variable {store : Store}

theorem empty (config : StoreConfig) : (empty config).Tidy where
  called := nofun
  bodies := fun _ => List.Pairwise.nil

theorem say (tidy : store.Tidy) (m : Message) : (store.say m).Tidy := ⟨tidy.called, tidy.bodies⟩

theorem setStatus (tidy : store.Tidy) (iri : Iri) {status : Status}
    (declared : status.isUndefined = false) : (store.setStatus iri status).Tidy where
  called := by
    intro other undefined
    rw [status?_setStatus] at undefined
    rw [calls_setStatus]
    split at undefined
    · rw [Option.some.inj undefined] at declared
      cases declared
    · exact tidy.called other undefined
  bodies := fun other => by
    rw [bodyOf_setStatus]
    exact tidy.bodies other

/-- The call of an entry that was not there before is in the store with it. -/
theorem called_addCall {iri : Iri} (called : ∀ iri, store.status? iri = some .undefined →
    ∃ call ∈ store.calls.items, call.2.callee = iri) (caller : Iri) (i : Instance)
    (undefined : (store.addCall caller i).status? iri = some .undefined) :
    ∃ call ∈ (store.addCall caller i).calls.items, call.2.callee = iri := by
  obtain ⟨n, added⟩ := store.items_addCall caller i
  rw [added]
  by_cases here : i.iri = iri
  · exact ⟨_, List.mem_cons_self, here⟩
  · rw [status?_addCall, status?_ensure, if_neg here, Option.or_none] at undefined
    obtain ⟨call, used, same⟩ := called iri undefined
    exact ⟨call, List.mem_cons_of_mem _ used, same⟩

theorem called_foldl_addCall {iri : Iri} (called : ∀ iri, store.status? iri = some .undefined →
    ∃ call ∈ store.calls.items, call.2.callee = iri) (caller : Iri) (body : List Instance)
    (undefined : (body.foldl (·.addCall caller ·) store).status? iri = some .undefined) :
    ∃ call ∈ (body.foldl (·.addCall caller ·) store).calls.items, call.2.callee = iri := by
  induction body generalizing store with
  | nil => exact called iri undefined
  | cons i body ih => exact ih (fun iri => called_addCall called caller i) undefined

/-- The calls of the body come one by one, each with the entry of its callee. -/
theorem define (tidy : store.Tidy) (wf : store.WellFormed) {t : Template}
    (distinct : Distinct t.body) (free : ∀ ps, store.status? t.iri ≠ some (.definition ps)) :
    (store.define t).Tidy where
  called := by
    intro iri undefined
    have declared : (store.setStatus t.iri (.definition t.parameters)).Tidy :=
      tidy.setStatus t.iri rfl
    exact called_foldl_addCall declared.called t.iri t.body undefined
  bodies := by
    intro iri
    by_cases here : iri = t.iri
    · subst here
      exact distinct.of_perm (wf.bodyOf_define_perm t free)
    · rw [bodyOf_define_of_ne here]
      exact tidy.bodies iri

theorem addBase (tidy : store.Tidy) (iri : Iri) (ps : ParameterList) :
    (store.addBase iri ps).1.Tidy := by
  rcases store.addBase_cases iri ps with ⟨reason, refused⟩ | ⟨-, added⟩
  · rw [refused]
    exact tidy.say _
  · rw [added]
    exact tidy.setStatus iri rfl

theorem addSignature (tidy : store.Tidy) (s : Signature) : (store.addSignature s).1.Tidy := by
  rcases store.addSignature_cases s with ⟨-, same⟩ | ⟨-, refused⟩ | ⟨-, -, added⟩
  · rw [same]
    exact tidy.addBase s.iri s.parameters
  · rw [refused]
    exact tidy.say _
  · rw [added]
    exact tidy.setStatus s.iri rfl

theorem addTemplate (tidy : store.Tidy) (wf : store.WellFormed) {t : Template}
    (distinct : Distinct t.body) : (store.addTemplate t).1.Tidy := by
  rcases store.addTemplate_cases t with ⟨reason, refused⟩ | ⟨free, added⟩
  · rw [refused]
    exact tidy.say _
  · rw [added]
    exact tidy.define wf distinct free

/-- Pruning leaves no undefined entry that nothing calls, whatever was there before. Without a call
the entry would have been an orphan. -/
theorem prune (wf : store.WellFormed) (bodies : ∀ iri, Distinct (store.bodyOf iri)) :
    store.prune.Tidy where
  called := by
    intro iri undefined
    obtain ⟨-, kept⟩ := wf.status?_prune.mp undefined
    by_contra uncalled
    refine kept ⟨rfl, callsTo_isEmpty_iff.mpr fun call used same => ?_⟩
    exact uncalled ⟨call, used, same⟩
  bodies := bodies

theorem remove (tidy : store.Tidy) (wf : store.WellFormed) (iri : Iri) :
    (store.remove iri).1.Tidy := by
  by_cases known : store.contains iri = true
  · rw [remove_of_contains known]
    refine prune (wf.cleared iri) fun other => ?_
    have calls := congrArg (·.items.filter (·.2.caller == other)) (store.calls_cleared iri)
    rw [bodyOf_congr calls]
    exact distinct_bodyOf_dropCalls (tidy.bodies other) _ _
  · rw [remove_of_not_contains known]
    exact tidy

theorem editBody (tidy : store.Tidy) (wf : store.WellFormed) (iri : Iri)
    (out into : List Instance) : (store.editBody iri out into).1.Tidy := by
  have bodies : ∀ other, Distinct ((store.editBody iri out into).1.bodyOf other) := by
    intro other
    by_cases here : other = iri
    · subst here
      exact distinct_editBody (tidy.bodies other) out into
    · rw [wf.bodyOf_editBody_of_ne here]
      exact tidy.bodies other
  by_cases defined : store.isDefinition iri = true
  · rw [editBody_of_definition defined] at bodies ⊢
    exact prune (wf.edited defined out into) bodies
  · rw [editBody_of_not_definition defined]
    exact tidy

end Tidy

theorem Change.tidy {store other : Store} (change : Change store other) (wf : store.WellFormed)
    (tidy : store.Tidy) : other.Tidy := by
  cases change with
  | base iri ps => exact tidy.addBase iri ps
  | signature s => exact tidy.addSignature s
  | template iri ps body => exact tidy.addTemplate wf (Template.distinct_make iri ps body)
  | removal iri => exact tidy.remove wf iri
  | edit iri out into => exact tidy.editBody wf iri out into
  | library library => exact ⟨tidy.called, tidy.bodies⟩
  | notes failed messages => exact ⟨tidy.called, tidy.bodies⟩

theorem Reachable.tidy {store : Store} (reachable : store.Reachable) : store.Tidy := by
  obtain ⟨config, evolves⟩ := reachable
  induction evolves with
  | refl => exact .empty config
  | tail earlier change ih => exact change.tidy (Reachable.wellFormed ⟨config, earlier⟩) ih

theorem WellFormed.mem_entryList {store : Store} (wf : store.WellFormed) {iri : Iri}
    {status : Status} : ⟨iri, status⟩ ∈ store.entryList ↔ store.status? iri = some status := by
  rw [entryList, store.entries.inOrder_perm.mem_iff, status?_eq_some_iff wf.iris]
  simp [Numbered.latestFirst]

theorem WellFormed.mem_listed {store : Store} (wf : store.WellFormed) {p : Status → Bool}
    {iri : Iri} : iri ∈ (store.entryList.filter (p ·.status)).map (·.iri) ↔
      ∃ status, store.status? iri = some status ∧ p status = true := by
  rw [List.mem_map]
  constructor
  · rintro ⟨⟨_, status⟩, listed, rfl⟩
    obtain ⟨here, holds⟩ := List.mem_filter.mp listed
    exact ⟨status, wf.mem_entryList.mp here, holds⟩
  · rintro ⟨status, known, holds⟩
    exact ⟨⟨iri, status⟩, List.mem_filter.mpr ⟨wf.mem_entryList.mpr known, holds⟩, rfl⟩

theorem WellFormed.mem_missing {store : Store} (wf : store.WellFormed) {iri : Iri} :
    iri ∈ store.missing ↔ store.status? iri = some .undefined ∨
      ∃ ps, store.status? iri = some (.signature ps) := by
  refine wf.mem_listed.trans ?_
  constructor
  · rintro ⟨status, known, waits⟩
    cases status with
    | undefined => exact .inl known
    | signature ps => exact .inr ⟨ps, known⟩
    | base | definition => cases waits
  · rintro (known | ⟨ps, known⟩)
    · exact ⟨_, known, rfl⟩
    · exact ⟨_, known, rfl⟩

theorem WellFormed.listed_nodup {store : Store} (wf : store.WellFormed) (p : Status → Bool) :
    ((store.entryList.filter (p ·.status)).map (·.iri)).Nodup :=
  (List.filter_sublist.map _).nodup wf.entryList_nodup

/-- What a store is taken to by operations. A reader that is asked while fetching works on
the store by such operations itself. -/
inductive LeadsTo : Store → Store → Prop where
  | start (store : Store) : LeadsTo store store
  | addBase {store other : Store} (earlier : LeadsTo store other) (iri : Iri)
      (ps : ParameterList) : LeadsTo store (other.addBase iri ps).1
  | addSignature {store other : Store} (earlier : LeadsTo store other) (s : Signature) :
      LeadsTo store (other.addSignature s).1
  | addTemplate {store other : Store} (earlier : LeadsTo store other) (iri : Iri)
      (ps : ParameterList) (body : List Instance) :
      LeadsTo store (other.addTemplate (.make iri ps body)).1
  | accept {store other : Store} (earlier : LeadsTo store other) {d : Declaration}
      (made : d.Made) : LeadsTo store (other.accept d).1
  | remove {store other : Store} (earlier : LeadsTo store other) (iri : Iri) :
      LeadsTo store (other.remove iri).1
  | editBody {store other : Store} (earlier : LeadsTo store other) (iri : Iri)
      (out into : List Instance) : LeadsTo store (other.editBody iri out into).1
  | registerLibrary {store other : Store} (earlier : LeadsTo store other) (library : Store) :
      LeadsTo store (other.registerLibrary library)
  | takeMessages {store other : Store} (earlier : LeadsTo store other) :
      LeadsTo store other.takeMessages.2
  | fetchMissing {σ : Type} {store other : Store} (earlier : LeadsTo store other)
      (reader : Reader σ) (memory : σ)
      (asked : ∀ iri store memory, LeadsTo store (reader iri store memory).2.1) :
      LeadsTo store (other.fetchMissing reader memory).store
  | fetchOnly {σ : Type} {store other : Store} (earlier : LeadsTo store other)
      (iris : List Iri) (reader : Reader σ) (memory : σ)
      (asked : ∀ iri store memory, LeadsTo store (reader iri store memory).2.1) :
      LeadsTo store (other.fetchOnly iris reader memory).store

theorem LeadsTo.evolves {store other : Store} (leads : LeadsTo store other)
    (made : store.LibraryMade) : Evolves store other := by
  induction leads with
  | start => exact .refl _
  | addBase _ iri ps ih => exact (ih made).trans (Change.base _ iri ps).evolves
  | addSignature _ s ih => exact (ih made).trans (Change.signature _ s).evolves
  | addTemplate _ iri ps body ih => exact (ih made).trans (Change.template _ iri ps body).evolves
  | accept _ declared ih => exact (ih made).trans (Change.accept _ declared).evolves
  | remove _ iri ih => exact (ih made).trans (Change.removal _ iri).evolves
  | editBody _ iri out into ih => exact (ih made).trans (Change.edit _ iri out into).evolves
  | registerLibrary _ library ih => exact (ih made).trans (Change.library _ library).evolves
  | takeMessages _ ih => exact (ih made).trans (Change.notes _ _ []).evolves
  | fetchMissing _ reader memory _ ih lawful =>
      exact (ih made).trans (evolves_fetchMissing ((ih made).libraryMade made) lawful memory)
  | fetchOnly _ iris reader memory _ ih lawful =>
      exact (ih made).trans (evolves_fetchOnly ((ih made).libraryMade made) iris lawful memory)

theorem LeadsTo.reachable {config : StoreConfig} {store : Store}
    (leads : LeadsTo (empty config) store) : store.Reachable :=
  ⟨config, leads.evolves (by simp [LibraryMade, empty])⟩

/-- Gives books, which have titles, and fails for everything else. -/
def bookseller : Reader Unit := fun iri store _ =>
  if iri = "Book" then
    (.ok (), (store.addTemplate (.make "Book" [] [.ofTerms "Title" []])).1, ())
  else (.error (.notFound iri), store, ())

/-- A shelf that lists itself, books and notes. -/
def shelved : Store :=
  ((empty .standard).addTemplate
    (.make "Shelf" [] [.ofTerms "Shelf" [], .ofTerms "Book" [], .ofTerms "Note" []])).1

/-- The shelf is fetched what it lacks, and its books are then exchanged for maps. -/
def stocked : Store :=
  ((shelved.fetchMissing bookseller ()).store.editBody "Shelf" [.ofTerms "Book" []]
    [.ofTerms "Map" [], .ofTerms "Note" []]).1

theorem leadsTo_stocked : LeadsTo (empty .standard) stocked := by
  have asked : ∀ iri store memory, LeadsTo store (bookseller iri store memory).2.1 := by
    intro iri store memory
    unfold bookseller
    split
    · exact .addTemplate (.start store) "Book" [] [.ofTerms "Title" []]
    · exact .start store
  have added : LeadsTo (empty .standard) shelved := .addTemplate (.start _) "Shelf" [] _
  exact .editBody (.fetchMissing added bookseller () asked) "Shelf" _ _

end Store

end RdfTemplates
