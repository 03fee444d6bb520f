import RdfTemplates.Proofs.Store.Removal
import RdfTemplates.Expansion.Bodies
import RdfTemplates.Store.Fetching
import Mathlib.Logic.Relation

/-!
# Stores that can come about

A store starts empty and is changed by its operations only. A definition is
added as a template that was made, with its variables typed and no instance
twice. What fetching writes down besides, the failed IRIs and the messages, is
left open. A reader is lawful when it changes a store by operations, if what the
library of the store offers was made. Fetching with a lawful reader and refactoring
go through no other stores.
-/

namespace RdfTemplates

/-- What a document can declare: a template is as `Template.make` gives it. -/
def Declaration.Made : Declaration → Prop
  | .signature _ => True
  | .template t => ∃ iri ps body, t = .make iri ps body

namespace Store

/-- One change to a store: a declaration, a removal, an edit of a body, a library, or what fetching
notes. -/
inductive Change : Store → Store → Prop where
  | base (store : Store) (iri : Iri) (ps : ParameterList) : Change store (store.addBase iri ps).1
  | signature (store : Store) (s : Signature) : Change store (store.addSignature s).1
  | template (store : Store) (iri : Iri) (ps : ParameterList) (body : List Instance) :
      Change store (store.addTemplate (.make iri ps body)).1
  | removal (store : Store) (iri : Iri) : Change store (store.remove iri).1
  | edit (store : Store) (iri : Iri) (out into : List Instance) :
      Change store (store.editBody iri out into).1
  | library (store other : Store) : Change store (store.registerLibrary other)
  | notes (store : Store) (failed : List Iri) (messages : Messages) :
      Change store { store with failed, messages }

/-- Some changes one after the other. -/
def Evolves : Store → Store → Prop := Relation.ReflTransGen Change

/-- A store that came about by changes to an empty one. -/
def Reachable (store : Store) : Prop := ∃ config, Evolves (empty config) store

theorem Change.evolves {store other : Store} (change : Change store other) :
    Evolves store other := .single change

theorem Evolves.refl (store : Store) : Evolves store store := Relation.ReflTransGen.refl

theorem Evolves.trans {store other last : Store} (first : Evolves store other)
    (second : Evolves other last) : Evolves store last :=
  Relation.ReflTransGen.trans first second

/-- Changes to a reachable store lead to reachable stores. -/
theorem Reachable.evolves {store other : Store} (reachable : store.Reachable)
    (evolves : Evolves store other) : other.Reachable := by
  obtain ⟨config, start⟩ := reachable
  exact ⟨config, start.trans evolves⟩

/-- A declaration that has been made is one change. -/
theorem Change.accept (store : Store) {d : Declaration} (made : d.Made) :
    Change store (store.accept d).1 := by
  cases d with
  | signature s => exact .signature store s
  | template t =>
      obtain ⟨iri, ps, body, rfl⟩ := made
      exact .template store iri ps body

/-- Declarations are accepted one after the other. -/
theorem evolves_acceptAll (store : Store) (ds : List Declaration) (made : ∀ d ∈ ds, d.Made) :
    Evolves store (store.acceptAll ds) := by
  induction ds generalizing store with
  | nil => exact .refl store
  | cons d ds ih =>
      have first := Change.accept store (made d List.mem_cons_self)
      exact first.evolves.trans (ih _ fun e h => made e (List.mem_cons_of_mem d h))

theorem reachable_acceptAll (config : StoreConfig) (ds : List Declaration)
    (made : ∀ d ∈ ds, d.Made) : ((empty config).acceptAll ds).Reachable :=
  ⟨config, evolves_acceptAll _ ds made⟩

/-- No change spoils the shape of a store. -/
theorem Change.wellFormed {store other : Store} (change : Change store other)
    (wf : store.WellFormed) : other.WellFormed := by
  cases change with
  | base iri ps => exact wf.addBase iri ps
  | signature s => exact wf.addSignature s
  | template iri ps body => exact wf.addTemplate _
  | removal iri => exact wf.remove iri
  | edit iri out into => exact wf.editBody iri out into
  | library library => exact wf.congr rfl rfl
  | notes failed messages => exact wf.congr rfl rfl

theorem Evolves.wellFormed {store other : Store} (evolves : Evolves store other)
    (wf : store.WellFormed) : other.WellFormed := by
  induction evolves with
  | refl => exact wf
  | tail _ change ih => exact change.wellFormed ih

/-- What is true of the shape of an empty store stays true. -/
theorem Reachable.wellFormed {store : Store} (reachable : store.Reachable) : store.WellFormed := by
  obtain ⟨config, evolves⟩ := reachable
  exact evolves.wellFormed (wellFormed_empty config)

/-- A template that is read back is made from the status and the body. -/
theorem getTemplate_eq_ok {store : Store} {iri : Iri} {t : Template}
    (found : store.getTemplate iri = .ok t) :
    iri = t.iri ∧ store.status? t.iri = some (.definition t.parameters) ∧
      .make t.iri t.parameters (store.bodyOf t.iri) = t := by
  unfold getTemplate at found
  split at found
  · rename_i ps defined
    obtain rfl := Except.ok.inj found
    exact ⟨rfl, defined, rfl⟩
  · cases found

/-- What a store offers has been made. -/
theorem made_of_offers (store : Store) {d : Declaration} (h : d ∈ store.offers) : d.Made := by
  simp only [offers, templates, List.mem_append, List.mem_map, List.mem_filterMap] at h
  rcases h with ⟨t, ⟨iri, -, found⟩, rfl⟩ | ⟨s, -, rfl⟩
  · cases looked : store.getTemplate iri with
    | error e =>
        rw [looked] at found
        cases found
    | ok u =>
        rw [looked] at found
        obtain rfl := Option.some.inj found
        exact ⟨_, _, _, (getTemplate_eq_ok looked).2.2.symm⟩
  · trivial

/-- What the library offers has been made. -/
def LibraryMade (store : Store) : Prop := ∀ d ∈ store.library.getD [], d.Made

theorem library_of_aside {store other : Store} (same : other.aside = store.aside) :
    other.library = store.library := congrArg (·.2.1) same

theorem library_addBase (store : Store) (iri : Iri) (ps : ParameterList) :
    (store.addBase iri ps).1.library = store.library := by
  rcases store.addBase_cases iri ps with ⟨reason, refused⟩ | ⟨-, added⟩
  · rw [refused]
    rfl
  · rw [added]
    exact library_of_aside (aside_setStatus store iri _)

theorem library_addSignature (store : Store) (s : Signature) :
    (store.addSignature s).1.library = store.library := by
  rcases store.addSignature_cases s with ⟨-, same⟩ | ⟨-, refused⟩ | ⟨-, -, added⟩
  · rw [same]
    exact library_addBase store s.iri s.parameters
  · rw [refused]
    rfl
  · rw [added]
    exact library_of_aside (aside_setStatus store s.iri _)

theorem library_addTemplate (store : Store) (t : Template) :
    (store.addTemplate t).1.library = store.library := by
  rcases store.addTemplate_cases t with ⟨reason, refused⟩ | ⟨-, added⟩
  · rw [refused]
    rfl
  · rw [added]
    exact library_of_aside (aside_define store t)

theorem library_remove (store : Store) (iri : Iri) :
    (store.remove iri).1.library = store.library := by
  by_cases known : store.contains iri = true
  · rw [remove_of_contains known]
    rcases store.cleared_cases iri with ⟨-, removed⟩ | undefined
    · rw [removed]
      rfl
    · rw [undefined]
      exact library_of_aside (aside_setStatus (store.silenced iri) iri .undefined)
  · rw [remove_of_not_contains known]

theorem aside_editBody (store : Store) (iri : Iri) (out into : List Instance) :
    (store.editBody iri out into).1.aside = store.aside := by
  have added (s : Store) (i : Instance) : (s.addMissingCall iri i).aside = s.aside := by
    rcases s.addMissingCall_cases iri i with ⟨-, same⟩ | ⟨-, added⟩
    · rw [same]
    · rw [added, aside_addCall]
  by_cases defined : store.isDefinition iri = true
  · rw [editBody_of_definition defined]
    exact aside_foldl added into (store.dropCalls (store.taken iri out) store.predicateUses)
  · rw [editBody_of_not_definition defined]

theorem library_editBody (store : Store) (iri : Iri) (out into : List Instance) :
    (store.editBody iri out into).1.library = store.library :=
  library_of_aside (aside_editBody store iri out into)

/-- A library is what some store offered. -/
theorem Change.library_cases {store other : Store} (change : Change store other) :
    other.library = store.library ∨ ∃ offering : Store, other.library = some offering.offers := by
  cases change with
  | base iri ps => exact .inl (library_addBase store iri ps)
  | signature s => exact .inl (library_addSignature store s)
  | template iri ps body => exact .inl (library_addTemplate store _)
  | removal iri => exact .inl (library_remove store iri)
  | edit iri out into => exact .inl (library_editBody store iri out into)
  | library library => exact .inr ⟨library, rfl⟩
  | notes failed messages => exact .inl rfl

/-- A library is registered as a store, so it stays one of declarations that have been made. -/
theorem Change.libraryMade {store other : Store} (change : Change store other)
    (made : store.LibraryMade) : other.LibraryMade := by
  rcases change.library_cases with same | ⟨offering, offered⟩
  · rwa [LibraryMade, same]
  · rw [LibraryMade, offered]
    exact fun d h => made_of_offers offering h

/-- There is no library, or it has what some store offers. -/
theorem Reachable.library_cases {store : Store} (reachable : store.Reachable) :
    store.library = none ∨ ∃ offering : Store, store.library = some offering.offers := by
  obtain ⟨config, evolves⟩ := reachable
  induction evolves with
  | refl => exact .inl rfl
  | tail _ change ih =>
      rcases change.library_cases with same | offered
      · rwa [same]
      · exact .inr offered

theorem Evolves.libraryMade {store other : Store} (evolves : Evolves store other)
    (made : store.LibraryMade) : other.LibraryMade := by
  induction evolves with
  | refl => exact made
  | tail _ change ih => exact change.libraryMade ih

section Fetching

variable {σ : Type} {P : Store → Prop} {reader : Reader σ}

/-- A failure is noted once. -/
theorem mem_insertFailed {failed : List Iri} {iri other : Iri} :
    other ∈ (if failed.contains iri then failed else iri :: failed) ↔
      other ∈ failed ∨ other = iri := by
  split
  case isTrue known =>
    have known : iri ∈ failed := by simpa using known
    exact ⟨.inl, fun here => here.elim id (· ▸ known)⟩
  case isFalse => rw [List.mem_cons, or_comm]

/-- Asking the reader for an IRI: it is resolved in the store that the reader leaves, or it has
failed. -/
theorem fetchFromReader_cases {f : Fetching σ} {iri : Iri} {answer : Except ReaderError Unit}
    {left : Store} {memory : σ} (asked : reader iri f.store f.memory = (answer, left, memory)) :
    ((∃ given, answer = .ok given) ∧ left.isResolved iri = true ∧
      fetchFromReader reader f iri =
        ⟨left, f.messages ++ [.info ("Fetched template " ++ iri)], memory⟩) ∨
    ∃ reason failed, ((∃ e, answer = .error e) ∨ left.isResolved iri = false) ∧
      (∀ other, other ∈ failed ↔ other ∈ left.failed ∨ other = iri) ∧
      fetchFromReader reader f iri = ⟨{ left with failed }, f.messages ++
        [.warning ("Failed to fetch template " ++ iri ++ ": " ++ reason)], memory⟩ := by
  unfold Store.fetchFromReader
  rw [asked]
  cases answer with
  | error e => exact .inr ⟨_, _, .inl ⟨e, rfl⟩, fun other => mem_insertFailed, rfl⟩
  | ok given =>
      dsimp only
      cases resolved : left.isResolved iri with
      | true => exact .inl ⟨⟨given, rfl⟩, rfl, rfl⟩
      | false => exact .inr ⟨_, _, .inr rfl, fun other => mem_insertFailed, rfl⟩

/-- An IRI is fetched from the library, or else the reader is asked for it. -/
theorem fetchOne_cases (reader : Reader σ) (f : Fetching σ) (iri : Iri) :
    (∃ left, f.store.fetchFromLibrary iri = (left, true) ∧ fetchOne reader f iri =
      ⟨left, f.messages ++ [.info ("Fetched template " ++ iri ++ " from the standard library")],
        f.memory⟩) ∨
    ∃ left, f.store.fetchFromLibrary iri = (left, false) ∧
      fetchOne reader f iri = fetchFromReader reader { f with store := left } iri := by
  unfold Store.fetchOne
  split
  · rename_i left found
    exact .inl ⟨left, found, rfl⟩
  · rename_i left missed
    exact .inr ⟨left, missed, rfl⟩

/-- A property of stores that fetching keeps, for each of its steps does. -/
structure KeptByFetching (P : Store → Prop) (reader : Reader σ) : Prop where
  accept : ∀ store d, P store → d ∈ store.library.getD [] → P (store.accept d).1
  notes : ∀ store failed messages, P store → P { store with failed, messages }
  ask : ∀ iri store memory, P store → P (reader iri store memory).2.1

namespace KeptByFetching

theorem fetchFromLibrary (kept : KeptByFetching P reader) {store : Store} (holds : P store)
    (iri : Iri) : P (store.fetchFromLibrary iri).1 := by
  unfold Store.fetchFromLibrary
  split
  · rename_i d _ found
    exact kept.accept store d holds (List.mem_of_find?_eq_some found)
  · exact holds

theorem fetchFromReader (kept : KeptByFetching P reader) {f : Fetching σ} (holds : P f.store)
    (iri : Iri) : P (fetchFromReader reader f iri).store := by
  have lawful := kept.ask iri f.store f.memory holds
  rcases asked : reader iri f.store f.memory with ⟨answer, left, memory⟩
  rw [asked] at lawful
  rcases fetchFromReader_cases asked with ⟨-, -, given⟩ | ⟨reason, failed, -, -, refused⟩
  · rw [given]
    exact lawful
  · rw [refused]
    exact kept.notes left failed left.messages lawful

theorem fetchOne (kept : KeptByFetching P reader) {f : Fetching σ} (holds : P f.store)
    (iri : Iri) : P (fetchOne reader f iri).store := by
  have offered := kept.fetchFromLibrary holds iri
  rcases fetchOne_cases reader f iri with ⟨left, found, given⟩ | ⟨left, missed, asked⟩
  · rw [found] at offered
    rw [given]
    exact offered
  · rw [missed] at offered
    rw [asked]
    exact kept.fetchFromReader (f := { f with store := left }) offered iri

theorem fetchEach (kept : KeptByFetching P reader) (iris : List Iri) {f : Fetching σ}
    (holds : P f.store) : P (fetchEach reader iris f).store := by
  induction iris generalizing f with
  | nil => exact holds
  | cons iri iris ih => exact ih (kept.fetchOne holds iri)

/-- Each round is a number of attempts, and what they keep is kept by all rounds. -/
theorem fetchRounds (kept : KeptByFetching P reader) (rounds : Nat) (wanted : List Iri)
    {f : Fetching σ} (holds : P f.store) : P (fetchRounds reader rounds wanted f).1.store := by
  induction rounds generalizing wanted f with
  | zero => cases wanted <;> exact holds
  | succ rounds ih =>
      cases wanted with
      | nil => exact holds
      | cons iri wanted =>
          have round := kept.fetchEach (iri :: wanted) holds
          simp only [Store.fetchRounds]
          split
          · exact round
          · exact ih _ round

theorem fetchMissing (kept : KeptByFetching P reader) {store : Store} (holds : P store)
    (memory : σ) : P (store.fetchMissing reader memory).store := by
  have silent : P { store with messages := [] } := kept.notes store store.failed [] holds
  have rounds := kept.fetchRounds store.config.maxFetchRounds store.unfetched
    (f := ⟨{ store with messages := [] }, [], memory⟩) silent
  unfold Store.fetchMissing Fetching.report
  dsimp only
  split <;> exact kept.notes _ _ _ rounds

theorem fetchOnly (kept : KeptByFetching P reader) {store : Store} (holds : P store)
    (iris : List Iri) (memory : σ) : P (store.fetchOnly iris reader memory).store :=
  kept.fetchEach _ (f := ⟨store, [], memory⟩) holds

end KeptByFetching

/-- What a reader does to the store are changes. -/
def LawfulReader (reader : Reader σ) : Prop :=
  ∀ iri store memory, store.LibraryMade → Evolves store (reader iri store memory).2.1

/-- Stores that a store evolves into are kept as such. -/
theorem keptByFetching_evolves (lawful : LawfulReader reader) (start : Store) :
    KeptByFetching (fun store => Evolves start store ∧ store.LibraryMade) reader := by
  have evolve {store other : Store} (before : Evolves start store ∧ store.LibraryMade)
      (evolves : Evolves store other) : Evolves start other ∧ other.LibraryMade :=
    ⟨before.1.trans evolves, evolves.libraryMade before.2⟩
  constructor
  case accept =>
    intro store d before offered
    exact evolve before (Change.accept store (before.2 d offered)).evolves
  case notes =>
    intro store failed messages before
    exact evolve before (Change.notes store failed messages).evolves
  case ask =>
    intro iri store memory before
    exact evolve before (lawful iri store memory before.2)

theorem evolves_fetchMissing {store : Store} (made : store.LibraryMade)
    (lawful : LawfulReader reader) (memory : σ) :
    Evolves store (store.fetchMissing reader memory).store :=
  ((keptByFetching_evolves lawful store).fetchMissing ⟨.refl store, made⟩ memory).1

theorem evolves_fetchOnly {store : Store} (made : store.LibraryMade) (iris : List Iri)
    (lawful : LawfulReader reader) (memory : σ) :
    Evolves store (store.fetchOnly iris reader memory).store :=
  ((keptByFetching_evolves lawful store).fetchOnly ⟨.refl store, made⟩ iris memory).1

end Fetching

/-- All that a refactoring may come to, and the store it leaves. -/
inductive RefactorsTo (store : Store) (used changed : Iri) :
    Except RefactoringError Substitution → Store → Prop where
  | itself (same : used = changed) :
      RefactorsTo store used changed (.error (.sameTemplate used)) store
  | missing {cause : LookupError} (apart : used ≠ changed)
      (h : store.getTemplate used = .error cause ∨ store.getTemplate changed = .error cause) :
      RefactorsTo store used changed (.error (.store cause)) store
  | refused {t u : Template} {e : RefactoringError} (apart : used ≠ changed)
      (uses : store.getTemplate used = .ok t) (changes : store.getTemplate changed = .ok u)
      (chosen : Refactoring.choose t u = .error e) :
      RefactorsTo store used changed (.error e) store
  | made {t u : Template} {s : Substitution} (apart : used ≠ changed)
      (uses : store.getTemplate used = .ok t) (changes : store.getTemplate changed = .ok u)
      (chosen : Refactoring.choose t u = .ok s) :
      RefactorsTo store used changed (.ok s)
        (store.editBody changed (Refactoring.matched t s) [Refactoring.call t s]).1

/-- A refactoring does what the relation says, and nothing else. -/
theorem refactorsTo_refactor (store : Store) (used changed : Iri) :
    store.RefactorsTo used changed (store.refactor used changed).1
      (store.refactor used changed).2 := by
  unfold Store.refactor
  split
  · rename_i same
    exact .itself (by simpa using same)
  · rename_i apart
    have apart : used ≠ changed := by simpa using apart
    split
    · rename_i missing
      exact .missing apart (.inl missing)
    · rename_i missing _
      exact .missing apart (.inr missing)
    · rename_i t u uses changes
      split
      · rename_i chosen
        exact .refused apart uses changes chosen
      · rename_i chosen
        exact .made apart uses changes chosen

theorem refactorsTo_of_refactor {store other : Store} {used changed : Iri}
    {answer : Except RefactoringError Substitution}
    (refactored : store.refactor used changed = (answer, other)) :
    store.RefactorsTo used changed answer other := by
  have refactors := store.refactorsTo_refactor used changed
  rwa [refactored] at refactors

/-- A refactoring exchanges instances of one body, or changes nothing. -/
theorem evolves_refactor (store : Store) (used changed : Iri) :
    Evolves store (store.refactor used changed).2 := by
  cases refactored : store.refactor used changed with
  | mk answer other =>
      cases refactorsTo_of_refactor refactored with
      | made => exact (Change.edit store changed _ _).evolves
      | _ => exact .refl store

theorem Reachable.refactor {store : Store} (reachable : store.Reachable) (used changed : Iri) :
    (store.refactor used changed).2.Reachable :=
  reachable.evolves (evolves_refactor store used changed)

end Store

end RdfTemplates
