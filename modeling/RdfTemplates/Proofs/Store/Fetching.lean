import RdfTemplates.Proofs.Store.Structure

/-!
# Fetching in rounds

A reader that only adds declarations makes a store grow, and what is resolved stays
resolved. An IRI that was attempted is resolved or has failed, so it is never
unfetched again. Hence no IRI is attempted twice, a round after which the same IRIs
are unfetched leaves none, and something is left unfetched only when the rounds are
used up.
-/

namespace RdfTemplates

/-- The warning that the rounds were used up. -/
def limitWarning (rounds left : Nat) : Message :=
  .warning ("Stopped fetching after " ++ toString rounds ++ " rounds with " ++ toString left
    ++ " templates still missing")

def Message.IsLimit (m : Message) : Prop := ∃ rounds left, m = limitWarning rounds left

theorem Message.not_isLimit {m : Message} (apart : m.text.toList.take 2 ≠ ['S', 't']) :
    ¬ m.IsLimit := by
  rintro ⟨rounds, left, rfl⟩
  exact apart (by simp [limitWarning, warning])

/-- A declaration that leaves nothing of its IRI to be fetched. -/
def Declaration.Resolves : Declaration → Prop
  | .signature s => s.isBase = true
  | .template _ => True

namespace Store

variable {store other : Store} {iri : Iri}

theorem mem_unfetched : iri ∈ store.unfetched ↔ iri ∈ store.missing ∧ iri ∉ store.failed := by
  simp [unfetched, sortIris, mem_stableSort]

theorem WellFormed.unfetched_nodup (wf : store.WellFormed) : store.unfetched.Nodup :=
  (stableSort_perm _ _).nodup_iff.mpr ((wf.listed_nodup Status.isMissing).filter _)

theorem unfetched_ne_nil_iff :
    store.unfetched ≠ [] ↔ ∃ iri ∈ store.missing, iri ∉ store.failed := by
  rw [ne_eq, List.eq_nil_iff_forall_not_mem, not_forall_not]
  exact exists_congr fun iri => mem_unfetched

theorem WellFormed.not_isResolved (wf : store.WellFormed) (missing : iri ∈ store.missing) :
    store.isResolved iri = false := by
  rw [isResolved]
  rcases wf.mem_missing.mp missing with known | ⟨ps, known⟩
  · rw [known]
    rfl
  · rw [known]
    rfl

/-- What adding declarations does to a store. -/
structure Grows (store other : Store) : Prop where
  wellFormed : store.WellFormed → other.WellFormed
  resolved : ∀ iri, store.isResolved iri = true → other.isResolved iri = true
  library : other.library = store.library
  failed : other.failed = store.failed
  said : ∃ said, other.messages = store.messages ++ said ∧ ∀ m ∈ said, ¬ m.IsLimit

namespace Grows

theorem refl (store : Store) : Grows store store :=
  ⟨id, fun _ => id, rfl, rfl, [], by simp, by simp⟩

theorem trans {last : Store} (first : Grows store other) (second : Grows other last) :
    Grows store last where
  wellFormed := fun wf => second.wellFormed (first.wellFormed wf)
  resolved := fun iri known => second.resolved iri (first.resolved iri known)
  library := second.library.trans first.library
  failed := second.failed.trans first.failed
  said := by
    obtain ⟨said, listed, quiet⟩ := first.said
    obtain ⟨more, following, silent⟩ := second.said
    refine ⟨said ++ more, by rw [following, listed, List.append_assoc], fun m hm => ?_⟩
    exact (List.mem_append.mp hm).elim (quiet m) (silent m)

theorem say (store : Store) {m : Message} (quiet : ¬ m.IsLimit) : Grows store (store.say m) :=
  ⟨fun wf => wf.say m, fun _ => id, rfl, rfl, [m], rfl, by simpa⟩

theorem refuse (store : Store) (iri : Iri) (reason : String) :
    Grows store (store.refuse iri reason).1 :=
  say store (Message.not_isLimit (by simp [Message.warning]))

/-- A store that was not told anything and lost no resolved status has grown. -/
theorem of_aside (wellFormed : store.WellFormed → other.WellFormed)
    (resolved : ∀ iri, store.isResolved iri = true → other.isResolved iri = true)
    (same : other.aside = store.aside) : Grows store other where
  wellFormed := wellFormed
  resolved := resolved
  library := library_of_aside same
  failed := congrArg (·.1) same
  said := by
    have messages : other.messages = store.messages := congrArg (·.2.2.1) same
    exact ⟨[], by rw [messages, List.append_nil], by simp⟩

theorem addBase (store : Store) (iri : Iri) (ps : ParameterList) :
    Grows store (store.addBase iri ps).1 := by
  have wellFormed := fun wf : store.WellFormed => wf.addBase iri ps
  rcases store.addBase_cases iri ps with ⟨reason, refused⟩ | ⟨-, added⟩
  · rw [refused]
    exact refuse store iri reason
  · rw [added] at wellFormed ⊢
    refine of_aside wellFormed (fun other known => ?_) (aside_setStatus store iri _)
    rw [isResolved, status?_setStatus]
    split
    · rfl
    · exact known

/-- Nothing is resolved that was at most called so far. -/
theorem addSignature (store : Store) (s : Signature) : Grows store (store.addSignature s).1 := by
  have wellFormed := fun wf : store.WellFormed => wf.addSignature s
  rcases store.addSignature_cases s with ⟨-, same⟩ | ⟨-, refused⟩ | ⟨-, fresh, added⟩
  · rw [same]
    exact addBase store s.iri s.parameters
  · rw [refused]
    exact say store (Message.not_isLimit (by simp [Message.info]))
  · rw [added] at wellFormed ⊢
    refine of_aside wellFormed (fun other known => ?_) (aside_setStatus store s.iri _)
    rw [isResolved, status?_setStatus]
    split
    · rename_i here
      subst here
      rcases fresh with fresh | fresh <;> simp [isResolved, fresh] at known
      cases known
    · exact known

theorem addTemplate (store : Store) (t : Template) : Grows store (store.addTemplate t).1 := by
  have wellFormed := fun wf : store.WellFormed => wf.addTemplate t
  rcases store.addTemplate_cases t with ⟨reason, refused⟩ | ⟨-, added⟩
  · rw [refused]
    exact refuse store t.iri reason
  · rw [added] at wellFormed ⊢
    refine of_aside wellFormed (fun other known => ?_) (aside_define store t)
    rw [isResolved, status?_define]
    split
    · rfl
    · rw [isResolved, Option.any_eq_true] at known
      obtain ⟨status, here, resolved⟩ := known
      rw [here]
      exact resolved

theorem accept (store : Store) (d : Declaration) : Grows store (store.accept d).1 := by
  cases d with
  | signature s => exact addSignature store s
  | template t => exact addTemplate store t

theorem acceptAll (store : Store) (ds : List Declaration) : Grows store (store.acceptAll ds) := by
  induction ds generalizing store with
  | nil => exact refl store
  | cons d ds ih => exact (accept store d).trans (ih _)

end Grows

theorem isResolved_accept {d : Declaration} (resolves : d.Resolves)
    (added : (store.accept d).2 = true) : (store.accept d).1.isResolved d.iri = true := by
  cases d with
  | signature s =>
      have base : store.accept (.signature s) = store.addBase s.iri s.parameters := if_pos resolves
      rw [base] at added ⊢
      rcases store.addBase_cases s.iri s.parameters with ⟨reason, refused⟩ | ⟨-, accepted⟩
      · rw [refused] at added
        cases added
      · rw [accepted, isResolved, Declaration.iri, status?_setStatus, if_pos rfl]
        rfl
  | template t =>
      rw [accept] at added ⊢
      rcases store.addTemplate_cases t with ⟨reason, refused⟩ | ⟨-, accepted⟩
      · rw [refused] at added
        cases added
      · rw [accepted, isResolved, Declaration.iri, status?_define, if_pos rfl]
        rfl

def LibraryResolves (store : Store) : Prop := ∀ d ∈ store.library.getD [], d.Resolves

theorem Reachable.libraryResolves (reachable : store.Reachable) : store.LibraryResolves := by
  intro d listed
  rcases reachable.library_cases with nothing | ⟨offering, offered⟩
  · rw [nothing] at listed
    cases listed
  · rw [offered] at listed
    rcases List.mem_append.mp listed with template | base
    · obtain ⟨t, -, rfl⟩ := List.mem_map.mp template
      trivial
    · obtain ⟨s, among, rfl⟩ := List.mem_map.mp base
      exact (List.mem_filter.mp among).2

theorem fetchFromLibrary_cases (store : Store) (iri : Iri) :
    store.fetchFromLibrary iri = (store, false) ∨
      ∃ d ∈ store.library.getD [], d.iri = iri ∧ store.fetchFromLibrary iri = store.accept d := by
  unfold fetchFromLibrary
  split
  · rename_i d _ found
    exact .inr ⟨d, List.mem_of_find?_eq_some found, by simpa using List.find?_some found, rfl⟩
  · exact .inl rfl

theorem grows_fetchFromLibrary (resolves : store.LibraryResolves) (iri : Iri) :
    Grows store (store.fetchFromLibrary iri).1 ∧
      ((store.fetchFromLibrary iri).2 = true →
        (store.fetchFromLibrary iri).1.isResolved iri = true) := by
  rcases store.fetchFromLibrary_cases iri with missed | ⟨d, offered, rfl, found⟩
  · rw [missed]
    exact ⟨.refl store, nofun⟩
  · rw [found]
    exact ⟨Grows.accept store d, isResolved_accept (resolves d offered)⟩

section Attempts

variable {σ : Type} {reader : Reader σ} {f g : Fetching σ}

/-- Whatever the reader answers, it has done nothing but add declarations. -/
def OnlyAdds (reader : Reader σ) : Prop :=
  ∀ iri store memory, ∃ ds, (reader iri store memory).2.1 = store.acceptAll ds

/-- What attempts to fetch the IRIs do, one after the other. -/
structure Attempted (iris : List Iri) (f g : Fetching σ) : Prop where
  wellFormed : f.store.WellFormed → g.store.WellFormed
  resolved : ∀ iri, f.store.isResolved iri = true → g.store.isResolved iri = true
  library : g.store.library = f.store.library
  kept : ∀ iri ∈ f.store.failed, iri ∈ g.store.failed
  failed : ∀ iri ∈ g.store.failed, iri ∈ f.store.failed ∨ iri ∈ iris
  settled : ∀ iri ∈ iris, g.store.isResolved iri = true ∨ iri ∈ g.store.failed
  quiet : (∀ m ∈ f.messages ++ f.store.messages, ¬ m.IsLimit) →
    ∀ m ∈ g.messages ++ g.store.messages, ¬ m.IsLimit

namespace Attempted

theorem refl (f : Fetching σ) : Attempted [] f f :=
  ⟨id, fun _ => id, rfl, fun _ => id, fun _ => .inl, by simp, id⟩

theorem trans {h : Fetching σ} {iris others : List Iri} (first : Attempted iris f g)
    (second : Attempted others g h) : Attempted (iris ++ others) f h where
  wellFormed := fun wf => second.wellFormed (first.wellFormed wf)
  resolved := fun iri known => second.resolved iri (first.resolved iri known)
  library := second.library.trans first.library
  kept := fun iri listed => second.kept iri (first.kept iri listed)
  failed := by
    intro iri listed
    rcases second.failed iri listed with earlier | attempted
    · rcases first.failed iri earlier with before | attempted
      · exact .inl before
      · exact .inr (List.mem_append_left _ attempted)
    · exact .inr (List.mem_append_right _ attempted)
  settled := by
    intro iri attempted
    rcases List.mem_append.mp attempted with early | late
    · exact (first.settled iri early).imp (second.resolved iri) (second.kept iri)
    · exact second.settled iri late
  quiet := fun quiet => second.quiet (first.quiet quiet)

/-- One attempt, in which declarations are added first. -/
theorem of_grows {asked : Store} {failed : List Iri} {m : Message}
    (grows : Grows f.store asked) (store : g.store = { asked with failed })
    (kept : ∀ other ∈ asked.failed, other ∈ failed)
    (only : ∀ other ∈ failed, other ∈ asked.failed ∨ other = iri)
    (settled : asked.isResolved iri = true ∨ iri ∈ failed)
    (said : g.messages = f.messages ++ [m]) (apart : ¬ m.IsLimit) : Attempted [iri] f g where
  wellFormed := by
    intro wf
    rw [store]
    exact (grows.wellFormed wf).congr rfl rfl
  resolved := by
    rw [store]
    exact grows.resolved
  library := by
    rw [store]
    exact grows.library
  kept := by
    intro other listed
    rw [store]
    exact kept other (by rwa [grows.failed])
  failed := by
    intro other listed
    rw [store] at listed
    rw [← grows.failed, List.mem_singleton]
    exact only other listed
  settled := by
    intro other attempted
    rw [store, List.mem_singleton.mp attempted]
    exact settled
  quiet := by
    intro quiet n listed
    obtain ⟨more, heard, silent⟩ := grows.said
    have messages : g.store.messages = f.store.messages ++ more := by rw [store, ← heard]
    rw [said, messages] at listed
    simp only [List.mem_append, List.mem_singleton] at listed quiet
    rcases listed with (earlier | rfl) | earlier | new
    · exact quiet n (.inl earlier)
    · exact apart
    · exact quiet n (.inr earlier)
    · exact silent n new

theorem fetchFromReader (adds : OnlyAdds reader) {store : Store} (earlier : Grows f.store store)
    (iri : Iri) : Attempted [iri] f (fetchFromReader reader { f with store } iri) := by
  obtain ⟨ds, added⟩ := adds iri store f.memory
  rcases asked : reader iri store f.memory with ⟨answer, left, memory⟩
  obtain rfl : left = store.acceptAll ds := by
    rw [asked] at added
    exact added
  have grows := earlier.trans (Grows.acceptAll store ds)
  rcases fetchFromReader_cases (f := { f with store }) asked with
    ⟨-, resolved, given⟩ | ⟨reason, failed, -, listed, refused⟩
  · rw [given]
    exact of_grows grows rfl (fun _ => id) (fun _ => .inl) (.inl resolved) rfl
      (Message.not_isLimit (by simp [Message.info]))
  · rw [refused]
    exact of_grows grows rfl (fun other h => (listed other).mpr (.inl h))
      (fun other => (listed other).mp) (.inr ((listed iri).mpr (.inr rfl))) rfl
      (Message.not_isLimit (by simp [Message.warning]))

theorem fetchOne (adds : OnlyAdds reader) (resolves : f.store.LibraryResolves) (iri : Iri) :
    Attempted [iri] f (fetchOne reader f iri) := by
  have offered := grows_fetchFromLibrary resolves iri
  rcases fetchOne_cases reader f iri with ⟨left, found, given⟩ | ⟨left, missed, asked⟩
  · rw [found] at offered
    rw [given]
    exact of_grows offered.1 rfl (fun _ => id) (fun _ => .inl) (.inl (offered.2 rfl)) rfl
      (Message.not_isLimit (by simp [Message.info]))
  · rw [missed] at offered
    rw [asked]
    exact fetchFromReader adds offered.1 iri

theorem fetchEach (adds : OnlyAdds reader) (resolves : f.store.LibraryResolves)
    (iris : List Iri) : Attempted iris f (fetchEach reader iris f) := by
  induction iris generalizing f with
  | nil => exact refl f
  | cons iri iris ih =>
      have first := fetchOne adds resolves iri
      exact first.trans (ih (by rwa [LibraryResolves, first.library]))

/-- What was attempted is not wanted again. -/
theorem not_mem_unfetched {iris : List Iri} (attempted : Attempted iris f g)
    (wf : f.store.WellFormed) {iri : Iri} (h : iri ∈ iris) : iri ∉ g.store.unfetched := by
  intro wanted
  obtain ⟨missing, fresh⟩ := mem_unfetched.mp wanted
  rcases attempted.settled iri h with resolved | failed
  · rw [(attempted.wellFormed wf).not_isResolved missing] at resolved
    cases resolved
  · exact fresh failed

end Attempted

/-- The IRIs that are attempted in each round. -/
def roundsOf (reader : Reader σ) : Nat → List Iri → Fetching σ → List (List Iri)
  | _, [], _ => []
  | 0, _, _ => []
  | rounds + 1, wanted, f =>
      let g := fetchEach reader wanted f
      let next := g.store.unfetched
      wanted :: if next == wanted then [] else roundsOf reader rounds next g

/-- What a run of fetching makes of its start, with the IRIs that are left if the rounds were
used up. -/
structure Settles (reader : Reader σ) (limit : Nat) (f : Fetching σ) (rounds : List (List Iri))
    (result : Fetching σ × Option (List Iri)) : Prop where
  few : rounds.length ≤ limit
  attempts : result.1 = fetchEach reader rounds.flatten f
  wanted : ∀ before round after, rounds = before ++ round :: after →
    round = (fetchEach reader before.flatten f).store.unfetched
  once : rounds.flatten.Nodup
  fresh : ∀ iri ∈ rounds.flatten, f.store.isResolved iri = false ∧ iri ∉ f.store.failed
  left : result.2 = if result.1.store.unfetched = [] then none
    else some result.1.store.unfetched
  used : result.2 ≠ none → rounds.length = limit

theorem fetchEach_append (reader : Reader σ) (iris others : List Iri) (f : Fetching σ) :
    fetchEach reader (iris ++ others) f = fetchEach reader others (fetchEach reader iris f) :=
  List.foldl_append

namespace Settles

variable {limit : Nat}

theorem settled (reader : Reader σ) (limit : Nat) (nothing : f.store.unfetched = []) :
    Settles reader limit f [] (f, none) where
  few := Nat.zero_le limit
  attempts := rfl
  wanted := by simp
  once := .nil
  fresh := by simp
  left := by rw [if_pos nothing]
  used := by simp

theorem stopped (reader : Reader σ) (something : f.store.unfetched ≠ []) :
    Settles reader 0 f [] (f, some f.store.unfetched) where
  few := Nat.zero_le 0
  attempts := rfl
  wanted := by simp
  once := .nil
  fresh := by simp
  left := by rw [if_neg something]
  used := fun _ => rfl

/-- A round before a run. What the round attempts is settled when the run starts. So it is resolved
or failed when a later round makes its list. -/
theorem further {rounds : List (List Iri)} {result : Fetching σ × Option (List Iri)}
    (wf : f.store.WellFormed)
    (round : Attempted f.store.unfetched f (fetchEach reader f.store.unfetched f))
    (run : Settles reader limit (fetchEach reader f.store.unfetched f) rounds result) :
    Settles reader (limit + 1) f (f.store.unfetched :: rounds) result where
  few := Nat.succ_le_succ run.few
  attempts := by rw [run.attempts, List.flatten_cons, fetchEach_append]
  wanted := by
    intro before other after split
    cases before with
    | nil => exact (List.cons.inj split).1.symm
    | cons first before =>
        obtain ⟨rfl, later⟩ := List.cons.inj split
        rw [List.flatten_cons, fetchEach_append]
        exact run.wanted before other after later
  once := by
    rw [List.flatten_cons, List.nodup_append]
    refine ⟨wf.unfetched_nodup, run.once, ?_⟩
    rintro iri attempted _ again rfl
    obtain ⟨unresolved, unfailed⟩ := run.fresh iri again
    rcases round.settled iri attempted with resolved | failed
    · rw [unresolved] at resolved
      cases resolved
    · exact unfailed failed
  fresh := by
    intro iri attempted
    rw [List.flatten_cons] at attempted
    rcases List.mem_append.mp attempted with here | later
    · obtain ⟨missing, unfailed⟩ := mem_unfetched.mp here
      exact ⟨wf.not_isResolved missing, unfailed⟩
    · obtain ⟨unresolved, unfailed⟩ := run.fresh iri later
      refine ⟨?_, fun failed => unfailed (round.kept iri failed)⟩
      by_contra resolved
      rw [round.resolved iri (by simpa using resolved)] at unresolved
      cases unresolved
  left := run.left
  used := fun ended => congrArg (· + 1) (run.used ended)

/-- No IRI has failed when its turn comes. -/
theorem unfailed {rounds : List (List Iri)} {result : Fetching σ × Option (List Iri)}
    (run : Settles reader limit f rounds result) {before after : List Iri} {iri : Iri}
    (earlier : Attempted before f (fetchEach reader before f))
    (split : rounds.flatten = before ++ iri :: after) :
    iri ∉ f.store.failed ∧ iri ∉ (fetchEach reader before f).store.failed := by
  have unfailed := (run.fresh iri (by simp [split])).2
  refine ⟨unfailed, fun failed => ?_⟩
  rcases earlier.failed iri failed with already | again
  · exact unfailed already
  · have once := run.once
    rw [split, List.nodup_append] at once
    exact once.2.2 iri again iri List.mem_cons_self rfl

end Settles

/-- Fetching in rounds ends with what is wanted settled. The first IRI of a round is settled by it,
so the round changes what is wanted. -/
theorem settles_fetchRounds (adds : OnlyAdds reader) (wf : f.store.WellFormed)
    (resolves : f.store.LibraryResolves) (limit : Nat) :
    Settles reader limit f (roundsOf reader limit f.store.unfetched f)
      (fetchRounds reader limit f.store.unfetched f) := by
  induction limit generalizing f with
  | zero =>
      cases wanted : f.store.unfetched with
      | nil =>
          rw [roundsOf, fetchRounds]
          exact .settled reader 0 wanted
      | cons iri others =>
          have something : iri :: others ≠ [] := List.cons_ne_nil iri others
          rw [roundsOf, fetchRounds, ← wanted]
          · exact .stopped reader (wanted ▸ something)
          · exact something
          · exact something
  | succ limit ih =>
      have round := Attempted.fetchEach adds resolves f.store.unfetched
      have run := ih (round.wellFormed wf) (by rwa [LibraryResolves, round.library])
      have further := Settles.further wf round run
      cases wanted : f.store.unfetched with
      | nil =>
          rw [roundsOf, fetchRounds]
          exact .settled reader _ wanted
      | cons iri others =>
          have changed : ((fetchEach reader f.store.unfetched f).store.unfetched ==
              f.store.unfetched) = false := by
            by_contra same
            have equal : (fetchEach reader f.store.unfetched f).store.unfetched =
                f.store.unfetched := by simpa using same
            have first : iri ∈ f.store.unfetched := by rw [wanted]; exact List.mem_cons_self
            exact round.not_mem_unfetched wf first (by rwa [equal])
          have something : iri :: others ≠ [] := List.cons_ne_nil iri others
          rw [roundsOf, fetchRounds, ← wanted]
          · simp only [changed, Bool.false_eq_true, if_false]
            exact further
          · exact something
          · exact something

/-- Fetching starts with the messages of the store laid aside. -/
def startFetching (store : Store) (memory : σ) : Fetching σ :=
  ⟨{ store with messages := [] }, [], memory⟩

def fetchingRounds (store : Store) (reader : Reader σ) (memory : σ) : List (List Iri) :=
  roundsOf reader store.config.maxFetchRounds store.unfetched (store.startFetching memory)

/-- A run of fetching takes up what is unfetched in a few rounds, attempts no IRI twice and none
that failed before, and says at its end whether something is left. -/
structure FetchesOnce (reader : Reader σ) (store : Store) (memory : σ)
    (rounds : List (List Iri)) (result : Fetching σ) : Prop where
  few : rounds.length ≤ store.config.maxFetchRounds
  wanted : ∀ before round after, rounds = before ++ round :: after →
    round = (fetchEach reader before.flatten (store.startFetching memory)).store.unfetched
  attempts : result.store = { (fetchEach reader rounds.flatten (store.startFetching memory)).store
    with messages := store.messages }
  remembered : result.memory =
    (fetchEach reader rounds.flatten (store.startFetching memory)).memory
  once : rounds.flatten.Nodup
  fresh : ∀ before iri after, rounds.flatten = before ++ iri :: after → iri ∉ store.failed ∧
    iri ∉ (fetchEach reader before (store.startFetching memory)).store.failed
  settled : ∀ iri ∈ rounds.flatten, result.store.isResolved iri = true ∨ iri ∈ result.store.failed
  limit : (∃ m ∈ result.messages, m.IsLimit) ↔
    ∃ iri ∈ result.store.missing, iri ∉ result.store.failed
  limit_eq : ∀ m ∈ result.messages, m.IsLimit → rounds.length = store.config.maxFetchRounds ∧
    m = limitWarning store.config.maxFetchRounds result.store.unfetched.length
  pending : result.store.messages = store.messages

theorem fetchMissing_eq (store : Store) (reader : Reader σ) (memory : σ) (f : Fetching σ)
    (left : Option (List Iri))
    (run : fetchRounds reader store.config.maxFetchRounds store.unfetched
      (store.startFetching memory) = (f, left)) :
    store.fetchMissing reader memory = ⟨{ f.store with messages := store.messages },
      f.messages ++ (left.map fun iris =>
        limitWarning store.config.maxFetchRounds iris.length).toList ++ f.store.messages,
      f.memory⟩ := by
  unfold startFetching at run
  unfold fetchMissing
  dsimp only
  rw [run]
  cases left with
  | none => simp
  | some iris => rfl

theorem exists_settles (reachable : store.Reachable) (adds : OnlyAdds reader) (memory : σ) :
    ∃ last left, Settles reader store.config.maxFetchRounds (store.startFetching memory)
        (store.fetchingRounds reader memory) (last, left) ∧
      store.fetchMissing reader memory = ⟨{ last.store with messages := store.messages },
        last.messages ++ (left.map fun iris =>
          limitWarning store.config.maxFetchRounds iris.length).toList ++ last.store.messages,
        last.memory⟩ := by
  obtain ⟨last, left, ended⟩ : ∃ last left, fetchRounds reader store.config.maxFetchRounds
      store.unfetched (store.startFetching memory) = (last, left) := ⟨_, _, rfl⟩
  refine ⟨last, left, ?_, fetchMissing_eq store reader memory last left ended⟩
  have start : (store.startFetching memory).store.WellFormed :=
    reachable.wellFormed.congr rfl rfl
  have resolves : (store.startFetching memory).store.LibraryResolves := reachable.libraryResolves
  rw [← ended]
  exact settles_fetchRounds adds start resolves store.config.maxFetchRounds

/-- Only the rounds that were used up are reported as such. -/
theorem mem_limit (limit : Nat) {last : Fetching σ} {left : Option (List Iri)}
    (quiet : ∀ m ∈ last.messages ++ last.store.messages, ¬ m.IsLimit)
    (stopped : left = if last.store.unfetched = [] then none else some last.store.unfetched)
    (m : Message) :
    (m ∈ last.messages ++ (left.map fun iris => limitWarning limit iris.length).toList ++
        last.store.messages ∧ m.IsLimit) ↔
      last.store.unfetched ≠ [] ∧ m = limitWarning limit last.store.unfetched.length := by
  have listed : (m ∈ last.messages ++ (left.map fun iris =>
        limitWarning limit iris.length).toList ++ last.store.messages ∧ m.IsLimit) ↔
      (left.map fun iris => limitWarning limit iris.length) = some m := by
    simp only [List.mem_append, Option.mem_toList] at quiet ⊢
    constructor
    · rintro ⟨(said | ended) | heard, limit⟩
      · exact absurd limit (quiet m (.inl said))
      · exact ended
      · exact absurd limit (quiet m (.inr heard))
    · intro ended
      obtain ⟨iris, -, rfl⟩ := Option.map_eq_some_iff.mp ended
      exact ⟨.inl (.inr ended), _, _, rfl⟩
  rw [listed, stopped]
  by_cases done : last.store.unfetched = []
  · simp [done]
  · simp [done, eq_comm]

/-- A run of fetching with a reader that only adds asks for everything at most once. -/
theorem fetchMissing_fetchesOnce (reachable : store.Reachable) (adds : OnlyAdds reader)
    (memory : σ) : FetchesOnce reader store memory (store.fetchingRounds reader memory)
      (store.fetchMissing reader memory) := by
  have resolves : (store.startFetching memory).store.LibraryResolves := reachable.libraryResolves
  obtain ⟨last, left, run, fetched⟩ := exists_settles reachable adds memory
  have attempted : Attempted (store.fetchingRounds reader memory).flatten
      (store.startFetching memory) last := by
    rw [show last = _ from run.attempts]
    exact .fetchEach adds resolves _
  have messages := mem_limit store.config.maxFetchRounds
    (attempted.quiet (by simp [startFetching])) run.left
  rw [fetched]
  constructor
  case few => exact run.few
  case wanted => exact run.wanted
  case attempts => rw [show last = _ from run.attempts]
  case remembered => exact congrArg (·.memory) run.attempts
  case once => exact run.once
  case fresh =>
    intro before iri after split
    exact run.unfailed (.fetchEach adds resolves before) split
  case settled => exact attempted.settled
  case limit =>
    refine Iff.trans ?_ unfetched_ne_nil_iff
    constructor
    · rintro ⟨m, said, limit⟩
      exact ((messages m).mp ⟨said, limit⟩).1
    · intro some
      obtain ⟨said, limit⟩ := (messages _).mpr ⟨some, rfl⟩
      exact ⟨_, said, limit⟩
  case limit_eq =>
    intro m said limit
    obtain ⟨some, same⟩ := (messages m).mp ⟨said, limit⟩
    refine ⟨run.used ?_, same⟩
    rw [run.left, if_neg some]
    nofun
  case pending => rfl

end Attempts

/-- A shelf with a library that offers notes. -/
def shelvedNear (rounds : Nat) : Store :=
  (((empty ⟨rounds, true⟩).registerLibrary ((empty .standard).addBase "Note" []).1).addTemplate
    (.make "Shelf" [] [.ofTerms "Book" [], .ofTerms "Note" []])).1

theorem reachable_shelvedNear (rounds : Nat) : (shelvedNear rounds).Reachable :=
  ⟨⟨rounds, true⟩, (Change.library _ _).evolves.trans (Change.template _ "Shelf" [] _).evolves⟩

theorem onlyAdds_bookseller : OnlyAdds bookseller := by
  intro iri store memory
  unfold bookseller
  split
  · exact ⟨[.template (.make "Book" [] [.ofTerms "Title" []])], rfl⟩
  · exact ⟨[], rfl⟩

/-- One round fetches what the shelf lists, and a second one would ask for the titles of books. -/
theorem fetchMissing_fetchesOnce_shelf : OnlyAdds bookseller ∧
    (∀ rounds, (shelvedNear rounds).Reachable ∧
      FetchesOnce bookseller (shelvedNear rounds) ()
        ((shelvedNear rounds).fetchingRounds bookseller ())
        ((shelvedNear rounds).fetchMissing bookseller ())) ∧
    (shelvedNear 1).fetchingRounds bookseller () = [["Book", "Note"]] ∧
    ((shelvedNear 1).fetchMissing bookseller ()).messages = [
      .info "Fetched template Book", .info "Fetched template Note from the standard library",
      .warning "Stopped fetching after 1 rounds with 1 templates still missing"] ∧
    (shelvedNear 9).fetchingRounds bookseller () = [["Book", "Note"], ["Title"]] ∧
    ((shelvedNear 9).fetchMissing bookseller ()).messages = [
      .info "Fetched template Book", .info "Fetched template Note from the standard library",
      .warning "Failed to fetch template Title: no source found for template Title"] := by
  refine ⟨onlyAdds_bookseller, fun rounds => ⟨reachable_shelvedNear rounds, ?_⟩,
    by decide +kernel, by decide +kernel, by decide +kernel, by decide +kernel⟩
  exact fetchMissing_fetchesOnce (reachable_shelvedNear rounds) onlyAdds_bookseller ()

end Store

end RdfTemplates
