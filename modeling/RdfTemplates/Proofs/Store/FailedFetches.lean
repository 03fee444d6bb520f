import RdfTemplates.Proofs.Store.Fetching

/-!
# What has failed and is there all the same

An attempt takes an error of the reader for a failure and does not look whether the
IRI is resolved, as it does where the reader succeeds. A reader may also resolve an
IRI that it failed for before, when it is asked for another one. These are the only
ways in which an IRI fails in a run of fetching and is resolved when the run ends:
what the library adds resolves nothing but the IRI that is attempted.
-/

namespace RdfTemplates

namespace Store

variable {store : Store}

/-- Nothing that has failed is resolved, apart from what had failed before. -/
def FailedUnresolved (store : Store) (before : List Iri) : Prop :=
  ∀ iri ∈ store.failed, iri ∉ before → store.isResolved iri = false

theorem isResolved_setStatus_of_ne {iri other : Iri} (apart : iri ≠ other) (status : Status) :
    (store.setStatus iri status).isResolved other = store.isResolved other := by
  rw [isResolved, status?_setStatus, if_neg apart, isResolved]

/-- A definition resolves no other IRI, since what its body calls and was not known is undefined
from now on. -/
theorem isResolved_define_of_ne {iri : Iri} {t : Template} (apart : t.iri ≠ iri) :
    (store.define t).isResolved iri = store.isResolved iri := by
  rw [isResolved, status?_define, if_neg apart, isResolved]
  cases store.status? iri with
  | some status => rfl
  | none =>
      split <;> rfl

theorem isResolved_addBase_of_ne {iri other : Iri} (apart : iri ≠ other) (ps : ParameterList) :
    (store.addBase iri ps).1.isResolved other = store.isResolved other := by
  rcases store.addBase_cases iri ps with ⟨reason, refused⟩ | ⟨-, added⟩
  · rw [refused]
    rfl
  · rw [added]
    exact isResolved_setStatus_of_ne apart _

theorem isResolved_accept_of_ne {iri : Iri} {d : Declaration} (apart : d.iri ≠ iri) :
    (store.accept d).1.isResolved iri = store.isResolved iri := by
  cases d with
  | signature s =>
      rw [accept]
      rcases store.addSignature_cases s with ⟨-, same⟩ | ⟨-, refused⟩ | ⟨-, -, added⟩
      · rw [same]
        exact isResolved_addBase_of_ne apart s.parameters
      · rw [refused]
        rfl
      · rw [added]
        exact isResolved_setStatus_of_ne apart _
  | template t =>
      rw [accept]
      rcases store.addTemplate_cases t with ⟨reason, refused⟩ | ⟨-, added⟩
      · rw [refused]
        rfl
      · rw [added]
        exact isResolved_define_of_ne apart

section Attempts

variable {σ : Type} {reader : Reader σ} {f g : Fetching σ} {before : List Iri} {iri : Iri}

/-- What the reader answers to an attempt, with the store that it leaves. It is not asked for
what the library gives. -/
def answer? (reader : Reader σ) (f : Fetching σ) (iri : Iri) :
    Option (Except ReaderError Unit × Store) :=
  match f.store.fetchFromLibrary iri with
  | (_, true) => none
  | (store, false) =>
      some ((reader iri store f.memory).1, (reader iri store f.memory).2.1)

/-- An attempt whose answer leaves nothing resolved that the run takes for a failure: neither
the IRI itself, where the answer is an error, nor one that failed earlier in the run. -/
structure AnsweredFairly (reader : Reader σ) (before : List Iri) (f : Fetching σ) (iri : Iri) :
    Prop where
  error : ∀ e left, answer? reader f iri = some (.error e, left) → left.isResolved iri = false
  earlier : ∀ answer left, answer? reader f iri = some (answer, left) →
    left.FailedUnresolved before

theorem answer?_of_offered {left : Store} (offered : f.store.fetchFromLibrary iri = (left, true)) :
    answer? reader f iri = none := by
  rw [answer?, offered]

theorem answer?_of_missed {left : Store} (missed : f.store.fetchFromLibrary iri = (left, false)) :
    answer? reader f iri =
      some ((reader iri left f.memory).1, (reader iri left f.memory).2.1) := by
  rw [answer?, missed]

/-- An attempt in which the library gives the IRI resolves nothing else and fails nothing. -/
theorem fetchOne_of_library (unasked : answer? reader f iri = none) :
    (fetchOne reader f iri).store.failed = f.store.failed ∧
      ∀ other, iri ≠ other →
        (fetchOne reader f iri).store.isResolved other = f.store.isResolved other := by
  rcases fetchOne_cases reader f iri with ⟨left, found, taken⟩ | ⟨left, missed, -⟩
  · rcases f.store.fetchFromLibrary_cases iri with nothing | ⟨d, -, rfl, accepted⟩
    · rw [found] at nothing
      cases nothing
    · have failed : (f.store.accept d).1.failed = f.store.failed :=
        (Grows.accept f.store d).failed
      have others : ∀ other, d.iri ≠ other →
          (f.store.accept d).1.isResolved other = f.store.isResolved other :=
        fun other apart => isResolved_accept_of_ne apart
      rw [← accepted, found] at failed others
      rw [taken]
      exact ⟨failed, others⟩
  · rw [answer?_of_missed missed] at unasked
    cases unasked

/-- An attempt in which the reader is asked leaves what the reader leaves, but for the failure of
an IRI that the reader refuses or does not resolve. -/
theorem fetchOne_of_reader {answer : Except ReaderError Unit} {left : Store}
    (asked : answer? reader f iri = some (answer, left)) :
    (∀ other, (fetchOne reader f iri).store.isResolved other = left.isResolved other) ∧
      ∀ other, other ∈ (fetchOne reader f iri).store.failed ↔ other ∈ left.failed ∨
        other = iri ∧ ((∃ e, answer = .error e) ∨ left.isResolved iri = false) := by
  rcases fetchOne_cases reader f iri with ⟨offered, found, -⟩ | ⟨offered, missed, sent⟩
  · rw [answer?_of_offered found] at asked
    cases asked
  · rw [answer?_of_missed missed] at asked
    rcases answered : reader iri offered f.memory with ⟨result, changed, memory⟩
    rw [answered] at asked
    obtain ⟨rfl, rfl⟩ := Prod.mk.inj (Option.some.inj asked)
    rcases fetchFromReader_cases (f := { f with store := offered }) answered with
      ⟨⟨given, rfl⟩, resolved, taken⟩ | ⟨reason, failed, why, listed, refused⟩
    · rw [sent, taken]
      exact ⟨fun other => rfl, fun other => by simp [resolved]⟩
    · rw [sent, refused]
      exact ⟨fun other => rfl, fun other =>
        (listed other).trans (or_congr_right (and_iff_left why).symm)⟩

/-- What has failed and is resolved stays so. -/
theorem Attempted.failedUnresolved {iris : List Iri} (attempted : Attempted iris f g)
    (unresolved : g.store.FailedUnresolved before) : f.store.FailedUnresolved before := by
  intro iri failed since
  have late := unresolved iri (attempted.kept iri failed) since
  by_contra resolved
  rw [attempted.resolved iri (by simpa using resolved)] at late
  cases late

theorem fetchOne_failedUnresolved (unresolved : f.store.FailedUnresolved before)
    (unfailed : iri ∉ f.store.failed) (fair : AnsweredFairly reader before f iri) :
    (fetchOne reader f iri).store.FailedUnresolved before := by
  intro other failed since
  cases asked : answer? reader f iri with
  | none =>
      obtain ⟨same, others⟩ := fetchOne_of_library asked
      rw [same] at failed
      have apart : iri ≠ other := by
        rintro rfl
        exact unfailed failed
      rw [others other apart]
      exact unresolved other failed since
  | some asking =>
      obtain ⟨answer, left⟩ := asking
      obtain ⟨same, refused⟩ := fetchOne_of_reader asked
      rw [same]
      rcases (refused other).mp failed with earlier | ⟨rfl, ⟨e, rfl⟩ | nothing⟩
      · exact fair.earlier answer left asked other earlier since
      · exact fair.error e left asked
      · exact nothing

theorem answeredFairly_of_fetchOne (since : iri ∉ before)
    (unresolved : (fetchOne reader f iri).store.FailedUnresolved before) :
    AnsweredFairly reader before f iri where
  error := by
    intro e left asked
    obtain ⟨same, refused⟩ := fetchOne_of_reader asked
    rw [← same]
    exact unresolved iri ((refused iri).mpr (.inr ⟨rfl, .inl ⟨e, rfl⟩⟩)) since
  earlier := by
    intro answer left asked other failed since
    obtain ⟨same, refused⟩ := fetchOne_of_reader asked
    rw [← same]
    exact unresolved other ((refused other).mpr (.inl failed)) since

/-- Attempts leave nothing resolved that has failed since exactly if each of them is answered
fairly. -/
theorem fetchEach_failedUnresolved_iff (adds : OnlyAdds reader) {iris : List Iri}
    (resolves : f.store.LibraryResolves) (unresolved : f.store.FailedUnresolved before)
    (once : iris.Nodup) (fresh : ∀ iri ∈ iris, iri ∉ before ∧ iri ∉ f.store.failed) :
    (fetchEach reader iris f).store.FailedUnresolved before ↔
      ∀ done iri rest, iris = done ++ iri :: rest →
        AnsweredFairly reader before (fetchEach reader done f) iri := by
  induction iris generalizing f with
  | nil => exact ⟨fun _ done iri rest split => by simp at split, fun _ => unresolved⟩
  | cons iri iris ih =>
      obtain ⟨since, unfailed⟩ := fresh iri List.mem_cons_self
      obtain ⟨apart, once⟩ := List.nodup_cons.mp once
      have first : Attempted [iri] f (fetchOne reader f iri) := .fetchOne adds resolves iri
      have further : (fetchOne reader f iri).store.LibraryResolves := by
        rwa [LibraryResolves, first.library]
      have fresh : ∀ other ∈ iris, other ∉ before ∧
          other ∉ (fetchOne reader f iri).store.failed := by
        intro other later
        obtain ⟨new, untried⟩ := fresh other (List.mem_cons_of_mem iri later)
        refine ⟨new, fun failed => ?_⟩
        rcases first.failed other failed with earlier | here
        · exact untried earlier
        · exact apart (List.mem_singleton.mp here ▸ later)
      have rest (unresolved : (fetchOne reader f iri).store.FailedUnresolved before) :=
        ih further unresolved once fresh
      constructor
      · intro last
        have unresolved : (fetchOne reader f iri).store.FailedUnresolved before :=
          (Attempted.fetchEach adds further iris).failedUnresolved last
        intro done other after split
        cases done with
        | nil =>
            obtain ⟨rfl, -⟩ := List.cons.inj split
            exact answeredFairly_of_fetchOne since unresolved
        | cons head done =>
            obtain ⟨rfl, later⟩ := List.cons.inj split
            exact (rest unresolved).mp last done other after later
      · intro fair
        have unresolved := fetchOne_failedUnresolved unresolved unfailed (fair [] iri iris rfl)
        refine (rest unresolved).mpr fun done other after split => ?_
        exact fair (iri :: done) other after (congrArg (iri :: ·) split)

/-- Nothing that fails in a run of fetching is resolved when it returns exactly if each of its
attempts is answered fairly. -/
theorem fetchMissing_failedUnresolved_iff (reachable : store.Reachable) (adds : OnlyAdds reader)
    (memory : σ) : (store.fetchMissing reader memory).store.FailedUnresolved store.failed ↔
      ∀ done iri rest, (store.fetchingRounds reader memory).flatten = done ++ iri :: rest →
        AnsweredFairly reader store.failed
          (fetchEach reader done (store.startFetching memory)) iri := by
  have resolves : (store.startFetching memory).store.LibraryResolves := reachable.libraryResolves
  obtain ⟨last, left, run, fetched⟩ := exists_settles reachable adds memory
  have attempts : last = fetchEach reader (store.fetchingRounds reader memory).flatten
      (store.startFetching memory) := run.attempts
  have exactly : last.store.FailedUnresolved store.failed ↔
      ∀ done iri rest, (store.fetchingRounds reader memory).flatten = done ++ iri :: rest →
        AnsweredFairly reader store.failed
          (fetchEach reader done (store.startFetching memory)) iri := by
    rw [attempts]
    refine fetchEach_failedUnresolved_iff adds resolves ?_ run.once fun iri attempted => ?_
    · exact fun iri failed new => absurd failed new
    · obtain ⟨-, unfailed⟩ := run.fresh iri attempted
      exact ⟨unfailed, unfailed⟩
  rw [fetched]
  exact exactly

end Attempts

/-- The title of a book is nowhere to be had, and it stays unresolved. -/
theorem fetchMissing_failedUnresolved_iff_title : OnlyAdds bookseller ∧
    (shelvedNear 9).Reachable ∧
    (((shelvedNear 9).fetchMissing bookseller ()).store.FailedUnresolved (shelvedNear 9).failed ↔
      ∀ done iri rest, ((shelvedNear 9).fetchingRounds bookseller ()).flatten =
        done ++ iri :: rest → AnsweredFairly bookseller (shelvedNear 9).failed
          (fetchEach bookseller done ((shelvedNear 9).startFetching ())) iri) ∧
    ((shelvedNear 9).fetchMissing bookseller ()).store.failed = ["Title"] ∧
    ((shelvedNear 9).fetchMissing bookseller ()).store.FailedUnresolved (shelvedNear 9).failed := by
  have adds := onlyAdds_bookseller
  have reachable := reachable_shelvedNear 9
  refine ⟨adds, reachable, fetchMissing_failedUnresolved_iff reachable adds (), by decide +kernel,
    ?_⟩
  unfold FailedUnresolved
  decide +kernel

/-- Hands out notes with books and does not find notes by themselves. -/
def librarian : Reader Unit := fun iri store _ =>
  if iri = "Book" then
    (.ok (), store.acceptAll [.template (.make "Book" [] []), .template (.make "Note" [] [])], ())
  else (.error (.notFound iri), store, ())

/-- The notes came with the book and are resolved, and are recorded as failed when they are asked
for. -/
theorem not_fetchMissing_failedUnresolved_librarian : OnlyAdds librarian ∧ shelved.Reachable ∧
    (shelved.fetchMissing librarian ()).messages = [.info "Fetched template Book",
      .warning "Failed to fetch template Note: no source found for template Note"] ∧
    (shelved.fetchMissing librarian ()).store.failed = ["Note"] ∧
    (shelved.fetchMissing librarian ()).store.isResolved "Note" = true ∧
    ¬ (shelved.fetchMissing librarian ()).store.FailedUnresolved shelved.failed := by
  refine ⟨?_, (LeadsTo.addTemplate (.start _) "Shelf" [] _).reachable, by decide +kernel,
    by decide +kernel, by decide +kernel, ?_⟩
  · intro iri store memory
    unfold librarian
    split
    · exact ⟨_, rfl⟩
    · exact ⟨[], rfl⟩
  · unfold FailedUnresolved
    decide +kernel

end Store

end RdfTemplates
