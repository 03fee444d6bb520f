import RdfTemplates.Proofs.Store.WellFormed

/-!
# Removing from a well-formed store

Removing calls and entries leaves the other calls and entries as they were, and
the store stays well formed: an entry goes only when nothing calls it and it
calls nothing.
-/

namespace RdfTemplates

namespace Store

/-- A status is found by searching for the IRI exactly if an entry has it. -/
theorem status?_eq_some_iff {store : Store} (iris : (store.entries.latestFirst.map (·.iri)).Nodup)
    {iri : Iri} {status : Status} :
    store.status? iri = some status ↔ ∃ n, (n, ⟨iri, status⟩) ∈ store.entries.items := by
  constructor
  · intro h
    obtain ⟨e, found, rfl⟩ := Option.map_eq_some_iff.mp h
    obtain ⟨⟨n, f⟩, used, rfl⟩ := List.mem_map.mp (List.mem_of_find?_eq_some found)
    obtain rfl := entry?_iri found
    exact ⟨n, used⟩
  · rintro ⟨n, used⟩
    have listed : (⟨iri, status⟩ : Entry) ∈ store.entries.latestFirst :=
      List.mem_map.mpr ⟨_, used, rfl⟩
    obtain ⟨e, found⟩ := Option.isSome_iff_exists.mp
      ((store.entry?_isSome iri).mpr ⟨_, listed, rfl⟩)
    have same : e = ⟨iri, status⟩ :=
      List.inj_on_of_nodup_map iris (List.mem_of_find?_eq_some found) listed (entry?_iri found)
    rw [status?, found, same]
    rfl

/-- Nothing calls a template exactly if no call leads to it. -/
theorem callsTo_isEmpty_iff {store : Store} {iri : Iri} :
    (store.callsTo iri).isEmpty = true ↔ ∀ call ∈ store.calls.items, call.2.callee ≠ iri := by
  simp [callsTo, List.filter_eq_nil_iff]

/-- The store without some of the calls. -/
def dropCalls (store : Store) (doomed : List (Nat × Call)) (uses : List (Iri × Iri)) : Store :=
  { store with calls := store.calls.removeAll (doomed.map Prod.fst), predicateUses := uses }

@[simp] theorem status?_dropCalls (store : Store) (doomed : List (Nat × Call))
    (uses : List (Iri × Iri)) (iri : Iri) :
    (store.dropCalls doomed uses).status? iri = store.status? iri := rfl

theorem callsFrom_sublist (store : Store) (iri : Iri) :
    (store.callsFrom iri).Sublist store.calls.items := List.filter_sublist

/-- The calls that go when instances are taken out of a body. -/
def taken (store : Store) (iri : Iri) (out : List Instance) : List (Nat × Call) :=
  (store.callsFrom iri).filter fun (_, c) => out.contains c.target

theorem taken_sublist (store : Store) (iri : Iri) (out : List Instance) :
    (store.taken iri out).Sublist store.calls.items :=
  List.filter_sublist.trans (callsFrom_sublist store iri)

/-- The store without some of the entries. -/
def dropEntries (store : Store) (doomed : List (Nat × Entry)) : Store :=
  { store with entries := store.entries.removeAll (doomed.map Prod.fst) }

/-- The entries that are undefined and not called. -/
def orphans (store : Store) : List (Nat × Entry) :=
  store.entries.numberedInOrder.filter fun (_, e) =>
    e.status.isUndefined && (store.callsTo e.iri).isEmpty

theorem prune_eq (store : Store) : store.prune = store.dropEntries store.orphans := rfl

/-- What is pruned is undefined and has no call left. -/
theorem mem_orphans {store : Store} {item : Nat × Entry} :
    item ∈ store.orphans ↔ item ∈ store.entries.items ∧ item.2.status.isUndefined = true ∧
      (store.callsTo item.2.iri).isEmpty = true := by
  obtain ⟨n, e⟩ := item
  rw [orphans, List.mem_filter, store.entries.numberedInOrder_perm.mem_iff, Bool.and_eq_true]

/-- The store without what is declared about an IRI. Entries that nothing calls any more are still
there. -/
def cleared (store : Store) (iri : Iri) : Store :=
  let silent := store.dropCalls (store.callsFrom iri) (forgetUses store.predicateUses iri)
  if (silent.callsTo iri).isEmpty then silent.removeEntry iri
  else silent.setStatus iri .undefined

/-- The store without the body of a template. -/
def silenced (store : Store) (iri : Iri) : Store :=
  store.dropCalls (store.callsFrom iri) (forgetUses store.predicateUses iri)

theorem cleared_cases (store : Store) (iri : Iri) :
    (∀ call ∈ (store.silenced iri).calls.items, call.2.callee ≠ iri) ∧
        store.cleared iri = (store.silenced iri).removeEntry iri ∨
      store.cleared iri = (store.silenced iri).setStatus iri .undefined := by
  unfold cleared
  dsimp only
  split
  · rename_i uncalled
    exact .inl ⟨callsTo_isEmpty_iff.mp uncalled, rfl⟩
  · exact .inr rfl

/-- What is there is removed, and what only it called is pruned. -/
theorem remove_of_contains {store : Store} {iri : Iri} (known : store.contains iri = true) :
    store.remove iri = ((store.cleared iri).prune, true) := by
  unfold remove
  rw [if_pos known]
  rfl

theorem remove_of_not_contains {store : Store} {iri : Iri} (unknown : ¬ store.contains iri = true) :
    store.remove iri = (store, false) := by
  unfold remove
  rw [if_neg unknown]

theorem addMissingCall_cases (store : Store) (caller : Iri) (i : Instance) :
    (∃ k ∈ store.bodyOf caller, (k == i) = true) ∧ store.addMissingCall caller i = store ∨
      (∀ k ∈ store.bodyOf caller, (k == i) = false) ∧
        store.addMissingCall caller i = store.addCall caller i := by
  unfold addMissingCall
  split
  · rename_i there
    obtain ⟨⟨n, c⟩, listed, same⟩ := List.any_eq_true.mp there
    obtain ⟨used, rfl⟩ := mem_callsFrom.mp listed
    exact .inl ⟨⟨c.target, mem_bodyOf.mpr ⟨n, used⟩, same⟩, rfl⟩
  · rename_i missing
    refine .inr ⟨fun k hk => ?_, rfl⟩
    obtain ⟨n, used⟩ := mem_bodyOf.mp hk
    by_contra same
    refine missing (List.any_eq_true.mpr ⟨(n, ⟨caller, k⟩), mem_callsFrom.mpr ⟨used, rfl⟩, ?_⟩)
    simpa using same

/-- The store with a body edited. Entries that nothing calls any more are still there. -/
def edited (store : Store) (iri : Iri) (out into : List Instance) : Store :=
  let put := into.foldl (·.addMissingCall iri ·)
    (store.dropCalls (store.taken iri out) store.predicateUses)
  { put with
    predicateUses := (put.bodyOf iri).foldl (noteUse · iri ·) (forgetUses put.predicateUses iri) }

/-- Bodies of definitions are edited, and what is not called any more is pruned. -/
theorem editBody_of_definition {store : Store} {iri : Iri} (defined : store.isDefinition iri = true)
    (out into : List Instance) :
    store.editBody iri out into = ((store.edited iri out into).prune, true) := by
  unfold editBody
  rw [if_pos defined]
  rfl

/-- Without a definition nothing is edited. -/
theorem editBody_of_not_definition {store : Store} {iri : Iri}
    (other : ¬ store.isDefinition iri = true) (out into : List Instance) :
    store.editBody iri out into = (store, false) := by
  unfold editBody
  rw [if_neg other]

namespace WellFormed

variable {store : Store}

theorem mem_dropCalls (wf : store.WellFormed) {doomed : List (Nat × Call)}
    (used : doomed.Sublist store.calls.items) (uses : List (Iri × Iri)) {call : Nat × Call} :
    call ∈ (store.dropCalls doomed uses).calls.items ↔
      call ∈ store.calls.items ∧ call ∉ doomed :=
  wf.calls.mem_removeAll_items fun _ h => used.subset h

/-- Calls can go without harm, since only callees have to be there. -/
theorem dropCalls (wf : store.WellFormed) {doomed : List (Nat × Call)}
    (used : doomed.Sublist store.calls.items) (uses : List (Iri × Iri)) :
    (store.dropCalls doomed uses).WellFormed where
  entries := wf.entries
  calls := wf.calls.removeAll ((used.map Prod.fst).nodup wf.calls.numbers_nodup)
    fun _ h => (used.map Prod.fst).subset h
  iris := wf.iris
  callers := fun call h => wf.callers call ((wf.mem_dropCalls used uses).mp h).1
  callees := fun call h => wf.callees call ((wf.mem_dropCalls used uses).mp h).1

theorem iris_dropEntries (wf : store.WellFormed) (doomed : List (Nat × Entry)) :
    ((store.dropEntries doomed).entries.latestFirst.map (·.iri)).Nodup := by
  have kept := store.entries.sublist_removeAll (doomed.map Prod.fst)
  exact ((kept.map Prod.snd).map (·.iri)).nodup wf.iris

/-- The entries that stay have the statuses they had. -/
theorem status?_dropEntries (wf : store.WellFormed) {doomed : List (Nat × Entry)}
    (used : ∀ item ∈ doomed, item ∈ store.entries.items) {iri : Iri} {status : Status} :
    (store.dropEntries doomed).status? iri = some status ↔
      ∃ n, (n, ⟨iri, status⟩) ∈ store.entries.items ∧ (n, ⟨iri, status⟩) ∉ doomed := by
  rw [status?_eq_some_iff (wf.iris_dropEntries doomed)]
  exact exists_congr fun n => wf.entries.mem_removeAll_items used

/-- The entries that go may neither call nor be called. -/
theorem dropEntries (wf : store.WellFormed) {doomed : List (Nat × Entry)}
    (nodup : (doomed.map Prod.fst).Nodup)
    (used : ∀ item ∈ doomed, item ∈ store.entries.items)
    (silent : ∀ item ∈ doomed, ∀ call ∈ store.calls.items,
      call.2.caller ≠ item.2.iri ∧ call.2.callee ≠ item.2.iri) :
    (store.dropEntries doomed).WellFormed := by
  refine ⟨wf.entries.removeAll nodup ?_, wf.calls, wf.iris_dropEntries doomed, ?_, ?_⟩
  · intro n listed
    obtain ⟨item, h, rfl⟩ := List.mem_map.mp listed
    exact List.mem_map.mpr ⟨item, used item h, rfl⟩
  · intro call h
    obtain ⟨ps, status⟩ := isDefinition_iff.mp (wf.callers call h)
    obtain ⟨n, item⟩ := (status?_eq_some_iff wf.iris).mp status
    refine isDefinition_iff.mpr ⟨ps, (wf.status?_dropEntries used).mpr ⟨n, item, fun gone => ?_⟩⟩
    exact (silent _ gone call h).1 rfl
  · intro call h
    obtain ⟨status, known⟩ := Option.isSome_iff_exists.mp (wf.callees call h)
    obtain ⟨n, item⟩ := (status?_eq_some_iff wf.iris).mp known
    refine Option.isSome_iff_exists.mpr
      ⟨status, (wf.status?_dropEntries used).mpr ⟨n, item, fun gone => ?_⟩⟩
    exact (silent _ gone call h).2 rfl

/-- Pruning takes no entry that is called. -/
theorem prune (wf : store.WellFormed) : store.prune.WellFormed := by
  rw [prune_eq]
  have nodup : (store.orphans.map Prod.fst).Nodup := by
    have all := (store.entries.numberedInOrder_perm.map Prod.fst).nodup_iff.mpr
      wf.entries.numbers_nodup
    exact (List.filter_sublist.map Prod.fst).nodup all
  refine wf.dropEntries nodup (fun item h => (mem_orphans.mp h).1) fun item h call used => ?_
  obtain ⟨here, undefined, uncalled⟩ := mem_orphans.mp h
  refine ⟨?_, callsTo_isEmpty_iff.mp uncalled call used⟩
  have status := (status?_eq_some_iff wf.iris).mpr ⟨item.1, here⟩
  apply wf.not_caller _ _ call used
  intro ps other
  rw [status] at other
  rw [Option.some.inj other] at undefined
  cases undefined

/-- A status stays unless it is undefined and not called. -/
theorem status?_prune (wf : store.WellFormed) {iri : Iri} {status : Status} :
    store.prune.status? iri = some status ↔ store.status? iri = some status ∧
      ¬ (status.isUndefined = true ∧ (store.callsTo iri).isEmpty = true) := by
  rw [prune_eq, wf.status?_dropEntries fun item h => (mem_orphans.mp h).1,
    status?_eq_some_iff wf.iris]
  constructor
  · rintro ⟨n, here, kept⟩
    exact ⟨⟨n, here⟩, fun gone => kept (mem_orphans.mpr ⟨here, gone⟩)⟩
  · rintro ⟨⟨n, here⟩, kept⟩
    exact ⟨n, here, fun gone => kept (mem_orphans.mp gone).2⟩

theorem status?_prune_declared (wf : store.WellFormed) {iri : Iri} {status : Status}
    (declared : status.isUndefined = false) :
    store.prune.status? iri = some status ↔ store.status? iri = some status := by
  rw [wf.status?_prune]
  refine and_iff_left fun gone => ?_
  rw [declared] at gone
  cases gone.1

/-- An entry can go if it has no calls and is not called. -/
theorem removeEntry (wf : store.WellFormed) {iri : Iri}
    (silent : ∀ call ∈ store.calls.items, call.2.caller ≠ iri ∧ call.2.callee ≠ iri) :
    (store.removeEntry iri).WellFormed := by
  have kept : (store.entries.items.filter (·.2.iri == iri)).Sublist store.entries.items :=
    List.filter_sublist
  refine wf.dropEntries ((kept.map Prod.fst).nodup wf.entries.numbers_nodup)
    (fun item h => kept.subset h) fun item h => ?_
  have same : item.2.iri = iri := by simpa using (List.mem_filter.mp h).2
  rw [same]
  exact silent

theorem silenced (wf : store.WellFormed) (iri : Iri) : (store.silenced iri).WellFormed :=
  wf.dropCalls (callsFrom_sublist store iri) _

theorem not_caller_silenced (wf : store.WellFormed) {iri : Iri} :
    ∀ call ∈ (store.silenced iri).calls.items, call.2.caller ≠ iri := by
  intro call h same
  obtain ⟨used, kept⟩ := (wf.mem_dropCalls (callsFrom_sublist store iri) _).mp h
  exact kept (mem_callsFrom.mpr ⟨used, same⟩)

/-- A template that is called stays as an undefined entry, and one that is not goes. -/
theorem cleared (wf : store.WellFormed) (iri : Iri) : (store.cleared iri).WellFormed := by
  rcases store.cleared_cases iri with ⟨uncalled, removed⟩ | undefined
  · rw [removed]
    exact (wf.silenced iri).removeEntry fun call h =>
      ⟨wf.not_caller_silenced call h, uncalled call h⟩
  · rw [undefined]
    exact (wf.silenced iri).setStatus iri _ (.inr wf.not_caller_silenced)

theorem remove (wf : store.WellFormed) (iri : Iri) : (store.remove iri).1.WellFormed := by
  by_cases known : store.contains iri = true
  · rw [remove_of_contains known]
    exact (wf.cleared iri).prune
  · rw [remove_of_not_contains known]
    exact wf

/-- A call from a definition can be added. -/
theorem addMissingCall (wf : store.WellFormed) {caller : Iri} (i : Instance)
    (defined : store.isDefinition caller = true) : (store.addMissingCall caller i).WellFormed := by
  rcases store.addMissingCall_cases caller i with ⟨-, same⟩ | ⟨-, added⟩
  · rwa [same]
  · rw [added]
    exact wf.addCall i defined

theorem isDefinition_addMissingCall {caller : Iri} (i : Instance)
    (defined : store.isDefinition caller = true) :
    (store.addMissingCall caller i).isDefinition caller = true := by
  rcases store.addMissingCall_cases caller i with ⟨-, same⟩ | ⟨-, added⟩
  · rwa [same]
  · obtain ⟨ps, status⟩ := isDefinition_iff.mp defined
    refine isDefinition_iff.mpr ⟨ps, ?_⟩
    rw [added, status?_addCall, status?_ensure, status]
    rfl

theorem foldl_addMissingCall (wf : store.WellFormed) (caller : Iri) (into : List Instance)
    (defined : store.isDefinition caller = true) :
    (into.foldl (·.addMissingCall caller ·) store).WellFormed := by
  induction into generalizing store with
  | nil => exact wf
  | cons i into ih =>
      exact ih (wf.addMissingCall i defined) (isDefinition_addMissingCall i defined)

/-- Editing a body leaves the store in shape. -/
theorem edited (wf : store.WellFormed) {iri : Iri} (defined : store.isDefinition iri = true)
    (out into : List Instance) : (store.edited iri out into).WellFormed := by
  have put := (wf.dropCalls (store.taken_sublist iri out)
    store.predicateUses).foldl_addMissingCall iri into defined
  exact put.congr rfl rfl

theorem editBody (wf : store.WellFormed) (iri : Iri) (out into : List Instance) :
    (store.editBody iri out into).1.WellFormed := by
  by_cases defined : store.isDefinition iri = true
  · rw [editBody_of_definition defined]
    exact (wf.edited defined out into).prune
  · rw [editBody_of_not_definition defined]
    exact wf

end WellFormed

end Store

end RdfTemplates
