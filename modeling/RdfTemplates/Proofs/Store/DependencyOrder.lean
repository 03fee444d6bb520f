import RdfTemplates.Proofs.Store.WellFormed
import RdfTemplates.Store.DependencyOrder
import Mathlib.Data.List.Count

/-!
# Callees come before their callers

While templates are sorted, the count of a template is the number of its calls
that lead to templates not sorted yet, and the templates with the count zero are
those that are sorted or in the frontier. A template is sorted when its count is
zero, so all that it calls was sorted before it.
-/

namespace RdfTemplates

namespace Store

/-- The calls of a template that lead to none of the given templates. -/
def openCalls (store : Store) (sorted : List Iri) (iri : Iri) : List (Nat × Call) :=
  (store.callsFrom iri).filter (!sorted.contains ·.2.callee)

/-- A sort under way, with the callers whose calls of the template sorted last are
still to be settled. -/
structure Settling (store : Store) (pending : List Iri) (s : Sorting) : Prop where
  keys : s.remaining.map Prod.fst = store.entryList.map (·.iri)
  counts : ∀ iri n, (iri, n) ∈ s.remaining →
    n = (store.openCalls s.sorted iri).length + pending.count iri
  apart : (s.sorted ++ s.frontier).Nodup
  ready : ∀ iri, iri ∈ s.sorted ++ s.frontier ↔ (iri, 0) ∈ s.remaining
  ordered : ∀ before iri after, s.sorted = before ++ iri :: after →
    ∀ call ∈ store.callsFrom iri, call.2.callee ∈ before

theorem mem_entryList_iris {store : Store} {iri : Iri} :
    iri ∈ store.entryList.map (·.iri) ↔ (store.status? iri).isSome := by
  rw [status?_isSome, entryList, (store.entries.inOrder_perm.map _).mem_iff]
  simp

theorem WellFormed.entryList_nodup {store : Store} (wf : store.WellFormed) :
    (store.entryList.map (·.iri)).Nodup :=
  (store.entries.inOrder_perm.map _).nodup_iff.mpr wf.iris

theorem WellFormed.mem_keys_of_caller {store : Store} (wf : store.WellFormed)
    {call : Nat × Call} (used : call ∈ store.calls.items) :
    call.2.caller ∈ store.entryList.map (·.iri) := by
  obtain ⟨ps, status⟩ := isDefinition_iff.mp (wf.callers call used)
  rw [mem_entryList_iris, status]
  rfl

theorem WellFormed.mem_keys_of_callsTo {store : Store} (wf : store.WellFormed) {callee caller : Iri}
    (h : caller ∈ (store.callsTo callee).map (·.2.caller)) :
    caller ∈ store.entryList.map (·.iri) := by
  obtain ⟨call, used, rfl⟩ := List.mem_map.mp h
  exact wf.mem_keys_of_caller (mem_callsTo.mp used).1

/-- Sorting a template takes its calls off the open calls of each caller. -/
theorem length_openCalls_append (store : Store) {sorted : List Iri} {callee : Iri}
    (new : callee ∉ sorted) (iri : Iri) :
    (store.openCalls sorted iri).length =
      (store.openCalls (sorted ++ [callee]) iri).length +
        ((store.callsTo callee).map (·.2.caller)).count iri := by
  unfold openCalls callsFrom callsTo
  induction store.calls.items with
  | nil => rfl
  | cons call calls ih =>
      simp only [List.filter_filter, List.count_eq_countP, List.countP_map] at ih ⊢
      by_cases here : call.2.caller = iri <;> by_cases leads : call.2.callee = callee
      · subst leads
        simp_all
        omega
      · by_cases done : call.2.callee ∈ sorted <;> simp_all
        omega
      · simp_all
      · simp_all

theorem lookup_of_mem {pairs : List (Iri × Nat)} (nodup : (pairs.map Prod.fst).Nodup) {iri : Iri}
    {n : Nat} (h : (iri, n) ∈ pairs) : pairs.lookup iri = some n := by
  induction pairs with
  | nil => cases h
  | cons pair pairs ih =>
      obtain ⟨new, nodup⟩ := List.nodup_cons.mp nodup
      rcases List.mem_cons.mp h with rfl | h
      · simp
      · have apart : (iri == pair.1) = false := by
          rw [beq_eq_false_iff_ne]
          rintro rfl
          exact new (List.mem_map.mpr ⟨_, h, rfl⟩)
        rw [List.lookup_cons, apart]
        exact ih nodup h

/-- The counts with one call less of the caller. -/
def takeOff (remaining : List (Iri × Nat)) (caller : Iri) : List (Iri × Nat) :=
  remaining.map fun (iri, n) => if iri == caller then (iri, n - 1) else (iri, n)

theorem keys_takeOff (remaining : List (Iri × Nat)) (caller : Iri) :
    (takeOff remaining caller).map Prod.fst = remaining.map Prod.fst := by
  rw [takeOff, List.map_map]
  apply List.map_congr_left
  rintro ⟨iri, n⟩ -
  by_cases here : iri = caller <;> simp [here]

theorem mem_takeOff {remaining : List (Iri × Nat)} (nodup : (remaining.map Prod.fst).Nodup)
    {caller : Iri} {left : Nat} (listed : (caller, left + 1) ∈ remaining) {iri : Iri} {n : Nat} :
    (iri, n) ∈ takeOff remaining caller ↔
      (iri = caller ∧ n = left) ∨ (iri ≠ caller ∧ (iri, n) ∈ remaining) := by
  constructor
  · intro h
    obtain ⟨⟨key, m⟩, old, same⟩ := List.mem_map.mp h
    by_cases here : key = caller
    · subst here
      have unique := List.inj_on_of_nodup_map nodup old listed rfl
      have counted : m = left + 1 := (Prod.mk.inj unique).2
      simp only [BEq.rfl, if_true, Prod.mk.injEq] at same
      exact .inl ⟨same.1.symm, by omega⟩
    · simp only [beq_iff_eq, here, if_false, Prod.mk.injEq] at same
      obtain ⟨rfl, rfl⟩ := same
      exact .inr ⟨here, old⟩
  · rintro (⟨rfl, rfl⟩ | ⟨apart, old⟩)
    · exact List.mem_map.mpr ⟨(iri, n + 1), listed, by simp⟩
    · exact List.mem_map.mpr ⟨(iri, n), old, by simp [apart]⟩

theorem settleCall_eq {s : Sorting} (nodup : (s.remaining.map Prod.fst).Nodup) {caller : Iri}
    {left : Nat} (listed : (caller, left + 1) ∈ s.remaining) :
    settleCall s caller = ⟨takeOff s.remaining caller,
      if left = 0 then s.frontier ++ [caller] else s.frontier, s.sorted⟩ := by
  have found : (takeOff s.remaining caller).lookup caller = some left :=
    lookup_of_mem (keys_takeOff s.remaining caller ▸ nodup)
      ((mem_takeOff nodup listed).mpr (.inl ⟨rfl, rfl⟩))
  change (⟨takeOff s.remaining caller,
    if (takeOff s.remaining caller).lookup caller == some 0 then _ else _, _⟩ : Sorting) = _
  simp [found]

namespace Settling

variable {store : Store} {caller : Iri} {pending : List Iri} {s : Sorting}

theorem keys_nodup (settling : store.Settling pending s) (wf : store.WellFormed) :
    (s.remaining.map Prod.fst).Nodup := by
  rw [settling.keys]
  exact wf.entryList_nodup

theorem start (wf : store.WellFormed) : store.Settling [] store.startSorting where
  keys := by simp [startSorting]
  counts := by
    rintro iri n h
    obtain ⟨e, listed, same⟩ := List.mem_map.mp h
    obtain ⟨rfl, rfl⟩ := Prod.mk.inj same
    simp [startSorting, openCalls]
  apart := by
    have keys : store.startSorting.remaining.map Prod.fst = store.entryList.map (·.iri) := by
      simp [startSorting]
    have all := wf.entryList_nodup
    rw [← keys] at all
    exact (List.filter_sublist.map Prod.fst).nodup all
  ready := by
    intro iri
    simp [startSorting, and_assoc, and_comm]
  ordered := by simp [startSorting]

theorem count_caller (settling : store.Settling (caller :: pending) s)
    (known : caller ∈ store.entryList.map (·.iri)) :
    ∃ n, (caller, n + 1) ∈ s.remaining ∧
      n = (store.openCalls s.sorted caller).length + pending.count caller := by
  rw [← settling.keys] at known
  obtain ⟨⟨iri, m⟩, listed, rfl⟩ := List.mem_map.mp known
  have count := settling.counts iri m listed
  rw [List.count_cons_self, ← Nat.add_assoc] at count
  exact ⟨_, count ▸ listed, rfl⟩

theorem settleCall (settling : store.Settling (caller :: pending) s) (wf : store.WellFormed)
    (known : caller ∈ store.entryList.map (·.iri)) :
    store.Settling pending (settleCall s caller) := by
  obtain ⟨left, listed, count⟩ := settling.count_caller known
  have nodup := settling.keys_nodup wf
  have waits : caller ∉ s.sorted ++ s.frontier := by
    intro h
    have both := List.inj_on_of_nodup_map nodup ((settling.ready caller).mp h) listed rfl
    cases both
  rw [settleCall_eq nodup listed]
  refine ⟨(keys_takeOff _ _).trans settling.keys, ?_, ?_, ?_, settling.ordered⟩
  · intro iri n h
    rcases (mem_takeOff nodup listed).mp h with ⟨rfl, rfl⟩ | ⟨apart, old⟩
    · exact count
    · have counted := settling.counts iri n old
      rwa [List.count_cons_of_ne (Ne.symm apart)] at counted
  · change (s.sorted ++ if left = 0 then s.frontier ++ [caller] else s.frontier).Nodup
    split
    · rw [← List.append_assoc]
      exact List.nodup_append.mpr ⟨settling.apart, List.nodup_singleton caller,
        fun x hx y hy => by rw [List.mem_singleton.mp hy]; exact fun eq => waits (eq ▸ hx)⟩
    · exact settling.apart
  · intro iri
    have old := settling.ready iri
    change iri ∈ s.sorted ++ (if left = 0 then s.frontier ++ [caller] else s.frontier) ↔
      (iri, 0) ∈ takeOff s.remaining caller
    rw [mem_takeOff nodup listed]
    by_cases here : iri = caller
    · subst here
      by_cases free : left = 0
      · simp [free]
      · simp only [free, if_false]
        constructor
        · exact fun h => absurd h waits
        · rintro (⟨-, zero⟩ | ⟨apart, -⟩)
          · exact absurd zero.symm free
          · exact absurd rfl apart
    · by_cases free : left = 0
      · simpa [free, here] using old
      · simpa [free, here] using old

theorem foldl_settleCall {later : List Iri} (wf : store.WellFormed)
    (known : ∀ caller ∈ pending, caller ∈ store.entryList.map (·.iri))
    (settling : store.Settling (pending ++ later) s) :
    store.Settling later (pending.foldl Store.settleCall s) := by
  induction pending generalizing s with
  | nil => exact settling
  | cons caller pending ih =>
      exact ih (fun c h => known c (List.mem_cons_of_mem _ h))
        (settling.settleCall wf (known caller List.mem_cons_self))

/-- What is sorted next has no open calls. The calls of it are then to be settled. -/
theorem next {iri : Iri} {rest : List Iri} (settling : store.Settling [] s)
    (frontier : s.frontier = iri :: rest) :
    store.Settling ((store.callsTo iri).map (·.2.caller))
      ⟨s.remaining, rest, s.sorted ++ [iri]⟩ := by
  have ready := settling.ready
  have apart := settling.apart
  rw [frontier] at ready apart
  have new : iri ∉ s.sorted := fun h =>
    (List.nodup_append.mp apart).2.2 iri h iri List.mem_cons_self rfl
  have none : (iri, 0) ∈ s.remaining := (ready iri).mp (by simp)
  have closed : store.openCalls s.sorted iri = [] := by
    have count := settling.counts iri 0 none
    exact List.length_eq_zero_iff.mp (by omega)
  have moved : s.sorted ++ [iri] ++ rest = s.sorted ++ iri :: rest := by simp
  refine ⟨settling.keys, ?_, moved ▸ apart, fun other => moved ▸ ready other, ?_⟩
  · intro other n listed
    have count := settling.counts other n listed
    rw [store.length_openCalls_append new other] at count
    simpa using count
  · intro before other after split call used
    rcases List.eq_nil_or_concat after with rfl | ⟨after, last, rfl⟩
    · obtain ⟨rfl, same⟩ := List.append_inj' split rfl
      obtain rfl := List.singleton_inj.mp same
      by_contra open_
      have listed : call ∈ store.openCalls s.sorted iri :=
        List.mem_filter.mpr ⟨used, by simpa using open_⟩
      rw [closed] at listed
      cases listed
    · have grown : s.sorted ++ [iri] = (before ++ other :: after) ++ [last] := by
        simpa using split
      exact settling.ordered before other after (List.append_inj' grown rfl).1 call used

theorem sortNext (settling : store.Settling [] s) (wf : store.WellFormed) :
    store.Settling [] (store.sortNext s) := by
  unfold Store.sortNext
  split
  · exact settling
  · rename_i iri rest frontier
    refine foldl_settleCall wf (fun caller h => wf.mem_keys_of_callsTo h) ?_
    rw [List.append_nil]
    exact settling.next frontier

theorem repeat_sortNext (settling : store.Settling [] s) (wf : store.WellFormed) (n : Nat) :
    store.Settling [] (Nat.repeat store.sortNext n s) := by
  induction n with
  | zero => exact settling
  | succ n ih => exact ih.sortNext wf

end Settling

theorem WellFormed.settled {store : Store} (wf : store.WellFormed) :
    store.Settling [] (Nat.repeat store.sortNext (store.entryList.map (·.iri)).length
      store.startSorting) :=
  (Settling.start wf).repeat_sortNext wf _

theorem WellFormed.sorted_nodup {store : Store} (wf : store.WellFormed) :
    store.topologicalOrder.sorted.Nodup :=
  (List.nodup_append.mp wf.settled.apart).1

theorem WellFormed.mem_before {store : Store} (wf : store.WellFormed) {before after : List Iri}
    {iri : Iri} (split : store.topologicalOrder.sorted = before ++ iri :: after) {i : Instance}
    (h : i ∈ store.bodyOf iri) : i.iri ∈ before := by
  obtain ⟨n, used⟩ := mem_bodyOf.mp h
  exact wf.settled.ordered before iri after split _ (mem_callsFrom.mpr ⟨used, rfl⟩)

/-- How many templates are sorted before the template. -/
def rank (store : Store) (iri : Iri) : Nat := store.topologicalOrder.sorted.idxOf iri

theorem WellFormed.rank_lt {store : Store} (wf : store.WellFormed) {iri : Iri}
    (sorted : iri ∈ store.topologicalOrder.sorted) {i : Instance} (h : i ∈ store.bodyOf iri) :
    store.rank i.iri < store.rank iri := by
  obtain ⟨before, after, split, fresh⟩ := List.eq_append_cons_of_mem sorted
  have earlier : i.iri ∈ before := wf.mem_before split h
  unfold rank
  rw [split, List.idxOf_append_of_mem earlier, List.idxOf_append_of_notMem fresh]
  exact Nat.lt_of_lt_of_le (List.idxOf_lt_length_of_mem earlier) (Nat.le_add_right _ _)

theorem mem_sorted_of_complete {store : Store} (complete : store.topologicalOrder.isComplete = true)
    {iri : Iri} (known : (store.status? iri).isSome) : iri ∈ store.topologicalOrder.sorted := by
  have listed := mem_entryList_iris.mpr known
  have none : store.topologicalOrder.unsorted = [] := by
    simpa [TopologicalOrder.isComplete] using complete
  by_contra missed
  have left : iri ∈ store.topologicalOrder.unsorted :=
    List.mem_filter.mpr ⟨listed, by simpa [topologicalOrder] using missed⟩
  rw [none] at left
  cases left

theorem WellFormed.mem_sorted {store : Store} (wf : store.WellFormed) {iri : Iri}
    (sorted : iri ∈ store.topologicalOrder.sorted) : (store.status? iri).isSome := by
  have ready := (wf.settled.ready iri).mp (List.mem_append_left _ sorted)
  rw [← mem_entryList_iris, ← wf.settled.keys]
  exact List.mem_map.mpr ⟨_, ready, rfl⟩

end Store

end RdfTemplates
