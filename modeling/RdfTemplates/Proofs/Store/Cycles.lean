import RdfTemplates.Proofs.Store.Catalog
import Mathlib.Data.Set.Finite.List

/-!
# Dependency cycles

A template depends on those that its body leads to by one call or more. The
templates that are not sorted are those from which a template that depends on
itself is met. An unsorted template has a call of another unsorted one, and the
entries are finitely many, so these calls run into a cycle. A sorted template is
above all that it depends on.
-/

namespace RdfTemplates

namespace Store

/-- The template depends on itself. -/
def Cyclic (store : Store) (iri : Iri) : Prop := Relation.TransGen store.Instantiates iri iri

/-- The template depends on itself or on one that does. -/
def MeetsCycle (store : Store) (iri : Iri) : Prop :=
  ∃ last, Relation.ReflTransGen store.Instantiates iri last ∧ store.Cyclic last

variable {store : Store} {iri other caller callee : Iri}

theorem Cyclic.meetsCycle (cyclic : store.Cyclic iri) : store.MeetsCycle iri := ⟨iri, .refl, cyclic⟩

theorem MeetsCycle.head (instantiates : store.Instantiates caller callee)
    (meets : store.MeetsCycle callee) : store.MeetsCycle caller := by
  obtain ⟨last, path, cyclic⟩ := meets
  exact ⟨last, .head instantiates path, cyclic⟩

theorem WellFormed.isSome_of_instantiates (wf : store.WellFormed)
    (instantiates : store.Instantiates caller callee) :
    (store.status? caller).isSome ∧ (store.status? callee).isSome := by
  obtain ⟨call, used, rfl, rfl⟩ := wf.instantiates_iff.mp instantiates
  exact ⟨mem_entryList_iris.mp (wf.mem_keys_of_caller used), wf.callees call used⟩

theorem Instantiates.isDefinition (instantiates : store.Instantiates caller callee) :
    store.isDefinition caller = true :=
  (instantiates_iff_bodyOf.mp instantiates).1

/-- Only definitions have callees, so nothing else meets a cycle. -/
theorem MeetsCycle.isDefinition (meets : store.MeetsCycle iri) : store.isDefinition iri = true := by
  obtain ⟨last, path, cyclic⟩ := meets
  obtain ⟨next, first, -⟩ :=
    Relation.TransGen.head'_iff.mp (Relation.TransGen.trans_right path cyclic)
  exact first.isDefinition

theorem WellFormed.mem_callees (wf : store.WellFormed) :
    callee ∈ store.callees caller ↔ store.Instantiates caller callee := by
  rw [Store.callees, List.mem_map, wf.instantiates_iff]
  constructor
  · rintro ⟨call, listed, rfl⟩
    obtain ⟨used, same⟩ := mem_callsFrom.mp listed
    exact ⟨call, used, same, rfl⟩
  · rintro ⟨call, used, same, rfl⟩
    exact ⟨call, mem_callsFrom.mpr ⟨used, same⟩, rfl⟩

/-- What the pending IRIs lead to by calls that stay among the unmet ones. -/
inductive Met (store : Store) (unmet pending : List Iri) : Iri → Prop where
  | pending {iri : Iri} (asked : iri ∈ pending) (new : iri ∈ unmet) : Met store unmet pending iri
  | call {caller callee : Iri} (met : Met store unmet pending caller)
      (calls : callee ∈ store.callees caller) (new : callee ∈ unmet) :
      Met store unmet pending callee

variable {unmet pending : List Iri}

theorem Met.of_erase (new : iri ∈ unmet)
    (met : store.Met (unmet.erase iri) (store.callees iri ++ pending) other) :
    store.Met unmet (iri :: pending) other := by
  have here : store.Met unmet (iri :: pending) iri := .pending List.mem_cons_self new
  induction met with
  | pending asked left =>
      have known := List.mem_of_mem_erase left
      rcases List.mem_append.mp asked with calls | later
      · exact .call here calls known
      · exact .pending (List.mem_cons_of_mem _ later) known
  | call _ calls left ih => exact .call ih calls (List.mem_of_mem_erase left)

theorem Met.erase (met : store.Met unmet (iri :: pending) other) :
    other = iri ∨ store.Met (unmet.erase iri) (store.callees iri ++ pending) other := by
  induction met with
  | @pending other asked known =>
      by_cases here : other = iri
      · exact .inl here
      · have later := (List.mem_cons.mp asked).resolve_left here
        have still := (List.mem_erase_of_ne here).mpr known
        exact .inr (.pending (List.mem_append_right _ later) still)
  | @call caller callee _ calls known ih =>
      by_cases here : callee = iri
      · exact .inl here
      · have left : callee ∈ unmet.erase iri := (List.mem_erase_of_ne here).mpr known
        rcases ih with rfl | ih
        · exact .inr (.pending (List.mem_append_left _ calls) left)
        · exact .inr (.call ih calls left)

theorem met_cons_iff (new : iri ∈ unmet) : store.Met unmet (iri :: pending) other ↔
    other = iri ∨ store.Met (unmet.erase iri) (store.callees iri ++ pending) other := by
  constructor
  · exact Met.erase
  · rintro (rfl | met)
    · exact .pending List.mem_cons_self new
    · exact met.of_erase new

theorem met_cons_of_not_mem (old : iri ∉ unmet) :
    store.Met unmet (iri :: pending) other ↔ store.Met unmet pending other := by
  constructor
  · intro met
    induction met with
    | @pending other asked known =>
        have apart : other ≠ iri := fun same => old (same ▸ known)
        exact .pending ((List.mem_cons.mp asked).resolve_left apart) known
    | call _ calls known ih => exact .call ih calls known
  · intro met
    induction met with
    | pending asked known => exact .pending (List.mem_cons_of_mem _ asked) known
    | call _ calls known ih => exact .call ih calls known

theorem mem_gather : other ∈ store.gather unmet pending ↔ store.Met unmet pending other := by
  fun_induction Store.gather store unmet pending with
  | case1 unmet =>
      refine iff_of_false List.not_mem_nil fun met => ?_
      induction met with
      | pending asked => cases asked
      | call _ _ _ ih => exact ih
  | case2 unmet iri rest new ih => rw [List.mem_cons, met_cons_iff new, ih]
  | case3 unmet iri rest old ih => rw [met_cons_of_not_mem old, ih]

theorem WellFormed.mem_reach (wf : store.WellFormed) :
    other ∈ store.reach iri ↔ Relation.TransGen store.Instantiates iri other := by
  rw [reach, mem_gather]
  constructor
  · intro met
    induction met with
    | pending asked => exact .single (wf.mem_callees.mp asked)
    | call _ calls _ ih => exact .tail ih (wf.mem_callees.mp calls)
  · intro path
    have known : ∀ {caller callee}, store.Instantiates caller callee →
        callee ∈ store.entryList.map (·.iri) :=
      fun instantiates => mem_entryList_iris.mpr (wf.isSome_of_instantiates instantiates).2
    induction path with
    | single first => exact .pending (wf.mem_callees.mpr first) (known first)
    | tail _ last ih => exact .call ih (wf.mem_callees.mpr last) (known last)

theorem WellFormed.mem_cyclicTemplates (wf : store.WellFormed) :
    iri ∈ store.cyclicTemplates ↔ store.Cyclic iri := by
  rw [cyclicTemplates, List.mem_filter, decide_eq_true_iff, wf.mem_reach]
  refine and_iff_right_of_imp fun cyclic => ?_
  obtain ⟨next, first, -⟩ := Relation.TransGen.head'_iff.mp cyclic
  exact mem_entryList_iris.mpr (wf.isSome_of_instantiates first).1

theorem sorted_foldl_settleCall (callers : List Iri) (s : Sorting) :
    (callers.foldl settleCall s).sorted = s.sorted := by
  induction callers generalizing s with
  | nil => rfl
  | cons caller callers ih => exact ih (settleCall s caller)

theorem sorted_sortNext {s : Sorting} {rest : List Iri} (frontier : s.frontier = iri :: rest) :
    (store.sortNext s).sorted = s.sorted ++ [iri] := by
  unfold sortNext
  rw [frontier]
  exact sorted_foldl_settleCall _ _

/-- As long as something is left in the frontier, every round has sorted one template. -/
theorem length_sorted_of_frontier (rounds : Nat)
    (left : (Nat.repeat store.sortNext rounds store.startSorting).frontier ≠ []) :
    (Nat.repeat store.sortNext rounds store.startSorting).sorted.length = rounds := by
  induction rounds with
  | zero => rfl
  | succ rounds ih =>
      have next : Nat.repeat store.sortNext (rounds + 1) store.startSorting =
          store.sortNext (Nat.repeat store.sortNext rounds store.startSorting) := rfl
      rw [next] at left ⊢
      generalize Nat.repeat store.sortNext rounds store.startSorting = s at ih left ⊢
      cases frontier : s.frontier with
      | nil =>
          have same : store.sortNext s = s := by
            unfold sortNext
            rw [frontier]
          rw [same] at left
          exact absurd frontier left
      | cons iri rest =>
          rw [sorted_sortNext frontier, List.length_append, ih (by simp [frontier])]
          rfl

theorem WellFormed.frontier_eq_nil (wf : store.WellFormed) :
    (Nat.repeat store.sortNext (store.entryList.map (·.iri)).length store.startSorting).frontier =
      [] := by
  by_contra left
  have count := length_sorted_of_frontier _ left
  have settled := wf.settled
  generalize Nat.repeat store.sortNext (store.entryList.map (·.iri)).length store.startSorting = s
    at count left settled
  have listed : s.sorted ++ s.frontier ⊆ store.entryList.map (·.iri) := by
    intro iri h
    rw [← settled.keys]
    exact List.mem_map.mpr ⟨_, (settled.ready iri).mp h, rfl⟩
  have bound := (List.subperm_of_subset settled.apart listed).length_le
  rw [List.length_append, count] at bound
  exact left (List.length_eq_zero_iff.mp (by omega))

theorem mem_unsorted : iri ∈ store.topologicalOrder.unsorted ↔
    (store.status? iri).isSome ∧ iri ∉ store.topologicalOrder.sorted := by
  change iri ∈ (store.entryList.map (·.iri)).filter
    (!store.topologicalOrder.sorted.contains ·) ↔ _
  rw [List.mem_filter, mem_entryList_iris]
  simp

/-- What is not sorted calls something that is not sorted: without open calls its count is zero, and
then it would have been sorted. -/
theorem WellFormed.exists_unsorted_callee (wf : store.WellFormed)
    (unsorted : caller ∈ store.topologicalOrder.unsorted) :
    ∃ callee ∈ store.topologicalOrder.unsorted, store.Instantiates caller callee := by
  obtain ⟨known, missed⟩ := mem_unsorted.mp unsorted
  have settled := wf.settled
  have none := wf.frontier_eq_nil
  obtain ⟨⟨key, n⟩, listed, rfl⟩ := List.mem_map.mp
    (settled.keys ▸ mem_entryList_iris.mpr known)
  have open_ : store.openCalls store.topologicalOrder.sorted key ≠ [] := by
    intro closed
    have count : n = (store.openCalls store.topologicalOrder.sorted key).length + 0 :=
      settled.counts key n listed
    obtain rfl : n = 0 := by rw [count, closed, List.length_nil]
    have sorted := (settled.ready key).mpr listed
    rw [none, List.append_nil] at sorted
    exact missed sorted
  obtain ⟨call, here⟩ := List.exists_mem_of_ne_nil _ open_
  obtain ⟨used, leads⟩ := List.mem_filter.mp here
  obtain ⟨stored, same⟩ := mem_callsFrom.mp used
  refine ⟨call.2.callee, mem_unsorted.mpr ⟨wf.callees call stored, by simpa using leads⟩, ?_⟩
  exact wf.instantiates_iff.mpr ⟨call, stored, same, rfl⟩

/-- Where every one of finitely many leads to another, each leads into a cycle. Otherwise a chain
would go on for ever among the elements met. -/
theorem exists_cycle_of_successors {α : Type} {r : α → α → Prop} {xs : List α}
    (successors : ∀ x ∈ xs, ∃ y ∈ xs, r x y) {x : α} (here : x ∈ xs) :
    ∃ last, Relation.ReflTransGen r x last ∧ Relation.TransGen r last last := by
  by_contra none
  let Following := {y // y ∈ xs ∧ Relation.ReflTransGen r x y}
  let after : Following → Following → Prop := fun a b => Relation.TransGen r b.1 a.1
  have finite : Finite Following := ((List.finite_toSet xs).subset fun _ h => h.1).to_subtype
  have trans : IsTrans Following after := ⟨fun _ _ _ ab bc => bc.trans ab⟩
  have irrefl : Std.Irrefl after := ⟨fun a cycle => none ⟨a.1, a.2.2, cycle⟩⟩
  refine (Finite.wellFounded_of_trans_of_irrefl after).induction (C := fun _ => False)
    ⟨x, here, .refl⟩ fun last ih => ?_
  obtain ⟨next, listed, step⟩ := successors last.1 last.2.1
  exact ih ⟨next, listed, last.2.2.tail step⟩ (.single step)

theorem WellFormed.meetsCycle_of_unsorted (wf : store.WellFormed)
    (unsorted : iri ∈ store.topologicalOrder.unsorted) : store.MeetsCycle iri :=
  exists_cycle_of_successors (fun _ h => wf.exists_unsorted_callee h) unsorted

theorem WellFormed.sorted_of_instantiates (wf : store.WellFormed)
    (instantiates : store.Instantiates caller callee)
    (sorted : caller ∈ store.topologicalOrder.sorted) :
    callee ∈ store.topologicalOrder.sorted ∧ store.rank callee < store.rank caller := by
  obtain ⟨ps, body, listed, i, hi, rfl⟩ := instantiates
  obtain ⟨-, -, rfl⟩ := catalog_eq_some_iff.mp listed
  refine ⟨?_, wf.rank_lt sorted hi⟩
  obtain ⟨before, after, split, -⟩ := List.eq_append_cons_of_mem sorted
  rw [split]
  exact List.mem_append_left _ (wf.mem_before split hi)

theorem WellFormed.sorted_of_transGen (wf : store.WellFormed)
    (path : Relation.TransGen store.Instantiates iri other)
    (sorted : iri ∈ store.topologicalOrder.sorted) :
    other ∈ store.topologicalOrder.sorted ∧ store.rank other < store.rank iri := by
  induction path with
  | single first => exact wf.sorted_of_instantiates first sorted
  | tail _ last ih =>
      have next := wf.sorted_of_instantiates last ih.1
      exact ⟨next.1, next.2.trans ih.2⟩

theorem WellFormed.not_meetsCycle_of_sorted (wf : store.WellFormed)
    (sorted : iri ∈ store.topologicalOrder.sorted) : ¬ store.MeetsCycle iri := by
  rintro ⟨last, path, cyclic⟩
  have above := (wf.sorted_of_transGen (Relation.TransGen.trans_right path cyclic) sorted).1
  exact Nat.lt_irrefl _ (wf.sorted_of_transGen cyclic above).2

theorem WellFormed.mem_unsorted_iff (wf : store.WellFormed) :
    iri ∈ store.topologicalOrder.unsorted ↔ store.MeetsCycle iri := by
  constructor
  · exact wf.meetsCycle_of_unsorted
  · intro meets
    refine mem_unsorted.mpr ⟨?_, fun sorted => wf.not_meetsCycle_of_sorted sorted meets⟩
    obtain ⟨ps, known⟩ := isDefinition_iff.mp meets.isDefinition
    rw [known]
    rfl

theorem WellFormed.mem_sorted_iff (wf : store.WellFormed) :
    iri ∈ store.topologicalOrder.sorted ↔ (store.status? iri).isSome ∧ ¬ store.MeetsCycle iri := by
  constructor
  · exact fun sorted => ⟨wf.mem_sorted sorted, wf.not_meetsCycle_of_sorted sorted⟩
  · rintro ⟨known, apart⟩
    by_contra missed
    exact apart (wf.mem_unsorted_iff.mp (mem_unsorted.mpr ⟨known, missed⟩))

theorem WellFormed.order_perm (wf : store.WellFormed) :
    (store.topologicalOrder.sorted ++ store.topologicalOrder.unsorted).Perm
      (store.entryList.map (·.iri)) := by
  have apart : (store.topologicalOrder.sorted ++ store.topologicalOrder.unsorted).Nodup := by
    refine List.nodup_append.mpr ⟨wf.sorted_nodup, wf.entryList_nodup.filter _, ?_⟩
    rintro iri sorted _ unsorted rfl
    exact (mem_unsorted.mp unsorted).2 sorted
  refine (List.perm_ext_iff_of_nodup apart wf.entryList_nodup).mpr fun iri => ?_
  rw [List.mem_append, mem_unsorted, mem_entryList_iris]
  constructor
  · rintro (sorted | ⟨known, -⟩)
    · exact wf.mem_sorted sorted
    · exact known
  · intro known
    by_cases sorted : iri ∈ store.topologicalOrder.sorted
    · exact .inl sorted
    · exact .inr ⟨known, sorted⟩

theorem WellFormed.order_nodup (wf : store.WellFormed) :
    (store.topologicalOrder.sorted ++ store.topologicalOrder.unsorted).Nodup :=
  wf.order_perm.nodup_iff.mpr wf.entryList_nodup

/-- While the calls of the next template are settled, the count of each caller is positive when
its turn comes. -/
theorem WellFormed.counted (wf : store.WellFormed) (rounds : Nat) {rest before after : List Iri}
    (frontier : (Nat.repeat store.sortNext rounds store.startSorting).frontier = iri :: rest)
    (callers : (store.callsTo iri).map (·.2.caller) = before ++ caller :: after) :
    ∃ n, (before.foldl settleCall
      ⟨(Nat.repeat store.sortNext rounds store.startSorting).remaining, rest,
        (Nat.repeat store.sortNext rounds store.startSorting).sorted ++ [iri]⟩).remaining.lookup
          caller = some (n + 1) := by
  have next := ((Settling.start wf).repeat_sortNext wf rounds).next frontier
  have known : ∀ other ∈ before ++ caller :: after, other ∈ store.entryList.map (·.iri) :=
    fun other h => wf.mem_keys_of_callsTo (callers ▸ h)
  rw [callers] at next
  have reached := Settling.foldl_settleCall wf
    (fun other h => known other (List.mem_append_left _ h)) next
  obtain ⟨n, listed, -⟩ := reached.count_caller
    (known caller (List.mem_append_right _ List.mem_cons_self))
  exact ⟨n, lookup_of_mem (reached.keys_nodup wf) listed⟩

/-- The order has every entry once, callees first, and leaves out what meets a cycle. No count
is taken below zero on the way. -/
structure OrderedExactly (store : Store) : Prop where
  once : (store.topologicalOrder.sorted ++ store.topologicalOrder.unsorted).Nodup
  listed : ∀ iri, iri ∈ store.topologicalOrder.sorted ++ store.topologicalOrder.unsorted ↔
    iri ∈ store.entryList.map (·.iri)
  calleesFirst : ∀ before caller after, store.topologicalOrder.sorted = before ++ caller :: after →
    ∀ callee, store.Instantiates caller callee → callee ∈ before
  leftOut : ∀ iri, iri ∈ store.topologicalOrder.unsorted ↔ ∃ last,
    Relation.ReflTransGen store.Instantiates iri last ∧
      Relation.TransGen store.Instantiates last last
  counted : ∀ rounds iri rest before caller after,
    (Nat.repeat store.sortNext rounds store.startSorting).frontier = iri :: rest →
    (store.callsTo iri).map (·.2.caller) = before ++ caller :: after →
    ∃ n, (before.foldl settleCall
      ⟨(Nat.repeat store.sortNext rounds store.startSorting).remaining, rest,
        (Nat.repeat store.sortNext rounds store.startSorting).sorted ++ [iri]⟩).remaining.lookup
          caller = some (n + 1)

/-- The order of a reachable store is exact. -/
theorem orderedExactly_of_reachable (reachable : store.Reachable) : store.OrderedExactly := by
  have wf := reachable.wellFormed
  constructor
  case once => exact wf.order_nodup
  case listed => exact fun iri => wf.order_perm.mem_iff
  case calleesFirst =>
    rintro before caller after split callee ⟨ps, body, listed, i, hi, rfl⟩
    obtain ⟨-, -, rfl⟩ := catalog_eq_some_iff.mp listed
    exact wf.mem_before split hi
  case leftOut => exact fun iri => wf.mem_unsorted_iff
  case counted =>
    exact fun rounds iri rest before caller after frontier callers =>
      wf.counted rounds frontier callers

/-- A box has two maps, a case has itself and a box, and a van has a case. -/
def cased : Store :=
  (empty .standard).acceptAll
    [.template (.make "Box" [] [.ofTerms "Map" [], .ofTerms "Map" [.iri "a"]]),
     .template (.make "Case" [] [.ofTerms "Case" [], .ofTerms "Box" []]),
     .template (.make "Van" [] [.ofTerms "Case" []])]

theorem reachable_cased : cased.Reachable := by
  apply reachable_acceptAll
  simp [Declaration.Made]

/-- The case is on a cycle and the van is above it, so both are left out. -/
theorem orderedExactly_of_reachable_cased : cased.Reachable ∧ cased.OrderedExactly ∧
    cased.topologicalOrder = ⟨["Map", "Box"], ["Case", "Van"]⟩ ∧
    (cased.callsTo "Map").map (·.2.caller) = ["Box", "Box"] :=
  ⟨reachable_cased, orderedExactly_of_reachable reachable_cased, by decide +kernel,
    by decide +kernel⟩

end Store

end RdfTemplates
