import RdfTemplates.Proofs.Query.Safety
import RdfTemplates.Proofs.Store.Cycles

/-!
# Dependencies in queries

The relation of a template to those it depends on goes through their calls breadth first.
While it does, what it has reached and what is in the queue is led to by calls from the
start, and nothing that these calls lead to is left out. So with the callee free it finds
exactly what the template depends on, each once; with the callee bound it holds if the
template depends on it. The check for cycles finds exactly the templates that the store
says depend on themselves, also when these are told by strongly connected components.
-/

namespace RdfTemplates

namespace Store

variable {store : Store} {start iri caller callee : Iri} {target : Option Iri}
  {queue reached : List Iri}

theorem mem_calleesOf :
    callee ∈ Relation.calleesOf store caller ↔ store.Instantiates caller callee := by
  rw [instantiates_iff_bodyOf]
  unfold Relation.calleesOf dependencies
  cases store.isDefinition caller with
  | true => simp [Relation.sortedIris, mem_stableSort, mem_firsts]
  | false => simp

/-- The calls of the templates that are not reached yet. -/
def callsBeyond (store : Store) (reached : List Iri) : List (Nat × Call) :=
  store.calls.items.filter fun call => !reached.contains call.2.caller

/-- A callee is listed once, however many calls lead to it. -/
theorem length_calleesOf_le (store : Store) (iri : Iri) :
    (Relation.calleesOf store iri).length ≤ (store.callsFrom iri).length := by
  unfold Relation.calleesOf dependencies
  cases store.isDefinition iri with
  | false => exact Nat.zero_le _
  | true =>
      have once := (List.subperm_of_subset (firsts_nodup ((store.bodyOf iri).map (·.iri)))
        fun _ => mem_firsts.mp).length_le
      have body : (store.bodyOf iri).length = (store.callsFrom iri).length := by
        rw [bodyOf, List.length_map, (stableSort_perm _ _).length_eq]
      rw [List.length_map, body] at once
      simpa only [if_true, Relation.sortedIris, (stableSort_perm _ _).length_eq] using once

theorem length_callsBeyond_append (store : Store) (new : iri ∉ reached) :
    (store.callsBeyond reached).length =
      (store.callsFrom iri).length + (store.callsBeyond (reached ++ [iri])).length := by
  unfold callsBeyond callsFrom
  induction store.calls.items with
  | nil => rfl
  | cons call calls ih =>
      by_cases here : call.2.caller = iri
      · subst here
        simp_all
        omega
      · by_cases old : call.2.caller ∈ reached <;> simp_all
        omega

/-- A search under way from the callees of the start. -/
structure Searching (store : Store) (start : Iri) (target : Option Iri) (queue reached : List Iri) :
    Prop where
  nodup : reached.Nodup
  sound : ∀ iri ∈ queue ++ reached, Relation.TransGen store.Instantiates start iri
  first : ∀ iri, store.Instantiates start iri → iri ∈ queue ++ reached
  closed : ∀ caller ∈ reached, ∀ callee, store.Instantiates caller callee →
    callee ∈ queue ++ reached
  missed : ∀ iri ∈ target, iri ∉ reached

namespace Searching

theorem begin (start : Iri) (target : Option Iri) :
    store.Searching start target (Relation.calleesOf store start) [] where
  nodup := .nil
  sound iri h := .single (mem_calleesOf.mp (by simpa using h))
  first iri h := by simpa using mem_calleesOf.mpr h
  closed := nofun
  missed _ _ := List.not_mem_nil

theorem skip (searching : store.Searching start target (iri :: queue) reached)
    (old : iri ∈ reached) : store.Searching start target queue reached := by
  have same (other : Iri) : other ∈ iri :: queue ++ reached → other ∈ queue ++ reached := by
    simp only [List.cons_append, List.mem_cons, List.mem_append]
    rintro (rfl | here)
    · exact .inr old
    · exact here
  exact {
    nodup := searching.nodup
    sound := fun other h => searching.sound other (List.mem_cons_of_mem iri h)
    first := fun other h => same other (searching.first other h)
    closed := fun caller h other called => same other (searching.closed caller h other called)
    missed := searching.missed }

theorem visit
    (searching : store.Searching start target (iri :: queue) reached) (new : iri ∉ reached)
    (other : target ≠ some iri) :
    store.Searching start target (queue ++ Relation.calleesOf store iri) (reached ++ [iri]) := by
  have led : Relation.TransGen store.Instantiates start iri :=
    searching.sound iri List.mem_cons_self
  have same (known : Iri) : known ∈ iri :: queue ++ reached →
      known ∈ queue ++ Relation.calleesOf store iri ++ (reached ++ [iri]) := by
    simp only [List.cons_append, List.mem_cons, List.mem_append, List.not_mem_nil, or_false]
    tauto
  constructor
  case nodup => exact List.nodup_append.mpr ⟨searching.nodup, List.nodup_singleton iri, by grind⟩
  case sound =>
    intro known h
    simp only [List.mem_append, List.mem_singleton] at h
    rcases h with (waiting | called) | old | rfl
    · exact searching.sound known (by simp [waiting])
    · exact led.tail (mem_calleesOf.mp called)
    · exact searching.sound known (by simp [old])
    · exact led
  case first => exact fun known h => same known (searching.first known h)
  case closed =>
    intro caller h callee called
    rcases List.mem_append.mp h with old | here
    · exact same callee (searching.closed caller old callee called)
    · obtain rfl := List.mem_singleton.mp here
      have listed := mem_calleesOf.mpr called
      simp [listed]
  case missed =>
    intro known asked
    rw [List.mem_append, List.mem_singleton]
    rintro (old | rfl)
    · exact searching.missed known asked old
    · exact other asked

/-- Once the queue is empty, what is reached is what the start depends on. -/
theorem mem_iff (searching : store.Searching start target [] reached) :
    iri ∈ reached ↔ Relation.TransGen store.Instantiates start iri := by
  constructor
  · exact fun h => searching.sound iri h
  · intro path
    induction path with
    | single call => exact searching.first _ call
    | tail _ call ih => exact searching.closed _ ih _ call

/-- A search with fuel for all calls that are left comes to the target or to the end. -/
theorem reachFrom {fuel : Nat}
    (searching : store.Searching start target queue reached)
    (enough : queue.length + (store.callsBeyond reached).length ≤ fuel) :
    ((Relation.reachFrom store target fuel queue reached).1 = true ∧
      ∃ iri ∈ target, Relation.TransGen store.Instantiates start iri) ∨
    ((Relation.reachFrom store target fuel queue reached).1 = false ∧
      store.Searching start target [] (Relation.reachFrom store target fuel queue reached).2) := by
  fun_induction Relation.reachFrom store target fuel queue reached with
  | case1 queue reached =>
      obtain rfl := List.length_eq_zero_iff.mp (show queue.length = 0 by omega)
      exact .inr ⟨rfl, searching⟩
  | case2 => exact .inr ⟨rfl, searching⟩
  | case3 fuel iri queue reached old ih =>
      rw [List.length_cons] at enough
      exact ih (searching.skip (by simpa using old)) (by omega)
  | case4 fuel iri queue reached new here =>
      exact .inl ⟨rfl, iri, by simpa using here, searching.sound iri List.mem_cons_self⟩
  | case5 fuel iri queue reached new other ih =>
      have fresh : iri ∉ reached := by simpa using new
      have called := length_calleesOf_le store iri
      have left := length_callsBeyond_append store fresh
      rw [List.length_cons] at enough
      refine ih (searching.visit fresh (by simpa using other)) ?_
      rw [List.length_append]
      omega

end Searching

/-- The search of the relation, for one template or for all that it depends on. -/
def searchFrom (store : Store) (target : Option Iri) (start : Iri) : Bool × List Iri :=
  Relation.reachFrom store target (2 * store.calls.items.length + 1)
    (Relation.calleesOf store start) []

theorem searchFrom_cases (store : Store) (target : Option Iri) (start : Iri) :
    ((store.searchFrom target start).1 = true ∧
      ∃ iri ∈ target, Relation.TransGen store.Instantiates start iri) ∨
    ((store.searchFrom target start).1 = false ∧
      store.Searching start target [] (store.searchFrom target start).2) := by
  refine (Searching.begin start target).reachFrom ?_
  have called := length_calleesOf_le store start
  have own : (store.callsFrom start).length ≤ store.calls.items.length :=
    List.length_filter_le _ _
  have beyond : (store.callsBeyond []).length ≤ store.calls.items.length :=
    List.length_filter_le _ _
  omega

/-- What a template depends on, in the order in which the search meets it. -/
def dependsOn (store : Store) (start : Iri) : List Iri := (store.searchFrom none start).2

theorem searching_dependsOn (store : Store) (start : Iri) :
    store.Searching start none [] (store.dependsOn start) := by
  rcases store.searchFrom_cases none start with ⟨-, iri, asked, -⟩ | ⟨-, searching⟩
  · cases asked
  · exact searching

/-- What the search from a template finds is what it depends on. -/
theorem mem_dependsOn : iri ∈ store.dependsOn start ↔
    Relation.TransGen store.Instantiates start iri :=
  (store.searching_dependsOn start).mem_iff

theorem searchFrom_some {goal : Iri} : (store.searchFrom (some goal) start).1 = true ↔
    Relation.TransGen store.Instantiates start goal := by
  rcases store.searchFrom_cases (some goal) start with ⟨met, iri, asked, path⟩ | ⟨none, searching⟩
  · obtain rfl := Option.some.inj asked
    exact iff_of_true met path
  · refine iff_of_false (by simp [none]) fun path => ?_
    exact searching.missed goal rfl (searching.mem_iff.mpr path)

variable {t : Tuple} {template output : Var}

theorem run_dependsTransitive_free (known : t.get? template = some (.iri start))
    (free : t.get? output = none) :
    (Relation.dependsTransitive template output).run store t =
      .ok ((store.dependsOn start).map fun iri => t.bind output (.iri iri)) := by
  simp only [Relation.run, Relation.runDependsTransitive, Tuple.iri_eq_ok.mpr known,
    Tuple.hasBound, free]
  change Except.ok (Relation.bindEach t output ((store.dependsOn start).map .iri)) = _
  simp [Relation.bindEach, free]

theorem run_dependsTransitive_bound {goal : Iri} (known : t.get? template = some (.iri start))
    (bound : t.get? output = some (.iri goal)) :
    (Relation.dependsTransitive template output).run store t =
      .ok (Relation.keepIf t (store.searchFrom (some goal) start).1) := by
  simp only [Relation.run, Relation.runDependsTransitive, Tuple.iri_eq_ok.mpr known,
    Tuple.hasBound, bound, Tuple.iri_eq_ok.mpr bound]
  rfl

theorem WellFormed.finds_cyclicDependency (wf : store.WellFormed) {u : Tuple} :
    Check.cyclicDependency.query.Finds store .empty u ↔
      ∃ iri, store.Cyclic iri ∧ u = Tuple.empty.bind Check.temp (.iri iri) := by
  have itself (iri : Iri) :
      (Relation.dependsTransitive Check.temp Check.temp).run store
        (Tuple.empty.bind Check.temp (.iri iri)) =
      .ok (Relation.keepIf (Tuple.empty.bind Check.temp (.iri iri))
        (store.searchFrom (some iri) iri).1) :=
    run_dependsTransitive_bound (by simp) (by simp)
  rw [Check.cyclicDependency, Query.finds_and]
  simp only [Query.finds_template (Tuple.get?_empty _)]
  constructor
  · rintro ⟨s, ⟨iri, -, rfl⟩, us, found, listed⟩
    obtain rfl := Except.ok.inj ((itself iri).symm.trans found)
    obtain ⟨rfl, met⟩ := Query.mem_keepIf.mp listed
    exact ⟨iri, searchFrom_some.mp met, rfl⟩
  · rintro ⟨iri, cyclic, rfl⟩
    obtain ⟨next, first, -⟩ := Relation.TransGen.head'_iff.mp cyclic
    exact ⟨_, ⟨iri, (wf.isSome_of_instantiates first).1, rfl⟩, _, itself iri,
      Query.mem_keepIf.mpr ⟨rfl, searchFrom_some.mpr cyclic⟩⟩

/-- The entries in groups, each with all that depend on each other. -/
structure Components (store : Store) (groups : List (List Iri)) : Prop where
  once : groups.flatten.Perm (store.entryList.map (·.iri))
  linked : ∀ group ∈ groups, ∀ iri ∈ group, ∀ other, other ∈ group ↔
    Relation.ReflTransGen store.Instantiates iri other ∧
      Relation.ReflTransGen store.Instantiates other iri

/-- The members of the groups that have more than one, or whose first one calls itself. -/
def cyclicAmong (store : Store) (groups : List (List Iri)) : List Iri :=
  (groups.filter fun group =>
    decide (1 < group.length) ||
      group.head?.any fun iri => (store.callees iri).contains iri).flatten

variable {groups : List (List Iri)} {group : List Iri} {other : Iri}

theorem exists_other_of_one_lt (nodup : group.Nodup) (several : 1 < group.length) (iri : Iri) :
    ∃ other ∈ group, other ≠ iri := by
  match group, nodup, several with
  | a :: b :: rest, nodup, _ =>
      by_cases here : a = iri
      · subst here
        have apart := (List.nodup_cons.mp nodup).1
        exact ⟨b, by simp, fun same => apart (by simp [same])⟩
      · exact ⟨a, by simp, here⟩

theorem Components.nodup (components : store.Components groups) (wf : store.WellFormed)
    (listed : group ∈ groups) : group.Nodup :=
  (List.nodup_flatten.mp (components.once.nodup_iff.mpr wf.entryList_nodup)).1 group listed

theorem transGen_of_ne (path : Relation.ReflTransGen store.Instantiates iri other)
    (apart : other ≠ iri) : Relation.TransGen store.Instantiates iri other :=
  (Relation.reflTransGen_iff_eq_or_transGen.mp path).resolve_left apart

/-- With several members a cycle leads there and back again by way of another one. -/
theorem Components.cyclic_of_mem (components : store.Components groups) (wf : store.WellFormed)
    (h : iri ∈ store.cyclicAmong groups) : store.Cyclic iri := by
  obtain ⟨group, kept, member⟩ := List.mem_flatten.mp h
  obtain ⟨listed, loops⟩ := List.mem_filter.mp kept
  by_cases several : 1 < group.length
  · obtain ⟨other, beside, apart⟩ :=
      exists_other_of_one_lt (components.nodup wf listed) several iri
    obtain ⟨there, back⟩ := (components.linked group listed iri member other).mp beside
    exact (transGen_of_ne there apart).trans_left back
  · have nonempty := List.length_pos_of_mem member
    obtain ⟨only, rfl⟩ := List.length_eq_one_iff.mp (show group.length = 1 by omega)
    obtain rfl := List.mem_singleton.mp member
    exact .single (wf.mem_callees.mp (by simpa using loops))

theorem Components.mem_of_cyclic (components : store.Components groups) (wf : store.WellFormed)
    (cyclic : store.Cyclic iri) : iri ∈ store.cyclicAmong groups := by
  obtain ⟨next, first, back⟩ := Relation.TransGen.head'_iff.mp cyclic
  have known := mem_entryList_iris.mpr (wf.isSome_of_instantiates first).1
  obtain ⟨group, listed, member⟩ := List.mem_flatten.mp (components.once.mem_iff.mpr known)
  have beside := (components.linked group listed iri member next).mpr ⟨.single first, back⟩
  refine List.mem_flatten.mpr ⟨group, List.mem_filter.mpr ⟨listed, ?_⟩, member⟩
  match group, member, beside with
  | [only], member, beside =>
      obtain rfl := List.mem_singleton.mp member
      obtain rfl := List.mem_singleton.mp beside
      simpa using wf.mem_callees.mpr first
  | _ :: _ :: _, _, _ => simp

theorem Components.mem_cyclicAmong (components : store.Components groups)
    (wf : store.WellFormed) : iri ∈ store.cyclicAmong groups ↔ iri ∈ store.cyclicTemplates := by
  rw [wf.mem_cyclicTemplates]
  exact ⟨components.cyclic_of_mem wf, components.mem_of_cyclic wf⟩

/-- Components can be told by a search from each of their members. -/
theorem components_of_search (once : groups.flatten.Perm (store.entryList.map (·.iri)))
    (linked : ∀ group ∈ groups, ∀ iri ∈ group,
      (∀ other ∈ group, other = iri ∨ other ∈ store.dependsOn iri) ∧
        ∀ other ∈ store.dependsOn iri, iri ∈ store.dependsOn other → other ∈ group) :
    store.Components groups := by
  have path (iri other : Iri) : Relation.ReflTransGen store.Instantiates iri other ↔
      other = iri ∨ other ∈ store.dependsOn iri := by
    rw [mem_dependsOn, Relation.reflTransGen_iff_eq_or_transGen]
  refine ⟨once, fun group listed iri member other => ?_⟩
  rw [path, path]
  constructor
  · intro beside
    exact ⟨(linked group listed iri member).1 other beside,
      (linked group listed other beside).1 iri member⟩
  · rintro ⟨rfl | there, same | back⟩
    · exact member
    · exact member
    · exact same ▸ member
    · exact (linked group listed iri member).2 other there back

/-- The relation, the check and the store agree on what a template depends on. -/
structure DependsAlike (store : Store) (groups : List (List Iri)) : Prop where
  listed : ∀ t template output start, t.get? template = some (.iri start) →
    t.get? output = none → ∃ iris : List Iri, iris.Nodup ∧
      (∀ iri, iri ∈ iris ↔ Relation.TransGen store.Instantiates start iri) ∧
      (Relation.dependsTransitive template output).run store t =
        .ok (iris.map fun iri => t.bind output (.iri iri))
  tested : ∀ t template output start goal, t.get? template = some (.iri start) →
    t.get? output = some (.iri goal) → ∃ holds : Bool,
      (holds = true ↔ Relation.TransGen store.Instantiates start goal) ∧
      (Relation.dependsTransitive template output).run store t =
        .ok (if holds then [t] else [])
  checked : ∃ found, Check.cyclicDependency.query.Ends store found ∧ ∀ u, u ∈ found ↔
    ∃ iri ∈ store.cyclicTemplates, u = Tuple.empty.bind Check.temp (.iri iri)
  grouped : ∀ iri, iri ∈ store.cyclicTemplates ↔ iri ∈ store.cyclicAmong groups

/-- In a reachable store the two ways to ask about dependencies and the cycles that are listed agree
with its instances. -/
theorem dependsAlike_of_reachable (reachable : store.Reachable)
    (components : store.Components groups) : store.DependsAlike groups := by
  have wf := reachable.wellFormed
  constructor
  case listed =>
    intro t template output start known free
    exact ⟨store.dependsOn start, (store.searching_dependsOn start).nodup,
      fun iri => mem_dependsOn, run_dependsTransitive_free known free⟩
  case tested =>
    intro t template output start goal known bound
    exact ⟨_, searchFrom_some, run_dependsTransitive_bound known bound⟩
  case checked =>
    obtain ⟨found, ends, -⟩ :=
      (Check.cyclicDependency_ends : Check.cyclicDependency.Ends store).query
    refine ⟨found, ends, fun u => ?_⟩
    simp only [ends.mem_iff, wf.finds_cyclicDependency, wf.mem_cyclicTemplates]
  case grouped => exact fun iri => (components.mem_cyclicAmong wf).symm

/-- A chest holds the key that opens it, a lamp has itself and some oil, and a box has a key. -/
def locked : Store :=
  (empty .standard).acceptAll
    [.template (.make "Key" [] [.ofTerms "Chest" []]),
     .template (.make "Chest" [] [.ofTerms "Key" [], .ofTerms "Lamp" []]),
     .template (.make "Lamp" [] [.ofTerms "Lamp" [], .ofTerms "Oil" []]),
     .template (.make "Box" [] [.ofTerms "Key" []])]

/-- All templates are declared one after the other. -/
theorem reachable_locked : locked.Reachable := by
  apply reachable_acceptAll
  simp [Declaration.Made]

/-- The key and the chest are one component. -/
theorem components_locked :
    locked.Components [["Oil"], ["Lamp"], ["Key", "Chest"], ["Box"]] :=
  components_of_search (by decide +kernel) (by decide +kernel)

/-- Cyclic are the lamp by itself and the chest with its key. -/
theorem dependsAlike_of_reachable_locked : locked.Reachable ∧
    locked.Components [["Oil"], ["Lamp"], ["Key", "Chest"], ["Box"]] ∧
    locked.DependsAlike [["Oil"], ["Lamp"], ["Key", "Chest"], ["Box"]] ∧
    locked.cyclicAmong [["Oil"], ["Lamp"], ["Key", "Chest"], ["Box"]] = ["Lamp", "Key", "Chest"] ∧
    locked.dependsOn "Box" = ["Key", "Chest", "Lamp", "Oil"] :=
  ⟨reachable_locked, components_locked,
    dependsAlike_of_reachable reachable_locked components_locked, by decide +kernel,
    by decide +kernel⟩

end Store

end RdfTemplates
