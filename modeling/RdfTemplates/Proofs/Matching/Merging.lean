import RdfTemplates.Proofs.Matching.Principal

/-!
# Merging matchings

One substitution is within another one when the second gives to each key of the first
the same term. A step that adds bindings joins: it leads to the least substitution that
has what there was before and what the step needs, and it fails only where there is no
such substitution. So two steps that need the same come to equal substitutions or fail
both, however they go about it: binding one key after the other, growing one matching
out of another one, or merging matchings that were found apart, in any order.
-/

namespace RdfTemplates

namespace Substitution

/-- The key is bound to the term, or to one that is the same. -/
def Gives (s : Substitution) (key value : Term) : Prop :=
  ∃ u, s.get? key = some u ∧ (value == u) = true

/-- Whatever the first binds, the second binds to the same term. -/
def Within (s t : Substitution) : Prop := ∀ k u, s.get? k = some u → t.Gives k u

/-- A step to the least substitution that has what there was and what is needed. -/
structure Joins (step : Substitution → Option Substitution) (needs : Substitution → Prop) :
    Prop where
  mono : ∀ {s t}, needs s → s.Within t → needs t
  sound : ∀ {s next}, step s = some next → s.Within next ∧ needs next
  least : ∀ {s t}, s.Within t → needs t → ∃ next, step s = some next ∧ next.Within t
  isMap : ∀ {s next}, step s = some next → s.IsMap → next.IsMap

variable {s t r next : Substitution} {k j u v key value : Term} {ds : List (Term × Term)}

theorem Gives.congr (gives : s.Gives k u) (near : (j == k) = true) (alike : (v == u) = true) :
    s.Gives j v := by
  obtain ⟨w, bound, same⟩ := gives
  exact ⟨w, (get?_congr s near).trans bound, BEq.trans alike same⟩

theorem Gives.mono (gives : s.Gives k u) (within : s.Within t) : t.Gives k u := by
  obtain ⟨w, bound, same⟩ := gives
  exact (within k w bound).congr BEq.rfl same

theorem Gives.same (first : s.Gives k u) (second : s.Gives k v) : (u == v) = true := by
  obtain ⟨w, bound, same⟩ := first
  obtain ⟨w', bound', same'⟩ := second
  obtain rfl := Option.some.inj (bound.symm.trans bound')
  exact BEq.trans same (BEq.symm same')

theorem gives_of_bound (bound : s.get? k = some u) : s.Gives k u := ⟨u, bound, BEq.rfl⟩

theorem Within.refl (s : Substitution) : s.Within s := fun _ _ => gives_of_bound

theorem Within.trans (first : s.Within t) (second : t.Within r) : s.Within r :=
  fun k u bound => (first k u bound).mono second

theorem empty_within (s : Substitution) : empty.Within s := nofun

theorem Within.keys_subset (within : s.Within t) :
    s.bindings.map (·.1.untyped) ⊆ t.bindings.map (·.1.untyped) := by
  intro key listed
  obtain ⟨⟨k, u⟩, here, rfl⟩ := List.mem_map.mp listed
  obtain ⟨w, bound⟩ := Option.isSome_iff_exists.mp (isSome_get?_of_mem here)
  obtain ⟨w', there, -⟩ := within k w bound
  obtain ⟨k', listed', near⟩ := exists_mem_of_get? there
  exact List.mem_map.mpr ⟨_, listed', ((Term.sameUnder_untyped k k').mp near).symm⟩

/-- Two maps are equal when each is within the other. -/
theorem IsMap.same_iff (isMap : s.IsMap) (isMap' : t.IsMap) :
    (s == t) = true ↔ s.Within t ∧ t.Within s := by
  constructor
  · intro same
    refine ⟨fun k u bound => ?_, fun k u bound => ?_⟩
    · obtain ⟨key, listed, near⟩ := exists_mem_of_get? bound
      obtain ⟨w, there, close⟩ := exists_get?_of_same same listed
      exact Gives.congr ⟨w, there, BEq.symm close⟩ near BEq.rfl
    · obtain ⟨w, there, close⟩ := isMap.get?_of_same same bound
      exact ⟨w, there, BEq.symm close⟩
  · rintro ⟨there, back⟩
    have sizes : s.bindings.length = t.bindings.length := by
      have le := (List.subperm_of_subset isMap there.keys_subset).length_le
      have ge := (List.subperm_of_subset isMap' back.keys_subset).length_le
      simp only [List.length_map] at le ge
      exact Nat.le_antisymm le ge
    refine Bool.and_eq_true_iff.mpr ⟨List.all_eq_true.mpr ?_, beq_iff_eq.mpr sizes⟩
    rintro ⟨k, u⟩ listed
    obtain ⟨w, bound, close⟩ := there k u (isMap.get?_of_mem listed)
    exact (Option.any_eq_true _ _).mpr ⟨w, bound, BEq.symm close⟩

theorem IsMap.same_symm (isMap : s.IsMap) (same : (s == t) = true) : (t == s) = true :=
  have isMap' := isMap.of_same same
  (isMap'.same_iff isMap).mpr ((isMap.same_iff isMap').mp same).symm

theorem IsMap.same_self (isMap : s.IsMap) : (s == s) = true :=
  (isMap.same_iff isMap).mpr ⟨.refl s, .refl s⟩

theorem pairwise_of_isMap {found : List Substitution} (maps : ∀ s ∈ found, s.IsMap)
    (once : found.Pairwise fun s t => (t == s) = false) :
    found.Pairwise fun s t => (s == t) = false := by
  refine once.imp_of_mem fun listed _ apart => Bool.eq_false_iff.mpr fun same => ?_
  rw [(maps _ listed).same_symm same] at apart
  cases apart

theorem Within.contains (within : s.Within t) (key : s.contains k = true) :
    t.contains k = true := by
  obtain ⟨u, bound⟩ := Option.isSome_iff_exists.mp key
  obtain ⟨w, there, -⟩ := within k u bound
  exact Option.isSome_iff_exists.mpr ⟨w, there⟩

/-- Equal maps do the same to each term. -/
theorem untyped_apply_of_within (there : s.Within t) (back : t.Within s) (u : Term) :
    (s.apply u).untyped = (t.apply u).untyped := by
  have bound {u w : Term} (found : s.get? u = some w) :
      (s.apply u).untyped = (t.apply u).untyped := by
    obtain ⟨w', found', same⟩ := there u w found
    rw [apply_of_bound found, apply_of_bound found']
    exact (Term.sameUnder_untyped _ _).mp same
  have unbound {u : Term} (found : s.get? u = none) : t.get? u = none := by
    refine Option.not_isSome_iff_eq_none.mp fun key => ?_
    have key := back.contains key
    rw [contains, found] at key
    cases key
  have leaf {u : Term} (notList : u.isList = false) :
      (s.apply u).untyped = (t.apply u).untyped := by
    cases found : s.get? u with
    | some w => exact bound found
    | none => rw [apply_of_unbound found notList, apply_of_unbound (unbound found) notList]
  induction u with
  | iri | literal | none | blank | var => exact leaf rfl
  | list items ih =>
      cases found : s.get? (.list items) with
      | some w => exact bound found
      | none =>
          rw [apply, apply, found, unbound found]
          simpa [applyAll_eq_map, Term.untyped, Term.untypedAll_eq_map] using ih

namespace Joins

variable {f g : Substitution → Option Substitution} {P Q : Substitution → Prop}

theorem id : Joins some fun _ => True where
  mono _ _ := trivial
  sound found := by
    obtain rfl := Option.some.inj found
    exact ⟨.refl _, trivial⟩
  least within _ := ⟨_, rfl, within⟩
  isMap found isMap := by
    obtain rfl := Option.some.inj found
    exact isMap

theorem bind (first : Joins f P) (second : Joins g Q) :
    Joins (fun s => (f s).bind g) fun t => P t ∧ Q t where
  mono needs within := ⟨first.mono needs.1 within, second.mono needs.2 within⟩
  sound found := by
    obtain ⟨middle, head, tail⟩ := Option.bind_eq_some_iff.mp found
    obtain ⟨before, here⟩ := first.sound head
    obtain ⟨after, there⟩ := second.sound tail
    exact ⟨before.trans after, first.mono here after, there⟩
  least within needs := by
    obtain ⟨middle, head, before⟩ := first.least within needs.1
    obtain ⟨last, tail, after⟩ := second.least before needs.2
    exact ⟨last, Option.bind_eq_some_iff.mpr ⟨middle, head, tail⟩, after⟩
  isMap found isMap := by
    obtain ⟨middle, head, tail⟩ := Option.bind_eq_some_iff.mp found
    exact second.isMap tail (first.isMap head isMap)

theorem congr (joins : Joins f P) (same : ∀ t, Q t ↔ P t) : Joins f Q := by
  obtain rfl : Q = P := funext fun t => propext (same t)
  exact joins

/-- Steps one after the other, one for each element of a list. -/
theorem foldlM {γ : Type} (xs : List γ) {step : γ → Substitution → Option Substitution}
    {needs : γ → Substitution → Prop} (each : ∀ x, Joins (step x) (needs x)) :
    Joins (fun s => xs.foldlM (fun s x => step x s) s) fun t => ∀ x ∈ xs, needs x t := by
  induction xs with
  | nil => exact Joins.id.congr fun t => by simp
  | cons x xs ih => exact ((each x).bind ih).congr fun t => List.forall_mem_cons

theorem bind? (key value : Term) : Joins (·.bind? key value) (·.Gives key value) where
  mono gives within := gives.mono within
  sound {s next} found := by
    rcases bind?_cases found with ⟨existing, bound, same, rfl⟩ | ⟨unbound, rfl⟩
    · exact ⟨.refl next, existing, bound, BEq.symm same⟩
    · refine ⟨fun k u bound => ⟨u, ?_, BEq.rfl⟩, value, ?_, BEq.rfl⟩
      · rw [get?_insert, if_neg, bound]
        intro near
        rw [get?_congr s near, unbound] at bound
        cases bound
      · rw [get?_insert, if_pos BEq.rfl]
  least {s t} within gives := by
    unfold Substitution.bind?
    split
    · rename_i existing bound
      exact ⟨s, if_pos ((within key existing bound).same gives), within⟩
    · refine ⟨_, rfl, fun k u bound => ?_⟩
      rcases get?_insert_cases bound with ⟨near, rfl⟩ | old
      · exact gives.congr near BEq.rfl
      · exact within k u old
  isMap {s next} found isMap := by
    rcases bind?_cases found with ⟨-, -, -, rfl⟩ | ⟨unbound, rfl⟩
    · exact isMap
    · exact isMap.insert unbound

theorem bindEach? (ds : List (Term × Term)) :
    Joins (·.bindEach? ds) fun t => ∀ d ∈ ds, t.Gives d.1 d.2 :=
  foldlM ds fun d => bind? d.1 d.2

/-- Bindings that are asked for, if there are any that would do. -/
theorem ofDemands (asked : Option (List (Term × Term))) :
    Joins (fun s => asked.bind s.bindEach?) fun t =>
      ∃ ds, asked = some ds ∧ ∀ d ∈ ds, t.Gives d.1 d.2 := by
  cases asked with
  | some ds => exact (bindEach? ds).congr fun t => by simp
  | none => exact ⟨nofun, nofun, nofun, nofun⟩

theorem matchArguments? (args into : ArgumentList) : Joins (matchArguments? args into) fun t =>
    ∃ ds, args.demands? into = some ds ∧ ∀ d ∈ ds, t.Gives d.1 d.2 := by
  rw [show Substitution.matchArguments? args into = _ from funext (matchArguments?_eq args into)]
  exact ofDemands _

/-- Merging adds the bindings of the other substitution one after the other. -/
theorem merge? (isMap : r.IsMap) : Joins (·.merge? r) r.Within := by
  refine (show Joins (·.merge? r) _ from bindEach? r.bindings).congr fun t => ⟨?_, ?_⟩
  · rintro within ⟨k, u⟩ listed
    exact within k u (isMap.get?_of_mem listed)
  · intro gives k u bound
    obtain ⟨key, listed, near⟩ := exists_mem_of_get? bound
    exact (gives _ listed).congr near BEq.rfl

/-- A step may be made from nothing and its result merged. -/
theorem apart (joins : Joins f P) : Joins (fun s => (f .empty).bind s.merge?) P := by
  cases found : f .empty with
  | some r =>
      have isMap : r.IsMap := joins.isMap found List.nodup_nil
      refine (merge? isMap).congr fun t => ⟨fun needs => ?_, joins.mono (joins.sound found).2⟩
      obtain ⟨next, same, within⟩ := joins.least (empty_within t) needs
      obtain rfl := Option.some.inj (found.symm.trans same)
      exact within
  | none =>
      refine ⟨joins.mono, nofun, fun {s t} _ needs => ?_, nofun⟩
      obtain ⟨next, some_, -⟩ := joins.least (empty_within t) needs
      rw [found] at some_
      cases some_

/-- Steps that need the same come to equal maps from the same map, or fail both. -/
theorem rel (first : Joins f P) (second : Joins g P) (isMap : s.IsMap) :
    Option.Rel (fun s t => (s == t) = true) (f s) (g s) := by
  cases found : f s with
  | none =>
      cases found' : g s with
      | none => exact .none
      | some t =>
          obtain ⟨within, needs⟩ := second.sound found'
          obtain ⟨next, some_, -⟩ := first.least within needs
          rw [found] at some_
          cases some_
  | some r =>
      obtain ⟨within, needs⟩ := first.sound found
      obtain ⟨t, found', below⟩ := second.least within needs
      obtain ⟨within', needs'⟩ := second.sound found'
      obtain ⟨r', same, above⟩ := first.least within' needs'
      obtain rfl := Option.some.inj (found.symm.trans same)
      rw [found']
      exact .some ((IsMap.same_iff (first.isMap found isMap) (second.isMap found' isMap)).mpr
        ⟨above, below⟩)

end Joins

/-- Matches pair by pair, growing what was found before. -/
def matchInTurn? (base : Substitution) (pairs : List (ArgumentList × ArgumentList)) :
    Option Substitution :=
  pairs.foldlM (fun s pair => matchArguments? pair.1 pair.2 s) base

/-- Matches each pair on its own and merges all that is found. -/
def matchApart? (base : Substitution) (pairs : List (ArgumentList × ArgumentList)) :
    Option Substitution := do
  let found ← pairs.mapM fun pair => matchArguments? pair.1 pair.2 .empty
  found.foldlM merge? base

/-- It does not matter whether something fails before the merging begins or on the way. -/
theorem matchApart?_eq (base : Substitution) (pairs : List (ArgumentList × ArgumentList)) :
    matchApart? base pairs = pairs.foldlM
      (fun s pair => (matchArguments? pair.1 pair.2 .empty).bind s.merge?) base := by
  induction pairs generalizing base with
  | nil => rfl
  | cons pair rest ih =>
      rw [List.foldlM_cons, matchApart?, List.mapM_cons]
      cases matchArguments? pair.1 pair.2 .empty with
      | none => rfl
      | some r =>
          rw [show (fun s => rest.foldlM _ s) = fun s => matchApart? s rest from
            funext fun s => (ih s).symm]
          unfold matchApart?
          generalize (rest.mapM fun pair => matchArguments? pair.1 pair.2 .empty) = found
          cases merged : base.merge? r <;> cases found <;> simp [merged]

variable {base : Substitution} {pairs order : List (ArgumentList × ArgumentList)}

/-- Matchings that grow out of each other and matchings that are merged come to the same map,
or there is none either way. -/
theorem matchInTurn_sameAs_matchApart (isMap : base.IsMap) (sorted : order.Perm pairs) :
    Option.Rel (fun s t => (s == t) = true) (base.matchInTurn? pairs)
      (base.matchApart? order) := by
  rw [matchApart?_eq]
  have inTurn := Joins.foldlM pairs fun pair => Joins.matchArguments? pair.1 pair.2
  have apart := Joins.foldlM order fun pair => (Joins.matchArguments? pair.1 pair.2).apart
  exact inTurn.rel (apart.congr fun t => forall_congr' fun pair =>
    imp_congr_left sorted.mem_iff.symm) isMap

/-- A city that is known to be Oslo. -/
def knownCity : Substitution := ⟨[(.var ⟨"city", .top⟩, .iri "Oslo")]⟩

/-- A city and its name are matched with Oslo and a list. -/
def cityWithName : ArgumentList × ArgumentList :=
  (.ofTerms [.var ⟨"city", .top⟩, .var ⟨"name", .top⟩],
    .ofTerms [.iri "Oslo", .list [.var ⟨"language", .anyIri⟩]])

/-- The name is matched with that list again, beside a blank node. -/
def nameWithPlace : ArgumentList × ArgumentList :=
  (.ofTerms [.var ⟨"name", .top⟩, .blank "place"],
    .ofTerms [.list [.var ⟨"language", .top⟩], .blank "town"])

/-- With the pairs in the other order the same map comes out. -/
theorem matchInTurn_sameAs_matchApart_known : knownCity.IsMap ∧
    [nameWithPlace, cityWithName].Perm [cityWithName, nameWithPlace] ∧
    (knownCity.matchInTurn? [cityWithName, nameWithPlace]).isSome = true ∧
    Option.Rel (fun s t => (s == t) = true)
      (knownCity.matchInTurn? [cityWithName, nameWithPlace])
      (knownCity.matchApart? [nameWithPlace, cityWithName]) :=
  have isMap : knownCity.IsMap := by simp [IsMap, knownCity]
  ⟨isMap, .swap _ _ _, rfl, matchInTurn_sameAs_matchApart isMap (.swap _ _ _)⟩

/-- Another city is refused on the first pair in one way and when all is merged in the other. -/
example : (⟨[(.var ⟨"city", .top⟩, .iri "Rome")]⟩ : Substitution).matchInTurn?
      [cityWithName, nameWithPlace] = none ∧
    (⟨[(.var ⟨"city", .top⟩, .iri "Rome")]⟩ : Substitution).matchApart?
      [nameWithPlace, cityWithName] = none :=
  ⟨rfl, rfl⟩

end Substitution

end RdfTemplates
