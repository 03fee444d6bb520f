import RdfTemplates.Proofs.Store.Editing
import RdfTemplates.Proofs.TemplateBody

/-!
# Bodies under the operations

A body is listed by the numbers of its calls. An operation on one template leaves
the list of every other body as it was, for their calls keep their numbers. The
body of the template itself is told up to its order, which depends on what was
removed before, and an edited body up to the types of its variables.
-/

namespace RdfTemplates

/-- No two instances of the list are the same. -/
def Distinct (body : List Instance) : Prop := body.Pairwise fun i j => (i == j) = false

/-- Distinct instances stay so in any order. -/
theorem Distinct.of_perm {xs ys : List Instance} (distinct : Distinct xs) (same : ys.Perm xs) :
    Distinct ys := by
  refine (same.pairwise_iff fun {i j} apart => ?_).mpr distinct
  rwa [BEq.comm]

theorem Instance.nodup_untyped {is : List Instance} (distinct : Distinct is) :
    (is.map untyped).Nodup := by
  refine List.pairwise_map.mpr (distinct.imp fun {i j} apart same => ?_)
  rw [(sameUnder_untyped i j).mpr same] at apart
  cases apart

theorem Instance.distinct_of_nodup {is : List Instance} (nodup : (is.map untyped).Nodup) :
    Distinct is := by
  refine (List.pairwise_map.mp nodup).imp fun {i j} apart => ?_
  rw [Bool.eq_false_iff, Ne, sameUnder_untyped i j]
  exact apart

theorem Instance.contains_iff_untyped {is : List Instance} {j : Instance} :
    is.contains j = true ↔ j.untyped ∈ is.map untyped := by
  rw [List.contains_iff_exists_mem_beq, List.mem_map]
  refine exists_congr fun i => and_congr_right fun _ => ?_
  rw [sameUnder_untyped, eq_comm]

theorem Template.distinct_make (iri : Iri) (ps : ParameterList) (body : List Instance) :
    Distinct (make iri ps body).body := pairwise_firsts _

namespace Store

variable {store : Store} {iri other caller : Iri} {i j : Instance} {out into : List Instance}

/-- A body has the instances of its calls, sorted by their numbers. -/
theorem bodyOf_perm (store : Store) (caller : Iri) :
    (store.bodyOf caller).Perm ((store.callsFrom caller).map (·.2.target)) :=
  (stableSort_perm _ _).map _

theorem bodyOf_addCall_perm (store : Store) (caller : Iri) (i : Instance) :
    ((store.addCall caller i).bodyOf caller).Perm (i :: store.bodyOf caller) := by
  obtain ⟨n, added⟩ := store.items_addCall caller i
  have calls : (store.addCall caller i).callsFrom caller =
      (n, ⟨caller, i⟩) :: store.callsFrom caller := by simp [callsFrom, added]
  refine (bodyOf_perm _ caller).trans ?_
  rw [calls, List.map_cons]
  exact (bodyOf_perm store caller).symm.cons i

/-- The calls of a body are added in its order. -/
theorem calls_foldl_addCall (caller : Iri) (body : List Instance) (store : Store) :
    (body.foldl (·.addCall caller ·) store).calls =
      (body.map (Call.mk caller)).foldl Numbered.add store.calls := by
  induction body generalizing store with
  | nil => rfl
  | cons i body ih =>
      have first : (store.addCall caller i).calls = store.calls.add ⟨caller, i⟩ :=
        congrArg (·.add ⟨caller, i⟩) (calls_ensure store i.iri)
      rw [List.foldl_cons, ih, first]
      rfl

/-- The calls of a template that is added, with the numbers that they take. -/
def numberedCalls (store : Store) (t : Template) : List (Nat × Call) :=
  (store.calls.upcoming t.body.length).zip (t.body.map (Call.mk t.iri))

/-- The calls of a new body take the numbers that come up. -/
theorem numbers_numberedCalls (store : Store) (t : Template) :
    (store.numberedCalls t).map Prod.fst = store.calls.upcoming t.body.length := by
  refine List.map_fst_zip ?_
  rw [Numbered.length_upcoming, List.length_map]

theorem targets_numberedCalls (store : Store) (t : Template) :
    (store.numberedCalls t).map (·.2.target) = t.body := by
  have calls : (store.numberedCalls t).map Prod.snd = t.body.map (Call.mk t.iri) := by
    refine List.map_snd_zip ?_
    rw [Numbered.length_upcoming, List.length_map]
  have targets := congrArg (List.map Call.target) calls
  simpa [Function.comp_def] using targets

/-- The calls of a new definition are those of its body. -/
theorem WellFormed.callsFrom_define (wf : store.WellFormed) (t : Template)
    (free : ∀ ps, store.status? t.iri ≠ some (.definition ps)) :
    (store.define t).callsFrom t.iri = (store.numberedCalls t).reverse := by
  have items : (store.define t).calls.items =
      (store.numberedCalls t).reverse ++ store.calls.items := by
    rw [Store.define, calls_foldl_addCall, calls_setStatus, Numbered.items_foldl_add,
      List.length_map]
    rfl
  have new : (store.numberedCalls t).reverse.filter (·.2.caller == t.iri) =
      (store.numberedCalls t).reverse := by
    refine List.filter_eq_self.mpr fun call listed => ?_
    obtain ⟨i, -, made⟩ := List.mem_map.mp (List.of_mem_zip (List.mem_reverse.mp listed)).2
    simp [← made]
  have old : store.calls.items.filter (·.2.caller == t.iri) = [] := by
    refine List.filter_eq_nil_iff.mpr fun call used => ?_
    simpa using wf.not_caller t.iri free call used
  rw [callsFrom, items, List.filter_append, new, old, List.append_nil]

/-- So its body has the instances it was given, in an order of their numbers. -/
theorem WellFormed.bodyOf_define_perm (wf : store.WellFormed) (t : Template)
    (free : ∀ ps, store.status? t.iri ≠ some (.definition ps)) :
    ((store.define t).bodyOf t.iri).Perm t.body := by
  have calls := (List.reverse_perm (store.numberedCalls t)).map (·.2.target)
  rw [targets_numberedCalls, ← wf.callsFrom_define t free] at calls
  exact (bodyOf_perm _ _).trans calls

/-- A body is in its own order where the numbers of its calls ascend. -/
theorem WellFormed.bodyOf_define_of_ascending (wf : store.WellFormed) {t : Template}
    (free : ∀ ps, store.status? t.iri ≠ some (.definition ps))
    (ascending : (store.calls.upcoming t.body.length).Pairwise (· < ·)) :
    (store.define t).bodyOf t.iri = t.body := by
  rw [← numbers_numberedCalls, List.pairwise_map] at ascending
  have descending : (store.numberedCalls t).reverse.Pairwise fun a b =>
      decide (a.1 ≤ b.1) = false :=
    List.pairwise_reverse.mpr (ascending.imp fun {a b} before => by simpa using before)
  rw [bodyOf, wf.callsFrom_define t free, stableSort_eq_reverse descending, List.reverse_reverse,
    targets_numberedCalls]

/-- A number that goes belongs to a call of this IRI and to no other call. -/
theorem WellFormed.callsFrom_dropCalls_of_ne (wf : store.WellFormed) {doomed : List (Nat × Call)}
    (used : doomed.Sublist (store.callsFrom iri)) (uses : List (Iri × Iri))
    (apart : other ≠ iri) : (store.dropCalls doomed uses).callsFrom other =
      store.callsFrom other := by
  have items : (store.dropCalls doomed uses).calls.items =
      store.calls.items.filter fun call => !(doomed.map Prod.fst).contains call.1 :=
    Numbered.items_removeAll _ _
  unfold callsFrom
  rw [items, List.filter_filter]
  apply List.filter_congr
  intro call here
  by_cases caller : call.2.caller = other
  · have kept : call.1 ∉ doomed.map Prod.fst := by
      intro listed
      obtain ⟨gone, hgone, same⟩ := List.mem_map.mp listed
      obtain ⟨there, calls⟩ := mem_callsFrom.mp (used.subset hgone)
      have equal : gone = call :=
        Prod.ext same (wf.calls.item_unique (same ▸ there) here)
      exact apart (caller.symm.trans (equal ▸ calls))
    simpa [caller] using kept
  · simp [caller]

theorem callsFrom_dropCalls_sublist (store : Store) (doomed : List (Nat × Call))
    (uses : List (Iri × Iri)) (caller : Iri) :
    ((store.dropCalls doomed uses).callsFrom caller).Sublist (store.callsFrom caller) :=
  (Numbered.sublist_removeAll _ _).filter _

theorem distinct_bodyOf_dropCalls (distinct : Distinct (store.bodyOf caller))
    (doomed : List (Nat × Call)) (uses : List (Iri × Iri)) :
    Distinct ((store.dropCalls doomed uses).bodyOf caller) := by
  have all := distinct.of_perm (bodyOf_perm store caller).symm
  have left := (callsFrom_dropCalls_sublist store doomed uses caller).map (·.2.target)
  exact Distinct.of_perm (List.Pairwise.sublist left all) (bodyOf_perm _ caller)

theorem calls_cleared (store : Store) (iri : Iri) :
    (store.cleared iri).calls = (store.silenced iri).calls := by
  rcases store.cleared_cases iri with ⟨-, removed⟩ | undefined
  · rw [removed]
    rfl
  · rw [undefined, calls_setStatus]

/-- Removing a template does not touch other bodies. -/
theorem WellFormed.bodyOf_remove_of_ne (wf : store.WellFormed) (apart : other ≠ iri) :
    (store.remove iri).1.bodyOf other = store.bodyOf other := by
  by_cases known : store.contains iri = true
  · rw [remove_of_contains known]
    apply bodyOf_congr
    rw [← wf.callsFrom_dropCalls_of_ne (.refl _) (forgetUses store.predicateUses iri) apart]
    exact congrArg (·.items.filter (·.2.caller == other)) (store.calls_cleared iri)
  · rw [remove_of_not_contains known]

theorem bodyOf_addMissingCall_of_ne (apart : other ≠ caller) (store : Store) (i : Instance) :
    (store.addMissingCall caller i).bodyOf other = store.bodyOf other := by
  rcases store.addMissingCall_cases caller i with ⟨-, same⟩ | ⟨-, added⟩
  · rw [same]
  · rw [added]
    exact bodyOf_addCall_of_ne apart i

theorem bodyOf_foldl_addMissingCall_of_ne (apart : other ≠ caller) (into : List Instance)
    (store : Store) :
    (into.foldl (·.addMissingCall caller ·) store).bodyOf other = store.bodyOf other := by
  induction into generalizing store with
  | nil => rfl
  | cons i into ih => rw [List.foldl_cons, ih, bodyOf_addMissingCall_of_ne apart]

/-- An instance is added only where none is like it. -/
theorem distinct_addMissingCall (distinct : Distinct (store.bodyOf caller)) (i : Instance) :
    Distinct ((store.addMissingCall caller i).bodyOf caller) := by
  rcases store.addMissingCall_cases caller i with ⟨-, same⟩ | ⟨apart, added⟩
  · rwa [same]
  · rw [added]
    refine Distinct.of_perm (List.Pairwise.cons (fun j hj => ?_) distinct)
      (bodyOf_addCall_perm store caller i)
    rw [BEq.comm]
    exact apart j hj

theorem distinct_foldl_addMissingCall (distinct : Distinct (store.bodyOf caller))
    (into : List Instance) :
    Distinct ((into.foldl (·.addMissingCall caller ·) store).bodyOf caller) := by
  induction into generalizing store with
  | nil => exact distinct
  | cons i into ih => exact ih (distinct_addMissingCall distinct i)

/-- Of what is put in, the first of each kind is added, if it was missing. -/
theorem mem_bodyOf_foldl_addMissingCall :
    j ∈ (into.foldl (·.addMissingCall caller ·) store).bodyOf caller ↔
      j ∈ store.bodyOf caller ∨ j ∈ firsts (into.filter (!(store.bodyOf caller).contains ·)) := by
  induction into using List.reverseRecOn generalizing j with
  | nil => simp [firsts]
  | append_singleton into i ih =>
      have apart : (∀ k ∈ (into.foldl (·.addMissingCall caller ·) store).bodyOf caller,
          (k == i) = false) ↔ (store.bodyOf caller).contains i = false ∧
            (firsts (into.filter (!(store.bodyOf caller).contains ·))).contains i = false := by
        simp only [ih, List.contains_eq_any_beq, List.any_eq_false, BEq.comm (a := i)]
        simp only [or_imp, forall_and, Bool.not_eq_true]
      rw [List.foldl_append, List.foldl_cons, List.foldl_nil, mem_bodyOf_addMissingCall, apart, ih,
        List.filter_append]
      cases old : (store.bodyOf caller).contains i with
      | true => simp [old]
      | false =>
          rw [List.filter_singleton, old, Bool.not_false, cond_true, firsts_append]
          cases met : (firsts (into.filter (!(store.bodyOf caller).contains ·))).contains i with
          | true => simp
          | false => simp [or_assoc]

/-- Editing a body does not touch other bodies. -/
theorem WellFormed.bodyOf_editBody_of_ne (wf : store.WellFormed) (apart : other ≠ iri)
    (out into : List Instance) :
    (store.editBody iri out into).1.bodyOf other = store.bodyOf other := by
  by_cases defined : store.isDefinition iri = true
  · rw [editBody_of_definition defined]
    have sub : (store.taken iri out).Sublist (store.callsFrom iri) := List.filter_sublist
    have taken := wf.callsFrom_dropCalls_of_ne sub store.predicateUses apart
    exact (bodyOf_foldl_addMissingCall_of_ne apart into _).trans (bodyOf_congr taken)
  · rw [editBody_of_not_definition defined]

/-- An edited body has no instance twice. -/
theorem distinct_editBody (distinct : Distinct (store.bodyOf iri)) (out into : List Instance) :
    Distinct ((store.editBody iri out into).1.bodyOf iri) := by
  by_cases defined : store.isDefinition iri = true
  · rw [editBody_of_definition defined]
    exact distinct_foldl_addMissingCall (distinct_bodyOf_dropCalls distinct _ _) into
  · rwa [editBody_of_not_definition defined]

/-- The instances that an edit puts in: what is left of the body has none of them, and there is
one of each. -/
def putIn (store : Store) (iri : Iri) (out into : List Instance) : List Instance :=
  firsts (into.filter fun i => !((store.bodyOf iri).filter (!out.contains ·)).contains i)

/-- An edited body has what was not taken out, and what was put in. -/
theorem WellFormed.mem_bodyOf_editBody_self (wf : store.WellFormed)
    (defined : store.isDefinition iri = true) (out into : List Instance) :
    j ∈ (store.editBody iri out into).1.bodyOf iri ↔
      (j ∈ store.bodyOf iri ∧ out.contains j = false) ∨ j ∈ store.putIn iri out into := by
  let dropped := store.dropCalls (store.taken iri out) store.predicateUses
  have left (k) : k ∈ dropped.bodyOf iri ↔ k ∈ store.bodyOf iri ∧ out.contains k = false := by
    rw [wf.mem_bodyOf_dropCalls_taken]
    exact and_congr_right fun _ => ⟨fun kept => kept rfl, fun kept _ => kept⟩
  have same (i) : (dropped.bodyOf iri).contains i =
      ((store.bodyOf iri).filter (!out.contains ·)).contains i := by
    rw [Bool.eq_iff_iff, List.contains_iff_exists_mem_beq, List.contains_iff_exists_mem_beq]
    simp only [left, List.mem_filter, Bool.not_eq_true']
  have bodies : (store.editBody iri out into).1.bodyOf iri =
      (into.foldl (·.addMissingCall iri ·) dropped).bodyOf iri := by
    rw [editBody_of_definition defined]
    rfl
  rw [bodies, mem_bodyOf_foldl_addMissingCall, left]
  simp only [putIn, same]

/-- The edited body is what is left of the old one, with what was put in. -/
theorem WellFormed.contains_editBody (wf : store.WellFormed)
    (defined : store.isDefinition iri = true) (out into : List Instance) (j : Instance) :
    ((store.editBody iri out into).1.bodyOf iri).contains j =
      (((store.bodyOf iri).contains j && !out.contains j) || into.contains j) := by
  have alike {k : Instance} (same : (j == k) = true) : out.contains k = out.contains j := by
    rw [Bool.eq_iff_iff, List.contains_iff_exists_mem_beq, List.contains_iff_exists_mem_beq]
    constructor
    · exact fun ⟨l, hl, eq⟩ => ⟨l, hl, BEq.trans same eq⟩
    · exact fun ⟨l, hl, eq⟩ => ⟨l, hl, BEq.trans (BEq.symm same) eq⟩
  rw [Bool.eq_iff_iff, Bool.or_eq_true, Bool.and_eq_true, List.contains_iff_exists_mem_beq,
    List.contains_iff_exists_mem_beq, List.contains_iff_exists_mem_beq]
  constructor
  · rintro ⟨k, hk, same⟩
    rcases (wf.mem_bodyOf_editBody_self defined out into).mp hk with ⟨old, kept⟩ | new
    · exact .inl ⟨⟨k, old, same⟩, by rw [← alike same, kept]; rfl⟩
    · exact .inr ⟨k, (List.mem_filter.mp (mem_of_mem_firsts new)).1, same⟩
  · rintro (⟨⟨k, old, same⟩, kept⟩ | ⟨k, given, same⟩)
    · refine ⟨k, (wf.mem_bodyOf_editBody_self defined out into).mpr (.inl ⟨old, ?_⟩), same⟩
      rw [alike same]
      simpa using kept
    · cases left : ((store.bodyOf iri).filter (!out.contains ·)).contains k with
      | true =>
          obtain ⟨l, hl, near⟩ := List.contains_iff_exists_mem_beq.mp left
          obtain ⟨old, kept⟩ := List.mem_filter.mp hl
          exact ⟨l, (wf.mem_bodyOf_editBody_self defined out into).mpr
            (.inl ⟨old, by simpa using kept⟩), BEq.trans same near⟩
      | false =>
          have missed : k ∈ into.filter fun i =>
              !((store.bodyOf iri).filter (!out.contains ·)).contains i :=
            List.mem_filter.mpr ⟨given, by rw [left]; rfl⟩
          obtain ⟨l, hl, near⟩ := exists_mem_firsts missed
          exact ⟨l, (wf.mem_bodyOf_editBody_self defined out into).mpr (.inr hl),
            BEq.trans same (BEq.symm near)⟩

end Store

end RdfTemplates
