import RdfTemplates.Proofs.Store.Removal

/-!
# Editing a body

What is declared stays declared as it was. The body that was edited has what was
not taken out of it, and the instance put in unless it had that already. Other
bodies stay as they were.
-/

namespace RdfTemplates

namespace Store

variable {store : Store} {iri other : Iri} {status : Status} {out : List Instance}

theorem status?_ensure_declared (declared : status.isUndefined = false) :
    (store.ensure iri).status? other = some status ↔ store.status? other = some status := by
  rw [status?_ensure]
  cases store.status? other with
  | some known => rfl
  | none =>
      by_cases same : iri = other
      · rw [if_pos same, Option.none_or]
        constructor
        · intro h
          rw [← Option.some.inj h] at declared
          cases declared
        · nofun
      · rw [if_neg same, Option.none_or]

theorem status?_addMissingCall_declared (declared : status.isUndefined = false) (caller : Iri)
    (i : Instance) :
    (store.addMissingCall caller i).status? other = some status ↔
      store.status? other = some status := by
  rcases store.addMissingCall_cases caller i with ⟨-, same⟩ | ⟨-, added⟩
  · rw [same]
  · rw [added, status?_addCall]
    exact status?_ensure_declared declared

theorem status?_foldl_addMissingCall (declared : status.isUndefined = false) (caller : Iri)
    (into : List Instance) :
    (into.foldl (·.addMissingCall caller ·) store).status? other = some status ↔
      store.status? other = some status := by
  induction into generalizing store with
  | nil => rfl
  | cons i into ih =>
      rw [List.foldl_cons, ih]
      exact status?_addMissingCall_declared declared caller i

theorem mem_bodyOf_addMissingCall {caller : Iri} {i j : Instance} :
    j ∈ (store.addMissingCall caller i).bodyOf other ↔ j ∈ store.bodyOf other ∨
      (other = caller ∧ j = i ∧ ∀ k ∈ store.bodyOf caller, (k == i) = false) := by
  rcases store.addMissingCall_cases caller i with ⟨⟨k, hk, same⟩, kept⟩ | ⟨apart, added⟩
  · rw [kept]
    constructor
    · exact .inl
    · rintro (old | ⟨rfl, rfl, apart⟩)
      · exact old
      · rw [apart k hk] at same
        cases same
  · rw [added, mem_bodyOf_addCall]
    constructor
    · rintro (⟨rfl, rfl⟩ | old)
      · exact .inr ⟨rfl, rfl, apart⟩
      · exact .inl old
    · rintro (old | ⟨rfl, rfl, -⟩)
      · exact .inr old
      · exact .inl ⟨rfl, rfl⟩

theorem status?_edited (declared : status.isUndefined = false) (iri : Iri)
    (out into : List Instance) :
    (store.edited iri out into).status? other = some status ↔ store.status? other = some status :=
  status?_foldl_addMissingCall declared iri into

theorem status?_editBody (wf : store.WellFormed) (declared : status.isUndefined = false)
    (iri : Iri) (out into : List Instance) :
    (store.editBody iri out into).1.status? other = some status ↔
      store.status? other = some status := by
  by_cases defined : store.isDefinition iri = true
  · have edited := wf.edited defined out into
    rw [editBody_of_definition defined, edited.status?_prune_declared declared,
      status?_edited declared]
  · rw [editBody_of_not_definition defined]

/-- A body without the instances taken out of it; other bodies stay as they were. -/
theorem WellFormed.mem_bodyOf_dropCalls_taken (wf : store.WellFormed) (uses : List (Iri × Iri))
    {j : Instance} :
    j ∈ (store.dropCalls (store.taken iri out) uses).bodyOf other ↔
      j ∈ store.bodyOf other ∧ (other = iri → out.contains j = false) := by
  rw [mem_bodyOf, mem_bodyOf]
  constructor
  · rintro ⟨n, used⟩
    obtain ⟨old, kept⟩ := (wf.mem_dropCalls (store.taken_sublist iri out) uses).mp used
    refine ⟨⟨n, old⟩, fun here => ?_⟩
    by_contra listed
    exact kept (List.mem_filter.mpr ⟨mem_callsFrom.mpr ⟨old, here⟩, by simpa using listed⟩)
  · rintro ⟨⟨n, old⟩, apart⟩
    refine ⟨n, (wf.mem_dropCalls (store.taken_sublist iri out) uses).mpr ⟨old, fun gone => ?_⟩⟩
    obtain ⟨listed, contained⟩ := List.mem_filter.mp gone
    have here := apart (mem_callsFrom.mp listed).2
    simp [here] at contained

theorem mem_bodyOf_editBody (wf : store.WellFormed) (defined : store.isDefinition iri = true)
    (out : List Instance) (i : Instance) {j : Instance} :
    j ∈ (store.editBody iri out [i]).1.bodyOf other ↔
      (j ∈ store.bodyOf other ∧ (other = iri → out.contains j = false)) ∨
        (other = iri ∧ j = i ∧
          ∀ k ∈ store.bodyOf iri, out.contains k = false → (k == i) = false) := by
  have bodies : (store.editBody iri out [i]).1.bodyOf other =
      ((store.dropCalls (store.taken iri out) store.predicateUses).addMissingCall iri i).bodyOf
        other := by
    rw [editBody_of_definition defined]
    rfl
  rw [bodies, mem_bodyOf_addMissingCall, wf.mem_bodyOf_dropCalls_taken]
  refine or_congr_right (and_congr_right fun _ => and_congr_right fun _ => ?_)
  constructor
  · exact fun apart k hk kept =>
      apart k ((wf.mem_bodyOf_dropCalls_taken _).mpr ⟨hk, fun _ => kept⟩)
  · intro apart k hk
    obtain ⟨old, kept⟩ := (wf.mem_bodyOf_dropCalls_taken _).mp hk
    exact apart k old (kept rfl)

end Store

end RdfTemplates
