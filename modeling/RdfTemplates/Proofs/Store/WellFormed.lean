import RdfTemplates.Proofs.Store.Views

/-!
# Well-formed stores

Entries and calls are numbered soundly, no IRI has two entries, only definitions
call, and what is called has an entry. Every operation keeps a store so. What an
operation that removes something does to statuses and calls is stated here too,
since it can be told only when numbers and IRIs are unique.
-/

namespace RdfTemplates

namespace Store

structure WellFormed (store : Store) : Prop where
  entries : store.entries.Sound
  calls : store.calls.Sound
  iris : (store.entries.latestFirst.map (·.iri)).Nodup
  callers : ∀ call ∈ store.calls.items, store.isDefinition call.2.caller = true
  callees : ∀ call ∈ store.calls.items, (store.status? call.2.callee).isSome

theorem wellFormed_empty (config : StoreConfig) : (empty config).WellFormed where
  entries := Numbered.sound_empty
  calls := Numbered.sound_empty
  iris := by simp [empty, Numbered.empty, Numbered.latestFirst]
  callers := by simp [empty, Numbered.empty]
  callees := by simp [empty, Numbered.empty]

namespace WellFormed

variable {store : Store}

/-- Only entries and calls matter. -/
theorem congr (wf : store.WellFormed) {other : Store} (entries : other.entries = store.entries)
    (calls : other.calls = store.calls) : other.WellFormed := by
  obtain ⟨_, _, _, _, _, _, _⟩ := other
  obtain rfl := entries
  obtain rfl := calls
  exact ⟨wf.entries, wf.calls, wf.iris, wf.callers, wf.callees⟩

theorem definition_of_mem_bodyOf (wf : store.WellFormed) {caller : Iri} {i : Instance}
    (h : i ∈ store.bodyOf caller) : ∃ ps, store.status? caller = some (.definition ps) := by
  obtain ⟨n, used⟩ := mem_bodyOf.mp h
  exact isDefinition_iff.mp (wf.callers _ used)

theorem bodyOf_eq_nil (wf : store.WellFormed) {iri : Iri}
    (free : ∀ ps, store.status? iri ≠ some (.definition ps)) : store.bodyOf iri = [] := by
  rw [List.eq_nil_iff_forall_not_mem]
  intro i listed
  obtain ⟨ps, defined⟩ := wf.definition_of_mem_bodyOf listed
  exact free ps defined

theorem callee_of_mem_bodyOf (wf : store.WellFormed) {caller : Iri} {i : Instance}
    (h : i ∈ store.bodyOf caller) : (store.status? i.iri).isSome := by
  obtain ⟨n, used⟩ := mem_bodyOf.mp h
  exact wf.callees _ used

theorem ensure (wf : store.WellFormed) (iri : Iri) : (store.ensure iri).WellFormed := by
  have callers : ∀ call ∈ store.calls.items,
      (store.ensure iri).isDefinition call.2.caller = true := by
    intro call used
    obtain ⟨ps, status⟩ := isDefinition_iff.mp (wf.callers call used)
    exact isDefinition_iff.mpr ⟨ps, by rw [status?_ensure, status]; rfl⟩
  have callees : ∀ call ∈ store.calls.items, ((store.ensure iri).status? call.2.callee).isSome := by
    intro call used
    obtain ⟨status, h⟩ := Option.isSome_iff_exists.mp (wf.callees call used)
    rw [status?_ensure, h]
    rfl
  by_cases known : (store.entry? iri).isSome
  · have same : store.ensure iri = store := by rw [Store.ensure, if_pos known]
    rwa [same]
  · have grown : store.ensure iri =
        { store with entries := store.entries.add ⟨iri, .undefined⟩ } := by
      rw [Store.ensure, if_neg known]
    rw [grown] at callers callees ⊢
    refine ⟨wf.entries.add _, wf.calls, ?_, callers, callees⟩
    have new : iri ∉ store.entries.latestFirst.map (·.iri) := by
      intro listed
      obtain ⟨e, used, same⟩ := List.mem_map.mp listed
      exact known ((store.entry?_isSome iri).mpr ⟨e, used, same⟩)
    rw [Numbered.latestFirst_add, List.map_cons]
    exact List.nodup_cons.mpr ⟨new, wf.iris⟩

/-- Nothing that calls may lose its definition. -/
theorem setStatus (wf : store.WellFormed) (iri : Iri) (status : Status)
    (fits : status.isDefinition = true ∨ ∀ call ∈ store.calls.items, call.2.caller ≠ iri) :
    (store.setStatus iri status).WellFormed := by
  have ensured := wf.ensure iri
  refine ⟨?_, by rw [calls_setStatus]; exact wf.calls, ?_, ?_, ?_⟩
  · exact ensured.entries.map fun e => if e.iri == iri then { e with status } else e
  · rw [latestFirst_setStatus, List.map_map]
    convert ensured.iris using 2
    funext e
    by_cases h : e.iri = iri <;> simp [h]
  · intro call used
    rw [calls_setStatus] at used
    obtain ⟨ps, old⟩ := isDefinition_iff.mp (wf.callers call used)
    by_cases same : iri = call.2.caller
    · rcases fits with defines | apart
      · unfold isDefinition
        rw [status?_setStatus, if_pos same]
        exact defines
      · exact absurd same.symm (apart call used)
    · exact isDefinition_iff.mpr ⟨ps, by rw [status?_setStatus, if_neg same, old]⟩
  · intro call used
    rw [calls_setStatus] at used
    have old := wf.callees call used
    rw [status?_setStatus]
    split
    · rfl
    · exact old

theorem say (wf : store.WellFormed) (m : Message) : (store.say m).WellFormed :=
  wf.congr rfl rfl

theorem addCall (wf : store.WellFormed) {caller : Iri} (i : Instance)
    (defined : store.isDefinition caller = true) : (store.addCall caller i).WellFormed := by
  have ensured := wf.ensure i.iri
  obtain ⟨ps, status⟩ := isDefinition_iff.mp defined
  have known : (store.ensure i.iri).isDefinition caller = true :=
    isDefinition_iff.mpr ⟨ps, by rw [status?_ensure, status]; rfl⟩
  obtain ⟨n, added⟩ := store.items_addCall caller i
  refine ⟨ensured.entries, ensured.calls.add _, ensured.iris, ?_, ?_⟩
  · intro call used
    rcases List.mem_cons.mp (added ▸ used) with new | old
    · rw [new]
      exact known
    · exact ensured.callers call (by rwa [calls_ensure])
  · intro call used
    rcases List.mem_cons.mp (added ▸ used) with new | old
    · rw [new]
      change ((store.ensure i.iri).status? i.iri).isSome
      rw [status?_ensure, if_pos rfl]
      cases store.status? i.iri <;> rfl
    · exact ensured.callees call (by rwa [calls_ensure])

theorem foldl_addCall (wf : store.WellFormed) {caller : Iri} (body : List Instance)
    (defined : store.isDefinition caller = true) :
    (body.foldl (·.addCall caller ·) store).WellFormed := by
  induction body generalizing store with
  | nil => exact wf
  | cons i body ih =>
      obtain ⟨ps, status⟩ := isDefinition_iff.mp defined
      exact ih (wf.addCall i defined)
        (isDefinition_iff.mpr ⟨ps, by rw [status?_addCall, status?_ensure, status]; rfl⟩)

theorem define (wf : store.WellFormed) (t : Template) : (store.define t).WellFormed :=
  (wf.setStatus t.iri _ (.inl rfl)).foldl_addCall t.body
    (isDefinition_iff.mpr ⟨t.parameters, by rw [status?_setStatus, if_pos rfl]⟩)

theorem not_caller (wf : store.WellFormed) (iri : Iri)
    (h : ∀ ps, store.status? iri ≠ some (.definition ps)) :
    ∀ call ∈ store.calls.items, call.2.caller ≠ iri := by
  rintro call used rfl
  obtain ⟨ps, status⟩ := isDefinition_iff.mp (wf.callers call used)
  exact h ps status

theorem addBase (wf : store.WellFormed) (iri : Iri) (ps : ParameterList) :
    (store.addBase iri ps).1.WellFormed := by
  rcases store.addBase_cases iri ps with ⟨reason, refused⟩ | ⟨free, added⟩
  · rw [refused]
    exact wf.say _
  · rw [added]
    exact wf.setStatus _ _ (.inr (wf.not_caller iri free))

theorem addSignature (wf : store.WellFormed) (s : Signature) :
    (store.addSignature s).1.WellFormed := by
  rcases store.addSignature_cases s with ⟨-, same⟩ | ⟨-, refused⟩ | ⟨-, fresh, added⟩
  · rw [same]
    exact wf.addBase s.iri s.parameters
  · rw [refused]
    exact wf.say _
  · rw [added]
    refine wf.setStatus _ _ (.inr (wf.not_caller s.iri fun qs => ?_))
    rcases fresh with fresh | fresh <;> simp [fresh]

theorem addTemplate (wf : store.WellFormed) (t : Template) :
    (store.addTemplate t).1.WellFormed := by
  rcases store.addTemplate_cases t with ⟨reason, refused⟩ | ⟨-, added⟩
  · rw [refused]
    exact wf.say _
  · rw [added]
    exact wf.define t

end WellFormed

end Store

end RdfTemplates
