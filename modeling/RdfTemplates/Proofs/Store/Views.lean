import RdfTemplates.Proofs.Numbering
import RdfTemplates.Store.Change

/-!
# What the operations do to statuses and calls

A store is seen through the status of each IRI and the calls of each template.
Every operation is described by what it does to these two; how entries and
calls are numbered is left behind here.
-/

namespace RdfTemplates

namespace Store

theorem entry?_isSome (store : Store) (iri : Iri) :
    (store.entry? iri).isSome ↔ ∃ e ∈ store.entries.latestFirst, e.iri = iri := by
  unfold entry?
  simp

theorem status?_isSome (store : Store) (iri : Iri) :
    (store.status? iri).isSome ↔ ∃ e ∈ store.entries.latestFirst, e.iri = iri := by
  rw [← entry?_isSome, status?, Option.isSome_map]

/-- The entry that is found for an IRI has that IRI. -/
theorem entry?_iri {store : Store} {iri : Iri} {e : Entry} (h : store.entry? iri = some e) :
    e.iri = iri := by
  simpa using List.find?_some h

/-- A definition is known by its parameters. -/
theorem isDefinition_iff {store : Store} {iri : Iri} :
    store.isDefinition iri = true ↔ ∃ ps, store.status? iri = some (.definition ps) := by
  unfold isDefinition
  cases h : store.status? iri with
  | none => simp
  | some status => cases status <;> simp [Status.isDefinition]

theorem isDefinition_eq_false_iff {store : Store} {iri : Iri} :
    store.isDefinition iri = false ↔ ∀ ps, store.status? iri ≠ some (.definition ps) := by
  rw [← Bool.not_eq_true, isDefinition_iff, not_exists]

theorem parameters_of_base {store : Store} {iri : Iri} {ps : ParameterList}
    (base : store.status? iri = some (.base ps)) : store.parameters? iri = some ps := by
  rw [parameters?, base]
  rfl

theorem parameters_of_definition {store : Store} {iri : Iri} {ps : ParameterList}
    (defined : store.status? iri = some (.definition ps)) : store.parameters? iri = some ps := by
  rw [parameters?, defined]
  rfl

/-- Bases and definitions give their parameters, with which instances are resolved. -/
theorem parameters_of_status {store : Store} {iri : Iri} {ps : ParameterList}
    (known : store.status? iri = some (.base ps) ∨ store.status? iri = some (.definition ps)) :
    store.parameters? iri = some ps :=
  known.elim parameters_of_base parameters_of_definition

theorem isSome_of_parameters {store : Store} {iri : Iri} {ps : ParameterList}
    (declared : store.parameters? iri = some ps) : (store.status? iri).isSome := by
  obtain ⟨status, known, -⟩ := Option.bind_eq_some_iff.mp declared
  rw [known]
  rfl

/-- An IRI that has no entry gets an undefined one, and no other entry is touched. -/
theorem entry?_ensure (store : Store) (iri other : Iri) :
    Store.entry? (store.ensure iri) other =
      (store.entry? other).or (if iri = other then some ⟨iri, .undefined⟩ else none) := by
  unfold ensure
  split
  · rename_i known
    by_cases same : iri = other
    · subst same
      obtain ⟨e, he⟩ := Option.isSome_iff_exists.mp known
      simp [he]
    · simp [same]
  · rename_i unknown
    have latest := store.entries.latestFirst_add ⟨iri, .undefined⟩
    by_cases same : iri = other
    · subst same
      have absent : store.entry? iri = none := by simpa using unknown
      rw [absent, entry?, latest]
      simp
    · unfold entry?
      simp [latest, same]

/-- Once an entry is there, it is not made again. -/
theorem ensure_ensure (store : Store) (iri : Iri) :
    (store.ensure iri).ensure iri = store.ensure iri := by
  have known : (Option.isSome <| Store.entry? (store.ensure iri) iri) = true := by
    rw [entry?_ensure, if_pos rfl]
    cases store.entry? iri <;> rfl
  exact if_pos known

theorem status?_ensure (store : Store) (iri other : Iri) :
    (store.ensure iri).status? other =
      (store.status? other).or (if iri = other then some .undefined else none) := by
  simp only [status?, entry?_ensure]
  cases store.entry? other with
  | some e => rfl
  | none => by_cases same : iri = other <;> simp [same]

theorem latestFirst_setStatus (store : Store) (iri : Iri) (status : Status) :
    (store.setStatus iri status).entries.latestFirst =
      (store.ensure iri).entries.latestFirst.map fun e =>
        if e.iri == iri then { e with status } else e := by
  simp [setStatus, Numbered.latestFirst, Numbered.map]

/-- A status is set in one place, whether the IRI had an entry or not. -/
theorem status?_setStatus (store : Store) (iri other : Iri) (status : Status) :
    (store.setStatus iri status).status? other =
      if iri = other then some status else store.status? other := by
  have kept : (fun e : Entry => (if e.iri == iri then { e with status } else e).iri == other) =
      fun e => e.iri == other := by
    funext e
    by_cases h : e.iri == iri <;> simp [h]
  have found : Store.entry? (store.setStatus iri status) other =
      (Option.map (fun e : Entry => if e.iri == iri then { e with status } else e) <|
        Store.entry? (store.ensure iri) other) := by
    unfold entry?
    rw [latestFirst_setStatus, List.find?_map, Function.comp_def, kept]
  unfold status?
  rw [found, entry?_ensure]
  by_cases same : iri = other
  · subst same
    cases h : store.entry? iri with
    | none => simp
    | some e => simp [entry?_iri h]
  · cases h : store.entry? other with
    | none => simp [same]
    | some e =>
        have apart : ¬ e.iri = iri := fun eq => same (eq ▸ entry?_iri h)
        simp [same, apart]

@[simp] theorem status?_say (store : Store) (m : Message) (iri : Iri) :
    (store.say m).status? iri = store.status? iri := rfl

/-- To the statuses a call only adds that its callee is known. -/
theorem status?_addCall (store : Store) (caller : Iri) (i : Instance) (iri : Iri) :
    (store.addCall caller i).status? iri = (store.ensure i.iri).status? iri := rfl

theorem mem_callsFrom {store : Store} {caller : Iri} {call : Nat × Call} :
    call ∈ store.callsFrom caller ↔ call ∈ store.calls.items ∧ call.2.caller = caller := by
  simp [callsFrom]

theorem mem_callsTo {store : Store} {callee : Iri} {call : Nat × Call} :
    call ∈ store.callsTo callee ↔ call ∈ store.calls.items ∧ call.2.callee = callee := by
  simp [callsTo]

/-- A body has the instances of its calls, in whatever order. -/
theorem mem_bodyOf {store : Store} {caller : Iri} {i : Instance} :
    i ∈ store.bodyOf caller ↔ ∃ n, (n, ⟨caller, i⟩) ∈ store.calls.items := by
  simp only [bodyOf, List.mem_map, mem_stableSort, mem_callsFrom]
  constructor
  · rintro ⟨⟨n, c⟩, ⟨used, rfl⟩, rfl⟩
    exact ⟨n, used⟩
  · rintro ⟨n, used⟩
    exact ⟨(n, ⟨caller, i⟩), ⟨used, rfl⟩, rfl⟩

/-- A body depends on nothing but the calls from its template. -/
theorem bodyOf_congr {store other : Store} {caller : Iri}
    (h : store.callsFrom caller = other.callsFrom caller) :
    store.bodyOf caller = other.bodyOf caller := by
  rw [bodyOf, bodyOf, h]

@[simp] theorem calls_ensure (store : Store) (iri : Iri) :
    (store.ensure iri).calls = store.calls := by
  unfold ensure
  split <;> rfl

@[simp] theorem calls_setStatus (store : Store) (iri : Iri) (status : Status) :
    (store.setStatus iri status).calls = store.calls := calls_ensure store iri

/-- A call is added in front, under some number. -/
theorem items_addCall (store : Store) (caller : Iri) (i : Instance) :
    ∃ n, (store.addCall caller i).calls.items = (n, ⟨caller, i⟩) :: store.calls.items := by
  obtain ⟨n, added⟩ := store.calls.items_add ⟨caller, i⟩
  exact ⟨n, by simpa [addCall] using added⟩

/-- A call puts one more instance into the body of its caller. -/
theorem mem_bodyOf_addCall {store : Store} {caller other : Iri} {i j : Instance} :
    j ∈ (store.addCall caller i).bodyOf other ↔
      (other = caller ∧ j = i) ∨ j ∈ store.bodyOf other := by
  obtain ⟨n, added⟩ := store.items_addCall caller i
  simp only [mem_bodyOf, added, List.mem_cons, Prod.mk.injEq, Call.mk.injEq, exists_or]
  simp

/-- The other bodies stay as they are, with their order. -/
theorem bodyOf_addCall_of_ne {store : Store} {caller other : Iri} (h : other ≠ caller)
    (i : Instance) : (store.addCall caller i).bodyOf other = store.bodyOf other := by
  obtain ⟨n, added⟩ := store.items_addCall caller i
  apply bodyOf_congr
  simp [callsFrom, added, h.symm]

/-- The calls of a body make all of its callees known. -/
theorem status?_foldl_addCall (caller : Iri) (body : List Instance) (store : Store) (iri : Iri) :
    (body.foldl (·.addCall caller ·) store).status? iri =
      (store.status? iri).or (if iri ∈ body.map (·.iri) then some .undefined else none) := by
  induction body generalizing store with
  | nil => simp
  | cons i body ih =>
      rw [List.foldl_cons, ih, status?_addCall, status?_ensure, Option.or_assoc]
      congr 1
      by_cases here : i.iri = iri
      · simp [here]
      · simp [here, Ne.symm here]

/-- A body that is added call by call is added as a whole. -/
theorem mem_bodyOf_foldl_addCall {caller other : Iri} {body : List Instance} {store : Store}
    {j : Instance} : j ∈ (body.foldl (·.addCall caller ·) store).bodyOf other ↔
      (other = caller ∧ j ∈ body) ∨ j ∈ store.bodyOf other := by
  induction body generalizing store with
  | nil => simp
  | cons i body ih =>
      rw [List.foldl_cons, ih, mem_bodyOf_addCall, List.mem_cons]
      constructor
      · rintro (⟨same, old⟩ | ⟨same, new⟩ | old)
        · exact .inl ⟨same, .inr old⟩
        · exact .inl ⟨same, .inl new⟩
        · exact .inr old
      · rintro (⟨same, new | old⟩ | old)
        · exact .inr (.inl ⟨same, new⟩)
        · exact .inl ⟨same, old⟩
        · exact .inr (.inr old)

theorem bodyOf_foldl_addCall_of_ne {caller other : Iri} (h : other ≠ caller)
    (body : List Instance) (store : Store) :
    (body.foldl (·.addCall caller ·) store).bodyOf other = store.bodyOf other := by
  induction body generalizing store with
  | nil => rfl
  | cons i body ih => rw [List.foldl_cons, ih, bodyOf_addCall_of_ne h]

theorem bodyOf_setStatus (store : Store) (iri : Iri) (status : Status) (other : Iri) :
    (store.setStatus iri status).bodyOf other = store.bodyOf other :=
  bodyOf_congr (by simp [callsFrom])

/-- A definition sets its own status, and what it calls is known from then on. -/
theorem status?_define (store : Store) (t : Template) (iri : Iri) :
    (store.define t).status? iri =
      if t.iri = iri then some (.definition t.parameters)
      else (store.status? iri).or
        (if iri ∈ t.body.map (·.iri) then some .undefined else none) := by
  unfold define
  rw [status?_foldl_addCall, status?_setStatus]
  by_cases same : t.iri = iri <;> simp [same]

/-- The body of a definition joins what was in its place. -/
theorem mem_bodyOf_define {store : Store} {t : Template} {iri : Iri} {j : Instance} :
    j ∈ (store.define t).bodyOf iri ↔ (iri = t.iri ∧ j ∈ t.body) ∨ j ∈ store.bodyOf iri := by
  unfold define
  rw [mem_bodyOf_foldl_addCall, bodyOf_setStatus]

theorem bodyOf_define_of_ne {t : Template} {iri : Iri} (h : iri ≠ t.iri) (store : Store) :
    (store.define t).bodyOf iri = store.bodyOf iri := by
  unfold define
  rw [bodyOf_foldl_addCall_of_ne h, bodyOf_setStatus]

/-- What a store has beside its templates. -/
def aside (store : Store) : List Iri × Option (List Declaration) × Messages × StoreConfig :=
  (store.failed, store.library, store.messages, store.config)

@[simp] theorem aside_ensure (store : Store) (iri : Iri) :
    (store.ensure iri).aside = store.aside := by
  unfold ensure
  split <;> rfl

@[simp] theorem aside_setStatus (store : Store) (iri : Iri) (status : Status) :
    (store.setStatus iri status).aside = store.aside := aside_ensure store iri

@[simp] theorem aside_addCall (store : Store) (caller : Iri) (i : Instance) :
    (store.addCall caller i).aside = store.aside := aside_ensure store i.iri

/-- What each step leaves alone is left alone by all of them. -/
theorem aside_foldl {op : Store → Instance → Store}
    (keeps : ∀ store i, (op store i).aside = store.aside) (body : List Instance)
    (store : Store) : (body.foldl op store).aside = store.aside := by
  induction body generalizing store with
  | nil => rfl
  | cons i body ih => rw [List.foldl_cons, ih, keeps]

theorem aside_define (store : Store) (t : Template) : (store.define t).aside = store.aside := by
  rw [define, aside_foldl fun s i => aside_addCall s t.iri i, aside_setStatus]

/-- A base is refused, or it takes the place of what is no definition. -/
theorem addBase_cases (store : Store) (iri : Iri) (ps : ParameterList) :
    (∃ reason, store.addBase iri ps = store.refuse iri reason) ∨
      (∀ qs, store.status? iri ≠ some (.definition qs)) ∧
        store.addBase iri ps = (store.setStatus iri (.base ps), true) := by
  unfold addBase
  split
  case h_1 => exact .inl ⟨_, rfl⟩
  case h_2 known =>
      split
      · exact .inr ⟨by simp [known], rfl⟩
      · exact .inl ⟨_, rfl⟩
  case h_3 known =>
      split
      · exact .inr ⟨by simp [known], rfl⟩
      · exact .inl ⟨_, rfl⟩
  case h_4 known => exact .inr ⟨by simp [known], rfl⟩
  case h_5 known => exact .inr ⟨by simp [known], rfl⟩

/-- A signature is a base, exists already, or is noted where nothing was declared. -/
theorem addSignature_cases (store : Store) (s : Signature) :
    (s.isBase = true ∧ store.addSignature s = store.addBase s.iri s.parameters) ∨
      (s.isBase = false ∧ store.addSignature s =
        (store.say (.info ("Signature " ++ s.iri ++ " already exists")), false)) ∨
      s.isBase = false ∧ (store.status? s.iri = none ∨ store.status? s.iri = some .undefined) ∧
        store.addSignature s = (store.setStatus s.iri (.signature s.parameters), true) := by
  unfold addSignature
  cases base : s.isBase with
  | true => exact .inl ⟨rfl, rfl⟩
  | false =>
      cases known : store.status? s.iri with
      | none => exact .inr (.inr ⟨rfl, .inl rfl, rfl⟩)
      | some status =>
          cases status with
          | undefined => exact .inr (.inr ⟨rfl, .inr rfl, rfl⟩)
          | signature | base | definition => exact .inr (.inl ⟨rfl, rfl⟩)

/-- A template is refused, or it is defined where no definition is. -/
theorem addTemplate_cases (store : Store) (t : Template) :
    (∃ reason, store.addTemplate t = store.refuse t.iri reason) ∨
      (∀ qs, store.status? t.iri ≠ some (.definition qs)) ∧
        store.addTemplate t = (store.define t, true) := by
  unfold addTemplate
  split
  case h_1 => exact .inl ⟨_, rfl⟩
  case h_2 => exact .inl ⟨_, rfl⟩
  case h_3 known =>
      split
      · exact .inr ⟨by simp [known], rfl⟩
      · exact .inl ⟨_, rfl⟩
  case h_4 known => exact .inr ⟨by simp [known], rfl⟩
  case h_5 known => exact .inr ⟨by simp [known], rfl⟩

end Store

end RdfTemplates
