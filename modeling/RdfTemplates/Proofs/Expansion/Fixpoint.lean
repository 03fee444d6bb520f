import RdfTemplates.Proofs.Expansion.Copying

/-!
# Expanded bodies are expanded as far as possible

A body is expanded until every instance in it stays where it is. Whether an
instance stays is told by the instance, the parameters of the enclosing template
and what is declared for its callee. Callees come before their callers, so the
declaration is there already and does not change any more. An instance that stays
once stays again, and expanding the new store leaves it as it is.
-/

namespace RdfTemplates

namespace BodyExpansion

variable {e : BodyExpansion} {i : Instance} {p : Progress} {ps : ParameterList}

/-- The steps over the instance keep it. -/
inductive Stays (e : BodyExpansion) (i : Instance) : Prop where
  | rejected (h : e.accept i = false)
  | unknown (h : e.target.parameters? i.iri = none)
  | lists {expander : ListExpander} (marked : i.arguments.expander = some expander)
      (h : i.arguments.canExpand = false)
  | arity {ps : ParameterList} (plain : i.arguments.expander = none)
      (parameters : e.target.parameters? i.iri = some ps) (h : i.arguments.size ≠ ps.length)
  | guarded {ps : ParameterList} (plain : i.arguments.expander = none)
      (parameters : e.target.parameters? i.iri = some ps) (arity : i.arguments.size = ps.length)
      (kept : i.isDiscarded ps = false)
      (h : e.target.isDefinition i.iri = false ∨ e.keepsOptional i ps = false)

theorem stays_of_keep {p' : Progress} (stepped : e.step i p = (.keep, p')) : e.Stays i := by
  cases comesTo_of_step stepped with
  | rejected h => exact .rejected h
  | unknown h => exact .unknown h
  | unexpanded marked h => exact .lists marked h
  | arity plain parameters h => exact .arity plain parameters h
  | guarded plain parameters arity kept h => exact .guarded plain parameters arity kept h

theorem Stays.keep (stays : e.Stays i) (p : Progress) : (e.step i p).1 = .keep := by
  unfold step
  split
  · rfl
  · rename_i accepted
    cases stays with
    | rejected h => simp [h] at accepted
    | unknown h =>
        split
        · rfl
        · rename_i status ps found
          cases h.symm.trans (parameters_iff.mpr ⟨status, found⟩)
    | lists marked h =>
        split
        · rfl
        · simp [marked, stepLists, h]
    | arity plain parameters h =>
        obtain ⟨status, found⟩ := parameters_iff.mp parameters
        simp [found, plain, h]
    | guarded plain parameters arity kept h =>
        obtain ⟨status, found⟩ := parameters_iff.mp parameters
        rw [isDefinition_of_status (known_iff.mp found).1] at h
        rcases h with h | h
        · simp [found, plain, arity, kept, h]
        · simp [found, plain, arity, kept, h]

/-- Of the stores only what they declare for the callee matters. -/
theorem Stays.congr {e' : BodyExpansion} (stays : e.Stays i) (accept : e'.accept = e.accept)
    (parameters : e'.parameters = e.parameters)
    (same : ∀ status : Status, status.isUndefined = false →
      (e'.target.status? i.iri = some status ↔ e.target.status? i.iri = some status)) :
    e'.Stays i := by
  have declared : e'.target.parameters? i.iri = e.target.parameters? i.iri := by
    apply Option.ext
    intro ps
    rw [Store.parameters?, Store.parameters?, Option.bind_eq_some_iff, Option.bind_eq_some_iff]
    refine exists_congr fun status => and_congr_left fun has => same status ?_
    cases status with
    | undefined => cases has
    | signature | base | definition => rfl
  have definition : e'.target.isDefinition i.iri = e.target.isDefinition i.iri := by
    rw [Bool.eq_iff_iff, Store.isDefinition_iff, Store.isDefinition_iff]
    exact exists_congr fun ps => same (.definition ps) rfl
  have optional (ps) : e'.keepsOptional i ps = e.keepsOptional i ps := by
    rw [keepsOptional, parameters]
    rfl
  cases stays with
  | rejected h => exact .rejected (accept ▸ h)
  | unknown h => exact .unknown (declared.trans h)
  | lists marked h => exact .lists marked h
  | arity plain known h => exact .arity plain (declared.trans known) h
  | guarded plain known arity kept h =>
      refine .guarded plain (declared.trans known) arity kept ?_
      rwa [definition, optional]

/-- Why an instance in the body of a template with the given parameters cannot be expanded. -/
inductive Blocked (store : Store) (ps : ParameterList) (i : Instance) : Prop where
  | undefined (h : store.status? i.iri = some .undefined)
  | signature {qs : ParameterList} (h : store.status? i.iri = some (.signature qs))
  | base {qs : ParameterList} (h : store.status? i.iri = some (.base qs))
  | lists {expander : ListExpander} {a : Argument} (marked : i.arguments.expander = some expander)
      (ha : a ∈ i.arguments.arguments) (h : a.marked = true) (list : a.term.isList = false)
      (none : a.term.isNone = false)
  | arity {qs : ParameterList} (parameters : store.parameters? i.iri = some qs)
      (h : i.arguments.size ≠ qs.length)
  | optional {qs : ParameterList} {v : Variable} {p q : Parameter}
      (parameters : store.parameters? i.iri = some qs)
      (passed : (.var v, q) ∈ i.arguments.terms.zip qs) (labelled : ps.labelled? v.label = some p)
      (optional : p.isOptional = true) (mandatory : q.isOptional = false)

theorem exists_passed_of_guarded {qs : ParameterList} (guarded : e.keepsOptional i qs = false) :
    ∃ v p q, (.var v, q) ∈ i.arguments.terms.zip qs ∧ e.parameters.labelled? v.label = some p ∧
      p.isOptional = true ∧ q.isOptional = false := by
  obtain ⟨⟨t, q⟩, passed, h⟩ := List.all_eq_false.mp guarded
  simp only [Bool.or_eq_true, not_or, Bool.not_eq_true, Bool.not_eq_false'] at h
  obtain ⟨p, found, optional⟩ := (Option.any_eq_true _ _).mp h.1
  obtain ⟨v, given, labelled⟩ := Option.bind_eq_some_iff.mp found
  cases t with
  | var x =>
      obtain rfl : x = v := Option.some.inj given
      exact ⟨x, p, q, passed, labelled, optional, h.2⟩
  | _ => cases given

theorem Stays.blocked (stays : e.Stays i) (accepted : e.accept i = true)
    (listed : (e.target.status? i.iri).isSome) : Blocked e.target e.parameters i := by
  obtain ⟨status, known⟩ := Option.isSome_iff_exists.mp listed
  cases stays with
  | rejected h =>
      rw [accepted] at h
      cases h
  | unknown h =>
      rw [Store.parameters?, known] at h
      cases status with
      | undefined => exact .undefined known
      | signature | base | definition => cases h
  | lists marked h =>
      obtain ⟨a, ha, unknown⟩ := List.all_eq_false.mp h
      simp only [Bool.or_eq_true, not_or, Bool.not_eq_true, Bool.not_eq_false'] at unknown
      exact .lists marked ha unknown.1.1 unknown.1.2 unknown.2
  | arity plain parameters h => exact .arity parameters h
  | guarded plain parameters arity kept h =>
      rcases h with undefined | guarded
      · rw [isDefinition_of_status known] at undefined
        cases status with
        | undefined => exact .undefined known
        | signature => exact .signature known
        | base => exact .base known
        | definition => cases undefined
      · obtain ⟨v, p, q, passed, labelled, optional, mandatory⟩ := exists_passed_of_guarded guarded
        exact .optional parameters passed labelled optional mandatory

/-- The predicate gives the same answer for instances that are compared as the same. The
variables of a body are typed anew when it is put into a store, so a predicate on their types
could take back its answer. -/
def Extensional (accept : Instance → Bool) : Prop :=
  ∀ i j : Instance, (i == j) = true → accept i = accept j

theorem isList_retype (ps : ParameterList) (t : Term) : (t.retype ps).isList = t.isList := by
  cases t with
  | var x =>
      obtain ⟨y, retyped, -⟩ := Term.exists_retype_var ps x
      rw [retyped]
      rfl
  | _ => rfl

theorem isNone_retype (ps : ParameterList) (t : Term) : (t.retype ps).isNone = t.isNone := by
  cases t with
  | var x =>
      obtain ⟨y, retyped, -⟩ := Term.exists_retype_var ps x
      rw [retyped]
      rfl
  | _ => rfl

theorem label_retype (ps : ParameterList) (t : Term) :
    (t.retype ps).asVar?.map (·.label) = t.asVar?.map (·.label) := by
  cases t with
  | var x =>
      obtain ⟨y, retyped, same⟩ := Term.exists_retype_var ps x
      rw [retyped]
      exact congrArg some same
  | _ => rfl

theorem canExpand_retype (ps : ParameterList) (args : ArgumentList) :
    (args.mapTerms (Term.retype ps)).canExpand = args.canExpand := by
  simp [ArgumentList.canExpand, ArgumentList.mapTerms, List.all_map, Function.comp_def,
    isList_retype, isNone_retype]

theorem isDiscarded_retype (ps qs : ParameterList) (i : Instance) :
    (i.mapTerms (Term.retype ps)).isDiscarded qs = i.isDiscarded qs := by
  simp [Instance.isDiscarded, Instance.mapTerms, ArgumentList.terms_mapTerms, List.zip_map_left,
    List.any_map, Function.comp_def, isNone_retype]

theorem keepsOptional_retype (e : BodyExpansion) (ps qs : ParameterList) (i : Instance) :
    e.keepsOptional (i.mapTerms (Term.retype ps)) qs = e.keepsOptional i qs := by
  have source (t : Term) : ((t.retype ps).asVar?.bind fun v => e.parameters.labelled? v.label) =
      t.asVar?.bind fun v => e.parameters.labelled? v.label := by
    have same := congrArg (·.bind e.parameters.labelled?) (label_retype ps t)
    simpa [Option.bind_map, Function.comp_def] using same
  simp [keepsOptional, Instance.mapTerms, ArgumentList.terms_mapTerms, List.zip_map_left,
    List.all_map, Function.comp_def, source]

theorem Stays.retype (stays : e.Stays i) (extensional : Extensional e.accept)
    (ps : ParameterList) : e.Stays (i.mapTerms (Term.retype ps)) := by
  have size : (i.mapTerms (Term.retype ps)).arguments.size = i.arguments.size := by
    simp [Instance.mapTerms, ArgumentList.mapTerms, ArgumentList.size]
  cases stays with
  | rejected h =>
      exact .rejected ((extensional _ i (Template.retype_same ps i)).trans h)
  | unknown h => exact .unknown h
  | lists marked h => exact .lists marked ((canExpand_retype ps i.arguments).trans h)
  | arity plain parameters h => exact .arity plain parameters (size ▸ h)
  | guarded plain parameters arity kept h =>
      refine .guarded plain parameters (size.trans arity)
        ((isDiscarded_retype ps _ i).trans kept) ?_
      rwa [keepsOptional_retype]

/-- Without reaching the limit a run goes on until every instance stays. -/
theorem stays_runOnto (budget : Nat) (pending : List Instance) (p : Progress)
    (found : List Instance) (settled : ∀ i ∈ found, e.Stays i)
    (unlimited : limitMessage e.caller e.maxSteps ∉ (e.runOnto budget pending p found).2.messages) :
    ∀ i ∈ (e.runOnto budget pending p found).1, e.Stays i := by
  induction budget generalizing pending p found with
  | zero =>
      cases pending with
      | nil => exact settled
      | cons i rest => exact absurd (List.mem_append_right _ List.mem_cons_self) unlimited
  | succ budget ih =>
      cases pending with
      | nil => exact settled
      | cons i rest =>
          rw [runOnto] at unlimited ⊢
          cases stepped : e.step i p with
          | mk step p' =>
              rw [stepped] at unlimited
              cases step with
              | keep =>
                  refine ih rest p' (i :: found) (fun j h => ?_) unlimited
                  rcases List.mem_cons.mp h with rfl | h
                  · exact stays_of_keep stepped
                  · exact settled j h
              | replace body => exact ih (body ++ rest) p' found settled unlimited

theorem stays_run (body : List Instance) (p : Progress)
    (unlimited : limitMessage e.caller e.maxSteps ∉ (e.run body p).2.messages) :
    ∀ i ∈ (e.run body p).1, e.Stays i := by
  intro i h
  have reversed : i ∈ (e.runOnto e.maxSteps body p []).1 := List.mem_reverse.mp h
  exact stays_runOnto e.maxSteps body p [] nofun unlimited i reversed

/-- Where every instance stays, a run changes nothing, however many steps it may take. -/
theorem runOnto_of_stays (budget : Nat) (pending : List Instance) (p : Progress)
    (found : List Instance) (stay : ∀ i ∈ pending, e.Stays i) :
    (e.runOnto budget pending p found).1 = pending.reverse ++ found := by
  induction budget generalizing pending p found with
  | zero =>
      cases pending with
      | nil => rfl
      | cons i rest => rfl
  | succ budget ih =>
      cases pending with
      | nil => rfl
      | cons i rest =>
          have first := (stay i List.mem_cons_self).keep p
          rw [runOnto]
          cases stepped : e.step i p with
          | mk step p' =>
              rw [stepped] at first
              obtain rfl := first
              rw [ih rest p' (i :: found) fun j h => stay j (List.mem_cons_of_mem i h)]
              simp

theorem run_of_stays (body : List Instance) (p : Progress) (stay : ∀ i ∈ body, e.Stays i) :
    (e.run body p).1 = body := by
  change (e.runOnto e.maxSteps body p []).1.reverse = body
  rw [runOnto_of_stays e.maxSteps body p [] stay]
  simp

end BodyExpansion

namespace Store

open BodyExpansion

section Fold

variable {source target : Store} {config : ExpansionConfig} {accept : Instance → Bool}
variable {p : Progress} {iri : Iri} {status : Status} {done : List Iri}

/-- What has been taken over leads to nothing else, and every instance in it stays. -/
structure Finishes (source target : Store) (accept : Instance → Bool) (maxSteps : Nat)
    (done : List Iri) : Prop where
  copies : source.Copies target done
  callees : ∀ iri, ∀ j ∈ target.bodyOf iri, j.iri ∈ done
  stay : ∀ iri ps, target.status? iri = some (.definition ps) → ∀ j ∈ target.bodyOf iri,
    (⟨iri, ps, target, accept, maxSteps⟩ : BodyExpansion).Stays j

namespace Finishes

theorem empty (source : Store) (accept : Instance → Bool) (maxSteps : Nat)
    (config : StoreConfig) : source.Finishes (empty config) accept maxSteps [] where
  copies := .empty source config
  callees iri j h := by cases h
  stay iri ps defined := by cases defined

theorem expandedBody_stays (finishes : source.Finishes target accept config.maxSteps done)
    {ps : ParameterList} (callees : ∀ j ∈ source.bodyOf iri, j.iri ∈ done)
    (extensional : Extensional accept)
    (unlimited : limitMessage iri config.maxSteps ∉
      (source.expandedBody config accept target iri (.definition ps) p).2.messages)
    {j : Instance} (h : j ∈ (Template.make iri ps
      (source.expandedBody config accept target iri (.definition ps) p).1).body) :
    j.iri ∈ done ∧ (⟨iri, ps, target, accept, config.maxSteps⟩ : BodyExpansion).Stays j := by
  let e : BodyExpansion := ⟨iri, ps, target, accept, config.maxSteps⟩
  obtain ⟨k, hk, rfl⟩ := List.mem_map.mp (mem_of_mem_firsts h)
  have known := (expands_run e (source.bodyOf iri) p).iris
    (fun other _ => finishes.callees other) callees k hk
  have stays : e.Stays k := stays_run (source.bodyOf iri) p unlimited k hk
  exact ⟨known, stays.retype extensional ps⟩

/-- The new body was expanded against the old store, in which its callees are already. So their
declarations do not change any more. -/
theorem expandEntry (finishes : source.Finishes target accept config.maxSteps done)
    (new : iri ∉ done) (known : source.status? iri = some status)
    (callees : ∀ j ∈ source.bodyOf iri, j.iri ∈ done) (extensional : Extensional accept)
    (unlimited : limitMessage iri config.maxSteps ∉
      (source.expandEntry config accept (target, p) iri).2.messages) :
    source.Finishes (source.expandEntry config accept (target, p) iri).1 accept config.maxSteps
      (done ++ [iri]) := by
  rw [expandEntry_eq known (finishes.copies.fresh iri new)] at unlimited ⊢
  have copies := finishes.copies.takeOver new known
    (source.expandedBody config accept target iri status p).1
  have kept (other) (apart : other ≠ iri) := target.kept_takeOver apart status
    (source.expandedBody config accept target iri status p).1
  have added : ∀ ps, (target.takeOver iri status
      (source.expandedBody config accept target iri status p).1).status? iri =
        some (.definition ps) →
      ∀ j ∈ (target.takeOver iri status
        (source.expandedBody config accept target iri status p).1).bodyOf iri,
      j.iri ∈ done ∧ (⟨iri, ps, target, accept, config.maxSteps⟩ : BodyExpansion).Stays j := by
    intro ps defined j hj
    have declared := (copies.declared iri (List.mem_append_right _ List.mem_cons_self)
      (.definition ps) rfl).mp defined
    obtain rfl := Option.some.inj (known.symm.trans declared)
    rw [finishes.copies.bodyOf_takeOver new ps] at hj
    exact finishes.expandedBody_stays callees extensional unlimited hj
  refine ⟨copies, fun other j hj => ?_, fun other ps defined j hj => ?_⟩
  · refine List.mem_append_left _ ?_
    by_cases here : other = iri
    · subst here
      obtain ⟨ps, defined⟩ := copies.wellFormed.definition_of_mem_bodyOf hj
      exact (added ps defined j hj).1
    · rw [(kept other here).bodies] at hj
      exact finishes.callees other j hj
  · have stays : j.iri ∈ done ∧
        (⟨other, ps, target, accept, config.maxSteps⟩ : BodyExpansion).Stays j := by
      by_cases here : other = iri
      · subst here
        exact added ps defined j hj
      · rw [(kept other here).bodies] at hj
        exact ⟨finishes.callees other j hj,
          finishes.stay other ps (((kept other here).declared_iff rfl).mp defined) j hj⟩
    have apart : j.iri ≠ iri := fun same => new (same ▸ stays.1)
    exact stays.2.congr rfl rfl fun _ declared => (kept j.iri apart).declared_iff declared

theorem foldl_expandEntry (extensional : Extensional accept) {iris : List Iri}
    {state : Store × Progress} (finishes : source.Finishes state.1 accept config.maxSteps done)
    (distinct : (done ++ iris).Nodup) (known : ∀ iri ∈ iris, (source.status? iri).isSome)
    (ordered : ∀ before iri after, iris = before ++ iri :: after →
      ∀ j ∈ source.bodyOf iri, j.iri ∈ done ++ before)
    (unlimited : ∀ caller, limitMessage caller config.maxSteps ∉
      (iris.foldl (source.expandEntry config accept) state).2.messages) :
    source.Finishes (iris.foldl (source.expandEntry config accept) state).1 accept
      config.maxSteps (done ++ iris) := by
  induction iris generalizing done state with
  | nil => simpa using finishes
  | cons iri iris ih =>
      obtain ⟨target, p⟩ := state
      have split : done ++ iri :: iris = (done ++ [iri]) ++ iris := by simp
      have new : iri ∉ done := fun h =>
        (List.nodup_append.mp distinct).2.2 iri h iri List.mem_cons_self rfl
      have callees (j) (hj : j ∈ source.bodyOf iri) : j.iri ∈ done := by
        simpa using ordered [] iri iris rfl j hj
      obtain ⟨status, here⟩ := Option.isSome_iff_exists.mp (known iri List.mem_cons_self)
      have later := source.adds_foldl_expandEntry config accept iris
        (source.expandEntry config accept (target, p) iri)
      have next := finishes.expandEntry new here callees extensional
        fun limited => unlimited iri (later.mem limited)
      rw [split] at distinct ⊢
      refine ih next distinct (fun other h => known other (List.mem_cons_of_mem iri h)) ?_ unlimited
      rintro before other after rfl j hj
      simpa using ordered (iri :: before) other after rfl j hj

end Finishes

end Fold

section Whole

variable {source : Store} {accept : Instance → Bool} {iri : Iri}

theorem finishes_expandSorted (wf : source.WellFormed) (extensional : Extensional accept)
    {config : ExpansionConfig} {supply : BlankSupply}
    (unlimited : ∀ caller, limitMessage caller config.maxSteps ∉
      (source.expandBodies config accept supply).1.messages) :
    source.Finishes (source.expandSorted config accept supply).1 accept config.maxSteps
      source.topologicalOrder.sorted := by
  rw [messages_expandBodies config accept supply wf] at unlimited
  have start : source.Finishes (Store.empty source.config, (⟨[], supply⟩ : Progress)).1 accept
      config.maxSteps [] := .empty source accept config.maxSteps source.config
  refine start.foldl_expandEntry extensional wf.sorted_nodup (fun _ => wf.mem_sorted)
    (fun before iri after split j hj => wf.mem_before split hj) fun caller limited => ?_
  exact unlimited caller (List.mem_append_left _ limited)

variable (config : ExpansionConfig) (accept : Instance → Bool) (supply : BlankSupply)

/-- What is sorted is not touched while the rest is copied. -/
theorem kept_expandThenCopy (sorted : iri ∈ source.topologicalOrder.sorted) :
    (source.expandSorted config accept supply).1.Kept
      (source.expandThenCopy config accept supply).1 iri := by
  refine kept_foldl (fun state _ => source.kept_copyEntry _ state) _ _ fun unsorted => ?_
  exact (mem_unsorted.mp unsorted).2 sorted

theorem wellFormed_expandBodies (wf : source.WellFormed) :
    (source.expandBodies config accept supply).1.store.WellFormed :=
  (copies_expandThenCopy config accept supply wf).wellFormed.congr rfl rfl

theorem bodyOf_expandBodies_of_sorted (wf : source.WellFormed) {before after : List Iri}
    (split : source.topologicalOrder.sorted = before ++ iri :: after) {ps : ParameterList}
    (defined : source.status? iri = some (.definition ps)) :
    ∃ (target : Store) (p : Progress), source.Copies target before ∧
      (source.expandBodies config accept supply).1.store.bodyOf iri =
        (Template.make iri ps (BodyExpansion.run ⟨iri, ps, target, accept, config.maxSteps⟩
          (source.bodyOf iri) p).1).body := by
  have start : source.Copies (Store.empty source.config, (⟨[], supply⟩ : Progress)).1 [] :=
    .empty source source.config
  obtain ⟨target, p, copies, body⟩ := start.bodyOf_foldl_expandEntry (split ▸ wf.sorted_nodup)
    (fun _ h => wf.mem_sorted (split ▸ h)) defined
  refine ⟨target, p, copies, ?_⟩
  have sorted : iri ∈ source.topologicalOrder.sorted :=
    split ▸ List.mem_append_right _ List.mem_cons_self
  refine ((kept_expandThenCopy config accept supply sorted).bodies).trans ?_
  rw [expandSorted, split]
  exact body

/-- The bodies of the new store are typed and have no instance twice. -/
theorem make_bodyOf_expandBodies (wf : source.WellFormed) {ps : ParameterList}
    (defined : source.status? iri = some (.definition ps)) :
    (Template.make iri ps ((source.expandBodies config accept supply).1.store.bodyOf iri)).body =
      (source.expandBodies config accept supply).1.store.bodyOf iri := by
  by_cases sorted : iri ∈ source.topologicalOrder.sorted
  · obtain ⟨before, after, split⟩ := List.append_of_mem sorted
    obtain ⟨target, p, -, body⟩ :=
      bodyOf_expandBodies_of_sorted config accept supply wf split defined
    rw [body, Template.make_body_make]
  · have unsorted : iri ∈ source.topologicalOrder.unsorted :=
      mem_unsorted.mpr ⟨by rw [defined]; rfl, sorted⟩
    rw [bodyOf_expandBodies_of_unsorted config accept supply wf unsorted defined,
      Template.make_body_make]

/-- A cycle of the source is one of the new store, with all that leads into it. -/
theorem MeetsCycle.expandBodies (wf : source.WellFormed) (meets : source.MeetsCycle iri) :
    (source.expandBodies config accept supply).1.store.MeetsCycle iri := by
  have step {caller callee : Iri} (meets : source.MeetsCycle callee)
      (instantiates : source.Instantiates caller callee) :
      (source.expandBodies config accept supply).1.store.Instantiates caller callee := by
    have above := meets.head instantiates
    obtain ⟨ps, body, listed, i, hi, rfl⟩ := instantiates
    obtain ⟨defined, -, rfl⟩ := catalog_eq_some_iff.mp listed
    have made : ∃ j ∈ (Template.make caller ps (source.bodyOf caller)).body, (j == i) = true :=
      Template.exists_mem_make hi
    obtain ⟨j, hj, same⟩ := made
    rw [← bodyOf_expandBodies_of_unsorted config accept supply wf (wf.mem_unsorted_iff.mpr above)
      defined] at hj
    have declared := (declared_expandBodies config accept supply wf rfl).mpr defined
    refine ⟨ps, _, catalog_of_status declared rfl, j, hj, ?_⟩
    rw [Instance.beq_def, Bool.and_eq_true] at same
    exact eq_of_beq same.1
  have path {caller callee : Iri} (meets : source.MeetsCycle callee)
      (path : Relation.ReflTransGen source.Instantiates caller callee) :
      Relation.ReflTransGen (source.expandBodies config accept supply).1.store.Instantiates
        caller callee := by
    induction path using Relation.ReflTransGen.head_induction_on with
    | refl => exact .refl
    | head first rest ih =>
        obtain ⟨last, onwards, cyclic⟩ := meets
        exact .head (step ⟨last, rest.trans onwards, cyclic⟩ first) ih
  obtain ⟨last, before, cyclic⟩ := meets
  obtain ⟨next, first, rest⟩ := Relation.TransGen.head'_iff.mp cyclic
  exact ⟨last, path cyclic.meetsCycle before, Relation.TransGen.head'_iff.mpr
    ⟨next, step ⟨last, rest, cyclic⟩ first, path cyclic.meetsCycle rest⟩⟩

variable {config accept supply}

theorem stays_expandBodies (wf : source.WellFormed) (extensional : Extensional accept)
    (unlimited : ∀ caller, limitMessage caller config.maxSteps ∉
      (source.expandBodies config accept supply).1.messages)
    (sorted : iri ∈ source.topologicalOrder.sorted) {ps : ParameterList}
    (defined : source.status? iri = some (.definition ps)) {j : Instance}
    (h : j ∈ (source.expandBodies config accept supply).1.store.bodyOf iri) :
    (⟨iri, ps, (source.expandBodies config accept supply).1.store, accept, config.maxSteps⟩ :
      BodyExpansion).Stays j := by
  have finishes := finishes_expandSorted wf extensional unlimited
  have kept {other} (sorted : other ∈ source.topologicalOrder.sorted) :=
    kept_expandThenCopy config accept supply sorted
  have here : j ∈ (source.expandSorted config accept supply).1.bodyOf iri :=
    (kept sorted).bodies ▸ h
  have known := (finishes.copies.declared iri sorted (.definition ps) rfl).mpr defined
  refine (finishes.stay iri ps known j here).congr rfl rfl fun status declared => ?_
  exact (kept (finishes.callees iri j here)).declared_iff declared

/-- A body in which every instance stays is taken over as it is. -/
theorem bodyOf_expandBodies_of_stays (wf : source.WellFormed)
    (sorted : iri ∈ source.topologicalOrder.sorted) {ps : ParameterList}
    (defined : source.status? iri = some (.definition ps))
    (made : (Template.make iri ps (source.bodyOf iri)).body = source.bodyOf iri) {maxSteps : Nat}
    (stay : ∀ j ∈ source.bodyOf iri,
      (⟨iri, ps, source, accept, maxSteps⟩ : BodyExpansion).Stays j) :
    (source.expandBodies config accept supply).1.store.bodyOf iri = source.bodyOf iri := by
  obtain ⟨before, after, split⟩ := List.append_of_mem sorted
  obtain ⟨target, p, copies, body⟩ :=
    bodyOf_expandBodies_of_sorted config accept supply wf split defined
  have again (j) (hj : j ∈ source.bodyOf iri) :
      (⟨iri, ps, target, accept, config.maxSteps⟩ : BodyExpansion).Stays j :=
    (stay j hj).congr rfl rfl (copies.declared j.iri (wf.mem_before split hj))
  rw [body, run_of_stays _ p again, made]

/-- What is sorted in the new store was sorted before, since cycles stay, so all of it stays as it
is. -/
theorem bodyOf_expandBodies_twice (wf : source.WellFormed) (extensional : Extensional accept)
    (unlimited : ∀ caller, limitMessage caller config.maxSteps ∉
      (source.expandBodies config accept supply).1.messages)
    (config' : ExpansionConfig) (supply' : BlankSupply) (iri : Iri) :
    ((source.expandBodies config accept supply).1.store.expandBodies config' accept
      supply').1.store.bodyOf iri =
      (source.expandBodies config accept supply).1.store.bodyOf iri := by
  have wf₁ := wellFormed_expandBodies config accept supply wf
  have wf₂ := wellFormed_expandBodies config' accept supply' wf₁
  by_cases defined : source.isDefinition iri = true
  · obtain ⟨ps, known⟩ := isDefinition_iff.mp defined
    have known₁ := (declared_expandBodies config accept supply wf rfl).mpr known
    have made := make_bodyOf_expandBodies config accept supply wf known
    by_cases sorted :
        iri ∈ (source.expandBodies config accept supply).1.store.topologicalOrder.sorted
    · have before : iri ∈ source.topologicalOrder.sorted := by
        refine wf.mem_sorted_iff.mpr ⟨by rw [known]; rfl, fun meets => ?_⟩
        exact wf₁.not_meetsCycle_of_sorted sorted (meets.expandBodies config accept supply wf)
      exact bodyOf_expandBodies_of_stays wf₁ sorted known₁ made fun j =>
        stays_expandBodies wf extensional unlimited before known
    · have unsorted := mem_unsorted.mpr ⟨by rw [known₁]; rfl, sorted⟩
      rw [bodyOf_expandBodies_of_unsorted config' accept supply' wf₁ unsorted known₁, made]
  · have free (ps) : source.status? iri ≠ some (.definition ps) := fun known =>
      defined (isDefinition_iff.mpr ⟨ps, known⟩)
    have free₁ (ps) : (source.expandBodies config accept supply).1.store.status? iri ≠
        some (.definition ps) := fun known =>
      free ps ((declared_expandBodies config accept supply wf rfl).mp known)
    rw [wf₁.bodyOf_eq_nil free₁, wf₂.bodyOf_eq_nil fun ps known =>
      free₁ ps ((declared_expandBodies config' accept supply' wf₁ rfl).mp known)]

end Whole

/-- Every accepted instance in the body of a sorted template is there for a reason, and expanding
the new store once more changes no body. -/
structure ExpandedOut (source : Store) (accept : Instance → Bool) (result : Store) : Prop where
  blocked : ∀ iri ∈ source.topologicalOrder.sorted, ∀ ps,
    result.status? iri = some (.definition ps) →
    ∀ j ∈ result.bodyOf iri, accept j = true → Blocked result ps j
  again : ∀ config supply iri,
    (result.expandBodies config accept supply).1.store.bodyOf iri = result.bodyOf iri

/-- Under a predicate that does not look at the types of variables, bodies that are expanded without
reaching the limit are expanded out. -/
theorem expandBodies_expandedOut {source : Store} (reachable : source.Reachable)
    {accept : Instance → Bool} (extensional : Extensional accept) {config : ExpansionConfig}
    {supply : BlankSupply} (unlimited : ∀ caller, limitMessage caller config.maxSteps ∉
      (source.expandBodies config accept supply).1.messages) :
    source.ExpandedOut accept (source.expandBodies config accept supply).1.store where
  blocked iri sorted ps known j hj accepted := by
    have wf := reachable.wellFormed
    have defined := (declared_expandBodies config accept supply wf rfl).mp known
    have stays := stays_expandBodies wf extensional unlimited sorted defined hj
    exact stays.blocked accepted
      ((wellFormed_expandBodies config accept supply wf).callee_of_mem_bodyOf hj)
  again config' supply' iri :=
    bodyOf_expandBodies_twice reachable.wellFormed extensional unlimited config' supply' iri

/-- An entry that may be missing stays with the template that needs it. -/
def filed : Store :=
  (empty .standard).acceptAll
    [.signature ⟨"Item", [.mandatory "entry" .top], true⟩,
     .template (.make "Entry" [.mandatory "entry" .top] [.ofTerms "Item" [.var ⟨"entry", .top⟩]]),
     .template (.make "Note" [.mandatory "title" .top, ⟨⟨"text", .top⟩, ⟨true, false⟩, none⟩]
       [.ofTerms "Entry" [.var ⟨"text", .top⟩], .ofTerms "Entry" [.var ⟨"title", .top⟩]])]

/-- The title becomes an item. The text may be missing, so its entry stays. -/
theorem expandBodies_expandedOut_filed :
    filed.Reachable ∧ Extensional (fun _ => true) ∧
    (∀ caller, limitMessage caller 100 ∉
      (filed.expandBodies ⟨100, true, false⟩ (fun _ => true) ⟨0⟩).1.messages) ∧
    filed.ExpandedOut (fun _ => true)
      (filed.expandBodies ⟨100, true, false⟩ (fun _ => true) ⟨0⟩).1.store ∧
    ((filed.expandBodies ⟨100, true, false⟩ (fun _ => true) ⟨0⟩).1.store.bodyOf "Note").map
      (·.iri) = ["Entry", "Item"] := by
  have reachable : filed.Reachable := by
    apply reachable_acceptAll
    simp [Declaration.Made]
  have extensional : Extensional fun _ => true := fun _ _ _ => rfl
  have silent : (filed.expandBodies ⟨100, true, false⟩ (fun _ => true) ⟨0⟩).1.messages = [] := by
    decide +kernel
  have unlimited (caller : Iri) : limitMessage caller 100 ∉
      (filed.expandBodies ⟨100, true, false⟩ (fun _ => true) ⟨0⟩).1.messages := by
    rw [silent]
    exact List.not_mem_nil
  exact ⟨reachable, extensional, unlimited,
    expandBodies_expandedOut reachable extensional unlimited, by decide +kernel⟩

/-- Whether an argument is a variable of a list type. -/
def givesListVariable (i : Instance) : Bool :=
  i.arguments.terms.any fun t => t.asVar?.any (·.type.isList)

/-- The body of the trees has been edited: it gives the list of names without its type. -/
def planted : Store :=
  (((empty .standard).acceptAll
    [.signature ⟨"Item", [.mandatory "entry" .top], true⟩,
     .template (.make "Wrap" [.mandatory "x" .top] [.ofTerms "Item" [.var ⟨"x", .top⟩]]),
     .template (.make "Trees" [.mandatory "names" (.list .anyIri)] [])]).editBody "Trees" []
    [.ofTerms "Wrap" [.var ⟨"names", .top⟩]]).1

/-- A predicate on the types of variables refuses an instance as it stands in the body and
accepts it as it is taken over, so it is left there for no reason and expanded next time. -/
theorem not_expandBodies_expandedOut_planted : planted.Reachable ∧
    (∀ caller, limitMessage caller 100 ∉
      (planted.expandBodies ⟨100, true, false⟩ givesListVariable ⟨0⟩).1.messages) ∧
    ¬ planted.ExpandedOut givesListVariable
      (planted.expandBodies ⟨100, true, false⟩ givesListVariable ⟨0⟩).1.store := by
  have added := reachable_acceptAll .standard
    [.signature ⟨"Item", [.mandatory "entry" .top], true⟩,
     .template (.make "Wrap" [.mandatory "x" .top] [.ofTerms "Item" [.var ⟨"x", .top⟩]]),
     .template (.make "Trees" [.mandatory "names" (.list .anyIri)] [])] (by simp [Declaration.Made])
  have silent :
      (planted.expandBodies ⟨100, true, false⟩ givesListVariable ⟨0⟩).1.messages = [] := by
    decide +kernel
  refine ⟨added.evolves (Change.edit _ "Trees" [] _).evolves, fun caller => ?_, fun expanded => ?_⟩
  · rw [silent]
    exact List.not_mem_nil
  · have again := congrArg (List.map (·.iri)) (expanded.again ⟨100, true, false⟩ ⟨0⟩ "Trees")
    revert again
    decide +kernel

end Store

end RdfTemplates
