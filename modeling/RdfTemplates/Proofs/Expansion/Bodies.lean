import RdfTemplates.Proofs.Expansion.Mirroring

/-!
# Expanding the bodies of a store

An instance expanded in a store and in the store with expanded bodies gives sets
of instances that map into each other, if no step of the expansion of a body
looks into an instance that does not carry over what is `none`. The step only
asks whether the parameter given is optional: an optional parameter with a
default puts the default in the place of `none`, which the instance looked into
no longer shows.
-/

namespace RdfTemplates

namespace Expansion

variable {store other : Store} {facts : Instance → Prop} {i : Instance}

theorem Holds.definition {ps : ParameterList} (holds : Holds store facts i)
    (plain : i.arguments.expander = none) (defined : store.status? i.iri = some (.definition ps)) :
    i.arguments.size ≠ ps.length ∨ i.isDiscarded ps = true ∨
      ∃ v : Valuation, (∀ pair ∈ i.arguments.arguments.zip ps,
          pair.2.Takes pair.1.term (v.value pair.2.label)) ∧
        ∀ j ∈ store.bodyOf i.iri, Holds store facts (j.fill v.filling) := by
  by_cases arity : i.arguments.size = ps.length
  · cases dropped : i.isDiscarded ps with
    | true => exact .inr (.inl rfl)
    | false => exact .inr (.inr (holds.body defined ⟨plain, arity, dropped, nofun⟩))
  · exact .inl arity

/-- An instance that is not dropped gives its parameters only values that they can have. -/
theorem holds_of_suits {ps : ParameterList} {v : Valuation} (plain : i.arguments.expander = none)
    (defined : store.status? i.iri = some (.definition ps))
    (takes : ∀ pair ∈ i.arguments.arguments.zip ps,
      pair.2.Takes pair.1.term (v.value pair.2.label))
    (body : BodyExpansion.Suits v ps → ∃ labels : String → String, ∀ j ∈ store.bodyOf i.iri,
      Holds store facts (j.fill (⟨v.value, labels⟩ : Valuation).filling)) :
    Holds store facts i := by
  have parameters := Store.parameters_of_definition defined
  by_cases arity : i.arguments.size = ps.length
  · cases dropped : i.isDiscarded ps with
    | true => exact .discarded plain parameters dropped
    | false =>
        obtain ⟨labels, body⟩ := body (BodyExpansion.suits_of_takes arity dropped takes)
        exact .unfolded ⟨v.value, labels⟩ defined plain takes body
  · exact .arity plain parameters arity

/-- Two definitions with the same parameters are alike if their bodies ask for the same under
all values that the parameters can have. -/
theorem holds_defined {ps : ParameterList} (plain : i.arguments.expander = none)
    (defined : store.status? i.iri = some (.definition ps))
    (defined' : other.status? i.iri = some (.definition ps))
    (alike : ∀ v : Valuation, BodyExpansion.Suits v ps →
      ((∃ labels : String → String, ∀ j ∈ store.bodyOf i.iri,
          Holds store facts (j.fill (⟨v.value, labels⟩ : Valuation).filling)) ↔
        ∃ labels : String → String, ∀ j ∈ other.bodyOf i.iri,
          Holds other facts (j.fill (⟨v.value, labels⟩ : Valuation).filling))) :
    Holds store facts i ↔ Holds other facts i := by
  constructor
  · intro holds
    rcases holds.definition plain defined with apart | dropped | ⟨v, takes, body⟩
    · exact .arity plain (Store.parameters_of_definition defined') apart
    · exact .discarded plain (Store.parameters_of_definition defined') dropped
    · exact holds_of_suits plain defined' takes fun suits => (alike v suits).mp ⟨v.blank, body⟩
  · intro holds
    rcases holds.definition plain defined' with apart | dropped | ⟨v, takes, body⟩
    · exact .arity plain (Store.parameters_of_definition defined) apart
    · exact .discarded plain (Store.parameters_of_definition defined) dropped
    · exact holds_of_suits plain defined takes fun suits => (alike v suits).mpr ⟨v.blank, body⟩

/-- Without a definition only what is declared counts. -/
theorem holds_of_declared (wf : store.WellFormed) (wf' : other.WellFormed)
    (same : store.SameAt other i.iri) (declared : store.isDefinition i.iri = false)
    (holds : Holds store facts i) : Holds other facts i := by
  have bare := Store.isDefinition_eq_false_iff.mp declared
  have here (iri) (h : iri = i.iri) : store.SameAt other iri := h ▸ same
  refine holds.transfer here ?_ ?_ rfl
  · rintro iri rfl j hj
    obtain ⟨ps, defined⟩ := wf'.definition_of_mem_bodyOf hj
    exact absurd ((same.definition ps).mpr defined) (bare ps)
  · rintro iri rfl j hj
    obtain ⟨ps, defined⟩ := wf.definition_of_mem_bodyOf hj
    exact absurd defined (bare ps)

end Expansion

namespace Store

open Expansion

/-- No label of a body or a default is still to come. -/
structure LabelsAvoided (store : Store) (supply : BlankSupply) : Prop where
  bodies : ∀ iri, ∀ j ∈ store.bodyOf iri, j.AvoidedBy supply
  defaults : store.DefaultsAvoided supply

theorem LabelsAvoided.grow {store : Store} {supply later : BlankSupply}
    (avoided : store.LabelsAvoided supply) (grows : supply.next ≤ later.next) :
    store.LabelsAvoided later :=
  ⟨fun iri j hj => (avoided.bodies iri j hj).grow grows, avoided.defaults.grow grows⟩

/-- No label in the store has the stem of minted ones. -/
def Unstemmed (store : Store) : Prop :=
  (∀ call ∈ store.calls.items, ∀ b ∈ call.2.target.blanks, BlankSupply.isStemmed b = false) ∧
    ∀ iri ps, store.status? iri = some (.definition ps) → ∀ p ∈ ps, ∀ d ∈ p.default?,
      ∀ b ∈ d.blanks, BlankSupply.isStemmed b = false

instance (store : Store) : Decidable store.Unstemmed := by
  unfold Unstemmed
  infer_instance

theorem Unstemmed.labelsAvoided {store : Store} (unstemmed : store.Unstemmed)
    (supply : BlankSupply) : store.LabelsAvoided supply where
  bodies iri j hj b hb := by
    obtain ⟨n, used⟩ := mem_bodyOf.mp hj
    exact supply.avoids_of_not_stemmed (unstemmed.1 _ used b hb)
  defaults _ _ defined p hp d has b hb :=
    supply.avoids_of_not_stemmed (unstemmed.2 _ _ defined p hp d has b hb)

/-- Takes over what is declared for the IRI, with the given body for a definition. -/
def takeOver (target : Store) (iri : Iri) (status : Status) (body : List Instance) : Store :=
  match status with
  | .undefined => target
  | .definition ps => target.define (.make iri ps body)
  | .base ps => target.setStatus iri (.base ps)
  | .signature ps => target.setStatus iri (.signature ps)

/-- The body of a definition with its instances expanded. -/
def expandedBody (source : Store) (config : ExpansionConfig) (accept : Instance → Bool)
    (target : Store) (iri : Iri) (status : Status) (p : BodyExpansion.Progress) :
    List Instance × BodyExpansion.Progress :=
  match status with
  | .definition ps =>
      BodyExpansion.run ⟨iri, ps, target, accept, config.maxSteps⟩ (source.bodyOf iri) p
  | _ => ([], p)

section Entries

variable {source target : Store} {config : ExpansionConfig} {accept : Instance → Bool}
variable {p : BodyExpansion.Progress} {iri : Iri} {status : Status}

theorem addTemplate_of_fresh {t : Template}
    (fresh : target.status? t.iri = none ∨ target.status? t.iri = some .undefined) :
    (target.addTemplate t).1 = target.define t := by
  rcases fresh with none | undefined
  · simp [addTemplate, none]
  · simp [addTemplate, undefined]

theorem addBase_of_fresh (fresh : target.status? iri = none ∨ target.status? iri = some .undefined)
    (ps : ParameterList) : (target.addBase iri ps).1 = target.setStatus iri (.base ps) := by
  rcases fresh with none | undefined
  · simp [addBase, none]
  · simp [addBase, undefined]

theorem addSignature_of_fresh
    (fresh : target.status? iri = none ∨ target.status? iri = some .undefined)
    (ps : ParameterList) :
    (target.addSignature ⟨iri, ps, false⟩).1 = target.setStatus iri (.signature ps) := by
  rcases fresh with none | undefined
  · simp [addSignature, none]
  · simp [addSignature, undefined]

theorem entry?_of_status (known : source.status? iri = some status) :
    source.entry? iri = some ⟨iri, status⟩ := by
  obtain ⟨⟨key, status⟩, found, rfl⟩ := Option.map_eq_some_iff.mp known
  obtain rfl : key = iri := entry?_iri found
  exact found

theorem copyDeclaration_eq
    (fresh : target.status? iri = none ∨ target.status? iri = some .undefined)
    (bodiless : status.isDefinition = false) (body : List Instance) :
    target.copyDeclaration ⟨iri, status⟩ = target.takeOver iri status body := by
  cases status with
  | undefined => rfl
  | signature ps => exact addSignature_of_fresh fresh ps
  | base ps => exact addBase_of_fresh fresh ps
  | definition ps => cases bodiless

theorem expandEntry_eq (known : source.status? iri = some status)
    (fresh : target.status? iri = none ∨ target.status? iri = some .undefined) :
    source.expandEntry config accept (target, p) iri =
      (target.takeOver iri status (source.expandedBody config accept target iri status p).1,
        (source.expandedBody config accept target iri status p).2) := by
  have found := entry?_of_status known
  cases status with
  | undefined => simp only [expandEntry, found]; rfl
  | signature ps =>
      simp only [expandEntry, found]
      exact congrArg (·, p) (copyDeclaration_eq fresh rfl [])
  | base ps =>
      simp only [expandEntry, found]
      exact congrArg (·, p) (copyDeclaration_eq fresh rfl [])
  | definition ps =>
      simp only [expandEntry, found]
      exact congrArg (·, _) (addTemplate_of_fresh fresh)

theorem expandEntry_of_unknown (unknown : source.status? iri = none) :
    source.expandEntry config accept (target, p) iri = (target, p) := by
  have absent : source.entry? iri = none := by simpa [status?] using unknown
  simp only [expandEntry, absent]

end Entries

namespace Mirrors

variable {source target : Store} {done : List Iri} {iri : Iri} {config : ExpansionConfig}
variable {accept : Instance → Bool} {p : BodyExpansion.Progress}

theorem empty_bodyOf (mirrors : source.Mirrors target done) (new : iri ∉ done) :
    target.bodyOf iri = [] :=
  mirrors.wellFormed.bodyOf_eq_nil fun _ defined => new (mirrors.definition_of_target defined).1

/-- The body and what it was expanded to ask for the same, each under some labels. -/
theorem holds_body (mirrors : source.Mirrors target done) (closed : source.Closed)
    {e : BodyExpansion} (built : e.target = target) {body : List Instance}
    (callees : ∀ j ∈ body, j.iri ∈ done) (fits : ∀ j ∈ body, e.Fits p.supply j)
    (defaults : source.DefaultsAvoided p.supply) (careful : e.Careful body)
    {v : Valuation} (suits : BodyExpansion.Suits v e.parameters) (facts : Instance → Prop) :
    (∃ labels : String → String, ∀ j ∈ body,
        Holds source facts (j.fill (⟨v.value, labels⟩ : Valuation).filling)) ↔
      ∃ labels : String → String, ∀ j ∈ (e.run body p).1,
        Holds target facts (j.fill (⟨v.value, labels⟩ : Valuation).filling) := by
  subst built
  have tclosed := mirrors.closed closed
  have avoided := mirrors.defaultsAvoided defaults
  have expands := BodyExpansion.expands_run e body p
  have met (j) (hj : j ∈ body) : e.Meets body j := .body hj
  constructor
  · rintro ⟨labels, holds⟩
    have asked (j) (hj : j ∈ body) :
        Holds e.target facts (j.fill (⟨v.value, labels⟩ : Valuation).filling) :=
      (mirrors.holds facts (j.fill _) (callees j hj)).mp (holds j hj)
    obtain ⟨labels', -, found⟩ :=
      expands.holds (v := ⟨v.value, labels⟩) tclosed careful suits avoided met fits asked
    exact ⟨labels', found⟩
  · rintro ⟨labels, holds⟩
    refine ⟨labels, fun j hj => (mirrors.holds facts (j.fill _) (callees j hj)).mpr ?_⟩
    exact expands.holds_back (v := ⟨v.value, labels⟩) tclosed careful suits avoided met fits
      holds j hj

theorem expandEntry_definition (mirrors : source.Mirrors target done) (closed : source.Closed)
    {ps : ParameterList} (defined : source.status? iri = some (.definition ps)) (new : iri ∉ done)
    (callees : ∀ j ∈ source.bodyOf iri, j.iri ∈ done) (avoided : source.LabelsAvoided p.supply)
    (careful : (⟨iri, ps, target, accept, config.maxSteps⟩ : BodyExpansion).Careful
      (source.bodyOf iri)) :
    source.Mirrors (source.expandEntry config accept (target, p) iri).1 (done ++ [iri]) ∧
      p.supply.next ≤ (source.expandEntry config accept (target, p) iri).2.supply.next := by
  let e : BodyExpansion := ⟨iri, ps, target, accept, config.maxSteps⟩
  let t := Template.make iri ps (e.run (source.bodyOf iri) p).1
  have expanded : source.expandEntry config accept (target, p) iri =
      (target.define t, (e.run (source.bodyOf iri) p).2) :=
    expandEntry_eq defined (mirrors.fresh iri new)
  have fits (j) (hj : j ∈ source.bodyOf iri) : e.Fits p.supply j :=
    ⟨avoided.bodies iri j hj, closed.vars defined j hj⟩
  have expands := BodyExpansion.expands_run e (source.bodyOf iri) p
  have within :=
    expands.fits (mirrors.closed closed) (mirrors.defaultsAvoided avoided.defaults) fits
  have known := expands.iris (fun other _ k hk => mirrors.callees other k hk) callees
  have status : (target.define t).status? iri = some (.definition ps) := by
    rw [status?_define]
    exact if_pos rfl
  have body (j) : j ∈ (target.define t).bodyOf iri ↔ j ∈ t.body := by
    rw [mem_bodyOf_define, mirrors.empty_bodyOf new]
    simp [t, Template.make]
  have called (j) (hj : j ∈ t.body) : j.iri ∈ done := by
    obtain ⟨k, hk, same⟩ := Template.iri_of_mem_make hj
    exact same ▸ known k hk
  have kept (other) (apart : other ≠ iri) := target.kept_define t apart
  rw [expanded]
  refine ⟨mirrors.extend kept new (mirrors.wellFormed.define t) ?_ ?_ ?_ ?_, within.1⟩
  · exact ⟨fun qs => by rw [defined, status], fun qs => by rw [defined, status]⟩
  · exact fun j hj => called j ((body j).mp hj)
  · intro qs again j hj x hx
    obtain rfl := Status.definition.inj (Option.some.inj (status.symm.trans again))
    obtain ⟨k, hk, y, hy, same⟩ := Template.label_of_mem_make ((body j).mp hj) hx
    exact same ▸ (within.2 k hk).within y hy
  · rintro facts i rfl plain
    refine holds_defined plain defined status fun v suits => ?_
    rw [mirrors.holds_body closed rfl callees fits avoided.defaults careful suits facts]
    refine exists_congr fun labels => ?_
    rw [← Template.fill_make i.iri ps _ (Holds target facts)]
    refine forall_congr' fun j => ?_
    rw [body]
    refine forall_congr' fun hj => ?_
    exact mirrors.holds_next (fun other taken => kept other fun eq => new (eq ▸ taken)) facts
      (j.fill _) (called j hj)

theorem sameAt_setStatus (status : Status) (known : source.status? iri = some status) :
    source.SameAt (target.setStatus iri status) iri := by
  have set : (target.setStatus iri status).status? iri = some status := by
    rw [status?_setStatus]
    exact if_pos rfl
  exact ⟨fun ps => by rw [known, set], fun ps => by rw [known, set]⟩

theorem sameAt_of_fresh (fresh : target.status? iri = none ∨ target.status? iri = some .undefined)
    (unresolved : source.status? iri = none ∨ source.status? iri = some .undefined) :
    source.SameAt target iri := by
  rcases fresh with fresh | fresh <;> rcases unresolved with unresolved | unresolved <;>
    exact ⟨fun ps => by simp [fresh, unresolved], fun ps => by simp [fresh, unresolved]⟩

theorem expandEntry_bodiless (mirrors : source.Mirrors target done)
    (declared : source.isDefinition iri = false) (new : iri ∉ done) (config : ExpansionConfig)
    (accept : Instance → Bool) (p : BodyExpansion.Progress) :
    ∃ next, source.expandEntry config accept (target, p) iri = (next, p) ∧ next.WellFormed ∧
      source.SameAt next iri := by
  have fresh := mirrors.fresh iri new
  have free : ∀ call ∈ target.calls.items, call.2.caller ≠ iri :=
    mirrors.wellFormed.not_caller iri fun ps defined =>
      new (mirrors.definition_of_target defined).1
  have set (status : Status) : (target.setStatus iri status).WellFormed :=
    mirrors.wellFormed.setStatus iri status (.inr free)
  cases known : source.status? iri with
  | none =>
      exact ⟨target, expandEntry_of_unknown known, mirrors.wellFormed,
        sameAt_of_fresh fresh (.inl known)⟩
  | some status =>
      have expanded : source.expandEntry config accept (target, p) iri = _ :=
        expandEntry_eq known fresh
      cases status with
      | base ps => exact ⟨_, expanded, set (.base ps), sameAt_setStatus _ known⟩
      | signature ps => exact ⟨_, expanded, set (.signature ps), sameAt_setStatus _ known⟩
      | undefined =>
          exact ⟨target, expanded, mirrors.wellFormed, sameAt_of_fresh fresh (.inr known)⟩
      | definition ps => simp [isDefinition, known, Status.isDefinition] at declared

theorem expandEntry_declared (mirrors : source.Mirrors target done) (wf : source.WellFormed)
    (declared : source.isDefinition iri = false) (new : iri ∉ done) (config : ExpansionConfig)
    (accept : Instance → Bool) (p : BodyExpansion.Progress) :
    source.Mirrors (source.expandEntry config accept (target, p) iri).1 (done ++ [iri]) ∧
      (source.expandEntry config accept (target, p) iri).2 = p := by
  have kept (other) (apart : other ≠ iri) :=
    source.kept_expandEntry config accept (target, p) apart
  obtain ⟨next, expanded, wf', same⟩ := mirrors.expandEntry_bodiless declared new config accept p
  rw [expanded] at kept ⊢
  have declared' : next.isDefinition iri = false := same.isDefinition ▸ declared
  have bare : next.bodyOf iri = [] := wf'.bodyOf_eq_nil (isDefinition_eq_false_iff.mp declared')
  refine ⟨mirrors.extend kept new wf' same ?_ ?_ ?_, rfl⟩
  · simp [bare]
  · simp [bare]
  · rintro facts i rfl -
    exact ⟨holds_of_declared wf wf' same declared,
      holds_of_declared wf' wf same.symm declared'⟩

end Mirrors

section Kept

variable {e : BodyExpansion} {last : Store} {i : Instance}

theorem Kept.step_eq (kept : e.target.Kept last i.iri) (p : BodyExpansion.Progress) :
    ({ e with target := last } : BodyExpansion).step i p = e.step i p := by
  have known : ((last.status? i.iri).bind fun s => s.parameters?.map ((s, ·))) =
      (e.target.status? i.iri).bind fun s => s.parameters?.map ((s, ·)) := by
    rcases kept.status with same | ⟨none, undefined⟩
    · rw [same]
    · rw [none, undefined]
      rfl
  simp only [BodyExpansion.step, known, BodyExpansion.unfold, kept.bodies]
  rfl

theorem meets_of_kept {body : List Instance} {known : Iri → Prop}
    (kept : ∀ iri, known iri → e.target.Kept last iri)
    (callees : ∀ iri, ∀ j ∈ e.target.bodyOf iri, known j.iri) (start : ∀ j ∈ body, known j.iri)
    (met : e.Meets body i) :
    known i.iri ∧ ({ e with target := last } : BodyExpansion).Meets body i := by
  induction met with
  | body h => exact ⟨start _ h, .body h⟩
  | place _ stepped h ih =>
      obtain ⟨here, met⟩ := ih
      refine ⟨?_, .place met (((kept _ here).step_eq _).trans stepped) h⟩
      rcases (BodyExpansion.replaces_of_step stepped).iris h with same | ⟨k, hk, same⟩
      · rwa [same]
      · exact same ▸ callees _ k hk

theorem careful_of_kept {body : List Instance} {known : Iri → Prop}
    (kept : ∀ iri, known iri → e.target.Kept last iri)
    (callees : ∀ iri, ∀ j ∈ e.target.bodyOf iri, known j.iri) (start : ∀ j ∈ body, known j.iri)
    (careful : ({ e with target := last } : BodyExpansion).Careful body) : e.Careful body := by
  intro i ps met looks
  obtain ⟨here, met⟩ := meets_of_kept kept callees start met
  have defined := ((kept _ here).sameAt.definition ps).mp looks.defined
  exact careful i ps met
    ⟨looks.accepted, defined, looks.plain, looks.arity, looks.kept, looks.optional⟩

end Kept

/-- With the accepted instances expanded, no body looks into an instance that does not carry
over. -/
def ExpandsCarefully (source last : Store) (config : ExpansionConfig) (accept : Instance → Bool) :
    Prop :=
  ∀ iri ps, source.status? iri = some (.definition ps) →
    (⟨iri, ps, last, accept, config.maxSteps⟩ : BodyExpansion).Careful (source.bodyOf iri)

/-- Optional parameters have no default, and defaults are terms without blank nodes. -/
def PlainDefaults (store : Store) : Prop :=
  ∀ iri ps, store.status? iri = some (.definition ps) → ∀ p ∈ ps, ∀ d ∈ p.default?,
    p.isOptional = false ∧ d.isNone = false ∧ d.blanks = []

instance (store : Store) : Decidable store.PlainDefaults := by
  unfold PlainDefaults
  infer_instance

theorem expandsCarefully_of_plainDefaults {source last : Store} (closed : source.Closed)
    (plain : source.PlainDefaults) (plain' : last.PlainDefaults) (config : ExpansionConfig)
    (accept : Instance → Bool) : source.ExpandsCarefully last config accept := by
  rintro iri ps defined i qs - looks ⟨⟨t, marked⟩, p⟩ h
  have listed : p ∈ qs := (List.of_mem_zip h).2
  refine ⟨fun x given q hq same may => ?_, fun _ d has => ?_⟩
  · have optional := Parameter.isOptional_of_mayBeNone may fun d has =>
      (plain iri ps defined q hq d has).2.1
    have labelled : ps.labelled? x.label = some q :=
      same ▸ ParameterList.labelled?_of_mem (closed.labels defined) hq
    have pair : (t, p) ∈ i.arguments.terms.zip qs := by
      rw [ArgumentList.terms, List.zip_map_left]
      exact List.mem_map.mpr ⟨_, h, rfl⟩
    have passed := List.all_eq_true.mp looks.optional _ pair
    obtain rfl : t = .var x := given
    have accepts : p.isOptional = true := by
      simpa [Term.asVar?, labelled, optional] using passed
    exact Parameter.mayBeNone_of_isOptional accepts fun d has =>
      (plain' i.iri qs looks.defined p listed d has).1
  · exact .inr (plain' i.iri qs looks.defined p listed d has).2.2

section Fold

variable {source : Store} {config : ExpansionConfig} {accept : Instance → Bool}

theorem Mirrors.foldl_expandEntry (wf : source.WellFormed) (closed : source.Closed)
    {iris done : List Iri} {state : Store × BodyExpansion.Progress}
    (mirrors : source.Mirrors state.1 done) (distinct : (done ++ iris).Nodup)
    (ordered : ∀ before iri after, iris = before ++ iri :: after →
      ∀ j ∈ source.bodyOf iri, j.iri ∈ done ++ before)
    (avoided : source.LabelsAvoided state.2.supply)
    (careful : source.ExpandsCarefully
      (iris.foldl (source.expandEntry config accept) state).1 config accept) :
    source.Mirrors (iris.foldl (source.expandEntry config accept) state).1 (done ++ iris) := by
  induction iris generalizing done state with
  | nil => simpa using mirrors
  | cons iri iris ih =>
      obtain ⟨target, p⟩ := state
      have split : done ++ iri :: iris = (done ++ [iri]) ++ iris := by simp
      have new : iri ∉ done := fun h => by
        rw [List.nodup_append] at distinct
        exact distinct.2.2 iri h iri List.mem_cons_self rfl
      have callees (j) (hj : j ∈ source.bodyOf iri) : j.iri ∈ done := by
        simpa using ordered [] iri iris rfl j hj
      have kept (other) (h : other ∈ done) :
          target.Kept ((iri :: iris).foldl (source.expandEntry config accept) (target, p)).1
            other :=
        source.kept_foldl_expandEntry config accept (iri :: iris) (target, p) fun listed =>
          (List.nodup_append.mp distinct).2.2 other h other listed rfl
      have next : source.Mirrors (source.expandEntry config accept (target, p) iri).1
            (done ++ [iri]) ∧
          p.supply.next ≤ (source.expandEntry config accept (target, p) iri).2.supply.next := by
        cases declared : source.isDefinition iri with
        | true =>
            obtain ⟨ps, defined⟩ := isDefinition_iff.mp declared
            exact mirrors.expandEntry_definition closed defined new callees avoided
              (careful_of_kept kept mirrors.callees callees (careful iri ps defined))
        | false =>
            obtain ⟨extended, same⟩ :=
              mirrors.expandEntry_declared wf declared new config accept p
            exact ⟨extended, by simp [same]⟩
      rw [split]
      refine ih next.1 (split ▸ distinct) ?_ (avoided.grow next.2) careful
      rintro before other after rfl j hj
      simpa using ordered (iri :: before) other after rfl j hj

theorem Mirrors.takeMessages {target : Store} {done : List Iri}
    (mirrors : source.Mirrors target done) : source.Mirrors target.takeMessages.2 done := by
  obtain ⟨wf, same, fresh, callees, vars, holds⟩ := mirrors
  refine ⟨wf.congr rfl rfl,
    fun iri h => (same iri h).trans ⟨fun _ => .rfl, fun _ => .rfl⟩, fresh, callees, vars, ?_⟩
  intro facts i known
  have all : ∀ iri ∈ done, target.Kept target.takeMessages.2 iri := fun _ _ => ⟨.inl rfl, rfl⟩
  exact (holds facts i known).trans
    (Mirrors.holds_next ⟨wf, same, fresh, callees, vars, holds⟩ all facts i known)

theorem mirrors_expandBodies (wf : source.WellFormed)
    (complete : source.topologicalOrder.isComplete = true) (closed : source.Closed)
    {supply : BlankSupply} (avoided : source.LabelsAvoided supply)
    (careful : source.ExpandsCarefully (source.expandBodies config accept supply).1.store config
      accept) :
    source.Mirrors (source.expandBodies config accept supply).1.store
      source.topologicalOrder.sorted := by
  have none : source.topologicalOrder.unsorted = [] := by
    simpa [TopologicalOrder.isComplete] using complete
  let start : Store × BodyExpansion.Progress := (Store.empty source.config, ⟨[], supply⟩)
  let sorted := source.topologicalOrder.sorted.foldl (source.expandEntry config accept) start
  have expanded : (source.expandBodies config accept supply).1.store = sorted.1.takeMessages.2 := by
    simp only [expandBodies, none]
    rfl
  rw [expanded] at careful ⊢
  have built : source.Mirrors sorted.1 ([] ++ source.topologicalOrder.sorted) := by
    refine Mirrors.foldl_expandEntry wf closed (.empty source source.config) ?_ ?_ avoided ?_
    · simpa using wf.sorted_nodup
    · intro before iri after split j hj
      simpa using wf.mem_before split hj
    · have all (iri : Iri) (_ : True) : sorted.1.Kept sorted.1.takeMessages.2 iri :=
        ⟨.inl rfl, rfl⟩
      intro iri ps defined
      exact careful_of_kept all (fun _ _ _ => trivial) (fun _ _ => trivial) (careful iri ps defined)
  simpa using built.takeMessages

end Fold

end Store

namespace Expansion

/-- If bodies are expanded carefully, every instance comes to the same in the new store as in the
old one. -/
theorem expandBodies_alike {source : Store} (reachable : source.Reachable)
    (complete : source.topologicalOrder.isComplete = true) (closed : source.Closed)
    {config : ExpansionConfig} {accept : Instance → Bool} {supply : BlankSupply}
    (avoided : source.LabelsAvoided supply)
    (careful : source.ExpandsCarefully (source.expandBodies config accept supply).1.store config
      accept) (i : Instance) :
    ExpandsAlike source (source.expandBodies config accept supply).1.store i := by
  have mirrors := Store.mirrors_expandBodies reachable.wellFormed complete closed avoided careful
  refine expandsAlike_of_holds closed (mirrors.closed closed) fun facts => ?_
  by_cases known : i.iri ∈ source.topologicalOrder.sorted
  · exact mirrors.holds facts i known
  · have absent : source.status? i.iri = none := by
      by_contra present
      exact known (Store.mem_sorted_of_complete complete (Option.isSome_iff_ne_none.mpr present))
    have same := Store.Mirrors.sameAt_of_fresh (mirrors.fresh i.iri known) (.inl absent)
    have unresolved : source.isResolved i.iri = false := by simp [Store.isResolved, absent]
    exact ⟨fun _ => .unresolved (same.isResolved ▸ unresolved), fun _ => .unresolved unresolved⟩

/-- A note that may be missing is handed on to a template that lists it. -/
def noted : Store :=
  (Store.empty .standard).acceptAll [
    .signature ⟨"Item", [.mandatory "entry" .top], true⟩,
    .template (.make "Lists" [⟨⟨"note", .top⟩, ⟨true, false⟩, none⟩] [
      .ofTerms "Item" [.var ⟨"note", .top⟩], .ofTerms "Item" [.blank "end"]]),
    .template (.make "Notes" [⟨⟨"text", .top⟩, ⟨true, false⟩, none⟩] [
      .ofTerms "Lists" [.var ⟨"text", .top⟩]])]

theorem reachable_noted : noted.Reachable := by
  apply Store.reachable_acceptAll
  simp [Declaration.Made]

/-- Up to a hundred steps without looking at arguments. -/
def unchecked : ExpansionConfig := ⟨100, false, false⟩

/-- The notes with all their bodies expanded. -/
def listed : Store := (noted.expandAllBodies unchecked ⟨0⟩).1.store

/-- A note without a text leaves the end of its list, before and after. -/
theorem expandBodies_alike_noted :
    noted.Reachable ∧ noted.topologicalOrder.isComplete = true ∧ noted.Closed ∧
      noted.LabelsAvoided ⟨0⟩ ∧ noted.ExpandsCarefully listed unchecked (fun _ => true) ∧
      ExpandsAlike noted listed (.ofTerms "Notes" [.none]) ∧
      (listed.bodyOf "Notes").map (·.iri) = ["Item", "Item"] ∧
      (noted.expand unchecked (.ofTerms "Notes" [.none]) ⟨0⟩).1 =
        [.ok (.ofTerms "Item" [.blank "genid0"])] ∧
      (listed.expand unchecked (.ofTerms "Notes" [.none]) ⟨7⟩).1 =
        [.ok (.ofTerms "Item" [.blank "genid7"])] := by
  have closed : noted.Closed := by decide
  have unstemmed : noted.Unstemmed := by decide
  have avoided := unstemmed.labelsAvoided ⟨0⟩
  have careful : noted.ExpandsCarefully listed unchecked fun _ => true :=
    Store.expandsCarefully_of_plainDefaults closed (by decide) (by decide) unchecked _
  exact ⟨reachable_noted, rfl, closed, avoided, careful,
    expandBodies_alike reachable_noted rfl closed avoided careful _, rfl, rfl, rfl⟩

/-- The same with a default in the place of a missing note. -/
def defaulted : Store :=
  (Store.empty .standard).acceptAll [
    .signature ⟨"Item", [.mandatory "entry" .top], true⟩,
    .template (.make "Lists" [⟨⟨"note", .top⟩, ⟨true, false⟩, some (.literal (.plain "empty"))⟩] [
      .ofTerms "Item" [.var ⟨"note", .top⟩]]),
    .template (.make "Notes" [⟨⟨"text", .top⟩, ⟨true, false⟩, none⟩] [
      .ofTerms "Lists" [.var ⟨"text", .top⟩]])]

/-- The default was listed before the bodies were expanded, and is not afterwards. -/
theorem not_expandBodies_alike_defaulted :
    defaulted.Reachable ∧ defaulted.topologicalOrder.isComplete = true ∧ defaulted.Closed ∧
      (∀ supply, defaulted.LabelsAvoided supply) ∧
      ¬ ExpandsAlike defaulted (defaulted.expandAllBodies unchecked ⟨0⟩).1.store
        (.ofTerms "Notes" [.none]) := by
  have closed : defaulted.Closed := by decide
  have unstemmed : defaulted.Unstemmed := by decide
  have reachable : defaulted.Reachable := by
    apply Store.reachable_acceptAll
    simp [Declaration.Made]
  have defaults : (defaulted.expandAllBodies unchecked ⟨0⟩).1.store.Unstemmed := by decide
  refine ⟨reachable, rfl, closed, unstemmed.labelsAvoided, ?_⟩
  exact not_expandsAlike_of_lost (o := .ofTerms "Item" [.literal (.plain "empty")])
    (rfl : unchecked.checkArguments = false) (Instance.avoidedBy_of_bare rfl ⟨0⟩)
    (unstemmed.labelsAvoided ⟨0⟩).defaults (defaults.labelsAvoided ⟨0⟩).defaults rfl rfl

end Expansion

end RdfTemplates
