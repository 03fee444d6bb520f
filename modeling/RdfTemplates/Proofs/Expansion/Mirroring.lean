import RdfTemplates.Proofs.Expansion.Inlining
import RdfTemplates.Proofs.TemplateBody

/-!
# A store built callee by callee

What was built so far mirrors the source: its templates are those of the source
that were taken over, they call only each other, and their instances hold for
the same facts as in the source. It still does when the next template is added,
since at other templates nothing changes.
-/

namespace RdfTemplates

namespace Store

/-- The stores agree on whether and how expansion goes on at the IRI. -/
structure SameAt (store other : Store) (iri : Iri) : Prop where
  definition : ∀ ps, store.status? iri = some (.definition ps) ↔
    other.status? iri = some (.definition ps)
  base : ∀ ps, store.status? iri = some (.base ps) ↔ other.status? iri = some (.base ps)

theorem SameAt.isResolved {store other : Store} {iri : Iri} (same : store.SameAt other iri) :
    store.isResolved iri = other.isResolved iri := by
  rw [Bool.eq_iff_iff, Expansion.resolved_iff, Expansion.resolved_iff]
  exact exists_congr fun ps => or_congr (same.base ps) (same.definition ps)

theorem SameAt.isDefinition {store other : Store} {iri : Iri} (same : store.SameAt other iri) :
    store.isDefinition iri = other.isDefinition iri := by
  rw [Bool.eq_iff_iff, isDefinition_iff, isDefinition_iff]
  exact exists_congr same.definition

theorem SameAt.parameters {store other : Store} {iri : Iri} {ps : ParameterList}
    (same : store.SameAt other iri) (resolved : store.isResolved iri = true)
    (parameters : store.parameters? iri = some ps) : other.parameters? iri = some ps := by
  apply Store.parameters_of_status
  exact (Expansion.status_of_parameters resolved parameters).imp (same.base ps).mp
    (same.definition ps).mp

end Store

namespace Expansion

variable {store other : Store} {facts : Instance → Prop} {i : Instance}

/-- An instance holds in another store if definitions carry over from what their bodies ask
for there. -/
theorem Holds.carry {here : Iri → Prop} (holds : Holds store facts i)
    (same : ∀ iri, here iri → store.SameAt other iri)
    (closed : ∀ iri, here iri → ∀ j ∈ store.bodyOf iri, here j.iri) (start : here i.iri)
    (body : ∀ (i : Instance) (ps : ParameterList) (v : Valuation), here i.iri →
      store.status? i.iri = some (.definition ps) → i.arguments.expander = none →
      (∀ pair ∈ i.arguments.arguments.zip ps,
        pair.2.Takes pair.1.term (v.value pair.2.label)) →
      (∀ j ∈ store.bodyOf i.iri, Holds other facts (j.fill v.filling)) → Holds other facts i) :
    Holds other facts i := by
  induction holds with
  | unresolved unresolved => exact .unresolved ((same _ start).isResolved ▸ unresolved)
  | stuck marked unknown => exact .stuck marked unknown
  | lists marked _ ih => exact .lists marked fun args made => ih args made start
  | @arity i ps plain parameters apart =>
      cases resolved : store.isResolved i.iri with
      | false => exact .unresolved ((same _ start).isResolved ▸ resolved)
      | true => exact .arity plain ((same _ start).parameters resolved parameters) apart
  | @discarded i ps plain parameters dropped =>
      cases resolved : store.isResolved i.iri with
      | false => exact .unresolved ((same _ start).isResolved ▸ resolved)
      | true => exact .discarded plain ((same _ start).parameters resolved parameters) dropped
  | fact base plain listed => exact .fact (((same _ start).base _).mp base) plain listed
  | @unfolded i ps v defined plain takes _ ih =>
      exact body i ps v start defined plain takes fun j hj => ih j hj (closed _ start j hj)

/-- An instance holds in another store that has the same templates wherever it leads to. -/
theorem Holds.transfer {here : Iri → Prop} (holds : Holds store facts i)
    (same : ∀ iri, here iri → store.SameAt other iri)
    (bodies : ∀ iri, here iri → ∀ j ∈ other.bodyOf iri, j ∈ store.bodyOf iri)
    (closed : ∀ iri, here iri → ∀ j ∈ store.bodyOf iri, here j.iri) (start : here i.iri) :
    Holds other facts i :=
  holds.carry same closed start fun _ ps v known defined plain takes body =>
    .unfolded v (((same _ known).definition ps).mp defined) plain takes fun j hj =>
      body j (bodies _ known j hj)

/-- It is enough to look at instances without lists to expand. -/
theorem holds_of_plain {iri : Iri} (same : store.SameAt other iri)
    (plain : ∀ j : Instance, j.iri = iri → j.arguments.expander = none →
      Holds store facts j → Holds other facts j)
    (known : i.iri = iri) (holds : Holds store facts i) : Holds other facts i := by
  cases marked : i.arguments.expander with
  | none => exact plain i known marked holds
  | some expander =>
      cases holds with
      | unresolved unresolved => exact .unresolved (known ▸ same.isResolved ▸ known ▸ unresolved)
      | stuck marked' unknown => exact .stuck marked' unknown
      | lists marked' each =>
          exact .lists marked' fun args made =>
            plain ⟨i.iri, args⟩ known (plain_of_mem_steps made) (each args made)
      | arity bare | discarded bare | fact _ bare | unfolded _ _ bare =>
          rw [marked] at bare
          cases bare

end Expansion

namespace Store

open Expansion

/-- What was built so far mirrors the source at the templates taken over. -/
structure Mirrors (source target : Store) (done : List Iri) : Prop where
  wellFormed : target.WellFormed
  same : ∀ iri ∈ done, source.SameAt target iri
  fresh : ∀ iri, iri ∉ done → target.status? iri = none ∨ target.status? iri = some .undefined
  callees : ∀ iri, ∀ j ∈ target.bodyOf iri, j.iri ∈ done
  vars : ∀ iri ps, target.status? iri = some (.definition ps) → ∀ j ∈ target.bodyOf iri,
    BodyExpansion.Within j ps
  holds : ∀ facts (i : Instance), i.iri ∈ done →
    (Holds source facts i ↔ Holds target facts i)

namespace Mirrors

variable {source target : Store} {done : List Iri} {supply : BlankSupply}

theorem definition_of_target (mirrors : source.Mirrors target done) {iri : Iri}
    {ps : ParameterList} (defined : target.status? iri = some (.definition ps)) :
    iri ∈ done ∧ source.status? iri = some (.definition ps) := by
  have here : iri ∈ done := by
    by_contra missed
    rcases mirrors.fresh iri missed with none | undefined
    · rw [none] at defined
      cases defined
    · rw [undefined] at defined
      cases defined
  exact ⟨here, ((mirrors.same iri here).definition ps).mpr defined⟩

theorem closed (mirrors : source.Mirrors target done) (closed : source.Closed) :
    target.Closed where
  labels _ _ defined := closed.labels (mirrors.definition_of_target defined).2
  vars _ _ defined := mirrors.vars _ _ defined
  defaults _ _ defined := closed.defaults (mirrors.definition_of_target defined).2

theorem defaultsAvoided (mirrors : source.Mirrors target done)
    (avoided : source.DefaultsAvoided supply) : target.DefaultsAvoided supply :=
  fun _ _ defined => avoided (mirrors.definition_of_target defined).2

theorem empty (source : Store) (config : StoreConfig) :
    source.Mirrors (empty config) [] where
  wellFormed := wellFormed_empty config
  same := nofun
  fresh _ _ := .inl rfl
  callees iri j h := by cases h
  vars _ _ defined := by cases defined
  holds _ _ := nofun

end Mirrors

/-- At the IRI the store has gained nothing but an undefined entry. -/
structure Kept (target next : Store) (iri : Iri) : Prop where
  status : next.status? iri = target.status? iri ∨
    (target.status? iri = none ∧ next.status? iri = some .undefined)
  bodies : next.bodyOf iri = target.bodyOf iri

theorem Kept.refl (target : Store) (iri : Iri) : target.Kept target iri := ⟨.inl rfl, rfl⟩

theorem Kept.trans {target next last : Store} {iri : Iri} (first : target.Kept next iri)
    (second : next.Kept last iri) : target.Kept last iri := by
  refine ⟨?_, second.bodies.trans first.bodies⟩
  rcases first.status with same | ⟨none, undefined⟩
  · rw [← same]
    exact second.status
  · rcases second.status with same | ⟨none', -⟩
    · exact .inr ⟨none, same.trans undefined⟩
    · rw [undefined] at none'
      cases none'

theorem Kept.sameAt {target next : Store} {iri : Iri} (kept : target.Kept next iri) :
    target.SameAt next iri := by
  rcases kept.status with same | ⟨none, undefined⟩
  · exact ⟨fun ps => by rw [same], fun ps => by rw [same]⟩
  · exact ⟨fun ps => by simp [none, undefined], fun ps => by simp [none, undefined]⟩

theorem kept_setStatus (target : Store) {iri other : Iri} (apart : other ≠ iri) (status : Status) :
    target.Kept (target.setStatus iri status) other :=
  ⟨.inl (by rw [status?_setStatus, if_neg apart.symm]), bodyOf_setStatus target iri status other⟩

theorem kept_define (target : Store) (t : Template) {other : Iri} (apart : other ≠ t.iri) :
    target.Kept (target.define t) other := by
  refine ⟨?_, bodyOf_define_of_ne apart target⟩
  rw [status?_define, if_neg apart.symm]
  cases target.status? other with
  | some status => exact .inl rfl
  | none => by_cases called : other ∈ t.body.map (·.iri) <;> simp [called]

theorem kept_addTemplate (target : Store) (t : Template) {other : Iri} (apart : other ≠ t.iri) :
    target.Kept (target.addTemplate t).1 other := by
  rcases target.addTemplate_cases t with ⟨reason, refused⟩ | ⟨-, added⟩
  · rw [refused]
    exact ⟨.inl rfl, rfl⟩
  · rw [added]
    exact target.kept_define t apart

theorem kept_addBase (target : Store) {iri other : Iri} (ps : ParameterList)
    (apart : other ≠ iri) : target.Kept (target.addBase iri ps).1 other := by
  rcases target.addBase_cases iri ps with ⟨reason, refused⟩ | ⟨-, added⟩
  · rw [refused]
    exact ⟨.inl rfl, rfl⟩
  · rw [added]
    exact target.kept_setStatus apart (.base ps)

theorem kept_addSignature (target : Store) (s : Signature) {other : Iri} (apart : other ≠ s.iri) :
    target.Kept (target.addSignature s).1 other := by
  rcases target.addSignature_cases s with ⟨-, same⟩ | ⟨-, refused⟩ | ⟨-, -, added⟩
  · rw [same]
    exact target.kept_addBase s.parameters apart
  · rw [refused]
    exact ⟨.inl rfl, rfl⟩
  · rw [added]
    exact target.kept_setStatus apart (.signature s.parameters)

theorem kept_copyDeclaration (target : Store) (e : Entry) {other : Iri} (apart : other ≠ e.iri) :
    target.Kept (target.copyDeclaration e) other := by
  unfold copyDeclaration
  split
  · exact target.kept_addBase _ apart
  · exact target.kept_addSignature _ apart
  · exact .refl target other

theorem kept_expandEntry (source : Store) (config : ExpansionConfig) (accept : Instance → Bool)
    (state : Store × BodyExpansion.Progress) {iri other : Iri} (apart : other ≠ iri) :
    state.1.Kept (source.expandEntry config accept state iri).1 other := by
  unfold expandEntry
  dsimp only
  split
  · exact state.1.kept_addTemplate _ apart
  · rename_i e _ found
    have same : e.iri = iri := entry?_iri found
    exact state.1.kept_copyDeclaration e (same ▸ apart)
  · exact .refl state.1 other

theorem kept_foldl {step : Store × BodyExpansion.Progress → Iri → Store × BodyExpansion.Progress}
    {other : Iri} (kept : ∀ (state : Store × BodyExpansion.Progress) (iri : Iri), other ≠ iri →
      state.1.Kept (step state iri).1 other)
    (iris : List Iri) (state : Store × BodyExpansion.Progress) (apart : other ∉ iris) :
    state.1.Kept (iris.foldl step state).1 other := by
  induction iris generalizing state with
  | nil => exact .refl state.1 other
  | cons iri iris ih =>
      rw [List.mem_cons, not_or] at apart
      exact (kept state iri apart.1).trans (ih _ apart.2)

theorem kept_foldl_expandEntry (source : Store) (config : ExpansionConfig)
    (accept : Instance → Bool) (iris : List Iri) (state : Store × BodyExpansion.Progress)
    {other : Iri} (apart : other ∉ iris) :
    state.1.Kept (iris.foldl (source.expandEntry config accept) state).1 other :=
  kept_foldl (fun state _ => source.kept_expandEntry config accept state) iris state apart

theorem SameAt.symm {store other : Store} {iri : Iri} (same : store.SameAt other iri) :
    other.SameAt store iri :=
  ⟨fun ps => (same.definition ps).symm, fun ps => (same.base ps).symm⟩

theorem SameAt.trans {store other last : Store} {iri : Iri} (first : store.SameAt other iri)
    (second : other.SameAt last iri) : store.SameAt last iri :=
  ⟨fun ps => (first.definition ps).trans (second.definition ps),
    fun ps => (first.base ps).trans (second.base ps)⟩

namespace Mirrors

variable {source target next : Store} {done : List Iri} {iri : Iri}

theorem holds_next (mirrors : source.Mirrors target done)
    (kept : ∀ other ∈ done, target.Kept next other) (facts : Instance → Prop) (i : Instance)
    (known : i.iri ∈ done) : Holds target facts i ↔ Holds next facts i := by
  constructor
  · intro holds
    refine holds.transfer (fun other h => (kept other h).sameAt) (fun other h j hj => ?_)
      (fun other _ j hj => mirrors.callees other j hj) known
    rwa [(kept other h).bodies] at hj
  · intro holds
    refine holds.transfer (fun other h => (kept other h).sameAt.symm) (fun other h j hj => ?_)
      (fun other h j hj => ?_) known
    · rwa [(kept other h).bodies]
    · rw [(kept other h).bodies] at hj
      exact mirrors.callees other j hj

theorem extend (mirrors : source.Mirrors target done)
    (kept : ∀ other, other ≠ iri → target.Kept next other) (new : iri ∉ done)
    (wf : next.WellFormed) (same : source.SameAt next iri)
    (callees : ∀ j ∈ next.bodyOf iri, j.iri ∈ done)
    (vars : ∀ ps, next.status? iri = some (.definition ps) → ∀ j ∈ next.bodyOf iri,
      BodyExpansion.Within j ps)
    (holds : ∀ facts (i : Instance), i.iri = iri → i.arguments.expander = none →
      (Holds source facts i ↔ Holds next facts i)) :
    source.Mirrors next (done ++ [iri]) where
  wellFormed := wf
  same other h := by
    rcases List.mem_append.mp h with h | h
    · have apart : other ≠ iri := fun eq => new (eq ▸ h)
      exact (mirrors.same other h).trans (kept other apart).sameAt
    · rwa [List.mem_singleton.mp h]
  fresh other missed := by
    rw [List.mem_append, not_or, List.mem_singleton] at missed
    rcases (kept other missed.2).status with same | ⟨-, undefined⟩
    · rw [same]
      exact mirrors.fresh other missed.1
    · exact .inr undefined
  callees other j hj := by
    by_cases here : other = iri
    · subst here
      exact List.mem_append_left _ (callees j hj)
    · rw [(kept other here).bodies] at hj
      exact List.mem_append_left _ (mirrors.callees other j hj)
  vars other ps defined := by
    by_cases here : other = iri
    · subst here
      exact vars ps defined
    · rw [(kept other here).bodies]
      exact mirrors.vars other ps (((kept other here).sameAt.definition ps).mpr defined)
  holds facts i h := by
    have taken (other) (h : other ∈ done) : target.Kept next other :=
      kept other fun same => new (same ▸ h)
    rcases List.mem_append.mp h with h | h
    · exact (mirrors.holds facts i h).trans (mirrors.holds_next taken facts i h)
    · have known := List.mem_singleton.mp h
      exact ⟨fun old => holds_of_plain same (fun j hj bare => (holds facts j hj bare).mp) known old,
        fun old => holds_of_plain same.symm (fun j hj bare => (holds facts j hj bare).mpr) known
          old⟩

end Mirrors

end Store

end RdfTemplates
