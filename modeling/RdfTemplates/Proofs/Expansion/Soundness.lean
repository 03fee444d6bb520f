import RdfTemplates.Proofs.WellGiven

/-!
# What the checks promise of an expansion

Where the checks find no error, an expansion meets no template without a
definition and no wrong number of arguments. Whether the arguments fit is
another matter, for no check looks at every place of a body. If the bodies are
well given and the arguments fit, all arguments that the expansion comes to fit,
and only a zip can go wrong whose lists have different lengths.
-/

namespace RdfTemplates

/-- Instances with one property, and errors with another. -/
def Work.Safe (P : Instance → Prop) (Q : ExpansionError → Prop) : Work → Prop
  | .edge i => P i
  | .failed e => Q e

def Resolution.Safe (P : Instance → Prop) (Q : ExpansionError → Prop) : Resolution → Prop
  | .item x => ∀ e, x = .error e → Q e
  | .work pending => ∀ w ∈ pending, w.Safe P Q

namespace Expansion

variable {store : Store} {config : ExpansionConfig} {supply left : BlankSupply}

end Expansion

namespace Store

/-- Some body zips lists up to the end of the longest one. -/
def ZipsLongest (store : Store) : Prop :=
  ∃ iri ps, store.status? iri = some (.definition ps) ∧
    ∃ i ∈ store.bodyOf iri, i.arguments.expander = some .zipMax

end Store

namespace Expansion

/-- The instance has the arguments its template asks for, and they fit if anything fits. -/
structure Sound (store : Store) (well : Prop) (i : Instance) : Prop where
  resolved : store.isResolved i.iri = true
  given : ∃ ps, store.parameters? i.iri = some ps ∧ i.arguments.size = ps.length ∧
    (well → i.fits ps = true)
  zips : i.arguments.expander = some .zipMax → store.ZipsLongest

/-- The error is none of those the checks rule out, and one of a few if all arguments fit. -/
structure Tolerated (store : Store) (config : ExpansionConfig) (well : Prop)
    (e : ExpansionError) : Prop where
  defined : ∀ iri, e ≠ .missingDefinition iri
  arity : ∀ iri expected got, e ≠ .arity iri expected got
  substitution : ∀ cause, e ≠ .substitution cause
  few : well → e = .stepLimit config.maxSteps ∨
    store.ZipsLongest ∧ ∃ inst step positions, e = .exhausted inst step positions

variable {store : Store} {config : ExpansionConfig} {well : Prop} {i : Instance}

theorem Sound.ofStep (sound : Sound store well i) {expander : ListExpander}
    (marked : i.arguments.expander = some expander) {args : ArgumentList}
    (step : .expanded args ∈ expander.steps i.arguments.arguments) :
    Sound store well ⟨i.iri, args⟩ where
  resolved := sound.resolved
  given := by
    obtain ⟨ps, declared, arity, fits⟩ := sound.given
    have lengths := (ListExpansion.forall₂_steps step).length_eq
    exact ⟨ps, declared, lengths.symm.trans arity,
      fun ok => Instance.fits_step marked (fits ok) step (plain_of_mem_steps step)⟩
  zips := by
    intro zipped
    cases (plain_of_mem_steps step).symm.trans zipped

theorem Tolerated.exhausted (sound : Sound store well i) {expander : ListExpander}
    (marked : i.arguments.expander = some expander) {step : Nat} {positions : List Nat}
    (made : .exhausted step positions ∈ expander.steps i.arguments.arguments) :
    Tolerated store config well (i.exhaustedAt step positions) where
  defined := nofun
  arity := nofun
  substitution := nofun
  few := by
    intro _
    have zipped := ListExpansion.eq_zipMax_of_exhausted made
    exact .inr ⟨sound.zips (zipped ▸ marked), i.text, step, positions, rfl⟩

theorem Tolerated.stepLimit : Tolerated store config well (.stepLimit config.maxSteps) where
  defined := nofun
  arity := nofun
  substitution := nofun
  few := fun _ => .inl rfl

/-- An argument that does not fit is found only where not everything fits. -/
theorem Tolerated.rejected {ps : ParameterList} {e : ExpansionError}
    (plain : i.arguments.expander = none) (wrong : i.checkArguments ps = some e)
    (fits : well → i.fits ps = true) : Tolerated store config well e := by
  have never (ok : well) : False := by
    rw [Instance.checkArguments_of_fits plain (fits ok)] at wrong
    cases wrong
  obtain ⟨t, p, position, -, wrong⟩ := checkArguments_eq_some wrong
  rcases checkArgument_eq_some wrong with rfl | rfl
  · exact ⟨nofun, nofun, nofun, fun ok => (never ok).elim⟩
  · exact ⟨nofun, nofun, nofun, fun ok => (never ok).elim⟩

theorem Tolerated.stuck (sound : Sound store well i) {expander : ListExpander}
    (marked : i.arguments.expander = some expander) (unknown : i.arguments.canExpand = false) :
    Tolerated store config well (.unresolvedExpander i.text) where
  defined := nofun
  arity := nofun
  substitution := nofun
  few := by
    intro ok
    obtain ⟨ps, -, arity, fits⟩ := sound.given
    rw [Instance.canExpand_of_fits marked arity (fits ok)] at unknown
    cases unknown

/-- The values of the parameters fit when the arguments and the defaults do. -/
theorem fits_values {ps : ParameterList} (wellGiven : store.WellGiven)
    (defined : store.status? i.iri = some (.definition ps)) (plain : i.arguments.expander = none)
    (arity : i.arguments.size = ps.length) (fits : i.fits ps = true) {w : Valuation}
    (takes : ∀ pair ∈ i.arguments.arguments.zip ps,
      pair.2.Takes pair.1.term (w.value pair.2.label)) :
    ∀ p ∈ ps, p.fits p.type (w.value p.label) = true := by
  intro p hp
  obtain ⟨a, pair⟩ := Substitution.exists_pair arity hp
  have argument := Instance.fits_iff.mp fits a p pair
  rw [Instance.asked_plain plain] at argument
  exact Parameter.fits_takes argument (wellGiven.defaults defined p hp) (takes (a, p) pair)

theorem parameters_of_resolved {iri : Iri} (resolved : store.isResolved iri = true) :
    ∃ ps, store.parameters? iri = some ps := by
  obtain ⟨ps, known⟩ := resolved_iff.mp resolved
  exact ⟨ps, Store.parameters_of_status known⟩

section Step

variable (wf : store.WellFormed) (checked : store.Checked)
variable (resolved : ∀ iri, (store.status? iri).isSome → store.isResolved iri = true)
variable (wellGiven : well → store.WellGiven)

include wf checked resolved wellGiven

theorem Sound.ofBody (sound : Sound store well i) {ps : ParameterList} {s : Substitution}
    {supply bound left : BlankSupply} {body : List Instance}
    (defined : store.status? i.iri = some (.definition ps)) (plain : i.arguments.expander = none)
    (ok : Substitution.ofArguments i.arguments ps supply = .ok (s, bound))
    (applied : s.applyBody (store.bodyOf i.iri) bound = (body, left)) :
    ∀ j ∈ body, Sound store well j := by
  have declared := Store.parameters_of_definition defined
  obtain ⟨w, rfl, takes⟩ := Substitution.exists_filled ok applied
    (checked.labels _ _ declared) (checked.closed _ _ defined)
  intro j hj
  obtain ⟨k, hk, rfl⟩ := List.mem_map.mp hj
  have known := resolved k.iri (wf.callee_of_mem_bodyOf hk)
  obtain ⟨qs, callee⟩ := parameters_of_resolved known
  refine ⟨known, ⟨qs, callee, ?_, fun fine => ?_⟩,
    fun zipped => ⟨i.iri, ps, defined, k, hk, zipped⟩⟩
  · rw [Instance.arguments_fill, ArgumentList.size_mapTerms]
    exact checked.arity ps k qs ⟨⟨i.iri, defined, hk⟩, callee⟩
  · obtain ⟨ps', declared', arity, fits⟩ := sound.given
    obtain rfl := Option.some.inj (declared.symm.trans declared')
    exact (wellGiven fine).fits_body checked defined hk callee
      (fits_values (wellGiven fine) defined plain arity (fits fine) takes)

/-- Whatever a sound instance becomes is sound, and its errors are tolerated. -/
theorem Sound.becomes (sound : Sound store well i) {supply left : BlankSupply} {r : Resolution}
    (head : Becomes store config.checkArguments i supply r left) :
    r.Safe (Sound store well) (Tolerated store config well) := by
  obtain ⟨ps, declared, arity, fits⟩ := sound.given
  cases head with
  | missing unresolved =>
      rw [sound.resolved] at unresolved
      cases unresolved
  | stuck _ marked unknown =>
      intro e same
      rw [← Except.error.inj same]
      exact .stuck sound marked unknown
  | lists _ marked _ =>
      intro v listed
      obtain ⟨step, made, rfl⟩ := List.mem_map.mp listed
      cases step with
      | expanded args => exact sound.ofStep marked made
      | exhausted step positions => exact .exhausted sound marked made
  | arity _ parameters _ apart =>
      obtain rfl := Option.some.inj (declared.symm.trans parameters)
      exact absurd arity apart
  | discarded => exact nofun
  | rejected _ parameters plain _ _ _ wrong =>
      obtain rfl := Option.some.inj (declared.symm.trans parameters)
      intro e same
      rw [← Except.error.inj same]
      exact .rejected plain wrong fits
  | fact => exact nofun
  | unfolded defined inOrder ok applied =>
      intro v listed
      obtain ⟨j, hj, rfl⟩ := List.mem_map.mp listed
      exact sound.ofBody wf checked resolved wellGiven defined inOrder.plain ok applied j hj

end Step

/-- A room with things on shelves, in lists that are given, passed on or filled in by default. -/
def room : ParameterList :=
  [⟨⟨"name", .top⟩, ⟨false, true⟩, none⟩, ⟨⟨"things", .neList .top⟩, ⟨false, true⟩, none⟩]

end Expansion

end RdfTemplates
