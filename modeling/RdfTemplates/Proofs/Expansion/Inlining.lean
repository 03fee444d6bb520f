import RdfTemplates.Proofs.Expansion.Models
import RdfTemplates.Expansion.Bodies

/-!
# Expanding a body keeps what it asks for

A step over an instance of a body keeps it, drops it, or puts other instances
in its place. Whatever the variables of the body stand for, the instance holds
exactly when those in its place hold, up to the labels that the step mints. For
this a variable that may stand for `none` has to be given to a parameter that
may be `none` too, and `none` itself must not bring in a blank node inside a
default.
-/

namespace RdfTemplates

namespace BodyExpansion

/-- The step looks into the definition of the instance. -/
structure LooksInto (e : BodyExpansion) (i : Instance) (ps : ParameterList) : Prop where
  accepted : e.accept i = true
  defined : e.target.status? i.iri = some (.definition ps)
  plain : i.arguments.expander = none
  arity : i.arguments.size = ps.length
  kept : i.isDiscarded ps = false
  optional : e.keepsOptional i ps = true

/-- What is `none` in the body stays `none` in the callee, and no other variable or label
comes in with a default. -/
def CarriesOver (e : BodyExpansion) (i : Instance) (ps : ParameterList) : Prop :=
  ∀ pair ∈ i.arguments.arguments.zip ps,
    (∀ x, pair.1.term = .var x → ∀ q ∈ e.parameters, q.label = x.label → q.mayBeNone = true →
      pair.2.mayBeNone = true) ∧
    (pair.1.term = .none → ∀ d, pair.2.default? = some d → d.isBlank = true ∨ d.blanks = [])

/-- The instances that come up while a body is expanded. -/
inductive Meets (e : BodyExpansion) (body : List Instance) : Instance → Prop where
  | body {i : Instance} (h : i ∈ body) : Meets e body i
  | place {i j : Instance} {p p' : Progress} {js : List Instance} (met : Meets e body i)
      (stepped : e.step i p = (.replace js, p')) (h : j ∈ js) : Meets e body j

/-- Every instance that is looked into carries over. -/
def Careful (e : BodyExpansion) (body : List Instance) : Prop :=
  ∀ i ps, e.Meets body i → e.LooksInto i ps → e.CarriesOver i ps

/-- What may come in the place of an instance. -/
inductive Replaces (e : BodyExpansion) (i : Instance) (supply : BlankSupply) :
    List Instance → BlankSupply → Prop where
  | lists {expander : ListExpander} (marked : i.arguments.expander = some expander)
      (known : i.arguments.canExpand = true) :
      Replaces e i supply ((expander.steps i.arguments.arguments).filterMap fun
        | .expanded args => some ⟨i.iri, args⟩
        | .exhausted .. => none) supply
  | dropped {ps : ParameterList} (plain : i.arguments.expander = none)
      (parameters : e.target.parameters? i.iri = some ps) (dropped : i.isDiscarded ps = true) :
      Replaces e i supply [] supply
  | unfolded {ps : ParameterList} {s : Substitution} {bound left : BlankSupply}
      {js : List Instance} (looks : e.LooksInto i ps)
      (given : Substitution.ofArguments i.arguments ps supply = .ok (s, bound))
      (applied : s.applyBody (e.target.bodyOf i.iri) bound = (js, left)) :
      Replaces e i supply js left

variable {e : BodyExpansion} {i : Instance} {p p' : Progress} {js : List Instance}

theorem known_iff {store : Store} {iri : Iri} {status : Status} {ps : ParameterList} :
    ((store.status? iri).bind fun s => s.parameters?.map ((s, ·))) = some (status, ps) ↔
      store.status? iri = some status ∧ status.parameters? = some ps := by
  cases store.status? iri with
  | none => simp
  | some s =>
      simp only [Option.bind_some, Option.map_eq_some_iff, Prod.mk.injEq, Option.some.injEq]
      constructor
      · rintro ⟨qs, has, rfl, rfl⟩
        exact ⟨rfl, has⟩
      · rintro ⟨rfl, has⟩
        exact ⟨ps, has, rfl, rfl⟩

theorem parameters_iff {store : Store} {iri : Iri} {ps : ParameterList} :
    store.parameters? iri = some ps ↔
      ∃ status, ((store.status? iri).bind fun s => s.parameters?.map ((s, ·))) =
        some (status, ps) := by
  rw [Store.parameters?, Option.bind_eq_some_iff]
  exact exists_congr fun status => known_iff.symm

theorem isDefinition_of_status {store : Store} {iri : Iri} {status : Status}
    (known : store.status? iri = some status) : store.isDefinition iri = status.isDefinition := by
  rw [Store.isDefinition, known]
  rfl

/-- All that a step over the instance may come to, and the progress it leaves. -/
inductive ComesTo (e : BodyExpansion) (i : Instance) (p : Progress) : Step → Progress → Prop where
  | rejected (h : e.accept i = false) : ComesTo e i p .keep p
  | unknown (h : e.target.parameters? i.iri = none) :
      ComesTo e i p .keep (pushError p (.missingDefinition i.iri))
  | unexpanded {expander : ListExpander} (marked : i.arguments.expander = some expander)
      (h : i.arguments.canExpand = false) : ComesTo e i p .keep p
  | arity {ps : ParameterList} (plain : i.arguments.expander = none)
      (parameters : e.target.parameters? i.iri = some ps) (h : i.arguments.size ≠ ps.length) :
      ComesTo e i p .keep (pushError p (.arity i.iri ps.length i.arguments.size))
  | guarded {ps : ParameterList} (plain : i.arguments.expander = none)
      (parameters : e.target.parameters? i.iri = some ps) (arity : i.arguments.size = ps.length)
      (kept : i.isDiscarded ps = false)
      (h : e.target.isDefinition i.iri = false ∨ e.keepsOptional i ps = false) :
      ComesTo e i p .keep p
  | lists {expander : ListExpander} {js : List Instance} {p' : Progress}
      (marked : i.arguments.expander = some expander) (known : i.arguments.canExpand = true)
      (listed : stepLists i expander p = (.replace js, p')) : ComesTo e i p (.replace js) p'
  | dropped {ps : ParameterList} (plain : i.arguments.expander = none)
      (parameters : e.target.parameters? i.iri = some ps) (dropped : i.isDiscarded ps = true) :
      ComesTo e i p (.replace []) p
  | unfolded {ps : ParameterList} {s : Substitution} {bound left : BlankSupply}
      {js : List Instance} (looks : e.LooksInto i ps)
      (given : Substitution.ofArguments i.arguments ps p.supply = .ok (s, bound))
      (applied : s.applyBody (e.target.bodyOf i.iri) bound = (js, left)) :
      ComesTo e i p (.replace js) { p with supply := left }

theorem comesTo_stepLists {expander : ListExpander} (marked : i.arguments.expander = some expander)
    (p : Progress) : e.ComesTo i p (stepLists i expander p).1 (stepLists i expander p).2 := by
  cases known : i.arguments.canExpand with
  | false =>
      have kept : stepLists i expander p = (.keep, p) := by simp [stepLists, known]
      rw [kept]
      exact .unexpanded marked known
  | true =>
      have listed : stepLists i expander p = (.replace _, _) := if_pos known
      rw [listed]
      exact .lists marked known listed

/-- The arity is right, so the arguments are taken. -/
theorem comesTo_unfold {ps : ParameterList} (looks : e.LooksInto i ps) (p : Progress) :
    e.ComesTo i p (e.unfold ps i p).1 (e.unfold ps i p).2 := by
  unfold unfold
  split
  · rename_i cause refused
    simp [Substitution.ofArguments, looks.arity] at refused
  · rename_i s bound given
    exact .unfolded looks given rfl

theorem comesTo_step (e : BodyExpansion) (i : Instance) (p : Progress) :
    e.ComesTo i p (e.step i p).1 (e.step i p).2 := by
  unfold step
  split
  · rename_i rejected
    exact .rejected (by simpa using rejected)
  · rename_i accepted
    split
    · rename_i unknown
      refine .unknown (Option.eq_none_iff_forall_ne_some.mpr fun ps parameters => ?_)
      obtain ⟨status, known⟩ := parameters_iff.mp parameters
      cases unknown.symm.trans known
    · rename_i status ps found
      have parameters := parameters_iff.mpr ⟨status, found⟩
      obtain ⟨known, has⟩ := known_iff.mp found
      split
      · rename_i expander marked
        exact comesTo_stepLists marked p
      · rename_i plain
        split
        · rename_i apart
          exact .arity plain parameters (by simpa using apart)
        · rename_i arity
          have arity : i.arguments.size = ps.length := by simpa using arity
          split
          · rename_i dropped
            exact .dropped plain parameters dropped
          · rename_i kept
            have kept : i.isDiscarded ps = false := by simpa using kept
            split
            · rename_i looked
              obtain ⟨definition, optional⟩ := Bool.and_eq_true_iff.mp looked
              refine comesTo_unfold ?_ p
              cases status with
              | definition qs =>
                  obtain rfl := Option.some.inj has
                  exact ⟨by simpa using accepted, known, plain, arity, kept, optional⟩
              | _ => cases definition
            · rename_i guarded
              refine .guarded plain parameters arity kept ?_
              rw [isDefinition_of_status known]
              simpa [← Bool.and_eq_false_iff] using guarded

theorem comesTo_of_step {step : Step} (stepped : e.step i p = (step, p')) :
    e.ComesTo i p step p' := by
  have comes := e.comesTo_step i p
  rwa [stepped] at comes

theorem replaces_of_step (stepped : e.step i p = (.replace js, p')) :
    e.Replaces i p.supply js p'.supply := by
  cases comesTo_of_step stepped with
  | lists marked known listed =>
      rw [stepLists, if_pos known] at listed
      cases listed
      exact .lists marked known
  | dropped plain parameters dropped => exact .dropped plain parameters dropped
  | unfolded looks given applied => exact .unfolded looks given applied

theorem supply_of_keep (stepped : e.step i p = (.keep, p')) : p'.supply = p.supply := by
  cases comesTo_of_step stepped <;> rfl

/-- Only parameters that may be `none` have the value `none`. -/
def Suits (v : Valuation) (ps : ParameterList) : Prop :=
  ∀ q ∈ ps, v.value q.label = .none → q.mayBeNone = true

def Within (i : Instance) (ps : ParameterList) : Prop :=
  ∀ x ∈ i.vars, x.label ∈ ps.map (·.label)

theorem suits_of_takes {args : ArgumentList} {ps : ParameterList} {v : Valuation}
    (arity : args.size = ps.length) (kept : (⟨i.iri, args⟩ : Instance).isDiscarded ps = false)
    (takes : ∀ pair ∈ args.arguments.zip ps, pair.2.Takes pair.1.term (v.value pair.2.label)) :
    Suits v ps := by
  intro q hq emptied
  obtain ⟨a, here⟩ := Substitution.exists_pair arity hq
  have taken := takes _ here
  rw [emptied] at taken
  have given : a.term = .none := by
    by_contra some_
    exact some_ ((Parameter.takes_of_ne some_).mp taken).symm
  have accepts : q.acceptsNone = true := by
    have listed : (a.term, q) ∈ args.terms.zip ps := by
      rw [ArgumentList.terms, List.zip_map_left]
      exact List.mem_map.mpr ⟨(a, q), here, rfl⟩
    have dropped := List.any_eq_false.mp kept _ listed
    simpa [given, Term.isNone] using dropped
  have keeps : q.keepsNone = true := by
    simp only [given, Parameter.Takes] at taken
    unfold Parameter.keepsNone
    cases has : q.default? with
    | none => rfl
    | some d =>
        rw [has] at taken
        cases d with
        | blank b =>
            obtain ⟨c, same⟩ := taken
            cases same
        | none => rfl
        | _ => cases taken
  rw [Parameter.mayBeNone, accepts, keeps]
  rfl

theorem takes_fill {q : Parameter} {t x : Term} {f : Filling}
    (carried : t ≠ .none → t.fill f = .none → q.keepsNone = true)
    (fixed : t = .none → ∀ d, q.default? = some d → d.isBlank = false → d.fill f = d)
    (takes : q.Takes t x) : q.Takes (t.fill f) (x.fill f) := by
  by_cases given : t = .none
  · subst given
    simp only [Parameter.Takes, Term.fill] at takes ⊢
    cases has : q.default? with
    | none =>
        rw [has] at takes
        rw [takes]
        rfl
    | some d =>
        rw [has] at takes
        cases d with
        | blank b =>
            obtain ⟨c, rfl⟩ := takes
            exact ⟨_, rfl⟩
        | _ =>
            rw [takes]
            exact fixed rfl _ has rfl
  · rw [(Parameter.takes_of_ne given).mp takes]
    by_cases emptied : t.fill f = .none
    · exact (Parameter.takes_of_keepsNone (carried given emptied)).mpr rfl
    · exact (Parameter.takes_of_ne emptied).mpr rfl

theorem fill_of_bare {d : Term} (vars : d.vars = []) (blanks : d.blanks = []) (f : Filling) :
    d.fill f = d := by
  have same : d.fill f = d.fill (.relabelling id) :=
    Term.fill_congr d (by simp [vars]) (by simp [blanks])
  rw [same, Filling.fill_relabelling_id]

theorem mayBeNone_of_emptied {ps : ParameterList} {v : Valuation} (carries : e.CarriesOver i ps)
    (within : Within i e.parameters) (suits : Suits v e.parameters)
    {pair : Argument × Parameter} (h : pair ∈ i.arguments.arguments.zip ps)
    (some_ : pair.1.term ≠ .none) (emptied : pair.1.term.fill v.filling = .none) :
    pair.2.mayBeNone = true := by
  obtain ⟨⟨t, m⟩, q⟩ := pair
  cases t with
  | var x =>
      have occurs : x ∈ i.vars := Instance.mem_vars.mpr
        ⟨.var x, List.mem_map_of_mem (List.of_mem_zip h).1, by simp [Term.vars]⟩
      obtain ⟨r, hr, same⟩ := List.mem_map.mp (within x occurs)
      have value : v.value r.label = .none := by rw [same]; exact emptied
      exact (carries _ h).1 x rfl r hr same (suits r hr value)
  | none => exact absurd rfl some_
  | list items =>
      rw [Term.fill_list] at emptied
      cases emptied
  | _ => cases emptied

/-- A default that comes in for `none` is left alone by every filling. -/
theorem fixed_of_carriesOver {ps : ParameterList} (carries : e.CarriesOver i ps)
    (closed : ∀ q ∈ ps, ∀ d, q.default? = some d → d.vars = []) (f : Filling)
    {pair : Argument × Parameter} (h : pair ∈ i.arguments.arguments.zip ps)
    (given : pair.1.term = .none) (d : Term) (has : pair.2.default? = some d)
    (bare : d.isBlank = false) : d.fill f = d := by
  rcases (carries _ h).2 given d has with blank | blanks
  · rw [bare] at blank
    cases blank
  · exact fill_of_bare (closed _ (List.of_mem_zip h).2 d has) blanks f

theorem kept_fill {ps : ParameterList} {v : Valuation} (carries : e.CarriesOver i ps)
    (within : Within i e.parameters) (suits : Suits v e.parameters)
    (kept : i.isDiscarded ps = false) : (i.fill v.filling).isDiscarded ps = false := by
  rw [Instance.isDiscarded, Instance.arguments_fill, ArgumentList.terms_mapTerms,
    ArgumentList.terms, List.map_map, List.zip_map_left, List.any_map, List.any_eq_false]
  rintro ⟨a, q⟩ h dropped
  obtain ⟨emptied, refused⟩ := Bool.and_eq_true_iff.mp dropped
  have refused : q.acceptsNone = false := by simpa using refused
  by_cases given : a.term = .none
  · have listed : (a.term, q) ∈ i.arguments.terms.zip ps := by
      rw [ArgumentList.terms, List.zip_map_left]
      exact List.mem_map.mpr ⟨(a, q), h, rfl⟩
    have kept := List.any_eq_false.mp kept _ listed
    simp [given, Term.isNone, refused] at kept
  · have may := mayBeNone_of_emptied carries within suits h given (Term.isNone_iff.mp emptied)
    rw [Parameter.mayBeNone, refused] at may
    cases may

section Step

open Expansion

variable {supply left : BlankSupply} {facts : Instance → Prop} {v : Valuation}

/-- The labels of the instance are not still to come, and its variables are parameters. -/
structure Fits (e : BodyExpansion) (supply : BlankSupply) (i : Instance) : Prop where
  avoided : i.AvoidedBy supply
  within : Within i e.parameters

theorem Fits.grow {later : BlankSupply} (fits : e.Fits supply i)
    (grows : supply.next ≤ later.next) : e.Fits later i :=
  ⟨fits.avoided.grow grows, fits.within⟩

theorem mem_lists {expander : ListExpander} {j : Instance}
    (h : j ∈ (expander.steps i.arguments.arguments).filterMap fun
      | .expanded args => some (⟨i.iri, args⟩ : Instance)
      | .exhausted .. => none) :
    ∃ args, .expanded args ∈ expander.steps i.arguments.arguments ∧ j = ⟨i.iri, args⟩ := by
  obtain ⟨step, made, same⟩ := List.mem_filterMap.mp h
  cases step with
  | expanded args => exact ⟨args, made, (Option.some.inj same).symm⟩
  | exhausted => cases same

theorem unfolds_of_looksInto {ps : ParameterList} {s : Substitution} {bound : BlankSupply}
    (closed : e.target.Closed) (defaults : e.target.DefaultsAvoided supply)
    (fits : e.Fits supply i) (looks : e.LooksInto i ps)
    (given : Substitution.ofArguments i.arguments ps supply = .ok (s, bound))
    (applied : s.applyBody (e.target.bodyOf i.iri) bound = (js, left)) :
    ∃ w : Valuation, js = (e.target.bodyOf i.iri).map (·.fill w.filling) ∧
      Substitution.Unfolds i.arguments ps (e.target.bodyOf i.iri) supply left w :=
  unfolds_of_becomes closed looks.defined given applied fits.avoided defaults

/-- What takes the place of an instance fits: a value is the argument, or a default, which has no
variable, or a new blank node. -/
theorem Replaces.fits (replaces : e.Replaces i supply js left) (closed : e.target.Closed)
    (defaults : e.target.DefaultsAvoided supply) (fits : e.Fits supply i) :
    supply.next ≤ left.next ∧ ∀ j ∈ js, e.Fits left j := by
  cases replaces with
  | lists =>
      refine ⟨Nat.le_refl _, fun j h => ?_⟩
      obtain ⟨args, made, rfl⟩ := mem_lists h
      refine ⟨avoided_step fits.avoided made, fun x hx => fits.within x ?_⟩
      obtain ⟨t, ht, hx⟩ := Instance.mem_vars.mp hx
      obtain ⟨a, ha, rfl⟩ := List.mem_map.mp ht
      obtain ⟨c, hc, hx⟩ := (ListExpansion.comesFrom_steps made ha).vars hx
      exact Instance.mem_vars.mpr ⟨c.term, List.mem_map_of_mem hc, hx⟩
  | dropped => exact ⟨Nat.le_refl _, nofun⟩
  | @unfolded ps _ _ _ _ looks given applied =>
      obtain ⟨w, rfl, unfolds⟩ := unfolds_of_looksInto closed defaults fits looks given applied
      refine ⟨unfolds.grows, fun j h => ?_⟩
      obtain ⟨j₀, hj, rfl⟩ := List.mem_map.mp h
      refine ⟨unfolds.avoided j₀ hj, fun x hx => ?_⟩
      obtain ⟨y, hy, hx⟩ := Instance.mem_vars_fill hx
      obtain ⟨q, hq, same⟩ := List.mem_map.mp (closed.vars looks.defined j₀ hj y hy)
      obtain ⟨a, here⟩ := Substitution.exists_pair looks.arity hq
      have taken := unfolds.takes _ here
      rw [Valuation.filling_value, ← same] at hx
      by_cases given : a.term = .none
      · simp only [given, Parameter.Takes] at taken
        cases has : q.default? with
        | none =>
            rw [has] at taken
            rw [taken] at hx
            cases hx
        | some d =>
            have bare := closed.defaults looks.defined q hq d has
            rw [has] at taken
            cases d with
            | blank =>
                obtain ⟨c, value⟩ := taken
                rw [value] at hx
                cases hx
            | _ =>
                rw [taken, bare] at hx
                cases hx
      · rw [(Parameter.takes_of_ne given).mp taken] at hx
        exact fits.within x (Instance.mem_vars.mpr
          ⟨a.term, List.mem_map_of_mem (List.of_mem_zip here).1, hx⟩)

theorem Replaces.iris (replaces : e.Replaces i supply js left) {j : Instance} (h : j ∈ js) :
    j.iri = i.iri ∨ ∃ k ∈ e.target.bodyOf i.iri, k.iri = j.iri := by
  cases replaces with
  | lists =>
      obtain ⟨args, -, rfl⟩ := mem_lists h
      exact .inl rfl
  | dropped => cases h
  | unfolded _ _ applied => exact .inr (iri_of_mem_applyBody applied h)

theorem valuation_of_agrees {g : Filling} (agrees : Filling.Agrees supply left v.filling g) :
    g = (⟨v.value, g.blank⟩ : Valuation).filling := by
  have value : g.value = fun x => v.value x.label := agrees.value
  rw [Valuation.filling, ← value]

/-- What an instance of the body asks for, its replacements ask for, under other labels. -/
theorem Replaces.holds (replaces : e.Replaces i supply js left) (closed : e.target.Closed)
    (defaults : e.target.DefaultsAvoided supply) (fits : e.Fits supply i)
    (careful : ∀ ps, e.LooksInto i ps → e.CarriesOver i ps) (suits : Suits v e.parameters)
    (holds : Holds e.target facts (i.fill v.filling)) :
    ∃ labels, Filling.Agrees supply left v.filling (⟨v.value, labels⟩ : Valuation).filling ∧
      ∀ j ∈ js, Holds e.target facts (j.fill (⟨v.value, labels⟩ : Valuation).filling) := by
  cases replaces with
  | @lists expander marked known =>
      refine ⟨v.blank, .refl _ _ v.filling, fun j h => ?_⟩
      obtain ⟨args, made, rfl⟩ := mem_lists h
      cases resolved : e.target.isResolved i.iri with
      | false => exact .unresolved resolved
      | true =>
          refine holds.step resolved marked (ArgumentList.canExpand_fill _ known) ?_
          rw [Instance.arguments_fill, ListExpander.steps_fill _ known]
          exact List.mem_map.mpr ⟨_, made, rfl⟩
  | dropped => exact ⟨v.blank, .refl _ _ v.filling, nofun⟩
  | @unfolded ps _ _ _ _ looks given applied =>
      obtain ⟨w, rfl, unfolds⟩ := unfolds_of_looksInto closed defaults fits looks given applied
      have carries := careful ps looks
      have inOrder : InOrder false ps (i.fill v.filling) :=
        ⟨looks.plain, by simpa using looks.arity,
          kept_fill carries fits.within suits looks.kept, nofun⟩
      obtain ⟨u, takes, body⟩ := holds.body looks.defined inOrder
      have can : ∀ pair ∈ i.arguments.arguments.zip ps,
          Substitution.CanTake v.filling u pair := by
        rintro ⟨a, q⟩ h
        refine ⟨fun some_ emptied => ?_,
          fixed_of_carriesOver carries (closed.defaults looks.defined) v.filling h,
          takes _ (Instance.mem_zip_fill h)⟩
        have may := mayBeNone_of_emptied carries fits.within suits h some_ emptied
        exact (Bool.and_eq_true_iff.mp may).2
      obtain ⟨g, agrees, reached⟩ := unfolds.reached v.filling u can
      have same := valuation_of_agrees agrees
      rw [same] at agrees reached
      refine ⟨g.blank, agrees, fun j h => ?_⟩
      obtain ⟨j₀, hj, rfl⟩ := List.mem_map.mp h
      rw [reached j₀ hj]
      exact body j₀ hj

/-- What the replacements ask for is enough for the instance. -/
theorem Replaces.holds_back (replaces : e.Replaces i supply js left) (closed : e.target.Closed)
    (defaults : e.target.DefaultsAvoided supply) (fits : e.Fits supply i)
    (careful : ∀ ps, e.LooksInto i ps → e.CarriesOver i ps) (suits : Suits v e.parameters)
    (holds : ∀ j ∈ js, Holds e.target facts (j.fill v.filling)) :
    Holds e.target facts (i.fill v.filling) := by
  cases replaces with
  | @lists expander marked known =>
      refine .lists marked fun args made => ?_
      rw [Instance.arguments_fill, ListExpander.steps_fill _ known] at made
      obtain ⟨step, made, same⟩ := List.mem_map.mp made
      cases step with
      | exhausted => cases same
      | expanded args' =>
          rw [← ExpansionStep.expanded.inj same]
          exact holds ⟨i.iri, args'⟩ (List.mem_filterMap.mpr ⟨_, made, rfl⟩)
  | @dropped ps plain parameters dropped =>
      refine .discarded plain parameters ?_
      obtain ⟨⟨t, q⟩, h, empty⟩ := List.any_eq_true.mp dropped
      obtain ⟨none, refused⟩ := Bool.and_eq_true_iff.mp empty
      refine List.any_eq_true.mpr ⟨(t.fill v.filling, q), ?_, ?_⟩
      · rw [Instance.arguments_fill, ArgumentList.terms_mapTerms, List.zip_map_left]
        exact List.mem_map.mpr ⟨(t, q), h, rfl⟩
      · rw [Term.isNone_iff.mp none]
        simpa [Term.fill, Term.isNone] using refused
  | @unfolded ps _ _ _ _ looks given applied =>
      obtain ⟨w, rfl, unfolds⟩ := unfolds_of_looksInto closed defaults fits looks given applied
      have carries := careful ps looks
      let u : Valuation := ⟨fun l => (w.value l).fill v.filling, fun b => v.blank (w.blank b)⟩
      refine .unfolded u looks.defined looks.plain ?_ fun j hj => ?_
      · intro pair h
        obtain ⟨a, q, here, rfl⟩ := Instance.mem_filled_zip h
        refine takes_fill (fun some_ emptied => ?_)
          (fixed_of_carriesOver carries (closed.defaults looks.defined) v.filling here)
          (unfolds.takes _ here)
        have may := mayBeNone_of_emptied carries fits.within suits here some_ emptied
        exact (Bool.and_eq_true_iff.mp may).2
      · have filled := holds _ (List.mem_map_of_mem hj)
        rwa [Instance.fill_fill] at filled

end Step

/-- What a body comes to by steps over its instances. A run may stop anywhere and leaves the
rest as it is. -/
inductive Expands (e : BodyExpansion) :
    List Instance → BlankSupply → List Instance → BlankSupply → Prop where
  | stop (pending : List Instance) (supply : BlankSupply) :
      Expands e pending supply pending supply
  | keep {i : Instance} {rest out : List Instance} {supply left : BlankSupply}
      (tail : Expands e rest supply out left) : Expands e (i :: rest) supply (i :: out) left
  | replace {i : Instance} {js rest out : List Instance} {p p' : Progress} {left : BlankSupply}
      (stepped : e.step i p = (.replace js, p'))
      (tail : Expands e (js ++ rest) p'.supply out left) :
      Expands e (i :: rest) p.supply out left

section Run

open Expansion

variable {facts : Instance → Prop} {v : Valuation} {body pending out : List Instance}
variable {supply left : BlankSupply}

theorem expands_runOnto (e : BodyExpansion) (budget : Nat) (pending : List Instance)
    (p : Progress) (found : List Instance) :
    ∃ out, (e.runOnto budget pending p found).1 = out.reverse ++ found ∧
      e.Expands pending p.supply out (e.runOnto budget pending p found).2.supply := by
  induction budget generalizing pending p found with
  | zero =>
      cases pending with
      | nil => exact ⟨[], rfl, .stop [] p.supply⟩
      | cons i rest => exact ⟨i :: rest, rfl, .stop (i :: rest) p.supply⟩
  | succ budget ih =>
      cases pending with
      | nil => exact ⟨[], rfl, .stop [] p.supply⟩
      | cons i rest =>
          cases stepped : e.step i p with
          | mk step p' =>
              cases step with
              | keep =>
                  obtain ⟨out, same, expands⟩ := ih rest p' (i :: found)
                  rw [supply_of_keep stepped] at expands
                  rw [runOnto, stepped]
                  exact ⟨i :: out, by simp [same], .keep expands⟩
              | replace js =>
                  obtain ⟨out, same, expands⟩ := ih (js ++ rest) p' found
                  rw [runOnto, stepped]
                  exact ⟨out, same, .replace stepped expands⟩

theorem expands_run (e : BodyExpansion) (body : List Instance) (p : Progress) :
    e.Expands body p.supply (e.run body p).1 (e.run body p).2.supply := by
  obtain ⟨out, same, expands⟩ := expands_runOnto e e.maxSteps body p []
  have whole : (e.run body p).1 = out := by simp [run, same]
  rw [whole]
  exact expands

theorem Replaces.fits_append {i : Instance} {js rest : List Instance}
    (replaces : e.Replaces i supply js left) (closed : e.target.Closed)
    (defaults : e.target.DefaultsAvoided supply) (todo : ∀ j ∈ i :: rest, e.Fits supply j) :
    supply.next ≤ left.next ∧ ∀ j ∈ js ++ rest, e.Fits left j := by
  obtain ⟨grows, placed⟩ := replaces.fits closed defaults (todo i List.mem_cons_self)
  refine ⟨grows, fun j h => ?_⟩
  rcases List.mem_append.mp h with h | h
  · exact placed j h
  · exact (todo j (List.mem_cons_of_mem i h)).grow grows

theorem Meets.append {i : Instance} {js rest : List Instance} {p p' : Progress}
    (stepped : e.step i p = (.replace js, p')) (met : ∀ j ∈ i :: rest, e.Meets body j) :
    ∀ j ∈ js ++ rest, e.Meets body j := by
  intro j h
  rcases List.mem_append.mp h with h | h
  · exact .place (met i List.mem_cons_self) stepped h
  · exact met j (List.mem_cons_of_mem i h)

namespace Expands

theorem fits (expands : e.Expands pending supply out left) (closed : e.target.Closed)
    (defaults : e.target.DefaultsAvoided supply) (todo : ∀ i ∈ pending, e.Fits supply i) :
    supply.next ≤ left.next ∧ ∀ i ∈ out, e.Fits left i := by
  induction expands with
  | stop => exact ⟨Nat.le_refl _, todo⟩
  | @keep i rest _ _ _ tail ih =>
      obtain ⟨grows, kept⟩ := ih defaults fun j h => todo j (List.mem_cons_of_mem i h)
      refine ⟨grows, fun j h => ?_⟩
      rcases List.mem_cons.mp h with rfl | h
      · exact (todo j List.mem_cons_self).grow grows
      · exact kept j h
  | replace stepped tail ih =>
      obtain ⟨grows, placed⟩ := (replaces_of_step stepped).fits_append closed defaults todo
      obtain ⟨later, kept⟩ := ih (defaults.grow grows) placed
      exact ⟨Nat.le_trans grows later, kept⟩

theorem iris (expands : e.Expands pending supply out left) {known : Iri → Prop}
    (closed : ∀ iri, known iri → ∀ k ∈ e.target.bodyOf iri, known k.iri)
    (todo : ∀ i ∈ pending, known i.iri) : ∀ i ∈ out, known i.iri := by
  induction expands with
  | stop => exact todo
  | @keep i rest _ _ _ tail ih =>
      intro j h
      rcases List.mem_cons.mp h with rfl | h
      · exact todo j List.mem_cons_self
      · exact ih (fun k hk => todo k (List.mem_cons_of_mem i hk)) j h
  | @replace i _ rest _ _ _ _ stepped tail ih =>
      refine ih fun j h => ?_
      rcases List.mem_append.mp h with h | h
      · rcases (replaces_of_step stepped).iris h with same | ⟨k, hk, same⟩
        · exact same ▸ todo i List.mem_cons_self
        · exact same ▸ closed i.iri (todo i List.mem_cons_self) k hk
      · exact todo j (List.mem_cons_of_mem i h)

theorem holds (expands : e.Expands pending supply out left) (closed : e.target.Closed)
    (careful : e.Careful body) (suits : Suits v e.parameters)
    (defaults : e.target.DefaultsAvoided supply) (met : ∀ i ∈ pending, e.Meets body i)
    (todo : ∀ i ∈ pending, e.Fits supply i)
    (asked : ∀ i ∈ pending, Holds e.target facts (i.fill v.filling)) :
    ∃ labels, Filling.Agrees supply left v.filling (⟨v.value, labels⟩ : Valuation).filling ∧
      ∀ i ∈ out, Holds e.target facts (i.fill (⟨v.value, labels⟩ : Valuation).filling) := by
  induction expands generalizing v with
  | stop => exact ⟨v.blank, .refl _ _ v.filling, asked⟩
  | @keep i rest _ _ _ tail ih =>
      obtain ⟨labels, agrees, found⟩ := ih suits defaults
        (fun j h => met j (List.mem_cons_of_mem i h)) (fun j h => todo j (List.mem_cons_of_mem i h))
        fun j h => asked j (List.mem_cons_of_mem i h)
      refine ⟨labels, agrees, fun j h => ?_⟩
      rcases List.mem_cons.mp h with rfl | h
      · rw [agrees.instance_eq (todo j List.mem_cons_self).avoided]
        exact asked j List.mem_cons_self
      · exact found j h
  | @replace i _ rest _ _ _ _ stepped tail ih =>
      have replaces := replaces_of_step stepped
      obtain ⟨grows, placed⟩ := replaces.fits_append closed defaults todo
      obtain ⟨labels, agrees, inside⟩ := replaces.holds closed defaults
        (todo i List.mem_cons_self) (fun ps => careful i ps (met i List.mem_cons_self)) suits
        (asked i List.mem_cons_self)
      obtain ⟨labels', agrees', found⟩ := ih (v := ⟨v.value, labels⟩) suits (defaults.grow grows)
        (Meets.append stepped met) placed fun j h => by
          rcases List.mem_append.mp h with h | h
          · exact inside j h
          · have later := List.mem_cons_of_mem i h
            rw [agrees.instance_eq (todo j later).avoided]
            exact asked j later
      have grows' := (tail.fits closed (defaults.grow grows) placed).1
      exact ⟨labels', agrees.trans agrees' grows grows', found⟩

theorem holds_back (expands : e.Expands pending supply out left) (closed : e.target.Closed)
    (careful : e.Careful body) (suits : Suits v e.parameters)
    (defaults : e.target.DefaultsAvoided supply) (met : ∀ i ∈ pending, e.Meets body i)
    (todo : ∀ i ∈ pending, e.Fits supply i)
    (found : ∀ i ∈ out, Holds e.target facts (i.fill v.filling)) :
    ∀ i ∈ pending, Holds e.target facts (i.fill v.filling) := by
  induction expands with
  | stop => exact found
  | @keep i rest _ _ _ tail ih =>
      intro j h
      rcases List.mem_cons.mp h with rfl | h
      · exact found j List.mem_cons_self
      · exact ih defaults (fun k hk => met k (List.mem_cons_of_mem i hk))
          (fun k hk => todo k (List.mem_cons_of_mem i hk))
          (fun k hk => found k (List.mem_cons_of_mem i hk)) j h
  | @replace i _ rest _ _ _ _ stepped tail ih =>
      have replaces := replaces_of_step stepped
      obtain ⟨grows, placed⟩ := replaces.fits_append closed defaults todo
      have asked := ih (defaults.grow grows) (Meets.append stepped met) placed found
      intro j h
      rcases List.mem_cons.mp h with rfl | h
      · exact replaces.holds_back closed defaults (todo j List.mem_cons_self)
          (fun ps => careful j ps (met j List.mem_cons_self)) suits
          fun k hk => asked k (List.mem_append_left _ hk)
      · exact asked j (List.mem_append_right _ h)

end Expands

end Run

end BodyExpansion

end RdfTemplates
