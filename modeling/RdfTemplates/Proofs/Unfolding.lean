import RdfTemplates.Proofs.Freshening
import Mathlib.Data.List.Nodup

/-!
# Giving arguments to a template

What a parameter takes is the argument, or its default in place of `none`; a
blank node as default may be any blank node. The body of a template comes out
filled in with a valuation whose values the parameters take. Every other such
valuation is reached from it by choosing labels for the new blank nodes.
-/

namespace RdfTemplates

namespace Parameter

/-- The values a parameter may have when it is given the term. -/
def Takes (p : Parameter) : Term → Term → Prop
  | .none, x => match p.default? with
    | some (.blank _) => ∃ c, x = .blank c
    | some d => x = d
    | none => x = .none
  | t, x => x = t

/-- Whether `none` given here is `none` in the body, unless the instance is dropped. -/
def keepsNone (p : Parameter) : Bool :=
  match p.default? with
  | some d => d.isNone
  | none => true

/-- Whether the parameter may be `none` in a body. -/
def mayBeNone (p : Parameter) : Bool := p.acceptsNone && p.keepsNone

/-- An argument that is not missing is taken as it is. -/
theorem takes_of_ne {p : Parameter} {t x : Term} (some_ : t ≠ .none) : p.Takes t x ↔ x = t := by
  cases t with
  | none => exact absurd rfl some_
  | _ => rfl

/-- A parameter takes its argument, its default, or a new blank node for one. -/
theorem takes_cases {p : Parameter} {t x : Term} (takes : p.Takes t x) :
    x = t ∨ ∃ d ∈ p.default?, x = d ∨ d.isBlank = true ∧ ∃ c, x = .blank c := by
  by_cases given : t = .none
  · subst given
    unfold Takes at takes
    cases has : p.default? with
    | none =>
        simp only [has] at takes
        exact .inl takes
    | some d =>
        refine .inr ⟨d, rfl, ?_⟩
        cases d with
        | blank b =>
            simp only [has] at takes
            exact .inr ⟨rfl, takes⟩
        | _ =>
            simp only [has] at takes
            exact .inl takes
  · exact .inl ((takes_of_ne given).mp takes)

theorem takes_of_keepsNone {p : Parameter} (keeps : p.keepsNone = true) {t x : Term} :
    p.Takes t x ↔ x = t := by
  cases t with
  | none =>
      unfold keepsNone at keeps
      unfold Takes
      cases default : p.default? with
      | none => rfl
      | some d =>
          rw [default] at keeps
          rw [Term.isNone_iff.mp keeps]
  | _ => rfl

theorem isOptional_of_mayBeNone {p : Parameter} (may : p.mayBeNone = true)
    (some_ : ∀ d ∈ p.default?, d.isNone = false) : p.isOptional = true := by
  obtain ⟨accepts, keeps⟩ := Bool.and_eq_true_iff.mp may
  have bare : p.default? = none := by
    cases has : p.default? with
    | none => rfl
    | some d =>
        rw [Parameter.keepsNone, has] at keeps
        exact absurd keeps (by simp [some_ d has])
  simpa [Parameter.acceptsNone, Parameter.hasDefault, bare] using accepts

theorem mayBeNone_of_isOptional {p : Parameter} (optional : p.isOptional = true)
    (plain : ∀ d ∈ p.default?, p.isOptional = false) : p.mayBeNone = true := by
  have bare : p.default? = none := by
    by_contra has
    obtain ⟨d, has⟩ := Option.ne_none_iff_exists'.mp has
    rw [plain d has] at optional
    cases optional
  simp [Parameter.mayBeNone, Parameter.acceptsNone, Parameter.keepsNone, optional, bare]

end Parameter

namespace ParameterList

theorem labelled?_of_mem {ps : ParameterList} (distinct : (ps.map (·.label)).Nodup)
    {p : Parameter} (h : p ∈ ps) : ps.labelled? p.label = some p := by
  have found : (ps.find? fun q => q.label == p.label).isSome :=
    List.find?_isSome.mpr ⟨p, h, BEq.rfl⟩
  obtain ⟨q, found⟩ := Option.isSome_iff_exists.mp found
  have same : q.label = p.label := by simpa using List.find?_some found
  rw [ParameterList.labelled?, found,
    List.inj_on_of_nodup_map distinct (List.mem_of_find?_eq_some found) h same]

end ParameterList

namespace Substitution

/-- What a parameter receives is what it takes. -/
theorem takes_received (p : Parameter) (t : Term) (supply : BlankSupply) :
    p.Takes t (received p t supply).1 := by
  unfold received Parameter.Takes
  cases t with
  | none => cases p.default? with
    | none => rfl
    | some d => cases d with
      | blank => exact ⟨_, rfl⟩
      | _ => rfl
  | _ => rfl

theorem received_grows (p : Parameter) (t : Term) (supply : BlankSupply) :
    supply.next ≤ (received p t supply).2.next := by
  unfold received
  split
  · exact Nat.le_succ _
  · exact Nat.le_refl _
  · exact Nat.le_refl _

/-- What it receives has no label that is yet to be minted. -/
theorem avoided_received {p : Parameter} {t : Term} {supply : BlankSupply}
    (argument : t.AvoidedBy supply) (default : ∀ d, p.default? = some d → d.AvoidedBy supply) :
    (received p t supply).1.AvoidedBy (received p t supply).2 := by
  unfold received
  split
  · intro c hc
    rw [List.mem_singleton.mp hc]
    exact supply.minted_label.avoids
  · rename_i given
    exact default _ given
  · exact argument

/-- What a parameter receives can be filled to be any value it takes, if `none` is not made
of something else and a default is left as it is. -/
theorem received_reads {p : Parameter} {t x : Term} {f : Filling} (supply : BlankSupply)
    (carried : t ≠ .none → t.fill f = .none → p.keepsNone = true)
    (fixed : t = .none → ∀ d, p.default? = some d → d.isBlank = false → d.fill f = d)
    (takes : p.Takes (t.fill f) x) :
    ∃ g, Filling.Agrees supply (received p t supply).2 f g ∧
      (received p t supply).1.fill g = x := by
  by_cases given : t = .none
  · subst given
    unfold received
    unfold Parameter.Takes at takes
    cases has : p.default? with
    | none =>
        simp only [has, Term.fill] at takes
        exact ⟨f, .refl _ _ f, takes.symm⟩
    | some d =>
        by_cases blank : d.isBlank = true
        · obtain ⟨b, rfl⟩ : ∃ b, d = .blank b := by
            cases d with
            | blank b => exact ⟨b, rfl⟩
            | _ => cases blank
          simp only [has, Term.fill] at takes
          obtain ⟨c, rfl⟩ := takes
          refine ⟨f.setLabel (BlankSupply.label supply.next) c, Filling.agrees_setLabel f supply c,
            ?_⟩
          exact congrArg Term.blank (Filling.blank_setLabel f _ _)
        · have kept := fixed rfl d has (by simpa using blank)
          refine ⟨f, .refl _ _ f, ?_⟩
          cases d with
          | blank b => exact absurd rfl blank
          | _ => simp only [has, Term.fill] at takes; exact kept.trans takes.symm
  · have same : received p t supply = (t, supply) := by
      unfold received
      cases t with
      | none => exact absurd rfl given
      | _ => rfl
    rw [same]
    refine ⟨f, .refl _ _ f, ?_⟩
    by_cases emptied : t.fill f = .none
    · exact ((Parameter.takes_of_keepsNone (carried given emptied)).mp takes).symm
    · exact ((Parameter.takes_of_ne emptied).mp takes).symm

/-- The argument and the default of the parameter have no label that is still to come. -/
def PairAvoided (supply : BlankSupply) (pair : Argument × Parameter) : Prop :=
  pair.1.term.AvoidedBy supply ∧ ∀ d, pair.2.default? = some d → d.AvoidedBy supply

theorem PairAvoided.grow {supply later : BlankSupply} {pair : Argument × Parameter}
    (avoided : PairAvoided supply pair) (grows : supply.next ≤ later.next) :
    PairAvoided later pair :=
  ⟨fun b h => (avoided.1 b h).grow grows, fun d has b h => (avoided.2 d has b h).grow grows⟩

/-- The parameter takes the value of the valuation when the argument is filled in. -/
structure CanTake (f : Filling) (v : Valuation) (pair : Argument × Parameter) : Prop where
  carried : pair.1.term ≠ .none → pair.1.term.fill f = .none → pair.2.keepsNone = true
  fixed : pair.1.term = .none → ∀ d, pair.2.default? = some d → d.isBlank = false → d.fill f = d
  takes : pair.2.Takes (pair.1.term.fill f) (v.value pair.2.label)

theorem CanTake.agrees {f g : Filling} {v : Valuation} {pair : Argument × Parameter}
    {supply later : BlankSupply} (can : CanTake f v pair) (avoided : PairAvoided supply pair)
    (agrees : Filling.Agrees supply later f g) : CanTake g v pair := by
  have same := agrees.fill_eq avoided.1
  refine ⟨fun some_ emptied => can.carried some_ (same ▸ emptied), fun none d has bare => ?_,
    same ▸ can.takes⟩
  rw [agrees.fill_eq (avoided.2 d has), can.fixed none d has bare]

namespace Freshening

variable {state next : Freshening} {pair : Argument × Parameter}

/-- One parameter bound to what it receives. -/
def give (state : Freshening) (pair : Argument × Parameter) : Freshening :=
  ⟨state.bindings.insert pair.2.term (received pair.2 pair.1.term state.supply).1,
    (received pair.2 pair.1.term state.supply).2⟩

/-- Parameters are bound one after the other. -/
theorem bindParameters_eq (pairs : List (Argument × Parameter)) (s : Substitution)
    (supply : BlankSupply) : bindParameters pairs s supply =
      ((pairs.foldl give ⟨s, supply⟩).bindings, (pairs.foldl give ⟨s, supply⟩).supply) := by
  induction pairs generalizing s supply with
  | nil => rfl
  | cons pair pairs ih =>
      obtain ⟨a, p⟩ := pair
      exact ih (s.insert p.term (received p a.term supply).1) (received p a.term supply).2

theorem beq_var {t : Term} {x : Variable} :
    (t == .var x) = true ↔ ∃ y, t = .var y ∧ y.label = x.label := by
  cases t <;> simp [Term.sameUnder_untyped _ _, Term.untyped]

theorem get?_give_self (state : Freshening) (pair : Argument × Parameter) {y : Variable}
    (same : y.label = pair.2.label) : (state.give pair).bindings.get? (.var y) =
      some (received pair.2 pair.1.term state.supply).1 := by
  rw [give, get?_insert, if_pos]
  exact beq_var.mpr ⟨y, rfl, same⟩

theorem get?_give_of_ne {k : Term} (apart : ∀ y, k = .var y → y.label ≠ pair.2.label) :
    (state.give pair).bindings.get? k = state.bindings.get? k := by
  rw [give, get?_insert, if_neg]
  intro same
  obtain ⟨y, rfl, equal⟩ := beq_var.mp same
  exact apart y rfl equal

/-- What is bound after a parameter was bound before or is what it received. -/
theorem get?_give {k u : Term} (bound : (state.give pair).bindings.get? k = some u) :
    (∃ y, k = .var y ∧ y.label = pair.2.label ∧
        u = (received pair.2 pair.1.term state.supply).1) ∨
      state.bindings.get? k = some u := by
  by_cases here : ∃ y, k = .var y ∧ y.label = pair.2.label
  · obtain ⟨y, rfl, same⟩ := here
    rw [get?_give_self state pair same] at bound
    exact .inl ⟨y, rfl, same, (Option.some.inj bound).symm⟩
  · rw [get?_give_of_ne fun y eq same => here ⟨y, eq, same⟩] at bound
    exact .inr bound

theorem Keyed.give (keyed : state.Keyed) (pair : Argument × Parameter) :
    (state.give pair).Keyed where
  keys := by
    intro k u bound
    rcases get?_give bound with ⟨y, rfl, -⟩ | old
    · exact .inl rfl
    · exact keyed.keys k u old
  blanks := by
    intro b u bound
    rcases get?_give bound with ⟨y, same, -⟩ | old
    · cases same
    · exact keyed.blanks b u old

/-- A parameter receives no label that could be minted again. -/
theorem Sound.give (sound : state.Sound) (avoided : PairAvoided state.supply pair) :
    (state.give pair).Sound where
  keyed := sound.keyed.give pair
  avoided := by
    intro k u bound
    rcases get?_give bound with ⟨y, rfl, -, rfl⟩ | old
    · exact avoided_received avoided.1 avoided.2
    · exact fun b hb => (sound.avoided k u old b hb).grow (received_grows _ _ _)

theorem reads_give {v : Valuation} {f : Filling} (sound : state.Sound)
    (reads : state.bindings.Reads v f) (can : CanTake f v pair) :
    ∃ g, Filling.Agrees state.supply (state.give pair).supply f g ∧
      (state.give pair).bindings.Reads v g := by
  obtain ⟨g, agrees, value⟩ :=
    received_reads state.supply can.carried can.fixed can.takes
  refine ⟨g, agrees, fun x u bound => ?_, fun b u bound => ?_⟩
  · rcases get?_give bound with ⟨y, eq, same, rfl⟩ | old
    · rw [value, Term.var.inj eq, same]
    · rw [agrees.fill_eq (sound.avoided _ u old), reads.vars x u old]
  · rcases get?_give bound with ⟨y, eq, -⟩ | old
    · cases eq
    · rw [agrees.fill_eq (sound.avoided _ u old), reads.blanks b u old]

variable {pairs : List (Argument × Parameter)}

theorem grows_give_all (pairs : List (Argument × Parameter)) (state : Freshening) :
    state.supply.next ≤ (pairs.foldl give state).supply.next := by
  induction pairs generalizing state with
  | nil => exact Nat.le_refl _
  | cons pair pairs ih => exact Nat.le_trans (received_grows _ _ _) (ih (state.give pair))

theorem Keyed.give_all (keyed : state.Keyed) (pairs : List (Argument × Parameter)) :
    (pairs.foldl Freshening.give state).Keyed := by
  induction pairs generalizing state with
  | nil => exact keyed
  | cons pair pairs ih => exact ih (keyed.give pair)

theorem Sound.give_all (sound : state.Sound)
    (avoided : ∀ pair ∈ pairs, PairAvoided state.supply pair) :
    (pairs.foldl Freshening.give state).Sound := by
  induction pairs generalizing state with
  | nil => exact sound
  | cons pair pairs ih =>
      exact ih (sound.give (avoided pair List.mem_cons_self)) fun other h =>
        (avoided other (List.mem_cons_of_mem pair h)).grow (received_grows _ _ _)

theorem get?_give_all_of_ne {k : Term}
    (apart : ∀ pair ∈ pairs, ∀ y, k = .var y → y.label ≠ pair.2.label) :
    (pairs.foldl give state).bindings.get? k = state.bindings.get? k := by
  induction pairs generalizing state with
  | nil => rfl
  | cons pair pairs ih =>
      rw [List.foldl_cons, ih fun other h => apart other (List.mem_cons_of_mem pair h),
        get?_give_of_ne (apart pair List.mem_cons_self)]

/-- What is bound in the end was bound before or is what some parameter takes. -/
theorem get?_give_all {k u : Term} (bound : (pairs.foldl give state).bindings.get? k = some u) :
    (∃ pair ∈ pairs, (∃ y, k = .var y ∧ y.label = pair.2.label) ∧ pair.2.Takes pair.1.term u) ∨
      state.bindings.get? k = some u := by
  induction pairs generalizing state with
  | nil => exact .inr bound
  | cons pair pairs ih =>
      rcases ih bound with ⟨other, listed, given⟩ | before
      · exact .inl ⟨other, List.mem_cons_of_mem pair listed, given⟩
      · rcases get?_give before with ⟨y, rfl, same, rfl⟩ | old
        · exact .inl ⟨pair, List.mem_cons_self, ⟨y, rfl, same⟩, takes_received _ _ _⟩
        · exact .inr old

theorem isSome_give_all {y : Variable} (bound : (state.bindings.get? (.var y)).isSome ∨
    ∃ pair ∈ pairs, y.label = pair.2.label) :
    ((pairs.foldl give state).bindings.get? (.var y)).isSome := by
  induction pairs generalizing state with
  | nil => exact bound.resolve_right (by simp)
  | cons pair pairs ih =>
      apply ih
      by_cases here : y.label = pair.2.label
      · rw [get?_give_self state pair here]
        exact .inl rfl
      · rw [get?_give_of_ne fun z same => Term.var.inj same ▸ here]
        refine bound.imp id ?_
        rintro ⟨other, listed, same⟩
        rcases List.mem_cons.mp listed with rfl | later
        · exact absurd same here
        · exact ⟨other, later, same⟩

/-- In the end each parameter is bound to what it takes. -/
theorem takes_give_all (state : Freshening) (distinct : (pairs.map (·.2.label)).Nodup)
    (h : pair ∈ pairs) :
    ∃ u, (pairs.foldl give state).bindings.get? pair.2.term = some u ∧
      pair.2.Takes pair.1.term u := by
  induction pairs generalizing state with
  | nil => cases h
  | cons other pairs ih =>
      obtain ⟨new, distinct⟩ := List.nodup_cons.mp distinct
      rcases List.mem_cons.mp h with rfl | h
      · refine ⟨_, ?_, takes_received pair.2 pair.1.term state.supply⟩
        rw [List.foldl_cons, get?_give_all_of_ne, Parameter.term, get?_give_self state pair rfl]
        intro later hl y eq same
        rw [Parameter.term] at eq
        rw [← Term.var.inj eq] at same
        exact new (List.mem_map.mpr ⟨later, hl, same.symm⟩)
      · exact ih (state.give other) distinct h

/-- A valuation that can take all parameters reads all of the bindings. -/
theorem reads_give_all {v : Valuation} {f : Filling} (sound : state.Sound)
    (reads : state.bindings.Reads v f)
    (avoided : ∀ pair ∈ pairs, PairAvoided state.supply pair)
    (can : ∀ pair ∈ pairs, CanTake f v pair) :
    ∃ g, Filling.Agrees state.supply (pairs.foldl give state).supply f g ∧
      (pairs.foldl give state).bindings.Reads v g := by
  induction pairs generalizing state f with
  | nil => exact ⟨f, .refl _ _ f, reads⟩
  | cons pair pairs ih =>
      have here := avoided pair List.mem_cons_self
      have later (other) (h : other ∈ pairs) := avoided other (List.mem_cons_of_mem pair h)
      obtain ⟨g, agrees, reads⟩ := reads_give sound reads (can pair List.mem_cons_self)
      obtain ⟨g', agrees', reads⟩ := ih (sound.give here) reads
        (fun other h => (later other h).grow (received_grows _ _ _))
        (fun other h => (can other (List.mem_cons_of_mem pair h)).agrees (later other h) agrees)
      exact ⟨g', agrees.trans agrees' (received_grows _ _ _) (grows_give_all pairs _), reads⟩

end Freshening

/-- What giving arguments to a template makes of its body. -/
structure Unfolds (args : ArgumentList) (ps : ParameterList) (body : List Instance)
    (supply left : BlankSupply) (w : Valuation) : Prop where
  takes : ∀ pair ∈ args.arguments.zip ps, pair.2.Takes pair.1.term (w.value pair.2.label)
  grows : supply.next ≤ left.next
  avoided : ∀ j ∈ body, (j.fill w.filling).AvoidedBy left
  reached : ∀ f v, (∀ pair ∈ args.arguments.zip ps, CanTake f v pair) →
    ∃ g, Filling.Agrees supply left f g ∧
      ∀ j ∈ body, (j.fill w.filling).fill g = j.fill v.filling

theorem keyed_empty (supply : BlankSupply) : (⟨empty, supply⟩ : Freshening).Keyed where
  keys := nofun
  blanks := nofun

theorem sound_empty (supply : BlankSupply) : (⟨empty, supply⟩ : Freshening).Sound where
  keyed := keyed_empty supply
  avoided := nofun

theorem reads_empty (v : Valuation) (f : Filling) : empty.Reads v f := ⟨nofun, nofun⟩

theorem exists_pair {args : ArgumentList} {ps : ParameterList} (arity : args.size = ps.length)
    {p : Parameter} (h : p ∈ ps) : ∃ a, (a, p) ∈ args.arguments.zip ps := by
  have listed : p ∈ (args.arguments.zip ps).map Prod.snd := by
    rw [List.map_snd_zip]
    · exact h
    · exact Nat.le_of_eq arity.symm
  obtain ⟨⟨a, q⟩, here, rfl⟩ := List.mem_map.mp listed
  exact ⟨a, here⟩

section Body

variable {args : ArgumentList} {ps : ParameterList} {body js : List Instance} {s : Substitution}
variable {supply bound left : BlankSupply}

/-- The substitution with all parameters bound. -/
def given (args : ArgumentList) (ps : ParameterList) (supply : BlankSupply) : Freshening :=
  (args.arguments.zip ps).foldl Freshening.give ⟨empty, supply⟩

/-- If the numbers agree, the arguments are given to the parameters. -/
theorem eq_given_of_ok (ok : ofArguments args ps supply = .ok (s, bound)) :
    args.size = ps.length ∧ s = (given args ps supply).bindings ∧
      bound = (given args ps supply).supply := by
  have arity : args.size = ps.length := by
    unfold ofArguments at ok
    split at ok
    · rename_i same
      exact beq_iff_eq.mp same
    · cases ok
  rw [ofArguments, if_pos (beq_iff_eq.mpr arity), Freshening.bindParameters_eq] at ok
  exact ⟨arity, Prod.mk.inj (Except.ok.inj ok).symm⟩

theorem takes_given (arity : args.size = ps.length) (distinct : (ps.map (·.label)).Nodup)
    {pair : Argument × Parameter} (h : pair ∈ args.arguments.zip ps) :
    ∃ u, (given args ps supply).bindings.get? pair.2.term = some u ∧
      pair.2.Takes pair.1.term u := by
  have parameters : (args.arguments.zip ps).map Prod.snd = ps :=
    List.map_snd_zip (Nat.le_of_eq arity.symm)
  have labels : (args.arguments.zip ps).map (·.2.label) = ps.map (·.label) := by
    calc (args.arguments.zip ps).map (·.2.label)
        = ((args.arguments.zip ps).map Prod.snd).map (·.label) := by rw [List.map_map]; rfl
      _ = ps.map (·.label) := by rw [parameters]
  exact Freshening.takes_give_all ⟨empty, supply⟩ (labels ▸ distinct) h

theorem vars_given (arity : args.size = ps.length)
    (closed : ∀ j ∈ body, ∀ x ∈ j.vars, x.label ∈ ps.map (·.label)) :
    ∀ j ∈ body, ∀ x ∈ j.vars, ((given args ps supply).bindings.get? (.var x)).isSome := by
  intro j hj x hx
  obtain ⟨p, hp, same⟩ := List.mem_map.mp (closed j hj x hx)
  obtain ⟨a, here⟩ := exists_pair arity hp
  exact Freshening.isSome_give_all (.inr ⟨(a, p), here, same.symm⟩)

/-- The body comes out filled in with what is bound in the end. -/
theorem applyBody_eq (ok : ofArguments args ps supply = .ok (s, bound))
    (applied : s.applyBody body bound = (js, left))
    (closed : ∀ j ∈ body, ∀ x ∈ j.vars, x.label ∈ ps.map (·.label)) :
    ∃ final : Freshening, (given args ps supply).Leads final ∧
      js = body.map (·.fill final.bindings.reading.filling) := by
  obtain ⟨arity, rfl, rfl⟩ := eq_given_of_ok ok
  have keyed : (given args ps supply).Keyed := (keyed_empty supply).give_all _
  obtain ⟨covers, filled⟩ := Freshening.freshenBody_eq body keyed
  obtain ⟨rfl, -⟩ := Prod.mk.inj applied.symm
  exact ⟨_, covers.leads, filled _ (.refl _) (vars_given arity closed)⟩

/-- The body comes out filled in, whatever labels the supply goes on with. -/
theorem exists_filled (ok : ofArguments args ps supply = .ok (s, bound))
    (applied : s.applyBody body bound = (js, left)) (distinct : (ps.map (·.label)).Nodup)
    (closed : ∀ j ∈ body, ∀ x ∈ j.vars, x.label ∈ ps.map (·.label)) :
    ∃ w : Valuation, js = body.map (·.fill w.filling) ∧
      ∀ pair ∈ args.arguments.zip ps, pair.2.Takes pair.1.term (w.value pair.2.label) := by
  obtain ⟨final, leads, filled⟩ := applyBody_eq ok applied closed
  refine ⟨final.bindings.reading, filled, fun pair h => ?_⟩
  obtain ⟨u, found, takes⟩ := takes_given (eq_given_of_ok ok).1 distinct h
  rwa [← value_reading (leads.kept _ u found)] at takes

/-- With labels that are not distinct, a variable still stands for what some parameter takes. -/
theorem exists_filled_vars (ok : ofArguments args ps supply = .ok (s, bound))
    (applied : s.applyBody body bound = (js, left))
    (closed : ∀ j ∈ body, ∀ x ∈ j.vars, x.label ∈ ps.map (·.label)) :
    ∃ w : Valuation, js = body.map (·.fill w.filling) ∧ ∀ j ∈ body, ∀ x ∈ j.vars,
      ∃ pair ∈ args.arguments.zip ps, pair.2.Takes pair.1.term (w.value x.label) := by
  obtain ⟨final, leads, filled⟩ := applyBody_eq ok applied closed
  refine ⟨final.bindings.reading, filled, fun j hj x hx => ?_⟩
  obtain ⟨u, found⟩ := Option.isSome_iff_exists.mp
    (vars_given (eq_given_of_ok ok).1 closed j hj x hx)
  rcases Freshening.get?_give_all found with ⟨pair, listed, -, takes⟩ | before
  · rw [← value_reading (leads.kept _ u found)] at takes
    exact ⟨pair, listed, takes⟩
  · cases before

/-- A body that is applied to arguments is filled by a valuation under which the parameters take
them. -/
theorem exists_unfolds (ok : ofArguments args ps supply = .ok (s, bound))
    (applied : s.applyBody body bound = (js, left)) (distinct : (ps.map (·.label)).Nodup)
    (closed : ∀ j ∈ body, ∀ x ∈ j.vars, x.label ∈ ps.map (·.label))
    (avoided : ∀ pair ∈ args.arguments.zip ps, PairAvoided supply pair) :
    ∃ w : Valuation, js = body.map (·.fill w.filling) ∧ Unfolds args ps body supply left w := by
  obtain ⟨arity, rfl, rfl⟩ := eq_given_of_ok ok
  let state := given args ps supply
  let final := (freshenBody body state).2
  obtain ⟨rfl, rfl⟩ : js = (freshenBody body state).1 ∧ left = final.supply :=
    Prod.mk.inj applied.symm
  have sound : state.Sound := (sound_empty supply).give_all avoided
  obtain ⟨covers, filled⟩ := Freshening.freshenBody_eq body sound.keyed
  have vars : ∀ j ∈ body, ∀ x ∈ j.vars, (state.bindings.get? (.var x)).isSome :=
    vars_given arity closed
  have finished := covers.leads.sound sound
  have bound (j) (hj : j ∈ body) (x) (hx : x ∈ j.vars) := covers.leads.isSome_get? (vars j hj x hx)
  have labelled (j) (hj : j ∈ body) (b) (hb : b ∈ j.blanks) :
      (final.bindings.get? (.blank b)).isSome := by
    obtain ⟨t, ht, hb⟩ := Instance.mem_blanks.mp hb
    exact covers.bound t (List.mem_flatMap.mpr ⟨j, hj, ht⟩) b hb
  refine ⟨final.bindings.reading, filled final (.refl final) vars, ⟨?_, ?_, ?_, ?_⟩⟩
  · intro pair h
    obtain ⟨u, found, takes⟩ := takes_given arity distinct h
    rwa [← value_reading (covers.leads.kept _ u found)] at takes
  · exact Nat.le_trans (Freshening.grows_give_all _ ⟨empty, supply⟩) covers.leads.grows
  · intro j hj b hb
    rcases Instance.mem_blanks_fill hb with ⟨x, hx, hb⟩ | ⟨c, hc, rfl⟩
    · obtain ⟨u, found⟩ := Option.isSome_iff_exists.mp (bound j hj x hx)
      rw [Valuation.filling_value, value_reading found] at hb
      exact finished.avoided _ u found b hb
    · obtain ⟨u, found⟩ := Option.isSome_iff_exists.mp (labelled j hj c hc)
      obtain ⟨d, rfl⟩ := finished.keyed.blanks c u found
      rw [Valuation.filling_blank, blank_reading found]
      exact finished.avoided _ _ found d (List.mem_singleton.mpr rfl)
  · intro f v can
    obtain ⟨g, agrees, reads⟩ :=
      Freshening.reads_give_all (sound_empty supply) (reads_empty v f) avoided can
    obtain ⟨g', agrees', reads⟩ := covers.leads.reads v g sound reads
    exact ⟨g', agrees.trans agrees' (Freshening.grows_give_all _ _) covers.leads.grows,
      fun j hj => Freshening.fill_reading reads finished.keyed.blanks (bound j hj) (labelled j hj)⟩

end Body

end Substitution

end RdfTemplates
