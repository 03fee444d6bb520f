import RdfTemplates.Proofs.Checks.Reports
import RdfTemplates.Proofs.Store.Views

/-!
# What the checks of parameters report

A parameter is unused if no variable labelled like it stands at any place of the body, a
variable of a body is undeclared if no parameter is labelled like it, and two parameters
repeat each other if their labels are the same. The three checks report just that. Labels
are all that counts: types, flags and defaults make no difference.
-/

namespace RdfTemplates

namespace Store

variable {store : Store}

/-- The parameter at the position of a definition has no place in the body. -/
def Unused (store : Store) (iri : Iri) (k : Nat) : Prop :=
  ∃ ps p, store.status? iri = some (.definition ps) ∧ ps[k]? = some p ∧
    ∀ x place, store.StandsAt iri (.var x) place → x.label ≠ p.label

/-- The variable has a place in the body, and no parameter is labelled like it. -/
def Undeclared (store : Store) (iri : Iri) (x : Variable) : Prop :=
  (∃ place, store.StandsAt iri (.var x) place) ∧
    ∀ ps, store.parameters? iri = some ps → ∀ p ∈ ps, p.label ≠ x.label

/-- The parameters at the two positions, in this order, are labelled alike. -/
def Repeats (store : Store) (iri : Iri) (k l : Nat) : Prop :=
  k < l ∧ ∃ ps p q, store.parameters? iri = some ps ∧ ps[k]? = some p ∧ ps[l]? = some q ∧
    p.label = q.label

end Store

namespace Check

open Query

variable {store : Store} {iri : Iri}

@[simp] theorem bne_int (a b : Nat) : (Value.int a != Value.int b) = (a != b) := rfl

@[simp] theorem beq_term (a b : Term) : (Value.term a == Value.term b) = (a == b) := rfl

theorem beq_variables {x y : Variable} :
    (Term.var x == Term.var y) = true ↔ x.label = y.label := by
  simp [Term.sameUnder_untyped _ _, Term.untyped]

theorem beq_variable_iff {x : Variable} {u : Term} :
    (Term.var x == u) = true ↔ ∃ y, u = .var y ∧ x.label = y.label := by
  constructor
  · intro same
    cases u with
    | var y => exact ⟨y, rfl, beq_variables.mp same⟩
    | _ => cases same
  · rintro ⟨y, rfl, same⟩
    exact beq_variables.mpr same

theorem exists_of_isVar {u : Term} (isVar : u.isVar = true) : ∃ x, u = .var x := by
  cases u with
  | var x => exact ⟨x, rfl⟩
  | _ => cases isVar

theorem finds_unusedParameter {k : Nat} :
    (∃ u, unusedParameter.query.Finds store .empty u ∧
      Tuple.both (·.iri temp) (·.int index) u = .ok (iri, k)) ↔ store.Unused iri k := by
  have evaluated : (∃ u, unusedParameter.query.Finds store .empty u ∧
      Tuple.both (·.iri temp) (·.int index) u = .ok (iri, k)) ↔
      (store.status? iri).isSome ∧ ∃ is, store.body? iri = some is ∧
        ∃ ps p, (store.parameters? iri = some ps ∧ ps[k]? = some p) ∧
          ¬ ∃ i ∈ is, ∃ l t, i.arguments.term? l = some t ∧
            ∃ u, (∃ depth, u.StandsIn depth t) ∧ u.isList = false ∧ (p.term == u) = true := by
    simp [-not_exists, unusedParameter, finds_all, FindsEach, parameterIndex, argumentIndex,
      finds_and, finds_not, finds_template, finds_body, finds_inst, finds_arguments,
      finds_parameters, finds_index, finds_hasOccurrenceAt_of, temp, ins, index, index2, arg,
      val, level, Value.termAt?, ← Term.standsIn_iff, Tuple.both_eq_ok, Tuple.iri_eq_ok,
      Tuple.int_eq_ok]
  rw [evaluated]
  constructor
  · rintro ⟨-, is, body, ps, p, ⟨declared, here⟩, absent⟩
    obtain ⟨⟨qs, defined⟩, rfl⟩ := body?_eq_some.mp body
    obtain rfl := Option.some.inj ((Store.parameters_of_definition defined).symm.trans declared)
    refine ⟨qs, p, defined, here, ?_⟩
    rintro x place ⟨is, t, body', hi, given, stands⟩ same
    obtain rfl := Option.some.inj (body.symm.trans body')
    exact absent ⟨place.inst, hi, place.position, t, given, .var x, ⟨place.depth, stands⟩, rfl,
      beq_variables.mpr same.symm⟩
  · rintro ⟨ps, p, defined, here, absent⟩
    have declared := Store.parameters_of_definition defined
    have body := body?_eq_some.mpr ⟨⟨ps, defined⟩, rfl⟩
    refine ⟨Store.isSome_of_parameters declared, _, body, ps, p, ⟨declared, here⟩, ?_⟩
    rintro ⟨i, hi, l, t, given, u, ⟨depth, stands⟩, -, same⟩
    obtain ⟨x, rfl, label⟩ := beq_variable_iff.mp same
    exact absent x ⟨i, l, depth⟩ ⟨_, t, body, hi, given, stands⟩ label.symm

theorem unusedParameter_reports (store : Store) :
    unusedParameter.Reports store (Tuple.both (·.iri temp) (·.int index))
      fun found => store.Unused found.1 found.2 :=
  reports_of_scope? [(temp, [.iri]), (index, [.int])] (by decide)
    (suffices_both (suffices_iri (by simp)) (suffices_int (by simp)))
    fun _ => finds_unusedParameter

theorem finds_undefinedParameter {u : Term} :
    (∃ t, undefinedParameter.query.Finds store .empty t ∧
      Tuple.both (·.iri temp) (·.term val) t = .ok (iri, u)) ↔
      ∃ x, u = .var x ∧ store.Undeclared iri x := by
  have evaluated : (∃ t, undefinedParameter.query.Finds store .empty t ∧
      Tuple.both (·.iri temp) (·.term val) t = .ok (iri, u)) ↔
      (store.status? iri).isSome ∧ ∃ is i, (store.body? iri = some is ∧ i ∈ is) ∧
        ∃ k t, i.arguments.term? k = some t ∧
          ∃ depth, (u.StandsIn depth t ∧ u.isList = false) ∧ u.isVar = true ∧
          ¬ ∃ ps, store.parameters? iri = some ps ∧
            ∃ (l : Nat) (p : Parameter), ps[l]? = some p ∧ (u == p.term) = true := by
    simp [-not_exists, undefinedParameter, finds_all, FindsEach, bodyInstance, argumentIndex,
      parameterIndex, finds_and, finds_template, finds_body, finds_inst, finds_arguments,
      finds_index,
      finds_hasOccurrenceAt, finds_isVariable, finds_not, finds_parameters, temp, ins, index,
      index2, arg, val, level, Value.termAt?, ← Term.standsIn_iff, Tuple.both_eq_ok,
      Tuple.iri_eq_ok, Tuple.term_eq_ok]
  rw [evaluated]
  constructor
  · rintro ⟨-, is, i, ⟨body, hi⟩, k, t, given, depth, ⟨stands, -⟩, isVar, absent⟩
    obtain ⟨x, rfl⟩ := exists_of_isVar isVar
    refine ⟨x, rfl, ⟨⟨i, k, depth⟩, is, t, body, hi, given, stands⟩, ?_⟩
    intro ps declared p hp same
    obtain ⟨l, here⟩ := List.mem_iff_getElem?.mp hp
    exact absent ⟨ps, declared, l, p, here, beq_variables.mpr same.symm⟩
  · rintro ⟨x, rfl, ⟨place, is, t, body, hi, given, stands⟩, absent⟩
    obtain ⟨⟨qs, defined⟩, -⟩ := body?_eq_some.mp body
    refine ⟨Store.isSome_of_parameters (Store.parameters_of_definition defined), is, place.inst,
      ⟨body, hi⟩, place.position, t, given, place.depth, ⟨stands, rfl⟩, rfl, ?_⟩
    rintro ⟨ps, declared, l, p, here, same⟩
    exact absent ps declared p (List.mem_of_getElem? here) (beq_variables.mp same).symm

theorem undefinedParameter_reports (store : Store) :
    undefinedParameter.Reports store (Tuple.both (·.iri temp) (·.term val))
      fun found => ∃ x, found.2 = .var x ∧ store.Undeclared found.1 x :=
  reports_of_scope? [(temp, [.iri]), (val, [.term])] (by decide)
    (suffices_both (suffices_iri (by simp)) (suffices_term (by simp)))
    fun _ => finds_undefinedParameter

theorem finds_duplicateParameter {k l : Nat} :
    (∃ u, duplicateParameter.query.Finds store .empty u ∧
      Tuple.both (·.iri temp) (Tuple.both (·.int index1) (·.int index2)) u = .ok (iri, k, l)) ↔
      store.Repeats iri k l := by
  have evaluated : (∃ u, duplicateParameter.query.Finds store .empty u ∧
      Tuple.both (·.iri temp) (Tuple.both (·.int index1) (·.int index2)) u = .ok (iri, k, l)) ↔
      (store.status? iri).isSome ∧ ∃ ps, store.parameters? iri = some ps ∧
        ∃ p, ps[k]? = some p ∧
          (∃ q, ps[l]? = some q ∧ (p.term == q.term) = true) ∧ ¬ k = l ∧ k ≤ l := by
    simp [duplicateParameter, finds_all, FindsEach, finds_template, finds_parameters,
      finds_index, finds_notEquals, finds_removeSymmetry, temp, params, index1, index2, val,
      Value.termAt?, Relation.precedes, Tuple.both_eq_ok, Tuple.iri_eq_ok, Tuple.int_eq_ok]
  rw [evaluated]
  constructor
  · rintro ⟨-, ps, declared, p, here, ⟨q, there, same⟩, apart, ordered⟩
    exact ⟨by omega, ps, p, q, declared, here, there, beq_variables.mp same⟩
  · rintro ⟨before, ps, p, q, declared, here, there, same⟩
    exact ⟨Store.isSome_of_parameters declared, ps, declared, p, here,
      ⟨q, there, beq_variables.mpr same⟩, by omega, by omega⟩

theorem duplicateParameter_reports (store : Store) :
    duplicateParameter.Reports store
      (Tuple.both (·.iri temp) (Tuple.both (·.int index1) (·.int index2)))
      fun found => store.Repeats found.1 found.2.1 found.2.2 :=
  reports_of_scope? [(temp, [.iri]), (index1, [.int]), (index2, [.int])] (by decide)
    (suffices_both (suffices_iri (by simp))
      (suffices_both (suffices_int (by simp)) (suffices_int (by simp))))
    fun _ => finds_duplicateParameter

/-- On every store the checks of parameters report what is unused, undeclared and repeated. -/
theorem parameterChecks_exact (store : Store) :
    unusedParameter.Reports store (Tuple.both (·.iri temp) (·.int index))
        (fun found => store.Unused found.1 found.2) ∧
      undefinedParameter.Reports store (Tuple.both (·.iri temp) (·.term val))
        (fun found => ∃ x, found.2 = .var x ∧ store.Undeclared found.1 x) ∧
      duplicateParameter.Reports store
        (Tuple.both (·.iri temp) (Tuple.both (·.int index1) (·.int index2)))
        (fun found => store.Repeats found.1 found.2.1 found.2.2) :=
  ⟨unusedParameter_reports store, undefinedParameter_reports store,
    duplicateParameter_reports store⟩

/-- The guest is asked for twice, the day stands two lists deep, and a host is not asked for. -/
def visit : Store :=
  let guest := Parameter.mandatory "guest" .top
  let day := Parameter.mandatory "day" .top
  let room := Parameter.mandatory "room" .top
  (Store.empty .standard).acceptAll
    [.template (.make "Visit" [guest, day, guest, room]
      [.ofTerms "Seat" [guest.term, .list [.list [day.term]], .var ⟨"host", .top⟩]])]

example :
    (unusedParameter.subjects visit (Tuple.both (·.iri temp) (·.int index))).toOption =
      some [("Visit", 3)] ∧
    (undefinedParameter.subjects visit (Tuple.both (·.iri temp) (·.written val))).toOption =
      some [("Visit", "?host")] ∧
    (duplicateParameter.subjects visit
      (Tuple.both (·.iri temp) (Tuple.both (·.int index1) (·.int index2)))).toOption =
      some [("Visit", 0, 2)] := by
  decide +kernel

end Check

end RdfTemplates
