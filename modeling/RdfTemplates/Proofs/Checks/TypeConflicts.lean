import RdfTemplates.Proofs.Checks.Parameters
import RdfTemplates.Proofs.Types.Order
import Mathlib.Data.String.Basic

/-!
# What the checks of types report

A place asks for the type of the parameter that its argument is given to, or for a list of
that type if the argument is marked, less one list constructor for each list around the
place. A template is torn if a term stands at two places that ask for types of which neither
is below the other. It has a misfit if a constant stands at a place that asks for a type
with which its own is not compatible. The two checks report just these templates.

Of two instances the query takes only the order of their written forms. A template is torn
between the first and the second exactly if it is between the second and the first, so
nothing is missed.
-/

namespace RdfTemplates

namespace Term

variable {u v : Term}

theorem isList_of_same (same : (u == v) = true) : u.isList = v.isList := by
  cases u <;> cases v <;> first | rfl | cases same

theorem isNone_of_same (same : (u == v) = true) : u.isNone = v.isNone := by
  cases u <;> cases v <;> first | rfl | cases same

end Term

namespace Store

variable {store : Store} {iri : Iri} {u v : Term} {place place' : Place}

/-- The type that is asked for at a place, if the callee has a parameter for the argument and
its type has as many list constructors as needed. -/
def expected? (store : Store) (place : Place) : Option TermType := do
  let ps ← store.parameters? place.inst.iri
  let p ← ps[place.position]?
  let given := if place.inst.arguments.isMarkedAt place.position then .list p.type else p.type
  given.unwrapped? place.depth

theorem expected?_eq_some {i : Instance} {k depth : Nat} {asked : TermType} :
    store.expected? ⟨i, k, depth⟩ = some asked ↔
      ∃ qs p, (store.parameters? i.iri = some qs ∧ qs[k]? = some p) ∧
        (if i.arguments.isMarkedAt k then TermType.list p.type else p.type).innerAt? depth =
          some asked := by
  simp [expected?, Option.bind_eq_some_iff, TermType.innerAt?_eq_unwrapped?, and_assoc]

/-- The same term, which is neither a list nor `none`, stands at two places that ask for types
of which neither is below the other. -/
structure TornBetween (store : Store) (iri : Iri) (u v : Term) (place place' : Place) : Prop where
  apart : place ≠ place'
  first : store.StandsAt iri u place
  second : store.StandsAt iri v place'
  same : (u == v) = true
  leaf : u.isList = false
  some_ : u.isNone = false
  asked : ∃ a b, (store.expected? place = some a ∧ store.expected? place' = some b) ∧
    a.isSubtype TypeTree.standard b = false ∧ b.isSubtype TypeTree.standard a = false

/-- A constant stands at a place that asks for a type with which its own is not compatible. -/
structure Misfits (store : Store) (iri : Iri) (u : Term) (place : Place) : Prop where
  stands : store.StandsAt iri u place
  leaf : u.isList = false
  constant : u.isVar = false
  asked : ∃ a, store.expected? place = some a ∧
    u.intrinsicType.isCompatible TypeTree.standard a = false

theorem TornBetween.symm (torn : store.TornBetween iri u v place place') :
    store.TornBetween iri v u place' place where
  apart := torn.apart.symm
  first := torn.second
  second := torn.first
  same := BEq.symm torn.same
  leaf := by rw [← Term.isList_of_same torn.same, torn.leaf]
  some_ := by rw [← Term.isNone_of_same torn.same, torn.some_]
  asked := by
    obtain ⟨a, b, ⟨here, there⟩, above, below⟩ := torn.asked
    exact ⟨b, a, ⟨there, here⟩, below, above⟩

/-- One place asks for one type only, and a type is below itself. -/
theorem ne_of_incomparable {a b : TermType} (here : store.expected? place = some a)
    (there : store.expected? place' = some b)
    (above : a.isSubtype TypeTree.standard b = false) : place ≠ place' := by
  rintro rfl
  obtain rfl := Option.some.inj (here.symm.trans there)
  rw [TermType.isSubtype_refl] at above
  cases above

end Store

namespace Check

open Query

variable {store : Store} {iri : Iri} {u v : Term} {place place' : Place}

theorem precedes_inst {i j : Instance} :
    Relation.precedes (.inst i) (.inst j) = true ↔ i.text ≤ j.text :=
  decide_eq_true_iff

theorem finds_conflictingParameterTypes_steps :
    (∃ t, conflictingParameterTypes.query.Finds store .empty t ∧ t.iri temp = .ok iri) ↔
      (store.status? iri).isSome ∧ ∃ is i, (store.body? iri = some is ∧ i ∈ is) ∧
        ∃ js j, (store.body? iri = some js ∧ j ∈ js) ∧
        Relation.precedes (.inst i) (.inst j) = true ∧
        ∃ k s, i.arguments.term? k = some s ∧
        ∃ (u : Term) (depth : Nat), (u.StandsIn depth s ∧ u.isList = false) ∧ u.isNone = false ∧
        ∃ l t, j.arguments.term? l = some t ∧
        ∃ (v : Term) (depth' : Nat), (v.StandsIn depth' t ∧ v.isList = false ∧ (u == v) = true) ∧
        ∃ qs q a, ((store.parameters? i.iri = some qs ∧ qs[k]? = some q) ∧
          (if i.arguments.isMarkedAt k then .list q.type else q.type).innerAt? depth = some a) ∧
        ∃ rs r b, ((store.parameters? j.iri = some rs ∧ rs[l]? = some r) ∧
          (if j.arguments.isMarkedAt l then .list r.type else r.type).innerAt? depth' = some b) ∧
        a.isSubtype TypeTree.standard b = false ∧ b.isSubtype TypeTree.standard a = false := by
  simp [-not_exists, conflictingParameterTypes, finds_all, FindsEach, bodyInstance,
    argumentIndex, finds_and, finds_template, finds_body, finds_inst, finds_arguments,
    finds_index, finds_removeSymmetry, finds_hasOccurrenceAt, finds_hasOccurrenceAt_of,
    finds_not, finds_isNotNone, finds_usedAsType, usedAsTypeWidth, get?_tracked,
    get?_tracked_hidden, finds_isSubtypeOf, temp, ins1, ins2, index1, index2, arg1, arg2, val,
    level1, level2, type1, type2, Value.termAt?, ← Term.standsIn_iff, Tuple.iri_eq_ok]

/-- What stands at the place of an instance that comes first is found. -/
theorem finds_of_ordered (torn : store.TornBetween iri u v place place')
    (ordered : place.inst.text ≤ place'.inst.text) :
    ∃ t, conflictingParameterTypes.query.Finds store .empty t ∧ t.iri temp = .ok iri := by
  obtain ⟨is, s, body, hi, given, stands⟩ := torn.first
  obtain ⟨js, t, body', hj, given', stands'⟩ := torn.second
  obtain ⟨⟨ps, defined⟩, -⟩ := body?_eq_some.mp body
  obtain ⟨a, b, ⟨here, there⟩, incomparable⟩ := torn.asked
  obtain ⟨qs, q, callee, found⟩ := Store.expected?_eq_some.mp here
  obtain ⟨rs, r, callee', found'⟩ := Store.expected?_eq_some.mp there
  have leaf : v.isList = false := torn.symm.leaf
  exact finds_conflictingParameterTypes_steps.mpr
    ⟨Store.isSome_of_parameters (Store.parameters_of_definition defined),
      is, place.inst, ⟨body, hi⟩, js, place'.inst, ⟨body', hj⟩, precedes_inst.mpr ordered,
      place.position, s, given, u, place.depth, ⟨stands, torn.leaf⟩, torn.some_,
      place'.position, t, given', v, place'.depth, ⟨stands', leaf, torn.same⟩,
      qs, q, a, ⟨callee, found⟩, rs, r, b, ⟨callee', found'⟩, incomparable⟩

/-- What the query finds. The written forms decide which of the two orders of a pair it meets. -/
theorem finds_conflictingParameterTypes :
    (∃ t, conflictingParameterTypes.query.Finds store .empty t ∧ t.iri temp = .ok iri) ↔
      ∃ u v place place', store.TornBetween iri u v place place' := by
  constructor
  · intro finds
    obtain ⟨-, is, i, ⟨body, hi⟩, js, j, ⟨body', hj⟩, -, k, s, given, u, depth, ⟨stands, leaf⟩,
      some_, l, t, given', v, depth', ⟨stands', -, same⟩, qs, q, a, ⟨callee, found⟩, rs, r, b,
      ⟨callee', found'⟩, above, below⟩ := finds_conflictingParameterTypes_steps.mp finds
    have here := Store.expected?_eq_some.mpr ⟨qs, q, callee, found⟩
    have there := Store.expected?_eq_some.mpr ⟨rs, r, callee', found'⟩
    exact ⟨u, v, ⟨i, k, depth⟩, ⟨j, l, depth'⟩, {
      apart := Store.ne_of_incomparable here there above
      first := ⟨is, s, body, hi, given, stands⟩
      second := ⟨js, t, body', hj, given', stands'⟩
      same, leaf, some_
      asked := ⟨a, b, ⟨here, there⟩, above, below⟩ }⟩
  · rintro ⟨u, v, place, place', torn⟩
    rcases le_total place.inst.text place'.inst.text with ordered | ordered
    · exact finds_of_ordered torn ordered
    · exact finds_of_ordered torn.symm ordered

theorem conflictingParameterTypes_reports (store : Store) :
    conflictingParameterTypes.Reports store (·.iri temp)
      fun iri => ∃ u v place place', store.TornBetween iri u v place place' :=
  reports_of_scope? [(temp, [.iri])] (by decide) (suffices_iri (by simp))
    fun _ => finds_conflictingParameterTypes

theorem finds_conflictingIntrinsicType_steps :
    (∃ t, conflictingIntrinsicType.query.Finds store .empty t ∧ t.iri temp = .ok iri) ↔
      (store.status? iri).isSome ∧ ∃ is i, (store.body? iri = some is ∧ i ∈ is) ∧
        ∃ k s, i.arguments.term? k = some s ∧
        ∃ (u : Term) (depth : Nat), (u.StandsIn depth s ∧ u.isList = false) ∧ u.isVar = false ∧
        ∃ qs q a, ((store.parameters? i.iri = some qs ∧ qs[k]? = some q) ∧
          (if i.arguments.isMarkedAt k then .list q.type else q.type).innerAt? depth = some a) ∧
        u.intrinsicType.isCompatible TypeTree.standard a = false := by
  simp [-not_exists, conflictingIntrinsicType, finds_all, FindsEach, bodyInstance,
    argumentIndex, finds_and, finds_template, finds_body, finds_inst, finds_arguments,
    finds_index, finds_hasOccurrenceAt, finds_not, finds_isVariable, finds_typeOf,
    finds_usedAsType, get?_tracked, finds_isCompatibleWith, temp, ins, index, arg, val, level,
    Value.termAt?, ← Term.standsIn_iff, Tuple.iri_eq_ok]

theorem finds_conflictingIntrinsicType :
    (∃ t, conflictingIntrinsicType.query.Finds store .empty t ∧ t.iri temp = .ok iri) ↔
      ∃ u place, store.Misfits iri u place := by
  rw [finds_conflictingIntrinsicType_steps]
  constructor
  · rintro ⟨-, is, i, ⟨body, hi⟩, k, s, given, u, depth, ⟨stands, leaf⟩, constant, qs, q, a,
      ⟨callee, found⟩, apart⟩
    exact ⟨u, ⟨i, k, depth⟩, ⟨is, s, body, hi, given, stands⟩, leaf, constant, a,
      Store.expected?_eq_some.mpr ⟨qs, q, callee, found⟩, apart⟩
  · rintro ⟨u, place, ⟨is, s, body, hi, given, stands⟩, leaf, constant, a, asked, apart⟩
    obtain ⟨⟨ps, defined⟩, -⟩ := body?_eq_some.mp body
    obtain ⟨qs, q, callee, found⟩ := Store.expected?_eq_some.mp asked
    exact ⟨Store.isSome_of_parameters (Store.parameters_of_definition defined), is, place.inst,
      ⟨body, hi⟩, place.position, s, given, u, place.depth, ⟨stands, leaf⟩, constant, qs, q, a,
      ⟨callee, found⟩, apart⟩

theorem conflictingIntrinsicType_reports (store : Store) :
    conflictingIntrinsicType.Reports store (·.iri temp)
      fun iri => ∃ u place, store.Misfits iri u place :=
  reports_of_scope? [(temp, [.iri])] (by decide) (suffices_iri (by simp))
    fun _ => finds_conflictingIntrinsicType

/-- On every store the checks of types report the templates that are torn or have a misfit. -/
theorem typeChecks_exact (store : Store) :
    conflictingParameterTypes.Reports store (·.iri temp)
        (fun iri => ∃ u v place place', store.TornBetween iri u v place place') ∧
      conflictingIntrinsicType.Reports store (·.iri temp)
        (fun iri => ∃ u place, store.Misfits iri u place) :=
  ⟨conflictingParameterTypes_reports store, conflictingIntrinsicType_reports store⟩

/-- The place of a trip is given to one leg as where it starts and, inside of a marked list, as
a note. A walk starts at a literal; that it has no note is no misfit. -/
def journeys : Store :=
  let place := Parameter.mandatory "place" .top
  (Store.empty .standard).acceptAll
    [.signature ⟨"Leg", [.mandatory "start" .anyIri, .mandatory "note" .anyLiteral], true⟩,
     .template (.make "Trip" [place]
      [⟨"Leg", ⟨[⟨place.term, false⟩, ⟨.list [place.term], true⟩], some .cross⟩⟩]),
     .template (.make "Walk" [] [.ofTerms "Leg" [.literal (.plain "home"), .none]])]

/-- Of one instance both orders are met. -/
example :
    (conflictingParameterTypes.subjects journeys (·.iri temp)).toOption =
      some ["Trip", "Trip"] ∧
    (conflictingIntrinsicType.subjects journeys (·.iri temp)).toOption = some ["Walk"] := by
  decide +kernel

end Check

end RdfTemplates
