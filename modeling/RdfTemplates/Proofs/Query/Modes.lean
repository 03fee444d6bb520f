import RdfTemplates.Proofs.Places
import RdfTemplates.Proofs.Query.Binding
import RdfTemplates.Proofs.Query.Dependencies

/-!
# Enumerating and checking

A relation binds an output that is free and checks one that is bound, and has code of its
own for each of these modes. For a relation that can be used in all of them there are
answers which depend on its inputs only. In every mode it finds the answers that agree
with what is bound already, so a check comes to the same whether it is made before or
after the others.
-/

namespace RdfTemplates

namespace Tuple

variable {t u u' preset : Tuple} {v w : Var} {x y : Value}

/-- The same variables are bound in both, to equal values. -/
def Alike (t u : Tuple) : Prop :=
  ∀ v, t.get? v = u.get? v ∨
    ∃ x y, t.get? v = some x ∧ u.get? v = some y ∧ (x == y) = true

/-- Where the tuple binds a variable of the answer, it is to an equal value. -/
def Admits (t : Tuple) (answer : List (Var × Value)) : Prop :=
  ∀ p ∈ answer, ∀ y ∈ t.get? p.1, (p.2 == y) = true

/-- Where the other tuple binds one of the variables, it is bound here, to an equal value. -/
def Carries (u preset : Tuple) (vars : List Var) : Prop :=
  ∀ v ∈ vars, ∀ y ∈ preset.get? v, ∃ x ∈ u.get? v, (x == y) = true

/-- The variables of the answer are bound to its values, or stay bound to equal ones, and the
others stay as they are. -/
structure Takes (t : Tuple) (answer : List (Var × Value)) (u : Tuple) : Prop where
  answered : ∀ p ∈ answer, u.get? p.1 = some p.2 ∨
    ∃ y, t.get? p.1 = some y ∧ u.get? p.1 = some y ∧ (p.2 == y) = true
  others : ∀ v, v ∉ answer.map Prod.fst → u.get? v = t.get? v

/-- What is found at a tuple is what becomes of it by the answers that it admits. -/
structure Lists (t : Tuple) (answers : List (Var × Value) → Prop) (found : List Tuple) : Prop where
  sound : ∀ u ∈ found, ∃ answer, answers answer ∧ t.Admits answer ∧ t.Takes answer u
  complete : ∀ answer, answers answer → t.Admits answer → ∃ u ∈ found, t.Takes answer u

theorem takes_self (known : t.get? v = some y) (same : (x == y) = true) : t.Takes [(v, x)] t where
  answered p hp := by
    obtain rfl := List.mem_singleton.mp hp
    exact .inr ⟨y, known, known, same⟩
  others _ _ := rfl

theorem takes_bind (t : Tuple) (v : Var) (x : Value) : t.Takes [(v, x)] (t.bind v x) where
  answered p hp := by
    obtain rfl := List.mem_singleton.mp hp
    exact .inl (by simp)
  others w apart := by simp_all

/-- A second variable is taken after the first. -/
theorem Takes.cons (apart : v ≠ w) (first : u.get? v = some x)
    (same : ∀ z, z ≠ v → u.get? z = t.get? z) (rest : u.Takes [(w, y)] u') :
    t.Takes [(v, x), (w, y)] u' where
  answered p hp := by
    rcases List.mem_cons.mp hp with rfl | hp
    · refine .inl ((rest.others v ?_).trans first)
      simpa using apart
    · refine (rest.answered p hp).imp_right ?_
      obtain rfl := List.mem_singleton.mp hp
      rintro ⟨z, known, kept, near⟩
      exact ⟨z, (same w apart.symm).symm.trans known, kept, near⟩
  others z outside := by
    simp only [List.map_cons, List.map_nil, List.mem_cons, List.not_mem_nil, or_false,
      not_or] at outside
    rw [rest.others z (by simpa using outside.2), same z outside.1]

theorem Takes.get?_of_free {answer : List (Var × Value)} {p : Var × Value}
    (takes : t.Takes answer u) (free : t.get? p.1 = none) (hp : p ∈ answer) :
    u.get? p.1 = some p.2 := by
  refine (takes.answered p hp).resolve_right ?_
  rintro ⟨y, known, -⟩
  rw [free] at known
  cases known

/-- An answer is admitted by what its result carries. -/
theorem Takes.admits_iff {answer : List (Var × Value)} (takes : t.Takes answer u)
    (free : ∀ v ∈ answer.map Prod.fst, t.get? v = none) :
    preset.Admits answer ↔ u.Carries preset (answer.map Prod.fst) := by
  have bound {p} (hp : p ∈ answer) : u.get? p.1 = some p.2 :=
    takes.get?_of_free (free p.1 (List.mem_map_of_mem hp)) hp
  constructor
  · intro admits v hv y known
    obtain ⟨p, hp, rfl⟩ := List.mem_map.mp hv
    exact ⟨p.2, bound hp, admits p hp y known⟩
  · intro carries p hp y known
    obtain ⟨x, here, same⟩ := carries p.1 (List.mem_map_of_mem hp) y known
    obtain rfl := Option.some.inj ((bound hp).symm.trans here)
    exact same

/-- An answer comes to the same where its variables are free and where they are bound to equal
values. -/
theorem Takes.alike {answer : List (Var × Value)} (takes : t.Takes answer u)
    (takes' : preset.Takes answer u') (free : ∀ v ∈ answer.map Prod.fst, t.get? v = none)
    (same : ∀ v, v ∉ answer.map Prod.fst → preset.get? v = t.get? v) : u.Alike u' := by
  intro v
  by_cases here : v ∈ answer.map Prod.fst
  · obtain ⟨p, hp, rfl⟩ := List.mem_map.mp here
    have bound := takes.get?_of_free (free p.1 here) hp
    rcases takes'.answered p hp with bound' | ⟨y, -, kept, near⟩
    · exact .inl (bound.trans bound'.symm)
    · exact .inr ⟨p.2, y, bound, kept, near⟩
  · exact .inl (by rw [takes.others v here, takes'.others v here, same v here])

theorem get?_eq_none (free : ¬t.hasBound v = true) : t.get? v = none :=
  Option.not_isSome_iff_eq_none.mp free

theorem fits_of_free {kinds : List Kind} (free : t.get? v = none) : t.Fits v kinds := by
  intro x known
  rw [free] at known
  cases known

theorem admits_of_free {answer : List (Var × Value)}
    (free : ∀ v ∈ answer.map Prod.fst, t.get? v = none) : t.Admits answer := by
  intro p hp y known
  rw [free p.1 (List.mem_map_of_mem hp)] at known
  cases known

theorem admits_single : t.Admits [(v, x)] ↔ ∀ y ∈ t.get? v, (x == y) = true := by
  simp [Admits]

theorem admits_pair : t.Admits [(v, x), (w, y)] ↔ t.Admits [(v, x)] ∧ t.Admits [(w, y)] := by
  simp [Admits]

end Tuple

namespace Relation

open RdfTemplates.Tuple

variable {store : Store} {t u preset : Tuple} {r : Relation} {v w : Var} {x y : Value}
  {values : List Value} {answer : List (Var × Value)}

/-- One of the values for the variable. -/
def valued (P : Value → Prop) (v : Var) (answer : List (Var × Value)) : Prop :=
  ∃ x, P x ∧ answer = [(v, x)]

/-- The number of a place and what is there. -/
def placed (P : Nat → Value → Prop) (v w : Var) (answer : List (Var × Value)) : Prop :=
  ∃ k y, P k y ∧ answer = [(v, .int k), (w, y)]

/-- A position in a list of parameters at which the parameter has the property. -/
def flagged (parameters : Option Value) (test : Parameter → Bool) (x : Value) : Prop :=
  ∃ ps k p, parameters = some (.parameters ps) ∧ ps[k]? = some p ∧ test p = true ∧ x = .int k

/-- The relations that go through several answers, apart from the one that extends a bound
unifier and does not check it. -/
def enumerates : Relation → Bool
  | .template _ | .inst _ _ | .index _ _ _ | .isOptional _ _ | .isNonBlank _ _ | .hasDefault _ _
  | .hasListExpander _ _ | .hasOccurrenceAt _ _ _ | .innerTypeAt _ _ _
  | .unifiesParametersUnordered _ _ _ | .isDependencyOf _ _ | .dependsTransitive _ _ => true
  | _ => false

/-- What is to be found for the inputs as the tuple binds them, whatever it binds the outputs
to. -/
def Answers (store : Store) (t : Tuple) : Relation → List (Var × Value) → Prop
  | .template v => valued (fun x => ∃ iri, (store.status? iri).isSome = true ∧ x = .iri iri) v
  | .inst is i => valued
      (fun x => ∃ body, t.get? is = some (.body body) ∧ ∃ j ∈ body, x = .inst j) i
  | .index xs n u => placed
      (fun k y => ∃ x a, t.get? xs = some x ∧ x.termAt? k = some a ∧ y = .term a) n u
  | .isOptional ps n => valued (flagged (t.get? ps) Parameter.isOptional) n
  | .isNonBlank ps n => valued (flagged (t.get? ps) Parameter.isNonBlank) n
  | .hasDefault ps n => valued (flagged (t.get? ps) Parameter.hasDefault) n
  | .hasListExpander args n => valued (fun x => ∃ xs k, t.get? args = some (.arguments xs) ∧
      xs.isMarkedAt k = true ∧ x = .int k) n
  | .hasOccurrenceAt u x n => placed (fun k y => ∃ outer a, t.get? u = some (.term outer) ∧
      (a, k) ∈ outer.occurrences 0 ∧ a.isList = false ∧ y = .term a) n x
  | .innerTypeAt ty n x => placed (fun k y => ∃ outer inner, t.get? ty = some (.type outer) ∧
      outer.innerAt? k = some inner ∧ y = .type inner) n x
  | .unifiesParametersUnordered ps qs x => valued (fun y => ∃ us vs s,
      t.get? ps = some (.parameters us) ∧ t.get? qs = some (.parameters vs) ∧
      s ∈ Substitution.matchUnordered (us.map Parameter.term) (vs.map Parameter.term) ∧
      y = .substitution s) x
  | .isDependencyOf callee caller => valued (fun x => ∃ iri user,
      t.get? callee = some (.iri iri) ∧ user ∈ store.dependents iri ∧ x = .iri user) caller
  | .dependsTransitive v callee => valued (fun x => ∃ start reached,
      t.get? v = some (.iri start) ∧ Relation.TransGen store.Instantiates start reached ∧
      x = .iri reached) callee
  | _ => fun _ => False

theorem answers_congr (same : ∀ p ∈ r.inputs, preset.get? p.1 = t.get? p.1) :
    Answers store preset r = Answers store t r := by
  cases r <;> simp_all [Answers, inputs]

theorem outputs_of_answers (here : Answers store t r answer) :
    answer.map Prod.fst = r.outputs.map Prod.fst := by
  cases r <;> first
    | exact here.elim
    | obtain ⟨_, _, rfl⟩ := here; rfl
    | obtain ⟨_, _, _, rfl⟩ := here; rfl

theorem lists_bindEach {P : Value → Prop} (listed : ∀ x, x ∈ values ↔ P x) :
    t.Lists (valued P v) (bindEach t v values) := by
  obtain rfl : (· ∈ values) = P := funext fun x => propext (listed x)
  unfold bindEach
  constructor
  case sound =>
    intro u hu
    split at hu
    · rename_i y known
      obtain ⟨rfl, met⟩ := Query.mem_keepIf.mp hu
      obtain ⟨x, listed, same⟩ := List.any_eq_true.mp met
      refine ⟨_, ⟨x, listed, rfl⟩, admits_single.mpr fun z here => ?_, takes_self known same⟩
      obtain rfl := Option.some.inj (known.symm.trans here)
      exact same
    · rename_i free
      obtain ⟨x, listed, rfl⟩ := List.mem_map.mp hu
      exact ⟨_, ⟨x, listed, rfl⟩, admits_of_free (by simpa using free), takes_bind t v x⟩
  case complete =>
    rintro _ ⟨x, listed, rfl⟩ admits
    split
    · rename_i y known
      have same := admits_single.mp admits y known
      refine ⟨t, Query.mem_keepIf.mpr ⟨rfl, ?_⟩, takes_self known same⟩
      exact List.any_eq_true.mpr ⟨x, listed, same⟩
    · exact ⟨_, List.mem_map_of_mem listed, takes_bind t v x⟩

/-- A check against a value compares the other way round, which makes no difference to a term
or a type. -/
theorem lists_bindOrCheck (t : Tuple) (v : Var) (symm : ∀ y, (y == x) = (x == y)) :
    t.Lists (· = [(v, x)]) (bindOrCheck t v x) := by
  have same : bindOrCheck t v x = bindEach t v [x] := by
    unfold bindOrCheck bindEach
    split
    · simp [symm]
    · rfl
  have single : valued (· = x) v = (· = [(v, x)]) := by
    funext answer
    simp [valued]
  rw [same, ← single]
  exact lists_bindEach fun y => List.mem_singleton

theorem beq_term_comm (a : Term) (y : Value) : (y == .term a) = (.term a == y) := by
  cases y with
  | term b =>
      change (b == a) = (a == b)
      exact BEq.comm
  | _ => rfl

theorem beq_type_comm (a : TermType) (y : Value) : (y == .type a) = (.type a == y) := by
  cases y with
  | type b =>
      change (b == a) = (a == b)
      exact BEq.comm
  | _ => rfl

/-- Where the values are listed, a value that is known is looked for among them. -/
theorem bindEach_known {α : Type} {f : α → Value} {as : List α} {a : α} {met : Bool}
    (known : t.get? v = some (f a)) (same : ∀ b, (f b == f a) = true ↔ b = a)
    (listed : met = true ↔ a ∈ as) : bindEach t v (as.map f) = keepIf t met := by
  have met_eq : (as.map f).any (· == f a) = met := by
    rw [Bool.eq_iff_iff, listed, List.any_map, List.any_eq_true]
    constructor
    · rintro ⟨b, here, near⟩
      rwa [← (same b).mp near]
    · exact fun here => ⟨a, here, (same a).mpr rfl⟩
  simp only [bindEach, known, met_eq]

theorem iri_beq (a b : Iri) : (Value.iri a == .iri b) = true ↔ a = b :=
  beq_iff_eq (a := a)

theorem int_beq (m n : Nat) : (Value.int m == .int n) = true ↔ m = n :=
  beq_iff_eq (a := m)

/-- In both modes the indices with the property are gone through. -/
theorem indicesWhere_eq {length : Nat} {holds : Nat → Bool} (fits : t.Fits v [.int]) :
    indicesWhere t v length holds =
      .ok (bindEach t v (((List.range length).filter holds).map .int)) := by
  unfold indicesWhere
  split
  · rename_i bound
    obtain ⟨k, read, -⟩ := int_succeeds (holds_of_hasBound bound fits)
    have met : (decide (k < length) && holds k) = true ↔ k ∈ (List.range length).filter holds := by
      simp
    rw [read, bindEach_known (int_eq_ok.mp read) (int_beq · k) met]
    rfl
  · rename_i free
    simp [bindEach, get?_eq_none free, pure, Except.pure, Function.comp_def]

theorem runTemplate_eq (fits : t.Fits v [.iri]) : runTemplate store t v =
    .ok (bindEach t v ((sortedIris (store.entryList.map (·.iri))).map .iri)) := by
  unfold runTemplate
  split
  · rename_i bound
    obtain ⟨iri, read, -⟩ := iri_succeeds (holds_of_hasBound bound fits)
    have met : (store.entry? iri).isSome = true ↔
        iri ∈ sortedIris (store.entryList.map (·.iri)) := by
      rw [Query.mem_sortedIris_entries, Store.status?, Option.isSome_map]
    rw [read, bindEach_known (iri_eq_ok.mp read) (iri_beq · iri) met]
    rfl
  · rfl

theorem runDependsTransitive_eq {template : Var} {start : Iri}
    (known : t.get? template = some (.iri start)) (fits : t.Fits v [.iri]) :
    runDependsTransitive store t template v =
      .ok (bindEach t v ((store.dependsOn start).map .iri)) := by
  cases reads : t.get? v with
  | none =>
      refine (Store.run_dependsTransitive_free known reads).trans ?_
      simp [bindEach, reads, Function.comp_def]
  | some x =>
      obtain ⟨goal, read, -⟩ := iri_succeeds ⟨x, reads, fits x reads⟩
      have bound := iri_eq_ok.mp read
      refine (Store.run_dependsTransitive_bound known bound).trans ?_
      have met : (store.searchFrom (some goal) start).1 = true ↔ goal ∈ store.dependsOn start :=
        Store.searchFrom_some.trans Store.mem_dependsOn.symm
      rw [bindEach_known bound (iri_beq · goal) met]

theorem yields_bindEach {α : Type} {x : Reading α} {a : α} {values : α → List Value}
    {P : Value → Prop} (read : x = .ok a) (listed : ∀ y, y ∈ values a ↔ P y) :
    Reading.Yields (x >>= fun a => pure (bindEach t v (values a))) (t.Lists (valued P v)) :=
  ⟨_, by rw [read]; rfl, lists_bindEach listed⟩

theorem runParameterTest_lists {parameters : Var} {test : Parameter → Bool}
    (ready : t.Holds parameters [.parameters]) (fits : t.Fits v [.int]) :
    (runParameterTest t parameters v test).Yields
      (t.Lists (valued (flagged (t.get? parameters) test) v)) := by
  obtain ⟨ps, read, -⟩ := parameters_succeeds ready
  have run : runParameterTest t parameters v test =
      indicesWhere t v ps.length fun k => ps[k]?.any test := by
    rw [runParameterTest, read]
    rfl
  refine ⟨_, run.trans (indicesWhere_eq fits), lists_bindEach fun x => ?_⟩
  simp only [flagged, parameters_eq_ok.mp read, List.mem_map, List.mem_filter, List.mem_range,
    Option.any_eq_true]
  constructor
  · rintro ⟨k, ⟨-, p, here, met⟩, rfl⟩
    exact ⟨ps, k, p, rfl, here, met, rfl⟩
  · rintro ⟨_, k, p, same, here, met, rfl⟩
    obtain rfl := Value.parameters.inj (Option.some.inj same)
    exact ⟨k, ⟨(List.getElem?_eq_some_iff.mp here).1, p, here, met⟩, rfl⟩

theorem runListExpander_lists {arguments : Var} (ready : t.Holds arguments [.arguments])
    (fits : t.Fits v [.int]) :
    (runListExpander t arguments v).Yields
      (t.Lists (Answers store t (.hasListExpander arguments v))) := by
  obtain ⟨args, read, -⟩ := arguments_succeeds ready
  have run : runListExpander t arguments v = indicesWhere t v args.size args.isMarkedAt := by
    rw [runListExpander, read]
    rfl
  refine ⟨_, run.trans (indicesWhere_eq fits), lists_bindEach fun x => ?_⟩
  simp only [arguments_eq_ok.mp read, List.mem_map, List.mem_filter, List.mem_range]
  constructor
  · rintro ⟨k, ⟨-, marked⟩, rfl⟩
    exact ⟨args, k, rfl, marked, rfl⟩
  · rintro ⟨_, k, same, marked, rfl⟩
    obtain rfl := Value.arguments.inj (Option.some.inj same)
    exact ⟨k, ⟨Query.lt_size_of_isMarkedAt marked, marked⟩, rfl⟩

variable {P : Nat → Value → Prop} {k : Nat} {found : List Tuple}

/-- A tuple for each number that is admitted, in which the number is bound, and then what is
there is bound or checked. -/
theorem lists_placed (into : Nat → Tuple) (apart : v ≠ w)
    (first : ∀ k, t.Admits [(v, .int k)] → (into k).get? v = some (.int k))
    (others : ∀ k z, z ≠ v → (into k).get? z = t.get? z)
    (symm : ∀ k y, P k y → ∀ z, (z == y) = (y == z))
    (mem : ∀ u, u ∈ found ↔ ∃ k y, P k y ∧ t.Admits [(v, .int k)] ∧
      u ∈ bindOrCheck (into k) w y) : t.Lists (placed P v w) found := by
  have second {k y} (here : P k y) : (into k).Lists (· = [(w, y)]) (bindOrCheck (into k) w y) :=
    lists_bindOrCheck (into k) w (symm k y here)
  have admits {k y} : (into k).Admits [(w, y)] ↔ t.Admits [(w, y)] := by
    rw [admits_single, admits_single, others k w apart.symm]
  constructor
  case sound =>
    intro u hu
    obtain ⟨k, y, here, admitted, hu⟩ := (mem u).mp hu
    obtain ⟨_, rfl, admitted', takes⟩ := (second here).sound u hu
    exact ⟨_, ⟨k, y, here, rfl⟩, admits_pair.mpr ⟨admitted, admits.mp admitted'⟩,
      .cons apart (first k admitted) (others k) takes⟩
  case complete =>
    rintro _ ⟨k, y, here, rfl⟩ admitted
    obtain ⟨admitted, admitted'⟩ := admits_pair.mp admitted
    obtain ⟨u, hu, takes⟩ := (second here).complete _ rfl (admits.mpr admitted')
    exact ⟨u, (mem u).mpr ⟨k, y, here, admitted, hu⟩,
      .cons apart (first k admitted) (others k) takes⟩

theorem admits_int (known : t.get? v = some (.int k)) {m : Nat} :
    t.Admits [(v, .int m)] ↔ m = k := by
  simp [admits_single, known, int_beq]

/-- At a number that is known there is at most one value. -/
theorem lists_placed_at {value : Option Value} (apart : v ≠ w) (known : t.get? v = some (.int k))
    (symm : ∀ k y, P k y → ∀ z, (z == y) = (y == z)) (there : ∀ y, P k y ↔ value = some y) :
    t.Lists (placed P v w) (bindOrCheck? t w value) := by
  refine lists_placed (fun _ => t) apart
    (fun m admitted => by rw [known, (admits_int known).mp admitted]) (fun _ _ _ => rfl) symm
    fun u => ?_
  cases value with
  | none => simp [bindOrCheck?, admits_int known, there]
  | some y => simp [bindOrCheck?, admits_int known, there]

theorem runIndex_lists {list index term : Var} (apart : index ≠ term)
    (ready : t.Holds list Kind.any) (fits : t.Fits index [.int]) :
    (runIndex t list index term).Yields (t.Lists (Answers store t (.index list index term))) := by
  have ⟨x, known, _⟩ := ready
  cases reads : t.get? index with
  | some i =>
      obtain ⟨k, read, -⟩ := int_succeeds ⟨i, reads, fits i reads⟩
      have bound := int_eq_ok.mp read
      refine ⟨bindOrCheck? t term ((x.termAt? k).map .term), ?_,
        lists_placed_at apart bound ?_ fun y => by simp [known, eq_comm (a := y)]⟩
      · simp only [runIndex, value_eq_ok.mpr known, hasBound, bound, read]
        rfl
      · rintro m _ ⟨-, a, -, -, rfl⟩
        exact beq_term_comm a
  | none =>
      obtain ⟨found, run, -⟩ : (runIndex t list index term).Yields _ :=
        runIndex_yields ready fits
      have mem (u : Tuple) : u ∈ found ↔ ∃ k a, x.termAt? k = some a ∧
          t.Admits [(index, .int k), (term, .term a)] ∧
          u = (t.bind index (.int k)).bind term (.term a) := by
        have finds : (Query.relation (.index list index term)).Finds store t u ↔ u ∈ found := by
          simp [Query.Finds, Relation.run, run]
        rw [← finds, Query.finds_index reads]
        simp [known, admits_pair, admits_single, reads, beq_term_comm]
      have takes (k : Nat) (a : Term) : t.Takes [(index, .int k), (term, .term a)]
          ((t.bind index (.int k)).bind term (.term a)) :=
        .cons apart (by simp) (by simp_all) (takes_bind _ _ _)
      refine ⟨found, run, fun u hu => ?_, ?_⟩
      · obtain ⟨k, a, here, admits, rfl⟩ := (mem u).mp hu
        exact ⟨_, ⟨k, .term a, ⟨x, a, known, here, rfl⟩, rfl⟩, admits, takes k a⟩
      · rintro _ ⟨k, _, ⟨y, a, known', here, rfl⟩, rfl⟩ admits
        obtain rfl := Option.some.inj (known.symm.trans known')
        exact ⟨_, (mem _).mpr ⟨k, a, here, admits, rfl⟩, takes k a⟩

theorem runOccurrence_lists {term inside level : Var} (apart : level ≠ inside)
    (ready : t.Holds term [.term]) (fits : t.Fits level [.int]) :
    (runOccurrence t term inside level).Yields
      (t.Lists (Answers store t (.hasOccurrenceAt term inside level))) := by
  obtain ⟨outer, read, -⟩ := term_succeeds ready
  have known := term_eq_ok.mp read
  have wanted : ∃ wanted : Option Nat, runOccurrence t term inside level =
      .ok ((outer.occurrences 0).flatMap fun place =>
        if !place.1.isList && wanted.all (· == place.2) then
          bindOrCheck (t.bind level (.int place.2)) inside (.term place.1) else []) ∧
      ∀ k, wanted.all (· == k) = true ↔ t.Admits [(level, .int k)] := by
    unfold runOccurrence
    rw [read]
    cases reads : t.get? level with
    | none =>
        refine ⟨none, ?_, by simp [admits_single, reads]⟩
        simp only [hasBound, reads]
        rfl
    | some x =>
        obtain ⟨k, read, -⟩ := int_succeeds ⟨x, reads, fits x reads⟩
        have bound := int_eq_ok.mp read
        refine ⟨some k, ?_, by simp [admits_int bound, eq_comm (a := k)]⟩
        simp only [hasBound, bound, read]
        rfl
  obtain ⟨wanted, run, admits⟩ := wanted
  refine ⟨_, run, lists_placed (fun k => t.bind level (.int k)) apart (by simp)
    (by simp_all) ?_ fun u => ?_⟩
  · rintro k _ ⟨-, a, -, -, -, rfl⟩
    exact beq_term_comm a
  · simp only [List.mem_flatMap, Prod.exists, ← admits]
    constructor
    · rintro ⟨a, k, here, hu⟩
      split at hu
      · rename_i met
        simp only [Bool.and_eq_true, Bool.not_eq_true'] at met
        exact ⟨k, _, ⟨outer, a, known, here, met.1, rfl⟩, met.2, hu⟩
      · cases hu
    · rintro ⟨k, _, ⟨outer', a, known', here, leaf, rfl⟩, met, hu⟩
      obtain rfl := Value.term.inj (Option.some.inj (known.symm.trans known'))
      exact ⟨a, k, here, by rwa [if_pos (by simp [leaf, met])]⟩

theorem mem_innerTypes {type inner : TermType} {depth : Nat} :
    (k, inner) ∈ innerTypes depth type ↔ ∃ d, k = depth + d ∧ type.innerAt? d = some inner := by
  induction type generalizing depth with
  | list type ih | neList type ih =>
      rw [innerTypes, List.mem_cons]
      refine (or_congr_right ih).trans ⟨?_, ?_⟩
      · rintro (self | ⟨d, rfl, found⟩)
        · obtain ⟨rfl, rfl⟩ := Prod.mk.inj self
          exact ⟨0, rfl, TermType.innerAt?_zero _⟩
        · exact ⟨d + 1, by omega, found⟩
      · rintro ⟨d, rfl, found⟩
        cases d with
        | zero =>
            rw [← Option.some.inj ((TermType.innerAt?_zero _).symm.trans found)]
            exact .inl rfl
        | succ d => exact .inr ⟨d, by omega, found⟩
  | _ =>
      simp only [innerTypes, List.mem_singleton, Prod.mk.injEq]
      constructor
      · rintro ⟨rfl, rfl⟩
        exact ⟨0, rfl, TermType.innerAt?_zero _⟩
      · rintro ⟨d, rfl, found⟩
        cases d with
        | zero => exact ⟨rfl, (Option.some.inj ((TermType.innerAt?_zero _).symm.trans found)).symm⟩
        | succ d => cases found

theorem runInnerTypeAt_lists {type level inner : Var} (apart : level ≠ inner)
    (ready : t.Holds type [.type]) (fits : t.Fits level [.int]) :
    (runInnerTypeAt t type level inner).Yields
      (t.Lists (Answers store t (.innerTypeAt type level inner))) := by
  obtain ⟨outer, read, -⟩ := type_succeeds ready
  have known := type_eq_ok.mp read
  refine .bind ⟨outer, read, rfl⟩ ?_
  rintro _ rfl
  split
  · rename_i bound
    obtain ⟨k, read, -⟩ := int_succeeds (holds_of_hasBound bound fits)
    rw [read]
    refine .pure (lists_placed_at apart (int_eq_ok.mp read) ?_ fun y => ?_)
    · rintro m _ ⟨-, a, -, -, rfl⟩
      exact beq_type_comm a
    · simp [known, eq_comm (a := y)]
  · rename_i free
    refine .pure (lists_placed (fun k => t.bind level (.int k)) apart (by simp)
      (by simp_all) ?_ fun u => ?_)
    · rintro m _ ⟨-, a, -, -, rfl⟩
      exact beq_type_comm a
    · simp [mem_innerTypes, admits_single, get?_eq_none free, known]

/-- A relation that enumerates answers alike in both modes: with one output the values are listed,
and with two each place is gone through. -/
theorem run_lists (store : Store) (enumerates : r.enumerates = true)
    (ready : ∀ p ∈ r.inputs, t.Holds p.1 p.2) (distinct : (r.outputs.map Prod.fst).Nodup)
    (fits : ∀ p ∈ r.outputs, t.Fits p.1 p.2) :
    (r.run store t).Yields (t.Lists (Answers store t r)) := by
  cases r with
  | template v =>
      refine ⟨_, runTemplate_eq (fits _ (List.mem_singleton_self _)), lists_bindEach fun x => ?_⟩
      simp [Query.mem_sortedIris_entries, eq_comm (a := x)]
  | inst is i =>
      obtain ⟨body, read, -⟩ := body_succeeds (ready _ (List.mem_singleton_self _))
      exact yields_bindEach read fun x => by simp [body_eq_ok.mp read, eq_comm]
  | isOptional ps n | isNonBlank ps n | hasDefault ps n =>
      exact runParameterTest_lists (ready _ (List.mem_singleton_self _))
        (fits _ (List.mem_singleton_self _))
  | hasListExpander args n =>
      exact runListExpander_lists (ready _ (List.mem_singleton_self _))
        (fits _ (List.mem_singleton_self _))
  | unifiesParametersUnordered ps qs x =>
      obtain ⟨us, read, -⟩ := parameters_succeeds (ready _ List.mem_cons_self)
      obtain ⟨vs, read', -⟩ :=
        parameters_succeeds (ready _ (List.mem_cons_of_mem _ List.mem_cons_self))
      refine .bind ⟨us, read, rfl⟩ ?_
      rintro _ rfl
      refine yields_bindEach read' fun y => ?_
      simp [parameters_eq_ok.mp read, parameters_eq_ok.mp read', eq_comm]
  | isDependencyOf callee caller =>
      obtain ⟨iri, read, -⟩ := iri_succeeds (ready _ (List.mem_singleton_self _))
      refine yields_bindEach read fun x => ?_
      simp [sortedIris, mem_stableSort, iri_eq_ok.mp read, eq_comm]
  | dependsTransitive v callee =>
      obtain ⟨start, read, -⟩ := iri_succeeds (ready _ (List.mem_singleton_self _))
      have known := iri_eq_ok.mp read
      refine ⟨_, runDependsTransitive_eq known (fits _ (List.mem_singleton_self _)),
        lists_bindEach fun x => ?_⟩
      simp [Store.mem_dependsOn, known, eq_comm]
  | index xs n u =>
      exact runIndex_lists (by simpa [outputs] using distinct)
        (ready _ (List.mem_singleton_self _)) (fits _ List.mem_cons_self)
  | hasOccurrenceAt u x n =>
      exact runOccurrence_lists (by simpa [outputs] using distinct)
        (ready _ (List.mem_singleton_self _)) (fits _ List.mem_cons_self)
  | innerTypeAt ty n x =>
      exact runInnerTypeAt_lists (by simpa [outputs] using distinct)
        (ready _ (List.mem_singleton_self _)) (fits _ List.mem_cons_self)
  | _ => cases enumerates

/-- With some of the outputs bound first, a relation finds those results of all that carry equal
values for them. -/
theorem modes_agree (store : Store) (enumerates : r.enumerates = true)
    (ready : ∀ p ∈ r.inputs, t.Holds p.1 p.2)
    (free : ∀ v ∈ r.outputs.map Prod.fst, t.get? v = none)
    (distinct : (r.outputs.map Prod.fst).Nodup)
    (fits : ∀ p ∈ r.outputs, preset.Fits p.1 p.2)
    (same : ∀ v, v ∉ r.outputs.map Prod.fst → preset.get? v = t.get? v) :
    ∃ found found', r.run store t = .ok found ∧ r.run store preset = .ok found' ∧
      (∀ u' ∈ found', ∃ u ∈ found, u.Carries preset (r.outputs.map Prod.fst) ∧ u.Alike u') ∧
      ∀ u ∈ found, u.Carries preset (r.outputs.map Prod.fst) → ∃ u' ∈ found', u.Alike u' := by
  have apart {p} (hp : p ∈ r.inputs) : p.1 ∉ r.outputs.map Prod.fst := fun shared => by
    obtain ⟨x, known, -⟩ := ready p hp
    rw [free p.1 shared] at known
    cases known
  have inputs (p) (hp : p ∈ r.inputs) : preset.get? p.1 = t.get? p.1 := same p.1 (apart hp)
  have unbound (p) (hp : p ∈ r.outputs) : t.Fits p.1 p.2 :=
    fits_of_free (free p.1 (List.mem_map_of_mem hp))
  have ready' (p) (hp : p ∈ r.inputs) : preset.Holds p.1 p.2 := by
    rw [Holds, inputs p hp]
    exact ready p hp
  obtain ⟨found, run, lists⟩ := run_lists store enumerates ready distinct unbound
  obtain ⟨found', run', lists'⟩ := run_lists store enumerates ready' distinct fits
  rw [answers_congr inputs] at lists'
  refine ⟨found, found', run, run', fun u' hu' => ?_, fun u hu carries => ?_⟩
  · obtain ⟨answer, here, admits', takes'⟩ := lists'.sound u' hu'
    have outputs := outputs_of_answers here
    rw [← outputs] at free same ⊢
    obtain ⟨u, hu, takes⟩ := lists.complete answer here (admits_of_free free)
    exact ⟨u, hu, (takes.admits_iff free).mp admits', takes.alike takes' free same⟩
  · obtain ⟨answer, here, -, takes⟩ := lists.sound u hu
    have outputs := outputs_of_answers here
    rw [← outputs] at free same carries
    have admits' : preset.Admits answer := (takes.admits_iff free).mpr carries
    obtain ⟨u', hu', takes'⟩ := lists'.complete answer here admits'
    exact ⟨u', hu', takes.alike takes' free same⟩

/-- A line that stops at the harbour twice, and the stop at the harbour. -/
def stops : Tuple :=
  Tuple.empty.bind (.named "Line") (.terms [.iri "harbour", .iri "market", .iri "harbour"])

/-- The stop is bound to the harbour. -/
def harbourStops : Tuple := stops.bind (.named "Stop") (.term (.iri "harbour"))

/-- Where on the line a stop is. -/
def stopAt : Relation := .index (.named "Line") (.named "At") (.named "Stop")

/-- Three stops are found, and the two of them that are at the harbour when that is bound first. -/
theorem modes_agree_stops : ∃ found found',
    stopAt.run (.empty .standard) stops = .ok found ∧ found.length = 3 ∧
    stopAt.run (.empty .standard) harbourStops = .ok found' ∧ found'.length = 2 ∧
    (∀ u' ∈ found', ∃ u ∈ found,
      u.Carries harbourStops [.named "At", .named "Stop"] ∧ u.Alike u') ∧
    ∀ u ∈ found, u.Carries harbourStops [.named "At", .named "Stop"] →
      ∃ u' ∈ found', u.Alike u' := by
  have ready : ∀ p ∈ stopAt.inputs, stops.Holds p.1 p.2 := by
    simp [stopAt, inputs, Holds, stops, Value.sort, Kind.any]
  have free : ∀ v ∈ stopAt.outputs.map Prod.fst, stops.get? v = none := by
    simp [stopAt, outputs, stops]
  have fits : ∀ p ∈ stopAt.outputs, harbourStops.Fits p.1 p.2 := by
    simp [stopAt, outputs, Fits, harbourStops, stops, Value.sort]
  have same : ∀ v, v ∉ stopAt.outputs.map Prod.fst → harbourStops.get? v = stops.get? v := by
    simp_all [stopAt, outputs, harbourStops]
  obtain ⟨found, found', run, run', back, forth⟩ :=
    modes_agree (.empty .standard) rfl ready free (by decide) fits same
  refine ⟨found, found', run, ?_, run', ?_, back, forth⟩
  · obtain rfl := Except.ok.inj run
    rfl
  · obtain rfl := Except.ok.inj run'
    rfl

end Relation

end RdfTemplates
