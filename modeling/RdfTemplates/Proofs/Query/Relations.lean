import RdfTemplates.Proofs.Ordering
import RdfTemplates.Proofs.Query.Finding
import RdfTemplates.Proofs.Store.Views

/-!
# What relations find

For each relation that the checks use, what it takes a tuple to. A relation finds
nothing where its input is not bound to a value of the right kind, and binds an
output that is free to each value that fits.
-/

namespace RdfTemplates

namespace Tuple

variable {t : Tuple} {v : Var}

@[simp] theorem get?_empty (v : Var) : empty.get? v = none := by
  simp [empty, get?]

/-- A variable that is bound hides what it was bound to before. -/
@[simp] theorem get?_bind (t : Tuple) (v w : Var) (x : Value) :
    (t.bind v x).get? w = if w = v then some x else t.get? w := by
  unfold Tuple.bind get?
  rw [List.lookup_cons]
  split
  · rename_i same
    rw [if_pos (beq_iff_eq.mp same)]
  · rename_i other
    rw [if_neg (ne_of_beq_false other)]
    induction t.bindings with
    | nil => rfl
    | cons pair rest ih =>
        obtain ⟨k, y⟩ := pair
        by_cases here : k = v
        · have skipped : (w == k) = false := by rw [here]; exact other
          rw [List.filter_cons_of_neg (by simp [here]), ih, List.lookup_cons, skipped]
        · rw [List.filter_cons_of_pos (by simp [here]), List.lookup_cons, List.lookup_cons, ih]

theorem value_eq_ok {x : Value} : t.value v = .ok x ↔ t.get? v = some x := by
  unfold value
  cases t.get? v <;> simp

/-- Reading a variable succeeds exactly if it is bound to a value of the kind. -/
theorem read_eq_ok {α : Type} {kind : String} {of? : Value → Option α} {a : α} (value : Value)
    (fits : ∀ x, of? x = some a ↔ x = value) :
    read kind of? t v = .ok a ↔ t.get? v = some value := by
  rw [read, Reading.bind_eq_ok]
  constructor
  · rintro ⟨x, known, here⟩
    cases found : of? x with
    | none => simp [found] at here
    | some b =>
        simp only [found, Except.ok.injEq] at here
        rw [← (fits x).mp (by rw [found, here])]
        exact value_eq_ok.mp known
  · intro known
    refine ⟨value, value_eq_ok.mpr known, ?_⟩
    rw [(fits value).mpr rfl]

theorem iri_eq_ok {a : Iri} : t.iri v = .ok a ↔ t.get? v = some (.iri a) :=
  read_eq_ok _ fun x => by cases x <;> simp

theorem term_eq_ok {a : Term} : t.term v = .ok a ↔ t.get? v = some (.term a) :=
  read_eq_ok _ fun x => by cases x <;> simp

theorem parameters_eq_ok {a : ParameterList} :
    t.parameters v = .ok a ↔ t.get? v = some (.parameters a) :=
  read_eq_ok _ fun x => by cases x <;> simp

theorem arguments_eq_ok {a : ArgumentList} :
    t.arguments v = .ok a ↔ t.get? v = some (.arguments a) :=
  read_eq_ok _ fun x => by cases x <;> simp

theorem inst_eq_ok {a : Instance} : t.inst v = .ok a ↔ t.get? v = some (.inst a) :=
  read_eq_ok _ fun x => by cases x <;> simp

theorem body_eq_ok {a : List Instance} : t.body v = .ok a ↔ t.get? v = some (.body a) :=
  read_eq_ok _ fun x => by cases x <;> simp

theorem int_eq_ok {a : Nat} : t.int v = .ok a ↔ t.get? v = some (.int a) :=
  read_eq_ok _ fun x => by cases x <;> simp

theorem type_eq_ok {a : TermType} : t.type v = .ok a ↔ t.get? v = some (.type a) :=
  read_eq_ok _ fun x => by cases x <;> simp

theorem substitution_eq_ok {a : Substitution} :
    t.substitution v = .ok a ↔ t.get? v = some (.substitution a) :=
  read_eq_ok _ fun x => by cases x <;> simp

end Tuple

namespace Query

variable {store : Store} {t u : Tuple} {v output : Var}

/-- A free output is bound to the result. -/
theorem mem_bindOrCheck {x : Value} (free : t.get? v = none) :
    u ∈ Relation.bindOrCheck t v x ↔ u = t.bind v x := by
  simp [Relation.bindOrCheck, free]

/-- A bound output is compared with the result. -/
theorem mem_bindOrCheck_of {x y : Value} (known : t.get? v = some y) :
    u ∈ Relation.bindOrCheck t v x ↔ (y == x) = true ∧ u = t := by
  rw [Relation.bindOrCheck, known, mem_keepIf, and_comm]

theorem mem_bindOrCheck? {x : Option Value} (free : t.get? v = none) :
    u ∈ Relation.bindOrCheck? t v x ↔ ∃ y, x = some y ∧ u = t.bind v y := by
  cases x <;> simp [Relation.bindOrCheck?, mem_bindOrCheck free]

/-- A free output is bound to each of the results. -/
theorem mem_bindEach {xs : List Value} (free : t.get? v = none) :
    u ∈ Relation.bindEach t v xs ↔ ∃ x ∈ xs, u = t.bind v x := by
  simp [Relation.bindEach, free, eq_comm]

/-- A conjunction hands on what its left side finds. -/
theorem finds_and {left right : Query} : (Query.and left right).Finds store t u ↔
    ∃ s, left.Finds store t s ∧ right.Finds store s u := Iff.rfl

theorem finds_or {left right : Query} : (Query.or left right).Finds store t u ↔
    left.Finds store t u ∨ right.Finds store t u := Iff.rfl

/-- A negation finds nothing new. It keeps the tuple if nothing else is found from it. -/
theorem finds_not {query : Query} : (Query.not query).Finds store t u ↔
    u = t ∧ ¬ ∃ s, query.Finds store t s :=
  and_congr_right' not_exists.symm

/-- A relation that reads something and goes on from there. -/
theorem finds_reading {α : Type} {r : Relation} {x : Reading α} {g : α → List Tuple}
    (run : r.run store t = do return g (← x)) :
    (Query.relation r).Finds store t u ↔ ∃ a, x = .ok a ∧ u ∈ g a := by
  rw [Finds, run]
  cases x with
  | error e => simp [Bind.bind, Except.bind]
  | ok a => simp [Bind.bind, Except.bind, pure, Except.pure]

/-- The entries are listed by their IRIs, each that is known. -/
theorem mem_sortedIris_entries {iri : Iri} :
    iri ∈ Relation.sortedIris (store.entryList.map (·.iri)) ↔
      (store.status? iri).isSome = true := by
  rw [Relation.sortedIris, mem_stableSort, List.mem_map, store.status?_isSome]
  exact exists_congr fun e => and_congr_left' store.entries.inOrder_perm.mem_iff

/-- Every known template is found. -/
theorem finds_template (free : t.get? v = none) :
    (Query.relation (.template v)).Finds store t u ↔
      ∃ iri, (store.status? iri).isSome ∧ u = t.bind v (.iri iri) := by
  have run : (Relation.template v).run store t =
      .ok (Relation.bindEach t v
        ((Relation.sortedIris (store.entryList.map (·.iri))).map .iri)) := by
    simp only [Relation.run, Relation.runTemplate, Tuple.hasBound, free]
    rfl
  rw [Finds, run]
  simp [mem_bindEach free, mem_sortedIris_entries]

theorem finds_parameters {template : Var} (free : t.get? output = none) :
    (Query.relation (.parameters template output)).Finds store t u ↔
      ∃ iri ps, t.get? template = some (.iri iri) ∧ store.parameters? iri = some ps ∧
        u = t.bind output (.parameters ps) := by
  rw [finds_reading (x := t.iri template)
    (g := fun iri => Relation.bindOrCheck? t output ((store.parameters? iri).map .parameters)) rfl]
  simp [Tuple.iri_eq_ok, mem_bindOrCheck? free]

/-- The body of a definition is found as a whole. -/
theorem finds_body {template : Var} (free : t.get? output = none) :
    (Query.relation (.body template output)).Finds store t u ↔
      ∃ iri is, t.get? template = some (.iri iri) ∧ store.body? iri = some is ∧
        u = t.bind output (.body is) := by
  rw [finds_reading (x := t.iri template)
    (g := fun iri => ((store.body? iri).map fun is => t.bind output (.body is)).toList) ?_]
  · simp only [Tuple.iri_eq_ok, Option.mem_toList, Option.map_eq_some_iff]
    constructor
    · rintro ⟨iri, known, is, defined, rfl⟩
      exact ⟨iri, is, known, defined, rfl⟩
    · rintro ⟨iri, is, known, defined, rfl⟩
      exact ⟨iri, known, is, defined, rfl⟩
  · simp only [Relation.run, Relation.runBody, free]
    cases t.iri template with
    | error e => rfl
    | ok iri =>
        simp only [Bind.bind, Except.bind]
        cases store.body? iri <;> rfl

/-- The instances of a body are found one by one. -/
theorem finds_inst {body : Var} (free : t.get? output = none) :
    (Query.relation (.inst body output)).Finds store t u ↔
      ∃ is i, t.get? body = some (.body is) ∧ i ∈ is ∧ u = t.bind output (.inst i) := by
  rw [finds_reading (x := t.body body)
    (g := fun is => Relation.bindEach t output (is.map .inst)) rfl]
  simp [Tuple.body_eq_ok, mem_bindEach free]

theorem finds_instanceIri {inst : Var} (free : t.get? output = none) :
    (Query.relation (.instanceIri inst output)).Finds store t u ↔
      ∃ i, t.get? inst = some (.inst i) ∧ u = t.bind output (.iri i.iri) := by
  rw [finds_reading (x := t.inst inst)
    (g := fun i => Relation.bindOrCheck t output (.iri i.iri)) rfl]
  simp [Tuple.inst_eq_ok, mem_bindOrCheck free]

theorem finds_arguments {inst : Var} (free : t.get? output = none) :
    (Query.relation (.arguments inst output)).Finds store t u ↔
      ∃ i, t.get? inst = some (.inst i) ∧ u = t.bind output (.arguments i.arguments) := by
  rw [finds_reading (x := t.inst inst)
    (g := fun i => Relation.bindOrCheck t output (.arguments i.arguments)) rfl]
  simp [Tuple.inst_eq_ok, mem_bindOrCheck free]

/-- Whatever has a length is measured. -/
theorem finds_length {list : Var} (free : t.get? output = none) :
    (Query.relation (.length list output)).Finds store t u ↔
      ∃ x n, t.get? list = some x ∧ x.length? = some n ∧ u = t.bind output (.int n) := by
  rw [finds_reading (x := t.value list)
    (g := fun x => Relation.bindOrCheck? t output (x.length?.map .int)) rfl]
  simp [Tuple.value_eq_ok, mem_bindOrCheck? free]

/-- A length that is known is compared. -/
theorem finds_length_at {list : Var} {n : Nat} (known : t.get? output = some (.int n)) :
    (Query.relation (.length list output)).Finds store t u ↔
      ∃ x, t.get? list = some x ∧ x.length? = some n ∧ u = t := by
  rw [finds_reading (x := t.value list)
    (g := fun x => Relation.bindOrCheck? t output (x.length?.map .int)) rfl]
  simp only [Tuple.value_eq_ok]
  refine exists_congr fun x => and_congr_right fun _ => ?_
  cases x.length? with
  | none => simp [Relation.bindOrCheck?]
  | some m =>
      have test : (Value.int n == Value.int m) = decide (n = m) := rfl
      simp only [Option.map_some, Relation.bindOrCheck?, Relation.bindOrCheck, known, test,
        mem_keepIf, decide_eq_true_eq, Option.some.injEq]
      rw [and_comm, eq_comm]

/-- Where there is a term, the list is longer than the place. -/
theorem length?_of_termAt? {x : Value} {k : Nat} {a : Term} (h : x.termAt? k = some a) :
    k < x.length?.getD 0 := by
  cases x with
  | terms ts => exact (List.getElem?_eq_some_iff.mp h).1
  | parameters ps =>
      obtain ⟨p, here, -⟩ := Option.map_eq_some_iff.mp h
      exact (List.getElem?_eq_some_iff.mp here).1
  | arguments args =>
      obtain ⟨a, here, -⟩ := Option.map_eq_some_iff.mp h
      exact (List.getElem?_eq_some_iff.mp here).1
  | term t => cases t with
    | list ts => exact (List.getElem?_eq_some_iff.mp h).1
    | _ => cases h
  | _ => cases h

/-- The index is still free; a term that is bound has to be the one found there. -/
theorem finds_index {list index term : Var} (free : t.get? index = none) :
    (Query.relation (.index list index term)).Finds store t u ↔
      ∃ x k a, t.get? list = some x ∧ x.termAt? k = some a ∧
        (∀ b ∈ t.get? term, (b == .term a) = true) ∧
        u = (t.bind index (.int k)).bind term (.term a) := by
  rw [finds_reading (x := t.value list) (g := fun x =>
    (List.range (x.length?.getD 0)).filterMap fun k => (x.termAt? k).bind fun a =>
      if (t.get? term).all (· == .term a) then
        some ((t.bind index (.int k)).bind term (.term a)) else none) ?_]
  · simp only [Tuple.value_eq_ok, List.mem_filterMap, List.mem_range, Option.bind_eq_some_iff]
    constructor
    · rintro ⟨x, known, k, -, a, found, here⟩
      split at here
      · rename_i fits
        exact ⟨x, k, a, known, found, (Option.all_eq_true _ _).mp fits, (Option.some.inj here).symm⟩
      · cases here
    · rintro ⟨x, k, a, known, found, fits, rfl⟩
      exact ⟨x, known, k, length?_of_termAt? found, a, found,
        if_pos ((Option.all_eq_true _ _).mpr fits)⟩
  · simp only [Relation.run, Relation.runIndex, Tuple.hasBound, free]
    cases t.get? term <;> rfl

/-- At a given place of a list one term is found. -/
theorem finds_index_at {list index term : Var} {k : Nat} (known : t.get? index = some (.int k))
    (free : t.get? term = none) :
    (Query.relation (.index list index term)).Finds store t u ↔
      ∃ x a, t.get? list = some x ∧ x.termAt? k = some a ∧ u = t.bind term (.term a) := by
  rw [finds_reading (x := t.value list)
    (g := fun x => Relation.bindOrCheck? t term ((x.termAt? k).map .term)) ?_]
  · simp [Tuple.value_eq_ok, mem_bindOrCheck? free]
  · simp only [Relation.run, Relation.runIndex, Tuple.hasBound, known, Tuple.int_eq_ok.mpr known]
    rfl

/-- A property of the position at an index that is known. -/
theorem finds_indicesWhere_at {α : Type} {r : Relation} {index : Var} {x : Reading α} {k : Nat}
    {n : α → Nat} {f : α → Nat → Bool} (known : t.get? index = some (.int k))
    (run : r.run store t = x >>= fun a => Relation.indicesWhere t index (n a) (f a)) :
    (Query.relation r).Finds store t u ↔
      ∃ a, x = .ok a ∧ u = t ∧ k < n a ∧ f a k = true := by
  rw [finds_reading (x := x) (g := fun a => Relation.keepIf t (decide (k < n a) && f a k)) ?_]
  · simp [mem_keepIf]
  · rw [run]
    congr 1
    funext a
    simp only [Relation.indicesWhere, Tuple.hasBound, known, Tuple.int_eq_ok.mpr known]
    rfl

theorem lt_size_of_isMarkedAt {args : ArgumentList} {k : Nat} (marked : args.isMarkedAt k = true) :
    k < args.size := by
  obtain ⟨a, here, -⟩ := (Option.any_eq_true _ _).mp marked
  exact (List.getElem?_eq_some_iff.mp here).1

theorem finds_hasListExpander_at {arguments index : Var} {k : Nat}
    (known : t.get? index = some (.int k)) :
    (Query.relation (.hasListExpander arguments index)).Finds store t u ↔
      ∃ args, t.get? arguments = some (.arguments args) ∧ u = t ∧ args.isMarkedAt k = true := by
  rw [finds_indicesWhere_at (x := t.arguments arguments) (n := ArgumentList.size)
    (f := ArgumentList.isMarkedAt) known rfl]
  simp only [Tuple.arguments_eq_ok]
  constructor
  · rintro ⟨args, bound, same, -, marked⟩
    exact ⟨args, bound, same, marked⟩
  · rintro ⟨args, bound, same, marked⟩
    exact ⟨args, bound, same, lt_size_of_isMarkedAt marked, marked⟩

/-- Occurrences of a term are found with their depths, for a term that is given and for one that is
not. -/
theorem finds_occurrence {term inside level : Var} (free : t.get? level = none) :
    (Query.relation (.hasOccurrenceAt term inside level)).Finds store t u ↔
      ∃ a b depth, t.get? term = some (.term a) ∧ (b, depth) ∈ a.occurrences 0 ∧
        b.isList = false ∧
        u ∈ Relation.bindOrCheck (t.bind level (.int depth)) inside (.term b) := by
  rw [finds_reading (x := t.term term) (g := fun a => (a.occurrences 0).flatMap fun place =>
    if !place.1.isList then
      Relation.bindOrCheck (t.bind level (.int place.2)) inside (.term place.1) else []) ?_]
  · simp only [Tuple.term_eq_ok, List.mem_flatMap, Prod.exists]
    constructor
    · rintro ⟨a, known, b, depth, occurs, here⟩
      split at here
      · rename_i leaf
        exact ⟨a, b, depth, known, occurs, by simpa using leaf, here⟩
      · cases here
    · rintro ⟨a, b, depth, known, occurs, leaf, here⟩
      refine ⟨a, known, b, depth, occurs, ?_⟩
      rwa [if_pos (by simp [leaf])]
  · simp only [Relation.run, Relation.runOccurrence, Tuple.hasBound, free]
    cases t.term term with
    | error e => rfl
    | ok a =>
        simp only [Option.isSome_none, Bool.false_eq_true, if_false, Bind.bind, Except.bind, pure,
          Except.pure, Option.all_none, Bool.and_true]

/-- All terms that occur in a term are found. -/
theorem finds_hasOccurrenceAt {term inside level : Var} (free : t.get? level = none)
    (free' : t.get? inside = none) (apart : inside ≠ level) :
    (Query.relation (.hasOccurrenceAt term inside level)).Finds store t u ↔
      ∃ a b depth, t.get? term = some (.term a) ∧ (b, depth) ∈ a.occurrences 0 ∧
        b.isList = false ∧ u = (t.bind level (.int depth)).bind inside (.term b) := by
  have unbound (depth : Nat) : (t.bind level (.int depth)).get? inside = none := by
    simp [apart, free']
  simp only [finds_occurrence free, mem_bindOrCheck (unbound _)]

/-- A term that is known is compared with those that occur. -/
theorem finds_hasOccurrenceAt_of {term inside level : Var} {c : Term}
    (free : t.get? level = none) (known : t.get? inside = some (.term c))
    (apart : inside ≠ level) :
    (Query.relation (.hasOccurrenceAt term inside level)).Finds store t u ↔
      ∃ a b depth, t.get? term = some (.term a) ∧ (b, depth) ∈ a.occurrences 0 ∧
        b.isList = false ∧ (Value.term c == Value.term b) = true ∧
        u = t.bind level (.int depth) := by
  have bound (depth : Nat) : (t.bind level (.int depth)).get? inside = some (.term c) := by
    simp [apart, known]
  simp only [finds_occurrence free, mem_bindOrCheck_of (bound _)]

theorem finds_isVariable {term : Var} :
    (Query.relation (.isVariable term)).Finds store t u ↔
      ∃ a, t.get? term = some (.term a) ∧ u = t ∧ a.isVar = true := by
  rw [finds_reading (x := t.term term) (g := fun a => Relation.keepIf t a.isVar) rfl]
  simp [Tuple.term_eq_ok, mem_keepIf]

theorem finds_isNotNone {term : Var} :
    (Query.relation (.isNotNone term)).Finds store t u ↔
      ∃ a, t.get? term = some (.term a) ∧ u = t ∧ a.isNone = false := by
  rw [finds_reading (x := t.term term) (g := fun a => Relation.keepIf t (!a.isNone)) rfl]
  simp [Tuple.term_eq_ok, mem_keepIf]

theorem finds_typeOf {term : Var} (free : t.get? output = none) :
    (Query.relation (.typeOf term output)).Finds store t u ↔
      ∃ a, t.get? term = some (.term a) ∧ u = t.bind output (.type a.intrinsicType) := by
  rw [finds_reading (x := t.term term)
    (g := fun a => Relation.bindOrCheck t output (.type a.intrinsicType)) rfl]
  simp [Tuple.term_eq_ok, mem_bindOrCheck free]

theorem finds_listType {type : Var} (free : t.get? output = none) :
    (Query.relation (.listType type output)).Finds store t u ↔
      ∃ a, t.get? type = some (.type a) ∧ u = t.bind output (.type (.list a)) := by
  rw [finds_reading (x := t.type type)
    (g := fun a => Relation.bindOrCheck t output (.type (.list a))) rfl]
  simp [Tuple.type_eq_ok, mem_bindOrCheck free]

/-- At a given depth the type inside of a type is found. -/
theorem finds_innerTypeAt {type level : Var} {depth : Nat}
    (known : t.get? level = some (.int depth)) (free : t.get? output = none) :
    (Query.relation (.innerTypeAt type level output)).Finds store t u ↔
      ∃ a b, t.get? type = some (.type a) ∧ a.innerAt? depth = some b ∧
        u = t.bind output (.type b) := by
  rw [finds_reading (x := t.type type)
    (g := fun a => Relation.bindOrCheck? t output ((a.innerAt? depth).map .type)) ?_]
  · simp [Tuple.type_eq_ok, mem_bindOrCheck? free]
  · simp only [Relation.run, Relation.runInnerTypeAt, Tuple.hasBound, known,
      Tuple.int_eq_ok.mpr known]
    rfl

/-- A test of two types in the standard tree. -/
theorem finds_typeTest {r : Relation} {a b : Var} {test : TypeTree → TermType → TermType → Bool}
    (run : r.run store t = Relation.runTypeTest t a b test) :
    (Query.relation r).Finds store t u ↔
      ∃ x y, t.get? a = some (.type x) ∧ t.get? b = some (.type y) ∧ u = t ∧
        test TypeTree.standard x y = true := by
  rw [finds_reading (x := do return (← t.type a, ← t.type b))
    (g := fun types => Relation.keepIf t (test TypeTree.standard types.1 types.2)) ?_]
  · simp [Reading.bind_eq_ok, Tuple.type_eq_ok, mem_keepIf, pure, Except.pure]
  · rw [run, Relation.runTypeTest]
    cases t.type a with
    | error e => rfl
    | ok found => cases t.type b <;> rfl

theorem finds_isSubtypeOf {a b : Var} :
    (Query.relation (.isSubtypeOf a b)).Finds store t u ↔
      ∃ sub sup, t.get? a = some (.type sub) ∧ t.get? b = some (.type sup) ∧
        u = t ∧ sub.isSubtype TypeTree.standard sup = true :=
  finds_typeTest rfl

theorem finds_isCompatibleWith {a b : Var} :
    (Query.relation (.isCompatibleWith a b)).Finds store t u ↔
      ∃ found expected, t.get? a = some (.type found) ∧ t.get? b = some (.type expected) ∧
        u = t ∧ found.isCompatible TypeTree.standard expected = true :=
  finds_typeTest rfl

/-- A test of two values, whatever their kind. -/
theorem finds_valueTest {r : Relation} {a b : Var} {test : Value → Value → Bool}
    (run : r.run store t = Relation.runValueTest t a b test) :
    (Query.relation r).Finds store t u ↔
      ∃ x y, t.get? a = some x ∧ t.get? b = some y ∧ u = t ∧ test x y = true := by
  rw [finds_reading (x := do return (← t.value a, ← t.value b))
    (g := fun values => Relation.keepIf t (test values.1 values.2)) ?_]
  · simp [Reading.bind_eq_ok, Tuple.value_eq_ok, mem_keepIf, pure, Except.pure]
  · rw [run, Relation.runValueTest]
    cases t.value a with
    | error e => rfl
    | ok found => cases t.value b <;> rfl

/-- The tuple is kept if the two values are unequal. -/
theorem finds_notEquals {a b : Var} :
    (Query.relation (.notEquals a b)).Finds store t u ↔
      ∃ x y, t.get? a = some x ∧ t.get? b = some y ∧ u = t ∧ (x != y) = true :=
  finds_valueTest rfl

/-- The tuple is kept if the first value is written before the second. -/
theorem finds_removeSymmetry {a b : Var} :
    (Query.relation (.removeSymmetry a b)).Finds store t u ↔
      ∃ x y, t.get? a = some x ∧ t.get? b = some y ∧ u = t ∧ Relation.precedes x y = true :=
  finds_valueTest rfl

/-- The unifiers of parameters in any order are those of their terms. -/
theorem finds_unifiesParametersUnordered {a b : Var} (free : t.get? output = none) :
    (Query.relation (.unifiesParametersUnordered a b output)).Finds store t u ↔
      ∃ ps qs s, t.get? a = some (.parameters ps) ∧ t.get? b = some (.parameters qs) ∧
        s ∈ Substitution.matchUnordered (ps.map Parameter.term) (qs.map Parameter.term) ∧
        u = t.bind output (.substitution s) := by
  rw [finds_reading (x := do return (← t.parameters a, ← t.parameters b))
    (g := fun lists => Relation.bindEach t output ((Substitution.matchUnordered
      (lists.1.map Parameter.term) (lists.2.map Parameter.term)).map .substitution)) ?_]
  · simp [Reading.bind_eq_ok, Tuple.parameters_eq_ok, mem_bindEach free, pure, Except.pure]
  · simp only [Relation.run]
    cases t.parameters a with
    | error e => rfl
    | ok ps => cases t.parameters b <;> rfl

/-- A unifier that is known is extended. -/
theorem finds_unifiesBody {a b : Var} {s : Substitution}
    (known : t.get? output = some (.substitution s)) :
    (Query.relation (.unifiesBody a b output)).Finds store t u ↔
      ∃ is js m merged, t.get? a = some (.body is) ∧ t.get? b = some (.body js) ∧
        m ∈ Substitution.matchBodies is js ∧ s.merge? m = some merged ∧
        u = t.bind output (.substitution merged) := by
  rw [finds_reading (x := do return (← t.body a, ← t.body b))
    (g := fun bodies => (Substitution.matchBodies bodies.1 bodies.2).filterMap fun m =>
      (s.merge? m).map fun merged => t.bind output (.substitution merged)) ?_]
  · simp only [Reading.bind_eq_ok, Tuple.body_eq_ok, pure, Except.pure, Except.ok.injEq,
      List.mem_filterMap, Option.map_eq_some_iff]
    constructor
    · rintro ⟨_, ⟨is, here, js, there, rfl⟩, m, found, merged, both, rfl⟩
      exact ⟨is, js, m, merged, here, there, found, both, rfl⟩
    · rintro ⟨is, js, m, merged, here, there, found, both, rfl⟩
      exact ⟨_, ⟨is, here, js, there, rfl⟩, m, found, merged, both, rfl⟩
  · simp only [Relation.run, Relation.runUnifiesBody, known]
    cases t.body a with
    | error e => rfl
    | ok is => cases t.body b <;> rfl

/-- The tuple with everything bound on the way to the type. -/
def tracked (t : Tuple) (number : Nat) (i : Instance) (p : Parameter) (qs : ParameterList)
    (marked : Bool) : Tuple :=
  let t := t.bind (.hidden number) (.iri i.iri)
  let t := t.bind (.hidden (number + 5)) (.parameters qs)
  let t := t.bind (.hidden (number + 1)) (.term p.term)
  let t := t.bind (.hidden (number + 3)) (.arguments i.arguments)
  let t := t.bind (.hidden (number + 2)) (.type p.type)
  if marked then t.bind (.hidden (number + 4)) (.type (.list p.type)) else t

/-- What is tracked is bound to hidden variables only. -/
theorem get?_tracked {number : Nat} {i : Instance} {p : Parameter} {qs : ParameterList}
    {marked : Bool} {name : String} :
    (tracked t number i p qs marked).get? (.named name) = t.get? (.named name) := by
  cases marked <;> simp [tracked]

/-- Other hidden variables than its own are left as they are. -/
theorem get?_tracked_hidden {number other : Nat} {i : Instance} {p : Parameter}
    {qs : ParameterList} {marked : Bool}
    (apart : other < number ∨ number + usedAsTypeWidth ≤ other) :
    (tracked t number i p qs marked).get? (.hidden other) = t.get? (.hidden other) := by
  rw [usedAsTypeWidth] at apart
  have distinct (n : Nat) (own : n < 6) : other ≠ number + n := by omega
  have first := distinct 0 (by omega)
  cases marked <;> simp_all [tracked]

@[simp] theorem intrinsicType_term (p : Parameter) : p.term.intrinsicType = p.type := rfl

/-- What is found is the type that the callee asks for at this place and depth, as a list if the
place is marked. -/
theorem finds_usedAsType {number : Nat} {inst index level type : String} {i : Instance}
    {k depth : Nat} (inst_ : t.get? (.named inst) = some (.inst i))
    (index_ : t.get? (.named index) = some (.int k))
    (level_ : t.get? (.named level) = some (.int depth)) (free : t.get? (.named type) = none)
    (hidden : t.get? (.hidden number) = none ∧ t.get? (.hidden (number + 1)) = none ∧
      t.get? (.hidden (number + 2)) = none ∧ t.get? (.hidden (number + 3)) = none ∧
      t.get? (.hidden (number + 4)) = none ∧ t.get? (.hidden (number + 5)) = none) :
    (usedAsType number (.named inst) (.named index) (.named level) (.named type)).Finds store t u ↔
      ∃ qs p, (store.parameters? i.iri = some qs ∧ qs[k]? = some p) ∧ ∃ asked,
        (if i.arguments.isMarkedAt k then TermType.list p.type else p.type).innerAt? depth =
          some asked ∧
        u = (tracked t number i p qs (i.arguments.isMarkedAt k)).bind (.named type)
          (.type asked) := by
  cases marked : i.arguments.isMarkedAt k <;>
    simp [usedAsType, finds_all, FindsEach, finds_instanceIri, parameterIndex, finds_and,
      finds_parameters, finds_index_at, finds_arguments, finds_typeOf, finds_or,
      finds_hasListExpander_at, finds_listType, finds_innerTypeAt, finds_not, inst_, index_,
      level_, free, hidden, marked, Value.termAt?, tracked]

end Query

end RdfTemplates
