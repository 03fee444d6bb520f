import RdfTemplates.Proofs.Query.Binding

/-!
# Scopes of queries

What the variables of a query may be can be told without a store. A scope gives for
each variable the states it may be in: unbound, or bound to a value of some kind. A
relation leads from one scope to the next where each input can only be bound, and only
to the kinds it is read as, and where no output can hold a value of another kind. From
a tuple in its scope a query for which there is a next scope comes to its end without a
violation, and every answer is in that next scope.
-/

namespace RdfTemplates

/-- For each variable the kinds of value it may be bound to, and `none` if it may be unbound. -/
abbrev Scope := Var → List (Option Kind)

namespace Scope

def empty : Scope := fun _ => [none]

/-- The variable can only be bound, and to nothing but these kinds. -/
def holds (scope : Scope) (v : Var) (kinds : List Kind) : Bool :=
  (scope v).all fun state => state.any kinds.contains

/-- The variable can be bound to nothing but these kinds. -/
def fits (scope : Scope) (v : Var) (kinds : List Kind) : Bool :=
  (scope v).all fun state => state.all kinds.contains

def set (scope : Scope) (v : Var) (kinds : List Kind) : Scope :=
  Function.update scope v (kinds.map some)

/-- What may come from one side or from the other. -/
def join (left right : Scope) : Scope := fun v => left v ++ right v

def bindEach? : Scope → List (Var × List Kind) → Option Scope
  | scope, [] => some scope
  | scope, (v, kinds) :: rest =>
      if scope.fits v kinds then (scope.set v kinds).bindEach? rest else none

/-- Every variable of the tuple is in a state that the scope gives for it. -/
def Covers (scope : Scope) (t : Tuple) : Prop := ∀ v, (t.get? v).map Value.sort ∈ scope v

variable {scope next left right : Scope} {t u : Tuple} {v : Var} {kinds : List Kind}

theorem covers_empty : Covers empty .empty := by
  intro v
  simp [empty]

theorem Covers.holds (covers : Covers scope t) (h : scope.holds v kinds = true) :
    t.Holds v kinds := by
  have state := List.all_eq_true.mp h _ (covers v)
  cases known : t.get? v with
  | none => simp [known] at state
  | some x => exact ⟨x, known, by simpa [known] using state⟩

theorem Covers.fits (covers : Covers scope t) (h : scope.fits v kinds = true) :
    t.Fits v kinds := by
  intro x known
  have state := List.all_eq_true.mp h _ (covers v)
  simpa [known] using state

theorem Covers.bind {x : Value} (covers : Covers scope t) (kind : x.sort ∈ kinds) :
    Covers (scope.set v kinds) (t.bind v x) := by
  intro w
  by_cases here : w = v
  · subst here
    simpa [set] using kind
  · simpa [set, here] using covers w

/-- A variable bound before has the kind asked for, so the scope only becomes narrower. -/
theorem Covers.binds (covers : Covers scope t) (free : scope.fits v kinds = true)
    (h : Tuple.Binds v kinds t u) : Covers (scope.set v kinds) u := by
  rcases h with ⟨bound, rfl⟩ | ⟨x, kind, rfl⟩
  · obtain ⟨x, known, kind⟩ := Tuple.holds_of_hasBound bound (covers.fits free)
    intro w
    by_cases here : w = v
    · subst here
      simpa [set, known] using kind
    · simpa [set, here] using covers w
  · exact covers.bind kind

theorem Covers.bindsEach {outputs : List (Var × List Kind)} (covers : Covers scope t)
    (free : scope.bindEach? outputs = some next) (h : Tuple.BindsEach outputs t u) :
    Covers next u := by
  induction outputs generalizing scope t with
  | nil =>
      obtain rfl := Option.some.inj free
      rwa [h]
  | cons output rest ih =>
      obtain ⟨v, kinds⟩ := output
      obtain ⟨here, free⟩ := Option.ite_none_right_eq_some.mp free
      obtain ⟨s, first, others⟩ := h
      exact ih (covers.binds here first) free others

/-- Also the outputs bound later fit from the start, where they are bound at all. What a variable is
bound as twice is narrower the second time. -/
theorem Covers.fits_of_bindEach? {outputs : List (Var × List Kind)} (covers : Covers scope t)
    (free : scope.bindEach? outputs = some next) : ∀ p ∈ outputs, t.Fits p.1 p.2 := by
  suffices ∀ p ∈ outputs, scope.fits p.1 p.2 = true from fun p hp => covers.fits (this p hp)
  clear covers
  induction outputs generalizing scope with
  | nil => nofun
  | cons output rest ih =>
      obtain ⟨v, kinds⟩ := output
      obtain ⟨here, free⟩ := Option.ite_none_right_eq_some.mp free
      rintro p (_ | ⟨_, listed⟩)
      · exact here
      · have later := ih free p listed
        by_cases same : p.1 = v
        · simp only [Scope.fits, set, same, Function.update_self, List.all_eq_true,
            List.mem_map] at later here ⊢
          intro state listed
          have fits := here state listed
          cases state with
          | none => rfl
          | some kind => exact later _ ⟨kind, by simpa using fits, rfl⟩
        · simpa [Scope.fits, set, same] using later

theorem Covers.joinLeft (h : Covers left t) : Covers (left.join right) t :=
  fun v => List.mem_append_left _ (h v)

theorem Covers.joinRight (h : Covers right t) : Covers (left.join right) t :=
  fun v => List.mem_append_right _ (h v)

end Scope

def Relation.scope? (r : Relation) (scope : Scope) : Option Scope :=
  if r.inputs.all fun p => scope.holds p.1 p.2 then scope.bindEach? r.outputs else none

/-- The scope that a query leads to, if its variables are bound whenever they are read. -/
def Query.scope? : Query → Scope → Option Scope
  | .relation r, scope => r.scope? scope
  | .bind v value, scope => some (scope.set v [value.sort])
  | .and left right, scope => (left.scope? scope).bind right.scope?
  | .or left right, scope =>
      (left.scope? scope).bind fun a => (right.scope? scope).map a.join
  | .not query, scope => (query.scope? scope).map fun _ => scope
  | .distinct query, scope => query.scope? scope

/-- No violation comes up, and every answer has the property. -/
structure Answers.Each (a : Answers) (P : Tuple → Prop) : Prop where
  clean : a.violation? = none
  each : ∀ u ∈ a.tuples, P u

namespace Answers.Each

variable {P Q : Tuple → Prop} {a b : Answers}

theorem ofList {us : List Tuple} (h : ∀ u ∈ us, P u) : (Answers.ofList us).Each P :=
  ⟨violation?_ofList us, by simpa using h⟩

theorem mono (h : a.Each P) (weaker : ∀ u, P u → Q u) : a.Each Q :=
  ⟨h.clean, fun u hu => weaker u (h.each u hu)⟩

theorem append (first : a.Each P) (second : b.Each P) : (a.append fun _ => b).Each P where
  clean := by rw [violation?_append, first.clean, second.clean]; rfl
  each u hu := (mem_tuples_append hu).elim (first.each u) (second.each u)

theorem bind {f : Tuple → Reading Answers} (first : a.Each P)
    (next : ∀ t, P t → (f t).Yields (·.Each Q)) : (a.bind f).Each Q := by
  induction a with
  | done => exact ⟨rfl, nofun⟩
  | violated v => cases first.clean
  | found t rest ih =>
      obtain ⟨b, met, second⟩ := next t (first.each t List.mem_cons_self)
      have others := ih () ⟨first.clean, fun u hu => first.each u (List.mem_cons_of_mem t hu)⟩
      have both := second.append others
      constructor
      · simpa only [Answers.bind, met, violation?] using both.clean
      · simpa only [Answers.bind, met, tuples] using both.each
  | searching rest ih =>
      have others := ih () ⟨first.clean, first.each⟩
      exact ⟨others.clean, others.each⟩

theorem all (h : a.Each P) : a.all = .ok a.tuples := by
  rw [all_eq, h.clean]

theorem isEmpty (h : a.Each P) : a.isEmpty.Succeeds := by
  rw [isEmpty_eq, h.clean]
  cases a.tuples with
  | nil => exact ⟨true, rfl, trivial⟩
  | cons t ts => exact ⟨false, rfl, trivial⟩

theorem distinctFrom {met : List Tuple} (h : a.Each P) : (a.distinctFrom met).Each P := by
  refine ⟨by rw [violation?_distinctFrom, h.clean], ?_⟩
  induction a generalizing met with
  | done => nofun
  | violated v => nofun
  | found t rest ih =>
      have others : (rest ()).Each P :=
        ⟨h.clean, fun u hu => h.each u (List.mem_cons_of_mem t hu)⟩
      unfold Answers.distinctFrom
      split
      · exact ih () others
      · rintro u (_ | ⟨_, listed⟩)
        · exact h.each t List.mem_cons_self
        · exact ih () others u listed
  | searching rest ih => exact ih () ⟨h.clean, h.each⟩

end Answers.Each

variable {store : Store} {scope next : Scope} {t : Tuple}

theorem Relation.run_of_scope? {r : Relation} (leads : r.scope? scope = some next)
    (covers : scope.Covers t) :
    (r.run store t).Yields fun us => ∀ u ∈ us, next.Covers u := by
  obtain ⟨inputs, outputs⟩ := Option.ite_none_right_eq_some.mp leads
  have ready (p) (hp : p ∈ r.inputs) : t.Holds p.1 p.2 :=
    covers.holds (List.all_eq_true.mp inputs p hp)
  exact (run_yields ready (covers.fits_of_bindEach? outputs)).mono
    fun us found u hu => covers.bindsEach outputs (found u hu)

/-- From a tuple in its scope a query comes to its end, in the scope it leads to. The answers of a
negated query are dropped, and with them what it bound. -/
theorem Query.eval_of_scope? {q : Query} (leads : q.scope? scope = some next)
    (covers : scope.Covers t) : (q.eval store t).Yields (·.Each next.Covers) := by
  induction q generalizing scope next t with
  | relation r =>
      exact (Relation.run_of_scope? leads covers).bind fun us found => .pure (.ofList found)
  | bind v value =>
      obtain rfl := Option.some.inj leads
      refine .pure (.ofList fun u hu => ?_)
      rw [List.mem_singleton.mp hu]
      exact covers.bind (List.mem_singleton_self _)
  | and left right first second =>
      obtain ⟨middle, here, there⟩ := Option.bind_eq_some_iff.mp leads
      exact (first here covers).bind fun a each =>
        .pure (each.bind fun s covered => second there covered)
  | or left right first second =>
      obtain ⟨one, here, joined⟩ := Option.bind_eq_some_iff.mp leads
      obtain ⟨other, there, rfl⟩ := Option.map_eq_some_iff.mp joined
      exact (first here covers).bind fun a each => (second there covers).bind fun b each' =>
        .pure ((each.mono fun _ => .joinLeft).append (each'.mono fun _ => .joinRight))
  | not query ih =>
      obtain ⟨inner, here, rfl⟩ := Option.map_eq_some_iff.mp leads
      refine (ih here covers).bind fun a each => each.isEmpty.bind fun none _ =>
        .pure (.ofList fun u hu => ?_)
      rwa [(mem_keepIf.mp hu).1]
  | distinct query ih =>
      exact (ih leads covers).bind fun a each => .pure each.distinctFrom

theorem Query.run_of_scope? (store : Store) {q : Query} (leads : q.scope? .empty = some next) :
    (q.run store).Yields (·.Each next.Covers) :=
  eval_of_scope? leads Scope.covers_empty

/-- A variable that nothing has bound is in no scope as a term, and reading it is a violation. -/
example (v : Var) : (Query.relation (.isBlank v)).scope? .empty = none ∧
    (Query.relation (.isBlank v)).run store = .error (.unbound v.name) :=
  ⟨rfl, rfl⟩

end RdfTemplates
