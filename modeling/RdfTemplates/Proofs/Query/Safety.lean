import RdfTemplates.Checks
import RdfTemplates.Proofs.Query.Scoping

/-!
# Built-in queries meet no violation

Every check of the library, and both queries for pairs of templates, lead from the scope
of the empty tuple to a scope in which the variables of their messages are bound. So they
come to their end on every store, and each answer has its message.
-/

namespace RdfTemplates

/-- The query comes to its last answer, with no variable read amiss. -/
def Query.Ends (q : Query) (store : Store) (found : List Tuple) : Prop :=
  ∃ a, q.run store = .ok a ∧ a.all = .ok found

theorem Query.Ends.mem_iff {q : Query} {store : Store} {found : List Tuple}
    (ends : q.Ends store found) {u : Tuple} : u ∈ found ↔ q.Finds store .empty u := by
  obtain ⟨a, met, all⟩ := ends
  rw [Answers.all_eq] at all
  cases clean : a.violation? with
  | some v =>
      rw [clean] at all
      cases all
  | none =>
      rw [clean] at all
      obtain rfl := Except.ok.inj all
      have answered := Query.finds_of_eval q met
      exact ⟨answered.1 u, answered.2 clean u⟩

namespace Check

variable {store : Store} {t : Tuple} {v : Var} {needs : List (Var × List Kind)}

/-- The check comes to the last answer of its query, and every answer has its message. -/
structure Ends (c : Check) (store : Store) : Prop where
  query : ∃ found, c.query.Ends store found ∧ ∀ t ∈ found, ∃ m, c.message t = .ok m
  run : ∃ ms, c.run store = .ok ms

/-- The reading needs no variable but these, and these as no other kinds. -/
def Suffices (needs : List (Var × List Kind)) {α : Type} (read : Tuple → Reading α) : Prop :=
  ∀ t : Tuple, (∀ p ∈ needs, t.Holds p.1 p.2) → (read t).Succeeds

theorem suffices_say (text : String) : Suffices needs (say text) :=
  fun _ _ => .pure trivial

theorem suffices_value (known : v ∈ needs.map Prod.fst) : Suffices needs (value v) := by
  intro t ready
  obtain ⟨p, listed, rfl⟩ := List.mem_map.mp known
  exact (Tuple.value_yields (ready p listed)).bind fun _ _ => .pure trivial

theorem suffices_place (known : (v, [Kind.int]) ∈ needs) : Suffices needs (place v) :=
  fun _ ready => (Tuple.int_succeeds (ready _ known)).bind fun _ _ => .pure trivial

variable {parts : List (Tuple → Reading String)}

theorem suffices_compose (each : ∀ part ∈ parts, Suffices needs part) :
    Suffices needs (compose parts) := by
  intro t ready
  exact (Reading.mapM_succeeds fun part listed => each part listed t ready).bind
    fun _ _ => .pure trivial

theorem suffices_error (each : ∀ part ∈ parts, Suffices needs part) :
    Suffices needs (error parts) :=
  fun t ready => (suffices_compose each t ready).bind fun _ _ => .pure trivial

theorem suffices_warning (each : ∀ part ∈ parts, Suffices needs part) :
    Suffices needs (warning parts) :=
  fun t ready => (suffices_compose each t ready).bind fun _ _ => .pure trivial

theorem collect_succeeds {message : Tuple → Reading Message} {a : Answers}
    (said : a.Each fun t => (message t).Succeeds) : (collect message a).Succeeds := by
  have step (t) (listed : t ∈ a.tuples) (ms : Messages) :
      Reading.Succeeds (do return ms.pushUnique (← message t)) :=
    (said.each t listed).bind fun _ _ => .pure trivial
  obtain ⟨ms, done, -⟩ := Reading.foldlM_succeeds [] step
  refine ⟨ms, ?_, trivial⟩
  rw [collect, Answers.foldM_eq, done, said.clean]
  rfl

/-- A query that leads to a scope which has all that a reading needs. -/
theorem run_of_scope? {α : Type} {q : Query} {read : Tuple → Reading α} (store : Store)
    (needs : List (Var × List Kind))
    (leads : (q.scope? .empty).any
      (fun scope => needs.all fun p => scope.holds p.1 p.2) = true)
    (enough : Suffices needs read) :
    (q.run store).Yields (·.Each fun t => (read t).Succeeds) := by
  obtain ⟨scope, reached, held⟩ := (Option.any_eq_true _ _).mp leads
  exact (Query.run_of_scope? store reached).mono fun _ each => each.mono fun t covers =>
    enough t fun p listed => covers.holds (List.all_eq_true.mp held p listed)

/-- A check whose query leads to a scope that has all the message needs. -/
theorem ends_of_scope? {c : Check} (needs : List (Var × List Kind))
    (leads : (c.query.scope? .empty).any
      (fun scope => needs.all fun p => scope.holds p.1 p.2) = true)
    (said : Suffices needs c.message) : c.Ends store := by
  obtain ⟨a, met, spoken⟩ := run_of_scope? store needs leads said
  refine ⟨⟨a.tuples, ⟨a, met, spoken.all⟩, fun t listed => ?_⟩, ?_⟩
  · obtain ⟨m, known, -⟩ := spoken.each t listed
    exact ⟨m, known⟩
  · obtain ⟨ms, collected, -⟩ := collect_succeeds spoken
    exact ⟨ms, Reading.bind_eq_ok.mpr ⟨a, met, collected⟩⟩

theorem undefinedTemplate_ends : undefinedTemplate.Ends store :=
  ends_of_scope? [(temp, [.iri]), (temp2, [.iri])] (by decide)
    (suffices_error (by simp [suffices_say, suffices_value]))

theorem inconsistentNonBlankFlags_ends : inconsistentNonBlankFlags.Ends store :=
  ends_of_scope? [(temp1, [.iri]), (val, [.term]), (index2, [.int]), (temp2, [.iri])]
    (by decide)
    (suffices_error (by simp [suffices_say, suffices_value, suffices_place]))

theorem wrongNumberOfArguments_ends : wrongNumberOfArguments.Ends store :=
  ends_of_scope? [(ins, [.inst]), (temp, [.iri]), (.named "Len1", [.int]), (temp2, [.iri]),
    (.named "Len2", [.int]), (params, [.parameters])] (by decide)
    (suffices_error (by simp [suffices_say, suffices_value]))

theorem cyclicDependency_ends : cyclicDependency.Ends store :=
  ends_of_scope? [(temp, [.iri])] (by decide)
    (suffices_error (by simp [suffices_say, suffices_value]))

theorem unusedParameter_ends : unusedParameter.Ends store :=
  ends_of_scope? [(temp, [.iri]), (val, [.term]), (index, [.int])] (by decide)
    (suffices_warning (by simp [suffices_say, suffices_value, suffices_place]))

theorem duplicateParameter_ends : duplicateParameter.Ends store :=
  ends_of_scope? [(temp, [.iri]), (val, [.term]), (index1, [.int]), (index2, [.int])]
    (by decide)
    (suffices_error (by simp [suffices_say, suffices_value, suffices_place]))

theorem undefinedParameter_ends : undefinedParameter.Ends store :=
  ends_of_scope? [(temp, [.iri]), (val, [.term]), (ins, [.inst])] (by decide)
    (suffices_error (by simp [suffices_say, suffices_value]))

theorem conflictingParameterTypes_ends : conflictingParameterTypes.Ends store :=
  ends_of_scope? [(temp, [.iri]), (val, [.term]), (type1, [.type]), (ins1, [.inst]),
    (index1, [.int]), (type2, [.type]), (ins2, [.inst]), (index2, [.int])] (by decide)
    (suffices_error (by simp [suffices_say, suffices_value, suffices_place]))

theorem conflictingIntrinsicType_ends : conflictingIntrinsicType.Ends store :=
  ends_of_scope? [(temp, [.iri]), (val, [.term]), (.named "Intrinsic", [.type]),
    (.named "UsedAs", [.type]), (ins, [.inst]), (index, [.int])] (by decide)
    (suffices_error (by simp [suffices_say, suffices_value, suffices_place]))

theorem modifierWithoutMarkedArgument_ends : modifierWithoutMarkedArgument.Ends store :=
  ends_of_scope? [(temp, [.iri]), (ins, [.inst])] (by decide)
    (suffices_error (by simp [suffices_say, suffices_value]))

theorem markedArgumentWithoutModifier_ends : markedArgumentWithoutModifier.Ends store :=
  ends_of_scope? [(temp, [.iri]), (ins, [.inst]), (index, [.int])] (by decide)
    (suffices_error (by simp [suffices_say, suffices_value, suffices_place]))

theorem listExpanderOnNonList_ends : listExpanderOnNonList.Ends store :=
  ends_of_scope? [(temp, [.iri]), (ins, [.inst]), (val, [.term]), (index, [.int])]
    (by decide)
    (suffices_error (by simp [suffices_say, suffices_value, suffices_place]))

theorem ends_of_mem_library {c : Check} (listed : c ∈ library) : c.Ends store := by
  simp only [library, onMissingInformation, onError, List.cons_append, List.nil_append,
    List.mem_cons, List.not_mem_nil, or_false] at listed
  rcases listed with rfl | rfl | rfl | rfl | rfl | rfl | rfl | rfl | rfl | rfl | rfl | rfl
  · exact undefinedTemplate_ends
  · exact inconsistentNonBlankFlags_ends
  · exact wrongNumberOfArguments_ends
  · exact cyclicDependency_ends
  · exact unusedParameter_ends
  · exact duplicateParameter_ends
  · exact undefinedParameter_ends
  · exact conflictingParameterTypes_ends
  · exact conflictingIntrinsicType_ends
  · exact modifierWithoutMarkedArgument_ends
  · exact markedArgumentWithoutModifier_ends
  · exact listExpanderOnNonList_ends

end Check

theorem Query.ends_of_scope? {q : Query} {store : Store}
    (leads : (q.scope? .empty).isSome = true) : ∃ found, q.Ends store found := by
  obtain ⟨scope, reached⟩ := Option.isSome_iff_exists.mp leads
  obtain ⟨a, met, each⟩ := run_of_scope? store reached
  exact ⟨a.tuples, a, met, each.all⟩

/-- On every store the built-in queries are answered to the end, with all their messages. -/
theorem Store.ends_builtIn (store : Store) :
    (∀ c ∈ Check.library, c.Ends store) ∧ (∃ found, Query.unifies.Ends store found) ∧
      ∃ found, Query.equal.Ends store found :=
  ⟨fun _ => Check.ends_of_mem_library, Query.ends_of_scope? (by decide),
    Query.ends_of_scope? (by decide)⟩

end RdfTemplates
