import RdfTemplates.Query.Basic

/-!
# What a query finds

A query can be read without the order in which its answers are met: a conjunction
goes on from what its left side finds, and a negation stays where nothing is found.
Every answer is found in this sense, and when no violation comes up everything
found is an answer. Which of equal tuples a query leaves out does depend on the
order, so there the reading is the evaluation.
-/

namespace RdfTemplates

theorem Reading.bind_eq_ok {α β : Type} {x : Reading α} {f : α → Reading β} {b : β} :
    (x >>= f) = .ok b ↔ ∃ a, x = .ok a ∧ f a = .ok b := by
  cases x <;> simp [Bind.bind, Except.bind]

namespace Answers

variable {f : Tuple → Reading Answers}

theorem mem_tuples_append {a : Answers} {next : Unit → Answers} {u : Tuple}
    (h : u ∈ (a.append next).tuples) : u ∈ a.tuples ∨ u ∈ (next ()).tuples := by
  rw [tuples_append, List.mem_append] at h
  refine h.imp_right fun there => ?_
  cases ended : a.violation? with
  | some v =>
      rw [ended] at there
      cases there
  | none => rwa [ended] at there

theorem mem_tuples_bind {a : Answers} {u : Tuple} (h : u ∈ (a.bind f).tuples) :
    ∃ t ∈ a.tuples, ∃ b, f t = .ok b ∧ u ∈ b.tuples := by
  induction a with
  | done => cases h
  | violated v => cases h
  | found t rest ih =>
      simp only [bind, tuples] at h
      cases met : f t with
      | error v =>
          rw [met] at h
          cases h
      | ok b =>
          rw [met] at h
          rcases mem_tuples_append h with here | there
          · exact ⟨t, List.mem_cons_self, b, met, here⟩
          · obtain ⟨s, hs, found⟩ := ih () there
            exact ⟨s, List.mem_cons_of_mem t hs, found⟩
  | searching rest ih =>
      obtain ⟨s, hs, found⟩ := ih () h
      exact ⟨s, hs, found⟩

/-- Where no violation comes up the answers for every tuple are there, to the last one. -/
theorem bind_of_clean {a : Answers} (clean : (a.bind f).violation? = none) :
    a.violation? = none ∧ ∀ t ∈ a.tuples, ∃ b, f t = .ok b ∧ b.violation? = none ∧
      ∀ u ∈ b.tuples, u ∈ (a.bind f).tuples := by
  induction a with
  | done => exact ⟨rfl, nofun⟩
  | violated v => cases clean
  | found t rest ih =>
      simp only [bind, violation?] at clean
      cases met : f t with
      | error v =>
          rw [met] at clean
          cases clean
      | ok b =>
          rw [met, violation?_append, Option.or_eq_none_iff] at clean
          obtain ⟨ended, others⟩ := ih () clean.2
          have tuples : ((found t rest).bind f).tuples =
              b.tuples ++ ((rest ()).bind f).tuples := by
            simp [bind, Answers.tuples, met, tuples_append, clean.1]
          refine ⟨ended, fun s hs => ?_⟩
          rw [tuples]
          rcases List.mem_cons.mp hs with rfl | hs
          · exact ⟨b, met, clean.1, fun u hu => List.mem_append_left _ hu⟩
          · obtain ⟨c, here, none, all⟩ := others s hs
            exact ⟨c, here, none, fun u hu => List.mem_append_right _ (all u hu)⟩
  | searching rest ih => exact ih () clean

theorem isEmpty_of_ok {a : Answers} {empty : Bool} (h : a.isEmpty = .ok empty) :
    if empty then a.tuples = [] ∧ a.violation? = none else ∃ t, t ∈ a.tuples := by
  rw [isEmpty_eq] at h
  cases met : a.tuples with
  | cons t ts =>
      rw [met] at h
      obtain rfl := Except.ok.inj h
      exact ⟨t, List.mem_cons_self⟩
  | nil =>
      rw [met] at h
      cases ended : a.violation? with
      | some v =>
          rw [ended] at h
          cases h
      | none =>
          rw [ended] at h
          obtain rfl := Except.ok.inj h
          exact ⟨rfl, rfl⟩

end Answers

namespace Query

variable {store : Store}

/-- Whether the query takes the first tuple to the second one, whatever else it finds. -/
def Finds (store : Store) : Query → Tuple → Tuple → Prop
  | .relation r, t, u => ∃ us, r.run store t = .ok us ∧ u ∈ us
  | .bind v value, t, u => u = t.bind v value
  | .and left right, t, u => ∃ s, Finds store left t s ∧ Finds store right s u
  | .or left right, t, u => Finds store left t u ∨ Finds store right t u
  | .not query, t, u => u = t ∧ ∀ s, ¬ Finds store query t s
  | .distinct query, t, u => ∃ a, query.eval store t = .ok a ∧ u ∈ a.distinct.tuples

theorem mem_keepIf {t u : Tuple} {holds : Bool} :
    u ∈ Relation.keepIf t holds ↔ u = t ∧ holds = true := by
  cases holds <;> simp [Relation.keepIf]

theorem eval_relation {r : Relation} {t : Tuple} {a : Answers}
    (h : (Query.relation r).eval store t = .ok a) :
    ∃ us, r.run store t = .ok us ∧ a = .ofList us := by
  obtain ⟨us, met, same⟩ := Reading.bind_eq_ok.mp h
  exact ⟨us, met, (Except.ok.inj same).symm⟩

theorem eval_and {left right : Query} {t : Tuple} {a : Answers}
    (h : (Query.and left right).eval store t = .ok a) :
    ∃ b, left.eval store t = .ok b ∧ a = b.bind (right.eval store) := by
  obtain ⟨b, met, same⟩ := Reading.bind_eq_ok.mp h
  exact ⟨b, met, (Except.ok.inj same).symm⟩

theorem eval_or {left right : Query} {t : Tuple} {a : Answers}
    (h : (Query.or left right).eval store t = .ok a) :
    ∃ b c, left.eval store t = .ok b ∧ right.eval store t = .ok c ∧ a = b.append fun _ => c := by
  obtain ⟨b, met, others⟩ := Reading.bind_eq_ok.mp h
  obtain ⟨c, other, same⟩ := Reading.bind_eq_ok.mp others
  exact ⟨b, c, met, other, (Except.ok.inj same).symm⟩

theorem eval_not {query : Query} {t : Tuple} {a : Answers}
    (h : (Query.not query).eval store t = .ok a) :
    ∃ b empty, query.eval store t = .ok b ∧ b.isEmpty = .ok empty ∧
      a = .ofList (Relation.keepIf t empty) := by
  obtain ⟨b, met, others⟩ := Reading.bind_eq_ok.mp h
  obtain ⟨empty, ended, same⟩ := Reading.bind_eq_ok.mp others
  exact ⟨b, empty, met, ended, (Except.ok.inj same).symm⟩

theorem eval_distinct {query : Query} {t : Tuple} {a : Answers}
    (h : (Query.distinct query).eval store t = .ok a) :
    ∃ b, query.eval store t = .ok b ∧ a = b.distinct := by
  obtain ⟨b, met, same⟩ := Reading.bind_eq_ok.mp h
  exact ⟨b, met, (Except.ok.inj same).symm⟩

/-- The answers of a query against what it finds. For a negation each half needs the other. -/
theorem finds_of_eval (q : Query) {t : Tuple} {a : Answers} (h : q.eval store t = .ok a) :
    (∀ u ∈ a.tuples, q.Finds store t u) ∧
      (a.violation? = none → ∀ u, q.Finds store t u → u ∈ a.tuples) := by
  induction q generalizing t a with
  | relation r =>
      obtain ⟨us, met, rfl⟩ := eval_relation h
      rw [Answers.tuples_ofList]
      refine ⟨fun u hu => ⟨us, met, hu⟩, fun _ u found => ?_⟩
      obtain ⟨vs, same, hu⟩ := found
      rwa [Except.ok.inj (met.symm.trans same)]
  | bind v value =>
      obtain rfl := Except.ok.inj h
      rw [Answers.tuples_ofList]
      exact ⟨fun u hu => List.mem_singleton.mp hu, fun _ u found => List.mem_singleton.mpr found⟩
  | and left right first second =>
      obtain ⟨b, met, rfl⟩ := eval_and h
      constructor
      · intro u hu
        obtain ⟨s, hs, c, next, hu⟩ := Answers.mem_tuples_bind hu
        exact ⟨s, (first met).1 s hs, (second next).1 u hu⟩
      · intro clean u found
        obtain ⟨s, here, there⟩ := found
        obtain ⟨ended, all⟩ := Answers.bind_of_clean clean
        obtain ⟨c, next, none, sub⟩ := all s ((first met).2 ended s here)
        exact sub u ((second next).2 none u there)
  | or left right first second =>
      obtain ⟨b, c, met, other, rfl⟩ := eval_or h
      constructor
      · intro u hu
        exact (Answers.mem_tuples_append hu).imp ((first met).1 u) ((second other).1 u)
      · rw [Answers.tuples_append, Answers.violation?_append, Option.or_eq_none_iff]
        rintro ⟨none, none'⟩ u found
        rw [none, List.mem_append]
        exact found.imp ((first met).2 none u) ((second other).2 none' u)
  | not query ih =>
      obtain ⟨b, empty, met, ended, rfl⟩ := eval_not h
      have said := Answers.isEmpty_of_ok ended
      rw [Answers.tuples_ofList]
      cases empty with
      | true =>
          obtain ⟨nothing, clean⟩ := said
          refine ⟨fun u hu => ⟨(mem_keepIf.mp hu).1, fun s found => ?_⟩,
            fun _ u found => mem_keepIf.mpr ⟨found.1, rfl⟩⟩
          have listed := (ih met).2 clean s found
          rw [nothing] at listed
          cases listed
      | false =>
          obtain ⟨s, hs⟩ := said
          constructor
          · intro u hu
            cases (mem_keepIf.mp hu).2
          · intro _ u found
            exact absurd ((ih met).1 s hs) (found.2 s)
  | distinct query _ =>
      obtain ⟨b, met, rfl⟩ := eval_distinct h
      refine ⟨fun u hu => ⟨b, met, hu⟩, fun _ u found => ?_⟩
      obtain ⟨c, same, hu⟩ := found
      rwa [Except.ok.inj (met.symm.trans same)]

/-- What a conjunction of several queries finds, one after the other. -/
def FindsEach (store : Store) : List Query → Tuple → Tuple → Prop
  | [], t, u => u = t
  | q :: qs, t, u => ∃ s, q.Finds store t s ∧ FindsEach store qs s u

theorem finds_all {q : Query} {others : List Query} {t u : Tuple} :
    (all q others).Finds store t u ↔
      ∃ s, q.Finds store t s ∧ FindsEach store others s u := by
  unfold all
  induction others generalizing q with
  | nil => simp [FindsEach]
  | cons r others ih =>
      rw [List.foldl_cons, ih]
      constructor
      · rintro ⟨m, ⟨s, here, there⟩, rest⟩
        exact ⟨s, here, m, there, rest⟩
      · rintro ⟨s, here, m, there, rest⟩
        exact ⟨m, ⟨s, here, there⟩, rest⟩

end Query

end RdfTemplates
