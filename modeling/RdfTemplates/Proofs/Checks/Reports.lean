import RdfTemplates.Proofs.Places
import RdfTemplates.Proofs.Query.Safety

/-!
# What checks report

What an answer to the query of a check is about can be read off its tuple. A check reports
what is so if its query is answered to the end and there are answers about just what is so;
then it says nothing where nothing is so. Most of what there is to report is about the terms
that stand at the places of a body: in an argument of an instance, so many lists deep.
-/

namespace RdfTemplates

variable {α β : Type}

/-- Reads two values of a tuple. -/
def Tuple.both (first : Tuple → Reading α) (second : Tuple → Reading β) (t : Tuple) :
    Reading (α × β) :=
  return (← first t, ← second t)

theorem Tuple.both_eq_ok {first : Tuple → Reading α} {second : Tuple → Reading β} {t : Tuple}
    {a : α} {b : β} : both first second t = .ok (a, b) ↔ first t = .ok a ∧ second t = .ok b := by
  simp [both, Reading.bind_eq_ok, pure, Except.pure]

namespace Check

variable {store : Store} {c : Check} {needs : List (Var × List Kind)}
  {subject : Tuple → Reading α} {so : α → Prop}

/-- What the answers of the check are about, one after the other. -/
def subjects (c : Check) (store : Store) (subject : Tuple → Reading α) : Reading (List α) := do
  (← (← c.query.run store).all).mapM subject

/-- The query of the check comes to its end, and its answers are about what is so and about
nothing else. -/
def Reports (c : Check) (store : Store) (subject : Tuple → Reading α) (so : α → Prop) : Prop :=
  ∃ found, c.subjects store subject = .ok found ∧ ∀ a, a ∈ found ↔ so a

theorem suffices_both {first : Tuple → Reading α} {second : Tuple → Reading β}
    (left : Suffices needs first) (right : Suffices needs second) :
    Suffices needs (Tuple.both first second) :=
  fun t ready => (left t ready).bind fun _ _ => (right t ready).bind fun _ _ => .pure trivial

theorem suffices_iri {v : Var} (known : (v, [Kind.iri]) ∈ needs) : Suffices needs (·.iri v) :=
  fun _ ready => Tuple.iri_succeeds (ready _ known)

theorem suffices_int {v : Var} (known : (v, [Kind.int]) ∈ needs) : Suffices needs (·.int v) :=
  fun _ ready => Tuple.int_succeeds (ready _ known)

theorem suffices_term {v : Var} (known : (v, [Kind.term]) ∈ needs) : Suffices needs (·.term v) :=
  fun _ ready => Tuple.term_succeeds (ready _ known)

/-- A check whose query leads to a scope that has what the subject is read from. -/
theorem reports_of_scope? (needs : List (Var × List Kind))
    (leads : (c.query.scope? .empty).any
      (fun scope => needs.all fun p => scope.holds p.1 p.2) = true)
    (read : Suffices needs subject)
    (told : ∀ a, (∃ u, c.query.Finds store .empty u ∧ subject u = .ok a) ↔ so a) :
    c.Reports store subject so := by
  obtain ⟨answers, met, each⟩ := run_of_scope? store needs leads read
  have known (u) (listed : u ∈ answers.tuples) : ∃ a, subject u = .ok a := by
    obtain ⟨a, known, -⟩ := each.each u listed
    exact ⟨a, known⟩
  obtain ⟨found, all, listed⟩ := Reading.exists_mapM known
  have ends : c.query.Ends store answers.tuples := ⟨answers, met, each.all⟩
  refine ⟨found, ?_, fun a => ?_⟩
  · exact Reading.bind_eq_ok.mpr ⟨answers, met, Reading.bind_eq_ok.mpr ⟨_, each.all, all⟩⟩
  · rw [listed, ← told]
    exact exists_congr fun u => and_congr_left' ends.mem_iff

end Check

/-- An argument of an instance, and how many lists deep inside of it. -/
structure Place where
  inst : Instance
  position : Nat
  depth : Nat

/-- The term stands at a place of the body of a template. -/
def Store.StandsAt (store : Store) (iri : Iri) (u : Term) (place : Place) : Prop :=
  ∃ is t, store.body? iri = some is ∧ place.inst ∈ is ∧
    place.inst.arguments.term? place.position = some t ∧ u.StandsIn place.depth t

theorem Check.body?_eq_some {store : Store} {iri : Iri} {is : List Instance} :
    store.body? iri = some is ↔
      (∃ ps, store.status? iri = some (.definition ps)) ∧ store.bodyOf iri = is := by
  rw [← Store.isDefinition_iff, Store.body?]
  cases store.isDefinition iri <;> simp

end RdfTemplates
