import RdfTemplates.Proofs.Refactoring
import RdfTemplates.Proofs.Store.Cycles

/-!
# Refactoring makes no dependency cycle

A refactoring adds one call to the store, of the template used by the template changed.
Whatever the template used calls was called by the changed one before, as the instances
of the one body were matched with instances of the other. So a cycle by way of the new
call could have gone on from the changed template at once, and was there already.
-/

namespace RdfTemplates

section

variable {α : Type} {r next : α → α → Prop} {start goal : α}

/-- A path that uses the new edge has come to where it leads. It goes on from there as it could from
where the edge starts. -/
theorem transGen_of_added (edge : ∀ a b, next a b → r a b ∨ a = start ∧ b = goal)
    (within : ∀ a, r goal a → r start a) (apart : goal ≠ start) {a b : α}
    (path : Relation.TransGen next a b) :
    Relation.TransGen r a b ∨ b = goal ∧ Relation.ReflTransGen r a start := by
  induction path with
  | single first =>
      rcases edge _ _ first with old | ⟨rfl, rfl⟩
      · exact .inl (.single old)
      · exact .inr ⟨rfl, .refl⟩
  | tail _ last ih =>
      rcases ih with before | ⟨rfl, before⟩
      · rcases edge _ _ last with old | ⟨rfl, rfl⟩
        · exact .inl (.tail before old)
        · exact .inr ⟨rfl, before.to_reflTransGen⟩
      · rcases edge _ _ last with old | ⟨same, -⟩
        · exact .inl (.tail' before (within _ old))
        · exact absurd same apart

theorem not_cycle_of_added (edge : ∀ a b, next a b → r a b ∨ a = start ∧ b = goal)
    (within : ∀ a, r goal a → r start a) (apart : goal ≠ start)
    (acyclic : ∀ a, ¬ Relation.TransGen r a a) (a : α) : ¬ Relation.TransGen next a a := by
  intro cycle
  rcases transGen_of_added edge within apart cycle with old | ⟨rfl, back⟩
  · exact acyclic a old
  · have path := (Relation.reflTransGen_iff_eq_or_transGen.mp back).resolve_left apart.symm
    obtain ⟨b, first, rest⟩ := Relation.TransGen.head'_iff.mp path
    exact acyclic start (.head' (within b first) rest)

end

namespace Store

variable {store : Store}

theorem WellFormed.isComplete_iff (wf : store.WellFormed) :
    store.topologicalOrder.isComplete = true ↔ ∀ iri, ¬ store.Cyclic iri := by
  rw [TopologicalOrder.isComplete, List.isEmpty_iff, List.eq_nil_iff_forall_not_mem]
  constructor
  · exact fun none iri cyclic => none iri (wf.mem_unsorted_iff.mpr cyclic.meetsCycle)
  · rintro acyclic iri unsorted
    obtain ⟨last, -, cyclic⟩ := wf.mem_unsorted_iff.mp unsorted
    exact acyclic last cyclic

end Store

theorem Instance.iri_of_same {i j : Instance} (same : (i == j) = true) : i.iri = j.iri := by
  cases i
  cases j
  exact beq_iff_eq.mp (Bool.and_eq_true_iff.mp same).1

namespace Refactoring

variable {store other : Store} {used changed : Template} {s : Substitution} {caller callee : Iri}

/-- What the template used calls, the changed one called. Which variables its body has does not
matter to what it calls. -/
theorem Done.callees_used (done : Done store other used changed s)
    (calls : store.Instantiates used.iri callee) : store.Instantiates changed.iri callee := by
  obtain ⟨-, i, hi, rfl⟩ := Store.instantiates_iff_bodyOf.mp calls
  obtain ⟨j, hj, same⟩ : ∃ j ∈ used.body, (j == i) = true := by
    rw [← done.usedBody]
    exact Template.exists_mem_make hi
  have vars (k) (hk : k ∈ changed.body) (x) (hx : x ∈ k.vars) :
      x.label ∈ changed.body.flatMap fun k => k.vars.map (·.label) :=
    List.mem_flatMap.mpr ⟨k, hk, List.mem_map_of_mem hx⟩
  obtain ⟨k, hk, taken⟩ := (Substitution.matched_of_mem_matchBodies vars done.found).2.2 j hj
  rw [← done.changedBody] at hk
  obtain ⟨l, hl, kept⟩ := Template.iri_of_mem_make hk
  have defined : store.isDefinition changed.iri = true :=
    Store.isDefinition_iff.mpr ⟨_, done.changes⟩
  refine Store.instantiates_iff_bodyOf.mpr ⟨defined, l, hl, ?_⟩
  calc
    l.iri = k.iri := kept
    _ = (s.applyInstance j).iri := (Instance.iri_of_same taken).symm
    _ = j.iri := rfl
    _ = i.iri := Instance.iri_of_same same

/-- The only new call is the one put in. -/
theorem Done.instantiates_cases (done : Done store other used changed s) (wf : store.WellFormed)
    (calls : other.Instantiates caller callee) :
    store.Instantiates caller callee ∨ caller = changed.iri ∧ callee = used.iri := by
  obtain ⟨defined, i, hi, rfl⟩ := Store.instantiates_iff_bodyOf.mp calls
  obtain ⟨ps, known⟩ := Store.isDefinition_iff.mp defined
  have before := Store.isDefinition_iff.mpr ⟨ps, ((done.sameAt wf caller).definition ps).mpr known⟩
  rw [← done.edited,
    Store.mem_bodyOf_editBody wf (Store.isDefinition_iff.mpr ⟨_, done.changes⟩)] at hi
  rcases hi with ⟨old, -⟩ | ⟨here, rfl, -⟩
  · exact .inl (Store.instantiates_iff_bodyOf.mpr ⟨before, i, old, rfl⟩)
  · exact .inr ⟨here, rfl⟩

theorem store_of_error {used changed : Iri} {e : RefactoringError}
    (refused : store.refactor used changed = (.error e, other)) : other = store := by
  cases Store.refactorsTo_of_refactor refused <;> rfl

/-- After a refactoring, whether it was made or refused, every template still has its place in
the order. -/
theorem isComplete_refactor {store : Store} (reachable : store.Reachable)
    (complete : store.topologicalOrder.isComplete = true) (used changed : Iri) :
    (store.refactor used changed).2.topologicalOrder.isComplete = true := by
  have wf := reachable.wellFormed
  have wf' := (reachable.refactor used changed).wellFormed
  rcases refactored : store.refactor used changed with ⟨e | s, other⟩
  · rwa [store_of_error refactored]
  · obtain ⟨t, u, -, -, -, -, done⟩ := done_of_refactor refactored
    rw [refactored] at wf'
    exact wf'.isComplete_iff.mpr (not_cycle_of_added (fun _ _ => done.instantiates_cases wf)
      (fun _ => done.callees_used) done.apart (wf.isComplete_iff.mp complete))

/-- The book comes before the template for what is tagged, and after it once it calls it. -/
theorem isComplete_refactor_books : books.Reachable ∧
    books.topologicalOrder = ⟨["Fact", "Book", "Tagged"], []⟩ ∧
    (books.refactor "Tagged" "Book").2.topologicalOrder.isComplete = true ∧
    (books.refactor "Tagged" "Book").2.topologicalOrder = ⟨["Fact", "Tagged", "Book"], []⟩ := by
  have complete : books.topologicalOrder.isComplete = true := by decide +kernel
  exact ⟨reachable_books, by decide +kernel, isComplete_refactor reachable_books complete _ _,
    by decide +kernel⟩

end Refactoring

end RdfTemplates
