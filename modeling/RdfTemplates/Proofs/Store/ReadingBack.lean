import RdfTemplates.Proofs.Store.Structure

/-!
# Templates read back

A body is listed by the numbers of its calls, and the calls of a new body take the
numbers that were released before they take new ones. So a template that was added
is read back with the instances it was given. They are in their order exactly when
the released numbers that they take up ascend.
-/

namespace RdfTemplates

/-- A rearrangement that looks the same is the same if no two elements look alike. -/
theorem eq_of_perm_of_map_eq {α β : Type} {f : α → β} {xs ys : List α} (same : xs.Perm ys)
    (alike : xs.map f = ys.map f) (apart : (ys.map f).Nodup) : xs = ys := by
  refine List.ext_getElem same.length_eq fun i hx hy => ?_
  have here : f xs[i] = f ys[i] := by
    have both := congrArg (·[i]?) alike
    simpa [hx, hy] using both
  exact List.inj_on_of_nodup_map apart (same.subset (List.getElem_mem hx)) (List.getElem_mem hy)
    here

theorem Template.beq_def (t u : Template) :
    (t == u) = (t.iri == u.iri && (t.parameters == u.parameters && t.body == u.body)) := rfl

namespace Store

variable {store : Store} {t u : Template}

/-- No other order of the numbers gives the body in its own order. -/
theorem WellFormed.ascending_of_bodyOf_define (wf : store.WellFormed)
    (free : ∀ ps, store.status? t.iri ≠ some (.definition ps)) (distinct : Distinct t.body)
    (same : ((store.define t).bodyOf t.iri == t.body) = true) :
    (store.calls.upcoming t.body.length).Pairwise (· < ·) := by
  let look (call : Nat × Call) : Instance := call.2.target.untyped
  let sorted := stableSort (fun a b : Nat × Call => decide (a.1 ≤ b.1))
    (store.numberedCalls t).reverse
  have perm : sorted.Perm (store.numberedCalls t) :=
    (stableSort_perm _ _).trans (List.reverse_perm _)
  have targets : (store.numberedCalls t).map look = t.body.map Instance.untyped := by
    have targets := congrArg (List.map Instance.untyped) (targets_numberedCalls store t)
    rwa [List.map_map] at targets
  have alike : sorted.map look = (store.numberedCalls t).map look := by
    rw [bodyOf, wf.callsFrom_define t free, Instance.sameUnder_untyped.list _ _,
      List.map_map] at same
    exact same.trans targets.symm
  have apart : ((store.numberedCalls t).map look).Nodup := by
    rw [targets]
    exact Instance.nodup_untyped distinct
  have whole : sorted = store.numberedCalls t := eq_of_perm_of_map_eq perm alike apart
  have byNumber (a b : Nat × Call) : decide (a.1 ≤ b.1) = true ↔ a.1 ≤ b.1 := by simp
  have ordered : sorted.Pairwise fun a b => decide (a.1 ≤ b.1) = true :=
    pairwise_stableSort_by byNumber _
  rw [whole] at ordered
  have ascending : (store.calls.upcoming t.body.length).Pairwise (· ≤ ·) := by
    rw [← numbers_numberedCalls, List.pairwise_map]
    exact ordered.imp fun {a b} before => by simpa using before
  exact (ascending.and (wf.calls.nodup_upcoming t.body.length)).imp fun {m n} both =>
    Nat.lt_of_le_of_ne both.1 both.2

/-- What is read back of a template whose calls take up these released numbers. -/
structure ReadBack (released : List Nat) (t u : Template) : Prop where
  iri : u.iri = t.iri
  parameters : u.parameters = t.parameters
  body : u.body.Perm t.body
  whole : released.Pairwise (· < ·) → u = t
  only : (u == t) = true → released.Pairwise (· < ·)

/-- A template that is added is read back with its instances, and as a whole exactly if the released
numbers that its calls take up ascend. -/
theorem getTemplate_addTemplate (reachable : store.Reachable) {t : Template}
    (made : (Declaration.template t).Made) (added : (store.addTemplate t).2 = true) :
    ∃ u, (store.addTemplate t).1.getTemplate t.iri = .ok u ∧
      ReadBack (store.calls.released.take t.body.length) t u := by
  have wf := reachable.wellFormed
  have remade {js : List Instance} (same : js.Perm t.body) :
      Template.make t.iri t.parameters js = ⟨t.iri, t.parameters, js⟩ := by
    obtain ⟨iri, ps, body, rfl⟩ := made
    exact Template.make_of_perm same
  have distinct : Distinct t.body := by
    obtain ⟨iri, ps, body, rfl⟩ := made
    exact Template.distinct_make iri ps body
  rcases store.addTemplate_cases t with ⟨reason, refused⟩ | ⟨free, defined⟩
  · rw [refused] at added
    cases added
  · have perm := wf.bodyOf_define_perm t free
    have found : (store.define t).getTemplate t.iri =
        .ok ⟨t.iri, t.parameters, (store.define t).bodyOf t.iri⟩ := by
      rw [getTemplate, status?_define, if_pos rfl, ← remade perm]
    rw [defined]
    refine ⟨_, found, rfl, rfl, perm, ?_, ?_⟩
    · intro ascending
      rw [← wf.calls.pairwise_upcoming_iff] at ascending
      exact congrArg (Template.mk t.iri t.parameters)
        (wf.bodyOf_define_of_ascending free ascending)
    · intro same
      rw [Template.beq_def, Bool.and_eq_true, Bool.and_eq_true] at same
      rw [← wf.calls.pairwise_upcoming_iff]
      exact wf.ascending_of_bodyOf_define free distinct same.2.2

/-- Two notes are removed one after the other. A list takes their numbers in the wrong order, and
in the right one if they were removed the other way round. -/
def notes : Store :=
  (empty .standard).acceptAll
    [.template (.make "First" [] [.ofTerms "Item" [.iri "a"]]),
     .template (.make "Second" [] [.ofTerms "Item" [.iri "b"]])]

def listing : Template :=
  .make "List" []
    [.ofTerms "Item" [.iri "c"], .ofTerms "Item" [.iri "d"], .ofTerms "Item" [.iri "e"]]

theorem reachable_notes (first second : Iri) :
    ((notes.remove first).1.remove second).1.Reachable := by
  have start : notes.Reachable := by
    apply reachable_acceptAll
    simp [Declaration.Made]
  exact (start.evolves (Change.removal _ first).evolves).evolves (Change.removal _ second).evolves

/-- The numbers are taken up in the order 0, 1 and the list is read back as it was added. -/
theorem getTemplate_addTemplate_listing :
    ((notes.remove "Second").1.remove "First").1.Reachable ∧
    (Declaration.template listing).Made ∧
    (((notes.remove "Second").1.remove "First").1.addTemplate listing).2 = true ∧
    ((notes.remove "Second").1.remove "First").1.calls.released = [0, 1] ∧
    (((notes.remove "Second").1.remove "First").1.addTemplate listing).1.getTemplate "List" =
      .ok listing := by
  have made : (Declaration.template listing).Made := ⟨_, _, _, rfl⟩
  have added : (((notes.remove "Second").1.remove "First").1.addTemplate listing).2 = true := by
    decide +kernel
  have released : ((notes.remove "Second").1.remove "First").1.calls.released = [0, 1] := by
    decide +kernel
  obtain ⟨u, found, back⟩ :=
    getTemplate_addTemplate (reachable_notes "Second" "First") made added
  have whole : u = listing := back.whole (by rw [released]; decide)
  rw [whole] at found
  exact ⟨reachable_notes "Second" "First", made, added, released, found⟩

/-- With the numbers 1, 0 and 2 the instances are read back as the second, the first and the
third. -/
theorem not_getTemplate_addTemplate_turned :
    ((notes.remove "First").1.remove "Second").1.Reachable ∧
    (Declaration.template listing).Made ∧
    (((notes.remove "First").1.remove "Second").1.addTemplate listing).2 = true ∧
    ∃ u, (((notes.remove "First").1.remove "Second").1.addTemplate listing).1.getTemplate "List" =
      .ok u ∧ u.body.map (·.text) = ["<Item>(<d>)", "<Item>(<c>)", "<Item>(<e>)"] ∧
      (u == listing) = false := by
  have made : (Declaration.template listing).Made := ⟨_, _, _, rfl⟩
  exact ⟨reachable_notes "First" "Second", made, by decide +kernel, _, rfl, by decide +kernel,
    by decide +kernel⟩

end Store

end RdfTemplates
