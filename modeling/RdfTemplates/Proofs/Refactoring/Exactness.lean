import RdfTemplates.Proofs.Matching.Placements
import RdfTemplates.Proofs.Refactoring.Acyclicity

/-!
# What a refactoring changes

The instances taken out of the changed body are what the substitution makes of the body
of the template used. No body has an instance twice, and a matching turns different
instances into different ones, so as many are taken out as the template used has. The
new instance takes their place unless it is there already. Every other declaration stays,
and so does what the store keeps beside them.
-/

namespace RdfTemplates

namespace Substitution

variable {s : Substitution} {body into : List Instance}

theorem Keyed.applyInstance_same (keyed : s.Keyed) {i j : Instance} (same : (i == j) = true) :
    (s.applyInstance i == s.applyInstance j) = true := by
  rw [← keyed.fill_beq_instance, Instance.fill_same _ same, keyed.fill_beq_instance]
  exact BEq.rfl

/-- Different instances are turned into ones at different positions. -/
theorem Embeds.subperm (embeds : s.Embeds body into) :
    ((body.map s.applyInstance).map Instance.untyped).Subperm (into.map Instance.untyped) := by
  obtain ⟨place, places⟩ := embeds.places
  have assigned : Assigned (fun i j => (s.applyInstance i == j) = true) body into :=
    assigned_iff_exists_place.mpr ⟨place, places.injective, places.turns⟩
  obtain ⟨chosen, rest, listed, taken⟩ := assigned
  have turned : (body.map s.applyInstance).map Instance.untyped = chosen.map Instance.untyped := by
    rw [List.map_map, ← List.forall₂_eq_eq_eq, List.forall₂_map_left_iff,
      List.forall₂_map_right_iff]
    exact taken.imp fun i j same => (Instance.sameUnder_untyped _ j).mp same
  rw [turned]
  exact ((List.sublist_append_left chosen rest).map _).subperm.trans (listed.map _).subperm

end Substitution

namespace Refactoring

/-- How an old body becomes a new one when the instances that the substitution makes of the
`body` of a template give way to one instance of that template. -/
structure Replaces (s : Substitution) (used : Iri) (ps : ParameterList)
    (body old new : List Instance) : Prop where
  bound : ∀ p ∈ ps, s.contains p.term = true
  apart : Distinct (body.map s.applyInstance)
  within : ∀ i ∈ body, old.contains (s.applyInstance i) = true
  distinct : Distinct new
  exact : ∀ i, new.contains i = ((old.contains i && !(body.map s.applyInstance).contains i) ||
    i == .ofTerms used (ps.map fun p => s.apply p.term))

/-- The one body that a refactoring changes, and how. -/
structure ChangesOnly (store other : Store) (used changed : Iri) (s : Substitution) : Prop where
  body : ∃ ps qs body old new,
    store.catalog used = some ⟨.definition ps, body⟩ ∧
    store.catalog changed = some ⟨.definition qs, old⟩ ∧
    other.catalog = Function.update store.catalog changed (some ⟨.definition qs, new⟩) ∧
    Replaces s used ps body old new
  aside : other.aside = store.aside

variable {store other : Store} {used changed : Template} {s : Substitution}

theorem Done.untyped_matched (done : Done store other used changed s)
    (distinct : Distinct (store.bodyOf used.iri)) :
    (matched used s).map Instance.untyped =
      ((store.bodyOf used.iri).map s.applyInstance).map Instance.untyped := by
  have keyed := (Substitution.embeds_of_mem_matchBodies done.found).keyed
  have body : used.body =
      (store.bodyOf used.iri).map (·.mapTerms (Term.retype used.parameters)) := by
    rw [← Template.body_make used.iri used.parameters distinct, done.usedBody]
  rw [matched, body, List.map_map, List.map_map, List.map_map]
  refine List.map_congr_left fun i _ => ?_
  exact (Instance.sameUnder_untyped _ _).mp
    (keyed.applyInstance_same (Template.retype_same used.parameters i))

theorem Done.replaces (done : Done store other used changed s) (reachable : store.Reachable) :
    Replaces s used.iri used.parameters (store.bodyOf used.iri) (store.bodyOf changed.iri)
      (other.bodyOf changed.iri) := by
  have wf := reachable.wellFormed
  have bodies := reachable.tidy.bodies
  have untyped := done.untyped_matched (bodies used.iri)
  have old : changed.body.map Instance.untyped =
      (store.bodyOf changed.iri).map Instance.untyped := by
    have same := Template.mapTerms_retype_same changed.parameters (store.bodyOf changed.iri)
    rw [← Template.body_make changed.iri changed.parameters (bodies changed.iri),
      done.changedBody] at same
    exact (Instance.sameUnder_untyped.list _ _).mp same
  have taken : (((store.bodyOf used.iri).map s.applyInstance).map Instance.untyped).Subperm
      ((store.bodyOf changed.iri).map Instance.untyped) := by
    rw [← untyped, ← old]
    exact (Substitution.embeds_of_mem_matchBodies done.found).subperm
  constructor
  case bound => exact done.checked.bound
  case apart =>
    have once := Instance.nodup_untyped (bodies changed.iri)
    obtain ⟨l, sorted, sub⟩ := taken
    exact Instance.distinct_of_nodup (sorted.nodup_iff.mp (once.sublist sub))
  case within =>
    intro i hi
    exact Instance.contains_iff_untyped.mpr
      (taken.subset (List.mem_map_of_mem (List.mem_map_of_mem hi)))
  case distinct =>
    rw [← done.edited]
    exact Store.distinct_editBody (bodies changed.iri) _ _
  case exact =>
    intro i
    have gone : (matched used s).contains i =
        ((store.bodyOf used.iri).map s.applyInstance).contains i := by
      rw [Bool.eq_iff_iff, Instance.contains_iff_untyped, Instance.contains_iff_untyped, untyped]
    rw [← done.edited, wf.contains_editBody (Store.isDefinition_iff.mpr ⟨_, done.changes⟩), gone]
    simp [call]

theorem Done.changesOnly (done : Done store other used changed s) (reachable : store.Reachable) :
    ChangesOnly store other used.iri changed.iri s where
  body := by
    refine ⟨used.parameters, changed.parameters, store.bodyOf used.iri, store.bodyOf changed.iri,
      other.bodyOf changed.iri, Store.catalog_of_status done.uses rfl,
      Store.catalog_of_status done.changes rfl, ?_, done.replaces reachable⟩
    rw [← done.edited]
    exact reachable.wellFormed.catalog_editBody done.changes _ _
  aside := by
    rw [← done.edited]
    exact Store.aside_editBody store changed.iri _ _

/-- A refactoring that is made replaces the matched instances of the one body and nothing else;
one that is refused changes nothing. -/
theorem refactor_changesOnly {store : Store} (reachable : store.Reachable) (used changed : Iri) :
    match store.refactor used changed with
    | (.ok s, other) => ChangesOnly store other used changed s
    | (.error _, other) => other = store := by
  rcases refactored : store.refactor used changed with ⟨e | s, other⟩
  · exact store_of_error refactored
  · obtain ⟨t, u, -, -, rfl, rfl, done⟩ := done_of_refactor refactored
    exact done.changesOnly reachable

/-- The book is tagged as lent, and what is read of it stays. Nothing tagged is a book. -/
theorem refactor_changesOnly_books : books.Reachable ∧
    books.refactor "Tagged" "Book" = (.ok lending, taggedBooks) ∧
    ChangesOnly books taggedBooks "Tagged" "Book" lending ∧
    taggedBooks.bodyOf "Book" = [
      .ofTerms "Fact" [.var ⟨"title", .top⟩, .iri "read"],
      .ofTerms "Tagged" [.var ⟨"title", .top⟩, .iri "lent"]] ∧
    (books.refactor "Book" "Tagged").1 = .error (.noUnifier "Book" "Tagged") ∧
    (books.refactor "Book" "Tagged").2 = books := by
  have refactored : books.refactor "Tagged" "Book" = (.ok lending, taggedBooks) := rfl
  have refused : (books.refactor "Book" "Tagged").1 = .error (.noUnifier "Book" "Tagged") := rfl
  have changes := refactor_changesOnly reachable_books "Tagged" "Book"
  rw [refactored] at changes
  have kept := refactor_changesOnly reachable_books "Book" "Tagged"
  exact ⟨reachable_books, refactored, changes, rfl, refused, kept⟩

end Refactoring

end RdfTemplates
