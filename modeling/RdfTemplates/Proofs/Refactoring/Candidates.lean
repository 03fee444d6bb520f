import RdfTemplates.Proofs.Matching.Reordering
import RdfTemplates.Proofs.Query.EqualTemplates
import RdfTemplates.Proofs.Refactoring

/-!
# Templates that can be refactored

The query for refactorings searches the bodies as they are in the store, and a
refactoring searches them once their variables have the types of the parameters. A
search does not see types. So where the query has a unifier the refactoring has a
matching, whether the search stops at the limit or not, and it is refused for what is
wrong with the matching only.
-/

namespace RdfTemplates

namespace Query

variable {store : Store} {t u : Template} {p s : Substitution}

/-- The answer for two templates with a matching of the parameters and the unifier that
extends it. -/
def unifiesAnswer (t u : Template) (p s : Substitution) : Tuple :=
  let bound := (Tuple.empty.bind t1 (.iri t.iri)).bind t2 (.iri u.iri)
  let bound := (bound.bind p1 (.parameters t.parameters)).bind p2 (.parameters u.parameters)
  let bound := bound.bind (.named "U") (.substitution p)
  let bound := (bound.bind b1 (.body t.body)).bind b2 (.body u.body)
  bound.bind (.named "U") (.substitution s)

theorem finds_unifies_steps {x : Tuple} : unifies.Finds store .empty x ↔
    ∃ a, (store.status? a).isSome ∧ ∃ b, (store.status? b).isSome ∧
      (Value.iri a != Value.iri b) = true ∧
      ∃ ps, store.parameters? a = some ps ∧ ∃ qs, store.parameters? b = some qs ∧
      ∃ p ∈ Substitution.matchUnordered (ps.map Parameter.term) (qs.map Parameter.term),
      ∃ is, store.body? a = some is ∧ ∃ js, store.body? b = some js ∧
      ∃ m ∈ Substitution.matchBodies is js, ∃ s, p.merge? m = some s ∧
        x = unifiesAnswer ⟨a, ps, is⟩ ⟨b, qs, js⟩ p s := by
  simp [unifies, finds_all, FindsEach, finds_template, finds_notEquals, finds_parameters,
    finds_body, t1, t2, p1, p2, b1, b2, finds_unifiesParametersUnordered, finds_unifiesBody,
    unifiesAnswer]

theorem finds_unifies {x : Tuple} (found : unifies.Finds store .empty x) :
    ∃ t u, store.Defines t ∧ store.Defines u ∧ t.iri ≠ u.iri ∧ t.unifiers u ≠ [] ∧
      x.get? t1 = some (.iri t.iri) ∧ x.get? t2 = some (.iri u.iri) := by
  obtain ⟨a, -, b, -, apart, ps, hps, qs, hqs, p, hp, is, his, js, hjs, m, hm, s, merged, rfl⟩ :=
    finds_unifies_steps.mp found
  refine ⟨⟨a, ps, is⟩, ⟨b, qs, js⟩, Store.defines_iff.mpr ⟨hps, his⟩,
    Store.defines_iff.mpr ⟨hqs, hjs⟩, different_iff.mp apart,
    List.ne_nil_of_mem (Template.mem_unifiers.mpr ⟨p, hp, m, hm, merged⟩), ?_⟩
  simp [unifiesAnswer, t1, t2, p1, p2, b1, b2]

end Query

/-- The matching is there and binds the parameters, but is not good. -/
def RefactoringError.isConflict : RefactoringError → Bool
  | .optionalMismatch .. | .nonBlankMismatch .. | .sharedBlank .. => true
  | .store _ | .sameTemplate _ | .noUnifier .. | .unboundParameter .. => false

namespace Refactoring

open Substitution

variable {used changed : Template} {s : Substitution} {p : Parameter} {e : RefactoringError}

theorem isConflict_of_flagConflict? (refused : flagConflict? used changed s p = some e) :
    e.isConflict = true := by
  have blank {bound : Term} {source : Option Parameter}
      (refused : flagConflict?.blankConflict? used changed p bound source = some e) :
      e.isConflict = true := by
    obtain ⟨-, said⟩ := Option.ite_none_right_eq_some.mp refused
    obtain rfl := Option.some.inj said
    rfl
  unfold flagConflict? at refused
  dsimp only at refused
  split at refused
  · split at refused
    · exact blank refused
    · obtain rfl := Option.some.inj refused
      rfl
  · exact blank refused

theorem refusal?_cases (refused : refusal? used changed s = some e) :
    (∃ p ∈ used.parameters, s.contains p.term = false ∧
      e = .unboundParameter used.iri changed.iri p.label) ∨ e.isConflict = true := by
  unfold refusal? at refused
  split at refused
  · rename_i p unbound
    refine .inl ⟨p, List.mem_of_find?_eq_some unbound, ?_, (Option.some.inj refused).symm⟩
    simpa using List.find?_some unbound
  · split at refused
    · rename_i flagged
      obtain rfl := Option.some.inj refused
      obtain ⟨p, -, conflict⟩ := List.exists_of_findSome?_eq_some flagged
      exact .inr (isConflict_of_flagConflict? conflict)
    · obtain ⟨b, -, rfl⟩ := Option.map_eq_some_iff.mp refused
      exact .inr rfl

/-- If there is a matching, what is said is said against some matching. -/
theorem exists_refusal?_of_choose (some_ : matchBodies used.body changed.body ≠ [])
    (refused : choose used changed = .error e) :
    ∃ s ∈ matchBodies used.body changed.body, refusal? used changed s = some e := by
  unfold choose at refused
  dsimp only at refused
  split at refused
  · cases refused
  · rename_i none_
    obtain ⟨s, found⟩ := List.exists_mem_of_ne_nil _ some_
    cases said : (matchBodies used.body changed.body).findSome? (refusal? used changed) with
    | some e' =>
        rw [said] at refused
        obtain rfl : e' = e := Except.error.inj refused
        exact List.exists_of_findSome?_eq_some said
    | none =>
        have here := List.find?_eq_none.mp none_ s found
        rw [List.findSome?_eq_none_iff.mp said s found] at here
        exact absurd rfl here

/-- A matching binds a parameter that the body has. -/
theorem contains_of_mem_labels (found : s ∈ matchBodies used.body changed.body) {i : Instance}
    (hi : i ∈ used.body) (occurs : p.label ∈ i.labels) : s.contains p.term = true := by
  obtain ⟨x, hx, same⟩ := List.mem_map.mp occurs
  obtain ⟨t, ht, hx⟩ := Instance.mem_vars.mp hx
  have name : Term.var x ∈ t.names := Term.mem_names.mpr (.inl ⟨x, hx, rfl⟩)
  have named : Term.var x ∈ used.body.flatMap Instance.names :=
    List.mem_flatMap.mpr ⟨i, hi, List.mem_flatMap.mpr ⟨t, ht, name⟩⟩
  rw [(embeds_of_mem_matchBodies found).keys, List.contains_iff_exists_mem_beq]
  refine ⟨_, named, (Term.sameUnder_untyped _ _).mpr ?_⟩
  rw [Parameter.term, Term.untyped, Term.untyped, same]
  rfl

end Refactoring

namespace Store

variable {store : Store} {t u : Template}

theorem Defines.getTemplate (defines : store.Defines t) :
    store.getTemplate t.iri = .ok (.make t.iri t.parameters t.body) := by
  obtain ⟨known, -, body⟩ := catalog_eq_some_iff.mp defines
  rw [Store.getTemplate, known, body]

/-- The bodies that a refactoring searches match where those in the store do. -/
theorem matchBodies_make_ne_nil (distinct : Distinct t.body) (distinct' : Distinct u.body)
    (unify : t.unifiers u ≠ []) :
    Substitution.matchBodies (Template.make t.iri t.parameters t.body).body
      (Template.make u.iri u.parameters u.body).body ≠ [] := by
  obtain ⟨s, unifier⟩ := List.exists_mem_of_ne_nil _ unify
  obtain ⟨-, -, m, found, -⟩ := Template.mem_unifiers.mp unifier
  rw [Template.body_make _ _ distinct, Template.body_make _ _ distinct']
  intro none_
  have same := Substitution.untyped_matchBodies_congr
    (Template.mapTerms_retype_same t.parameters t.body)
    (Template.mapTerms_retype_same u.parameters u.body)
  rw [none_, List.map_nil, eq_comm, List.map_eq_nil_iff] at same
  exact List.ne_nil_of_mem found same

/-- Two templates that unify are refused for a parameter that the body does not have, or for a
conflict. -/
theorem refusal_of_unifiers (reachable : store.Reachable) (uses : store.Defines t)
    (changes : store.Defines u) (apart : t.iri ≠ u.iri) (unify : t.unifiers u ≠ [])
    {e : RefactoringError} (refused : (store.refactor t.iri u.iri).1 = .error e) :
    (∃ p ∈ t.parameters, (∀ i ∈ t.body, p.label ∉ i.labels) ∧
      e = .unboundParameter t.iri u.iri p.label) ∨ e.isConflict = true := by
  have distinct := uses.distinct reachable
  have some_ := matchBodies_make_ne_nil distinct (changes.distinct reachable) unify
  obtain ⟨other, refactored⟩ : ∃ other, store.refactor t.iri u.iri = (.error e, other) :=
    ⟨_, Prod.ext refused rfl⟩
  cases refactorsTo_of_refactor refactored with
  | itself same => exact absurd same apart
  | missing _ missing => simp [uses.getTemplate, changes.getTemplate] at missing
  | refused _ used changed chosen =>
      obtain rfl := Except.ok.inj (uses.getTemplate.symm.trans used)
      obtain rfl := Except.ok.inj (changes.getTemplate.symm.trans changed)
      obtain ⟨s, found, against⟩ := Refactoring.exists_refusal?_of_choose some_ chosen
      refine (Refactoring.refusal?_cases against).imp_left ?_
      rintro ⟨p, hp, unbound, rfl⟩
      refine ⟨p, hp, fun i hi occurs => ?_, rfl⟩
      obtain ⟨j, hj, same⟩ := Template.exists_mem_make hi
      rw [← Instance.labels_untyped, ← (Instance.sameUnder_untyped j i).mp same,
        Instance.labels_untyped] at occurs
      rw [Refactoring.contains_of_mem_labels found hj occurs] at unbound
      cases unbound

/-- The query for refactorings is answered, and no pair in its answer is refused for the two
templates or for want of a matching. -/
theorem refusal_of_mem_refactorings (reachable : store.Reachable) :
    ∃ pairs, store.refactorings = .ok pairs ∧ ∀ pair ∈ pairs,
      ∃ t u, store.Defines t ∧ store.Defines u ∧ pair = (t.iri, u.iri) ∧
        ∀ e, (store.refactor t.iri u.iri).1 = .error e →
          (∃ p ∈ t.parameters, (∀ i ∈ t.body, p.label ∉ i.labels) ∧
            e = .unboundParameter t.iri u.iri p.label) ∨ e.isConflict = true := by
  obtain ⟨found, ends⟩ : ∃ found, Query.unifies.Ends store found :=
    Query.ends_of_scope? (by decide)
  obtain ⟨pairs, listed, -, members⟩ := exists_templatePairs ends fun x finds => by
    obtain ⟨t, u, -, -, -, -, first, second⟩ := Query.finds_unifies finds
    exact ⟨_, _, first, second⟩
  refine ⟨pairs, listed, fun ⟨a, b⟩ here => ?_⟩
  obtain ⟨x, finds, isFirst, isSecond⟩ := (members a b).mp here
  obtain ⟨t, u, uses, changes, apart, unify, first, second⟩ := Query.finds_unifies finds
  obtain rfl : t.iri = a := by simpa using first.symm.trans isFirst
  obtain rfl : u.iri = b := by simpa using second.symm.trans isSecond
  exact ⟨t, u, uses, changes, rfl, fun e =>
    refusal_of_unifiers reachable uses changes apart unify⟩

/-- What is sent is given if the wrapping is left aside, and a nickname is no part of a name. -/
def parcels : Store :=
  (empty .standard).acceptAll [
    .signature ⟨"Fact", [.mandatory "subject" .top, .mandatory "object" .top], true⟩,
    .template (.make "Sent" [.mandatory "person" .top, .mandatory "thing" .top] [
      .ofTerms "Fact" [.var ⟨"person", .top⟩, .var ⟨"thing", .top⟩],
      .ofTerms "Fact" [.var ⟨"thing", .top⟩, .blank "box"]]),
    .template (.make "Given" [.mandatory "giver" .top, .mandatory "gift" .top] [
      .ofTerms "Fact" [.var ⟨"giver", .top⟩, .var ⟨"gift", .top⟩],
      .ofTerms "Fact" [.var ⟨"gift", .top⟩, .blank "paper"],
      .ofTerms "Fact" [.var ⟨"giver", .top⟩, .blank "paper"]]),
    .template (.make "Named" [.mandatory "person" .top, .mandatory "nickname" .top] [
      .ofTerms "Fact" [.var ⟨"person", .top⟩, .blank "name"]])]

/-- Three pairs are listed. One is refused for a blank node that is still used, and one for a
parameter that nothing binds. -/
theorem refusal_of_mem_refactorings_parcels : parcels.Reachable ∧
    parcels.refactorings.toOption =
      some [("Named", "Given"), ("Named", "Sent"), ("Sent", "Given")] ∧
    (parcels.refactor "Sent" "Given").1 = .error (.sharedBlank "Given" "_:paper") ∧
    (parcels.refactor "Named" "Sent").1 = .error (.unboundParameter "Named" "Sent" "nickname") ∧
    ∃ pairs, parcels.refactorings = .ok pairs ∧ ∀ pair ∈ pairs,
      ∃ t u, parcels.Defines t ∧ parcels.Defines u ∧ pair = (t.iri, u.iri) ∧
        ∀ e, (parcels.refactor t.iri u.iri).1 = .error e →
          (∃ p ∈ t.parameters, (∀ i ∈ t.body, p.label ∉ i.labels) ∧
            e = .unboundParameter t.iri u.iri p.label) ∨ e.isConflict = true := by
  have reachable : parcels.Reachable := by
    apply reachable_acceptAll
    simp [Declaration.Made]
  exact ⟨reachable, by decide +kernel, by rfl, by rfl, refusal_of_mem_refactorings reachable⟩

end Store

end RdfTemplates
