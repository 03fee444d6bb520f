import RdfTemplates.Proofs.Query.Safety
import RdfTemplates.Proofs.Renaming
import RdfTemplates.Proofs.Store.Catalog
import Mathlib.Data.Prod.Lex
import Mathlib.Data.String.Basic

/-!
# Pairs of templates

The pairs that a query finds are listed in order and each once. A pair of templates
has a unifier when the parameters and the body of the first match those of the second
with the same bindings. Of two bodies of one length a unifier tells a valuation that
takes the first template to the second, and if the searches come to their end there
is a unifier for every such valuation.
-/

namespace RdfTemplates

theorem pairPrecedes_iff (a b : Iri × Iri) : pairPrecedes a b = true ↔ toLex a ≤ toLex b := by
  simp [pairPrecedes, Prod.Lex.toLex_le_toLex]

theorem pairPrecedes_antisymm (a b : Iri × Iri) (there : pairPrecedes a b = true)
    (back : pairPrecedes b a = true) : a = b := by
  rw [pairPrecedes_iff] at *
  exact toLex_inj.mp (there.antisymm back)

/-- The two templates that an answer is about. -/
def Tuple.pair (t : Tuple) : Reading (Iri × Iri) :=
  return (← t.iri Query.t1, ← t.iri Query.t2)

theorem Tuple.pair_eq_ok {t : Tuple} {a b : Iri} : t.pair = .ok (a, b) ↔
    t.get? Query.t1 = some (.iri a) ∧ t.get? Query.t2 = some (.iri b) := by
  simp [pair, Reading.bind_eq_ok, iri_eq_ok, pure, Except.pure]

namespace Store

variable {store : Store}

/-- The query finds the two templates in some answer. -/
def FindsPair (store : Store) (q : Query) (a b : Iri) : Prop :=
  ∃ t, q.Finds store .empty t ∧ t.get? Query.t1 = some (.iri a) ∧ t.get? Query.t2 = some (.iri b)

/-- A query that is answered to its end, with two templates in every answer, has its pairs
listed, each of them once. -/
theorem exists_templatePairs {q : Query} {found : List Tuple} (ends : q.Ends store found)
    (named : ∀ t, q.Finds store .empty t →
      ∃ a b, t.get? Query.t1 = some (.iri a) ∧ t.get? Query.t2 = some (.iri b)) :
    ∃ pairs, store.templatePairs q = .ok pairs ∧ pairs.Nodup ∧
      ∀ a b, (a, b) ∈ pairs ↔ store.FindsPair q a b := by
  have ⟨answers, met, all⟩ := ends
  have each (t) (ht : t ∈ found) : ∃ pair, t.pair = .ok pair := by
    obtain ⟨a, b, bound⟩ := named t (ends.mem_iff.mp ht)
    exact ⟨(a, b), Tuple.pair_eq_ok.mpr bound⟩
  obtain ⟨pairs, read, listed⟩ := Reading.exists_mapM each
  have sorted := pairwise_stableSort_by pairPrecedes_iff pairs
  refine ⟨(stableSort pairPrecedes pairs).eraseReps, ?_,
    nodup_eraseReps pairPrecedes_antisymm sorted, fun a b => ?_⟩
  · have reads : store.templatePairs q = (found.mapM Tuple.pair).bind fun pairs =>
        .ok (stableSort pairPrecedes pairs).eraseReps := by
      rw [templatePairs, met]
      simp only [Bind.bind, Except.bind, all]
      rfl
    rw [reads, read]
    rfl
  · rw [mem_eraseReps pairPrecedes_antisymm sorted, mem_stableSort, listed]
    simp only [Tuple.pair_eq_ok, ends.mem_iff, FindsPair]

/-- The template is the definition of its IRI, with the body as it is listed. -/
def Defines (store : Store) (t : Template) : Prop :=
  store.catalog t.iri = some ⟨.definition t.parameters, t.body⟩

theorem defines_iff {t : Template} : store.Defines t ↔
    store.parameters? t.iri = some t.parameters ∧ store.body? t.iri = some t.body := by
  unfold Defines parameters? body?
  rw [catalog_eq_some_iff]
  constructor
  · rintro ⟨known, -, body⟩
    rw [isDefinition_iff.mpr ⟨_, known⟩, known]
    exact ⟨rfl, congrArg some body⟩
  · rintro ⟨parameters, body⟩
    split at body
    · rename_i defined
      obtain ⟨ps, known⟩ := isDefinition_iff.mp defined
      rw [known] at parameters
      rw [known, ← Option.some.inj parameters]
      exact ⟨rfl, rfl, Option.some.inj body⟩
    · cases body

theorem Defines.unique {t u : Template} (defines : store.Defines t) (defines' : store.Defines u)
    (same : t.iri = u.iri) : t = u := by
  obtain ⟨iri, ps, body⟩ := t
  obtain ⟨iri', ps', body'⟩ := u
  obtain rfl : iri = iri' := same
  have one := Option.some.inj (defines.symm.trans defines')
  simp only [CatalogEntry.mk.injEq, Status.definition.injEq] at one
  obtain ⟨rfl, rfl⟩ := one
  rfl

theorem Defines.isSome_status? {t : Template} (defines : store.Defines t) :
    (store.status? t.iri).isSome := by
  rw [(catalog_eq_some_iff.mp defines).1]
  rfl

end Store

namespace Template

open Substitution MatchingSearch

variable {t u : Template} {s : Substitution} {v : Valuation}

/-- The parameters as terms. -/
def parameterTerms (t : Template) : List Term := t.parameters.map Parameter.term

/-- The substitutions that match the parameters with those of another template in some order, and
the body with its body. -/
def unifiers (t u : Template) : List Substitution :=
  (matchUnordered t.parameterTerms u.parameterTerms).flatMap fun s =>
    (matchBodies t.body u.body).filterMap s.merge?

/-- The searches for unifiers come to their end with attempts left, those that are made: of
parameters when they are as many, of bodies when the parameters have matched and the body
is not empty. -/
structure SearchesFinish (t u : Template) : Prop where
  parameters : t.parameters.length = u.parameters.length →
    Finishes searchLimit matchTerm? t.parameterTerms u.parameterTerms
  bodies : matchUnordered t.parameterTerms u.parameterTerms ≠ [] → t.body ≠ [] →
    t.body.length ≤ u.body.length →
      Finishes searchLimit matchInstance? (trialOrder t.body) (trialOrder u.body)

theorem mem_unifiers : s ∈ t.unifiers u ↔
    ∃ p ∈ matchUnordered t.parameterTerms u.parameterTerms, ∃ m ∈ matchBodies t.body u.body,
      p.merge? m = some s := by
  simp [unifiers]

theorem body_ne_nil (unifier : s ∈ t.unifiers u) : t.body ≠ [] := by
  obtain ⟨p, -, m, found, -⟩ := mem_unifiers.mp unifier
  exact (mem_matchBodies.mp found).1.1

theorem takes_iff : v.Takes t u ↔
    (t.parameterTerms.map fun x => (x.fill v.filling).untyped).Perm
        (u.parameterTerms.map Term.untyped) ∧
      (t.body.map fun i => (i.fill v.filling).untyped).Perm (u.body.map Instance.untyped) := by
  rw [parameterTerms, parameterTerms, List.map_map, List.map_map]
  exact ⟨fun takes => ⟨takes.parameters, takes.body⟩, fun h => ⟨h.1, h.2⟩⟩

/-- What a unifier binds is a valuation, which takes the one template to the other. -/
theorem exists_takes (unifier : s ∈ t.unifiers u) (sizes : t.body.length = u.body.length) :
    ∃ v : Valuation, v.Takes t u := by
  obtain ⟨p, matched, m, found, merged⟩ := mem_unifiers.mp unifier
  have merges := merge?_exact (proper_of_mem_matchBodies found)
  have proper := merges.proper merged (proper_of_mem_matchUnordered matched)
  obtain ⟨parameters, body⟩ := merges.sound merged proper.holdsOf_reading
  exact ⟨s.reading, takes_iff.mpr ⟨perm_of_mem_matchUnordered matched parameters,
    perm_of_mem_matchBodies sizes found body⟩⟩

/-- Searches that come to their end find a unifier wherever there is a valuation. -/
theorem unifiers_ne_nil (finish : t.SearchesFinish u) (some_ : t.body ≠ [])
    (takes : v.Takes t u) : t.unifiers u ≠ [] := by
  obtain ⟨parameters, body⟩ := takes_iff.mp takes
  have arity : t.parameters.length = u.parameters.length := by
    simpa using takes.parameters.length_eq
  have sizes : t.body.length = u.body.length := by simpa using body.length_eq
  obtain ⟨p, matched, holds⟩ := exists_mem_matchUnordered (finish.parameters arity) parameters
  obtain ⟨m, found, holds'⟩ := exists_mem_matchBodies some_
    (finish.bodies (List.ne_nil_of_mem matched) some_ (Nat.le_of_eq sizes)) body
  obtain ⟨s, merged, -⟩ := (merge?_exact (proper_of_mem_matchBodies found)).complete holds holds'
  exact List.ne_nil_of_mem (mem_unifiers.mpr ⟨p, matched, m, found, merged⟩)

end Template

end RdfTemplates
