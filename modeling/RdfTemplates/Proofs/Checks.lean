import RdfTemplates.Proofs.Checks.TypeConflicts

/-!
# When checks say nothing

A check that reports errors and whose run gave none has a query that finds
nothing. For each check that expansion relies on, this is said in terms of the
bodies of the definitions.
-/

namespace RdfTemplates

/-- An instance in the body of a definition gives arguments to a template. -/
structure Store.Gives (store : Store) (ps : ParameterList) (i : Instance) (qs : ParameterList) :
    Prop where
  listed : ∃ iri, store.status? iri = some (.definition ps) ∧ i ∈ store.bodyOf iri
  callee : store.parameters? i.iri = some qs

/-- What holds of the bodies of a store when its checks report no error, as far as it matters
to expansion. -/
structure Store.Checked (store : Store) : Prop where
  arity : ∀ ps i qs, store.Gives ps i qs → i.arguments.size = qs.length
  labels : ∀ iri ps, store.parameters? iri = some ps → (ps.map (·.label)).Nodup
  closed : ∀ iri ps, store.status? iri = some (.definition ps) → ∀ i ∈ store.bodyOf iri,
    ∀ x ∈ i.vars, x.label ∈ ps.map (·.label)
  unmarked : ∀ iri ps, store.status? iri = some (.definition ps) → ∀ i ∈ store.bodyOf iri,
    i.arguments.expander = none → ∀ a ∈ i.arguments.arguments, a.marked = false
  flags : ∀ ps i qs, store.Gives ps i qs → ∀ a q, (a, q) ∈ i.arguments.arguments.zip qs →
    q.isNonBlank = true → ∀ x, a.term = .var x → ∀ p ∈ ps, p.label = x.label →
      p.isNonBlank = true
  constants : ∀ ps i qs, store.Gives ps i qs → ∀ a q, (a, q) ∈ i.arguments.arguments.zip qs →
    ∀ u asked, (u, asked) ∈ a.term.places (a.asked q) → u.isList = false → u.isVar = false →
      u.intrinsicType.isCompatible TypeTree.standard asked = true

namespace Check

variable {store : Store} {c : Check} {ms ns : Messages} {m n : Message}

open Query

theorem mem_vars_iff {i : Instance} {x : Variable} : x ∈ i.vars ↔
    ∃ k t level, i.arguments.term? k = some t ∧ (Term.var x).StandsIn level t := by
  simp only [Term.standsIn_iff, Instance.mem_vars]
  constructor
  · rintro ⟨t, ht, hx⟩
    obtain ⟨a, ha, rfl⟩ := List.mem_map.mp ht
    obtain ⟨k, here⟩ := List.mem_iff_getElem?.mp ha
    obtain ⟨level, occurs⟩ := Term.mem_vars_iff.mp hx
    exact ⟨k, a.term, level, by rw [ArgumentList.term?, here]; rfl, occurs⟩
  · rintro ⟨k, t, level, here, occurs⟩
    obtain ⟨a, ha, rfl⟩ := Option.map_eq_some_iff.mp here
    exact ⟨a.term, List.mem_map_of_mem (List.mem_of_getElem? ha),
      Term.mem_vars_iff.mpr ⟨level, occurs⟩⟩

theorem mem_zip_iff {as : List Argument} {qs : ParameterList} {a : Argument} {q : Parameter} :
    (a, q) ∈ as.zip qs ↔ ∃ k : Nat, as[k]? = some a ∧ qs[k]? = some q := by
  simp [List.mem_iff_getElem?, List.getElem?_zip_eq_some]

end Check

end RdfTemplates
