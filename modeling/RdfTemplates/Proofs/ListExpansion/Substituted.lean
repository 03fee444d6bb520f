import RdfTemplates.Proofs.ListExpansion
import RdfTemplates.Proofs.Matching.Principal

/-!
# List expansion and substitution

A substitution of variables and blank nodes goes into lists. It may turn an element
into `none` or into a list, but it makes no list longer or shorter. So an argument
list that can be expanded gives the same steps whether a substitution is applied
before or after, and it is the same steps that run out of elements.
-/

namespace RdfTemplates

namespace Substitution

variable {s : Substitution}

/-- Only variables and blank nodes are bound, whatever to. -/
def BindsNames (s : Substitution) : Prop :=
  ∀ binding ∈ s.bindings, binding.1.isVar = true ∨ binding.1.isBlank = true

theorem BindsNames.get?_eq_none (names : s.BindsNames) {t : Term} (notVar : t.isVar = false)
    (notBlank : t.isBlank = false) : s.get? t = none := by
  by_contra bound
  obtain ⟨u, bound⟩ := Option.ne_none_iff_exists'.mp bound
  obtain ⟨key, listed, same⟩ := exists_mem_of_get? bound
  have name := Term.isVar_or_isBlank_of_same same (names _ listed)
  simp [notVar, notBlank] at name

theorem BindsNames.goesIntoLists (names : s.BindsNames) : GoesIntoLists s.apply where
  list items := by rw [apply, names.get?_eq_none rfl rfl, ← applyAll_eq_map]
  none := apply_of_unbound (names.get?_eq_none rfl rfl) rfl

/-- Expanding lists and substituting can be done in either order. -/
theorem expand?_applyArguments (names : s.BindsNames) {args : ArgumentList}
    (known : args.canExpand = true) :
    (s.applyArguments args).canExpand = true ∧
    (s.applyArguments args).expand? = args.expand?.map (List.map (.mapTerms s.apply)) := by
  refine ⟨args.canExpand_mapTerms names.goesIntoLists known, ?_⟩
  rw [ArgumentList.expand?, ArgumentList.expand?, Option.map_map]
  exact Option.map_congr fun expander _ => expander.steps_mapTerms names.goesIntoLists known

/-- A guest who does not come, some who come as a list, and a host who gets a name. -/
def guests : Substitution :=
  ⟨[(.var ⟨"guest", .top⟩, .none), (.var ⟨"others", .top⟩, .list [.iri "a", .iri "b"]),
    (.blank "host", .iri "c")]⟩

/-- Seats for a guest with the others and a host, for the host alone and for no one. -/
def seats : ArgumentList :=
  let guest : Term := .var ⟨"guest", .top⟩
  let others : Term := .var ⟨"others", .top⟩
  ⟨[⟨.list [guest, .list [others, .blank "host"]], true⟩, ⟨.list [.blank "host"], true⟩,
    ⟨.none, true⟩, .plain others], some .zipMax⟩

/-- The host sits alone first, and then the list of the host has ended. -/
theorem expand?_applyArguments_seats :
    guests.BindsNames ∧ seats.canExpand = true ∧
    (guests.applyArguments seats).canExpand = true ∧
    (guests.applyArguments seats).expand? = seats.expand?.map (List.map (.mapTerms guests.apply)) ∧
    (guests.applyArguments seats).expand? = some [
      .expanded ⟨[.plain .none, .plain (.iri "c"), .plain .none,
        .plain (.list [.iri "a", .iri "b"])], none⟩,
      .exhausted 1 [1]] := by
  have names : guests.BindsNames := by
    simp [BindsNames, guests, Term.isVar, Term.isBlank]
  have known : seats.canExpand = true := rfl
  obtain ⟨still, same⟩ := expand?_applyArguments names known
  exact ⟨names, known, still, same, same.trans rfl⟩

end Substitution

end RdfTemplates
