import RdfTemplates.Proofs.Types.Registration
import Mathlib.Order.Defs.Unbundled

/-!
# Subtypes are in order

Basic types are in order because the supertypes of a type lie on one chain, on which no
type comes twice. The order goes on into lists: the elements of two list types are in
order when the lists are, and a non-empty list is below a list and never the other way
round. A least upper bound is below nothing but itself and the top type.
-/

namespace RdfTemplates

namespace TypeTree

variable {tree : TypeTree} {a b : Iri}

/-- Two types below each other are one. -/
theorem isBelow_antisymm (grown : Grown tree.entries) (there : tree.isBelow a b = true)
    (back : tree.isBelow b a = true) : a = b := by
  rcases isBelow_iff.mp there with same | rfl | rfl | above
  · exact same
  · exact eq_top_of_top_isBelow grown back
  · exact (eq_bottom_of_isBelow grown back).symm
  · rcases isBelow_iff.mp back with same | rfl | rfl | above'
    · exact same.symm
    · exact (eq_top_of_top_isBelow grown there).symm
    · exact eq_bottom_of_isBelow grown there
    · exact absurd above' (grown.not_mem_chain_of_mem above)

end TypeTree

namespace TermType

open TypeTree

variable {tree : TypeTree} {a b c inner : TermType} {iri : Iri}

theorem basic_isSubtype_iff : (basic iri).isSubtype tree a = true ↔
    iri = Iri.bottom ∨ ∃ sup, a = .basic sup ∧ tree.isBelow iri sup = true := by
  cases a with
  | basic sup =>
      rw [isSubtype_basic]
      constructor
      · exact fun below => .inr ⟨sup, rfl, below⟩
      · rintro (bottom | ⟨_, same, below⟩)
        · exact isBelow_iff.mpr (.inr (.inr (.inl bottom)))
        · rwa [TermType.basic.inj same]
  | _ => simp [isSubtype, isTop, isBottom]

theorem isSubtype_basic_iff : a.isSubtype tree (basic iri) = true ↔
    iri = Iri.top ∨ ∃ sub, a = .basic sub ∧ tree.isBelow sub iri = true := by
  cases a with
  | basic sub =>
      rw [isSubtype_basic]
      constructor
      · exact fun below => .inr ⟨sub, rfl, below⟩
      · rintro (top | ⟨_, same, below⟩)
        · exact isBelow_iff.mpr (.inr (.inl top))
        · rwa [TermType.basic.inj same]
  | _ => simp [isSubtype, isTop, isBottom]

theorem lub_isSubtype_iff : (lub iri).isSubtype tree a = true ↔ a = top ∨ a = lub iri := by
  cases a with
  | lub other => simp [isSubtype, isTop, isBottom, top, eq_comm (a := iri)]
  | _ => simp [isSubtype, isTop, isBottom, top]

theorem isSubtype_lub_iff : a.isSubtype tree (lub iri) = true ↔ a = bottom ∨ a = lub iri := by
  cases a <;> simp [isSubtype, isTop, isBottom, bottom]

/-- Above a list type are the lists of what is above its elements. -/
theorem list_isSubtype_iff : (list inner).isSubtype tree a = true ↔
    a = top ∨ ∃ outer, a = .list outer ∧ inner.isSubtype tree outer = true := by
  cases a <;> simp [isSubtype, isTop, isBottom, top]

theorem isSubtype_list_iff : a.isSubtype tree (list inner) = true ↔
    a = bottom ∨ ∃ sub, (a = .list sub ∨ a = .neList sub) ∧ sub.isSubtype tree inner = true := by
  cases a <;> simp [isSubtype, isTop, isBottom, bottom]

/-- Above a type of lists that are not empty are lists of both kinds. -/
theorem neList_isSubtype_iff : (neList inner).isSubtype tree a = true ↔
    a = top ∨ ∃ outer, (a = .list outer ∨ a = .neList outer) ∧
      inner.isSubtype tree outer = true := by
  cases a <;> simp [isSubtype, isTop, isBottom, top]

theorem isSubtype_neList_iff : a.isSubtype tree (neList inner) = true ↔
    a = bottom ∨ ∃ sub, a = .neList sub ∧ sub.isSubtype tree inner = true := by
  cases a <;> simp [isSubtype, isTop, isBottom, bottom]

theorem bottom_isSubtype : bottom.isSubtype tree a = true :=
  basic_isSubtype_iff.mpr (.inl rfl)

theorem isSubtype_refl (tree : TypeTree) (a : TermType) : a.isSubtype tree a = true := by
  induction a with
  | basic iri => exact isSubtype_basic.mpr (isBelow_iff.mpr (.inl rfl))
  | lub iri => exact lub_isSubtype_iff.mpr (.inr rfl)
  | list inner ih => exact list_isSubtype_iff.mpr (.inr ⟨inner, rfl, ih⟩)
  | neList inner ih => exact neList_isSubtype_iff.mpr (.inr ⟨inner, .inr rfl, ih⟩)

/-- By induction on the type between the two others. -/
theorem isSubtype_trans (grown : Grown tree.entries) (first : a.isSubtype tree b = true)
    (second : b.isSubtype tree c = true) : a.isSubtype tree c = true := by
  induction b generalizing a c with
  | basic iri =>
      rcases isSubtype_basic_iff.mp first with rfl | ⟨sub, rfl, under⟩
      · rcases basic_isSubtype_iff.mp second with bottom | ⟨sup, rfl, above⟩
        · exact absurd bottom top_ne_bottom
        · rw [eq_top_of_top_isBelow grown above]
          exact isSubtype_top
      · rcases basic_isSubtype_iff.mp second with rfl | ⟨sup, rfl, above⟩
        · rw [eq_bottom_of_isBelow grown under]
          exact bottom_isSubtype
        · exact isSubtype_basic.mpr (isBelow_trans grown under above)
  | lub iri =>
      rcases isSubtype_lub_iff.mp first with rfl | rfl
      · exact bottom_isSubtype
      · exact second
  | list inner ih =>
      rcases isSubtype_list_iff.mp first with rfl | ⟨sub, shape, under⟩
      · exact bottom_isSubtype
      · rcases list_isSubtype_iff.mp second with rfl | ⟨outer, rfl, above⟩
        · exact isSubtype_top
        · exact isSubtype_list_iff.mpr (.inr ⟨sub, shape, ih under above⟩)
  | neList inner ih =>
      rcases isSubtype_neList_iff.mp first with rfl | ⟨sub, rfl, under⟩
      · exact bottom_isSubtype
      · rcases neList_isSubtype_iff.mp second with rfl | ⟨outer, shape, above⟩
        · exact isSubtype_top
        · exact neList_isSubtype_iff.mpr (.inr ⟨outer, shape, ih under above⟩)

/-- Two types that are subtypes of each other are one. -/
theorem isSubtype_antisymm (grown : Grown tree.entries) (there : a.isSubtype tree b = true)
    (back : b.isSubtype tree a = true) : a = b := by
  induction a generalizing b with
  | basic iri =>
      rcases basic_isSubtype_iff.mp there with rfl | ⟨sup, rfl, above⟩
      · rcases isSubtype_basic_iff.mp back with top | ⟨sub, rfl, below⟩
        · exact absurd top.symm top_ne_bottom
        · rw [eq_bottom_of_isBelow grown below]
      · rw [isBelow_antisymm grown above (isSubtype_basic.mp back)]
  | lub iri =>
      rcases lub_isSubtype_iff.mp there with rfl | same
      · rcases isSubtype_lub_iff.mp back with bottom | same
        · exact absurd (TermType.basic.inj bottom) top_ne_bottom
        · exact same.symm
      · exact same.symm
  | list inner ih =>
      rcases list_isSubtype_iff.mp there with rfl | ⟨outer, rfl, above⟩
      · rcases isSubtype_list_iff.mp back with bottom | ⟨sub, shape | shape, -⟩
        · exact absurd (TermType.basic.inj bottom) top_ne_bottom
        all_goals cases shape
      · rcases list_isSubtype_iff.mp back with top | ⟨_, same, below⟩
        · cases top
        · obtain rfl := TermType.list.inj same
          rw [ih above below]
  | neList inner ih =>
      rcases neList_isSubtype_iff.mp there with rfl | ⟨outer, rfl | rfl, above⟩
      · rcases isSubtype_neList_iff.mp back with bottom | ⟨sub, shape, -⟩
        · exact absurd (TermType.basic.inj bottom) top_ne_bottom
        · cases shape
      · rcases list_isSubtype_iff.mp back with top | ⟨_, shape, -⟩
        · cases top
        · cases shape
      · rcases isSubtype_neList_iff.mp back with bottom | ⟨_, same, below⟩
        · cases bottom
        · obtain rfl := TermType.neList.inj same
          rw [ih above below]

/-- In every tree that came about by registering, being a subtype is a partial order on all
types, between the bottom and the top type. -/
theorem isSubtype_isPartialOrder (reachable : tree.Reachable) :
    IsPartialOrder TermType (fun a b : TermType => a.isSubtype tree b = true) ∧
      (∀ a : TermType, a.isSubtype tree top = true) ∧
      ∀ a : TermType, bottom.isSubtype tree a = true :=
  ⟨{ refl := isSubtype_refl tree
     trans := fun _ _ _ => isSubtype_trans reachable.grown
     antisymm := fun _ _ => isSubtype_antisymm reachable.grown },
    fun _ => isSubtype_top, fun _ => bottom_isSubtype⟩

/-- A list that has an element is a list, and types nobody has heard of are below themselves. -/
theorem isSubtype_isPartialOrder_dated : dated.Reachable ∧
    IsPartialOrder TermType (fun a b : TermType => a.isSubtype dated b = true) ∧
    (neList (basic "Feast")).isSubtype dated (list (basic "Day")) = true ∧
    (list (basic "Feast")).isSubtype dated (neList (basic "Day")) = false ∧
    (basic "Unheard").isSubtype dated (basic "Unheard") = true :=
  ⟨reachable_dated, (isSubtype_isPartialOrder reachable_dated).1, by decide +kernel,
    by decide +kernel, by decide +kernel⟩

end TermType

end RdfTemplates
