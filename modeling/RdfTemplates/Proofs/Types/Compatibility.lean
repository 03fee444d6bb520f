import RdfTemplates.Proofs.Types.Order

/-!
# Compatible types

What is compatible with a type stays so when the first type is narrowed. When the
second one is widened it stays so as well, unless that was the bottom type: a least
upper bound is compatible with the types above it and with those below it, and two
types above a common one are comparable because they lie on one chain of supertypes.
Under lists of the two kinds compatibility is that of the elements.
-/

namespace RdfTemplates

namespace TermType

open TypeTree

variable {tree : TypeTree} {a b c inner : TermType} {iri : Iri}

/-- Whether the bottom type stands in the type, with any number of lists around it. -/
def mentionsBottom : TermType → Bool
  | .basic iri => iri == Iri.bottom
  | .lub _ => false
  | .list inner | .neList inner => inner.mentionsBottom

theorem isSubtype_or_isCompatible :
    a.isSubtype tree b = true ∨ a.isCompatible tree b = true ↔ a.isCompatible tree b = true :=
  or_iff_right_of_imp isCompatible_of_isSubtype

theorem basic_isCompatible_iff : (basic iri).isCompatible tree a = true ↔
    (basic iri).isSubtype tree a = true := by
  simp [isCompatible]

theorem lub_isCompatible_iff : (lub iri).isCompatible tree a = true ↔
    a = lub iri ∨ a.isSubtype tree (basic iri) = true ∨ (basic iri).isSubtype tree a = true := by
  simp only [isCompatible, Bool.or_eq_true, lub_isSubtype_iff]
  constructor
  · rintro ((rfl | same) | comparable)
    · exact .inr (.inr isSubtype_top)
    · exact .inl same
    · exact .inr comparable
  · rintro (same | comparable)
    · exact .inl (.inr same)
    · exact .inr comparable

theorem list_isCompatible_iff : (list inner).isCompatible tree a = true ↔
    a = top ∨ ∃ outer, a = .list outer ∧ inner.isCompatible tree outer = true := by
  cases a <;> simp [isCompatible, list_isSubtype_iff, or_assoc, isSubtype_or_isCompatible]

theorem neList_isCompatible_iff : (neList inner).isCompatible tree a = true ↔
    a = top ∨ ∃ outer, (a = .list outer ∨ a = .neList outer) ∧
      inner.isCompatible tree outer = true := by
  cases a <;> simp [isCompatible, neList_isSubtype_iff, or_assoc, isSubtype_or_isCompatible]

theorem top_isCompatible_iff (grown : Grown tree.entries) :
    top.isCompatible tree a = true ↔ a = top := by
  rw [top, basic_isCompatible_iff, basic_isSubtype_iff]
  constructor
  · rintro (bottom | ⟨sup, rfl, above⟩)
    · exact absurd bottom top_ne_bottom
    · rw [eq_top_of_top_isBelow grown above]
  · rintro rfl
    exact .inr ⟨_, rfl, isBelow_iff.mpr (.inl rfl)⟩

/-- By induction on the type that is compatible already. -/
theorem isCompatible_of_narrower (grown : Grown tree.entries)
    (compatible : a.isCompatible tree c = true) (below : b.isSubtype tree a = true) :
    b.isCompatible tree c = true := by
  induction a generalizing b c with
  | basic iri =>
      rw [basic_isCompatible_iff] at compatible
      exact isCompatible_of_isSubtype (isSubtype_trans grown below compatible)
  | lub iri =>
      rcases isSubtype_lub_iff.mp below with rfl | rfl
      · exact bottom_isCompatible
      · exact compatible
  | list inner ih =>
      rcases isSubtype_list_iff.mp below with rfl | ⟨sub, shape, under⟩
      · exact bottom_isCompatible
      · rcases list_isCompatible_iff.mp compatible with rfl | ⟨outer, rfl, elements⟩
        · exact isCompatible_top
        · have elements := ih elements under
          rcases shape with rfl | rfl
          · exact list_isCompatible_iff.mpr (.inr ⟨outer, rfl, elements⟩)
          · exact neList_isCompatible_iff.mpr (.inr ⟨outer, .inl rfl, elements⟩)
  | neList inner ih =>
      rcases isSubtype_neList_iff.mp below with rfl | ⟨sub, rfl, under⟩
      · exact bottom_isCompatible
      · rcases neList_isCompatible_iff.mp compatible with rfl | ⟨outer, shape, elements⟩
        · exact isCompatible_top
        · exact neList_isCompatible_iff.mpr (.inr ⟨outer, shape, ih elements under⟩)

/-- A wider type stays compatible with the bound: both are above what is not the bottom type. -/
theorem lub_isCompatible_of_wider (grown : Grown tree.entries) (some_ : b.mentionsBottom = false)
    (compatible : (lub iri).isCompatible tree b = true) (below : b.isSubtype tree c = true) :
    (lub iri).isCompatible tree c = true := by
  rcases lub_isCompatible_iff.mp compatible with rfl | under | above
  · exact isCompatible_of_isSubtype below
  · rcases isSubtype_basic_iff.mp under with rfl | ⟨sub, rfl, lower⟩
    · exact lub_isCompatible_iff.mpr (.inr (.inl isSubtype_top))
    · have nonempty : sub ≠ Iri.bottom := by simpa [mentionsBottom] using some_
      rcases basic_isSubtype_iff.mp below with bottom | ⟨sup, rfl, upper⟩
      · exact absurd bottom nonempty
      · rw [lub_isCompatible_basic]
        exact isBelow_comparable grown nonempty upper lower
  · exact lub_isCompatible_iff.mpr (.inr (.inr (isSubtype_trans grown above below)))

/-- By induction on the first type; the bottom type does not come up under a list either. -/
theorem isCompatible_of_wider (grown : Grown tree.entries) (some_ : b.mentionsBottom = false)
    (compatible : a.isCompatible tree b = true) (below : b.isSubtype tree c = true) :
    a.isCompatible tree c = true := by
  induction a generalizing b c with
  | basic iri =>
      rw [basic_isCompatible_iff] at compatible ⊢
      exact isSubtype_trans grown compatible below
  | lub iri => exact lub_isCompatible_of_wider grown some_ compatible below
  | list inner ih =>
      rcases list_isCompatible_iff.mp compatible with rfl | ⟨outer, rfl, elements⟩
      · rw [(top_isCompatible_iff grown).mp (isCompatible_of_isSubtype below)]
        exact isCompatible_top
      · rcases list_isSubtype_iff.mp below with rfl | ⟨wider, rfl, above⟩
        · exact isCompatible_top
        · exact list_isCompatible_iff.mpr (.inr ⟨wider, rfl, ih (b := outer) some_ elements above⟩)
  | neList inner ih =>
      rcases neList_isCompatible_iff.mp compatible with rfl | ⟨outer, rfl | rfl, elements⟩
      · rw [(top_isCompatible_iff grown).mp (isCompatible_of_isSubtype below)]
        exact isCompatible_top
      · rcases list_isSubtype_iff.mp below with rfl | ⟨wider, rfl, above⟩
        · exact isCompatible_top
        · exact neList_isCompatible_iff.mpr
            (.inr ⟨wider, .inl rfl, ih (b := outer) some_ elements above⟩)
      · rcases neList_isSubtype_iff.mp below with rfl | ⟨wider, shape, above⟩
        · exact isCompatible_top
        · exact neList_isCompatible_iff.mpr
            (.inr ⟨wider, shape, ih (b := outer) some_ elements above⟩)

theorem isCompatible_removeLub (tree : TypeTree) (a : TermType) :
    a.isCompatible tree a.removeLub = true := by
  induction a with
  | basic iri => exact isCompatible_of_isSubtype (isSubtype_refl tree _)
  | lub iri => exact lub_isCompatible_iff.mpr (.inr (.inl (isSubtype_refl tree _)))
  | list inner ih => exact list_isCompatible_iff.mpr (.inr ⟨_, rfl, ih⟩)
  | neList inner ih => exact neList_isCompatible_iff.mpr (.inr ⟨_, .inr rfl, ih⟩)

/-- In every tree that came about by registering, narrowing what is found and widening what is
asked for keep types compatible. -/
theorem isCompatible_respectsSubtypes (reachable : tree.Reachable) :
    (∀ found narrower asked : TermType, found.isCompatible tree asked = true →
      narrower.isSubtype tree found = true → narrower.isCompatible tree asked = true) ∧
    (∀ found asked wider : TermType, found.isCompatible tree asked = true →
      asked.isSubtype tree wider = true → asked.mentionsBottom = false →
        found.isCompatible tree wider = true) ∧
    ∀ found : TermType, found.isCompatible tree found.removeLub = true :=
  ⟨fun _ _ _ => isCompatible_of_narrower reachable.grown,
    fun _ _ _ compatible below some_ =>
      isCompatible_of_wider reachable.grown some_ compatible below,
    isCompatible_removeLub tree⟩

/-- A date of unknown kind may be a feast day, so a list of such dates goes where days are
asked for. -/
theorem isCompatible_respectsSubtypes_dated : dated.Reachable ∧
    (list (lub Iri.xsdDate)).isCompatible dated (list (basic "Feast")) = true ∧
    (neList (lub Iri.xsdDate)).isCompatible dated (list (basic "Feast")) = true ∧
    (list (lub Iri.xsdDate)).isCompatible dated (list (basic "Day")) = true ∧
    (list (lub Iri.xsdDate)).isCompatible dated (list (basic Iri.xsdDate)) = true :=
  have ⟨narrows, widens, removes⟩ := isCompatible_respectsSubtypes reachable_dated
  have found : (list (lub Iri.xsdDate)).isCompatible dated (list (basic "Feast")) = true := by
    decide +kernel
  ⟨reachable_dated, found, narrows _ _ _ found (by decide +kernel),
    widens _ _ _ found (by decide +kernel) (by decide), removes _⟩

/-- The bottom type is below all types, also below those that are not comparable. -/
example : (lub Iri.xsdDate).isCompatible dated bottom = true ∧
    bottom.isSubtype dated (basic Iri.xsdInteger) = true ∧
    (lub Iri.xsdDate).isCompatible dated (basic Iri.xsdInteger) = false := by
  decide +kernel

end TermType

end RdfTemplates
