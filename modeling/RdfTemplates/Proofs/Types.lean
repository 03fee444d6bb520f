import RdfTemplates.Term

/-!
# The order of types

In a tree that grew by registering one new type after the other below a known
one, the order of basic types is transitive and any two types above a common one
are comparable, unless that is the bottom type.
-/

namespace RdfTemplates

namespace TypeTree

theorem top_ne_bottom : Iri.top ≠ Iri.bottom := by decide

/-- The types a new one may be registered below. -/
def Known (entries : List (Iri × Iri)) (iri : Iri) : Prop :=
  iri = Iri.top ∨ iri ∈ entries.map (·.1)

/-- Every type was new when it was registered and its supertype was known. -/
def Grown : List (Iri × Iri) → Prop
  | [] => True
  | (child, parent) :: older =>
      (child ≠ Iri.top ∧ child ≠ Iri.bottom ∧ child ∉ older.map (·.1)) ∧ Known older parent ∧
        Grown older

instance (entries : List (Iri × Iri)) (iri : Iri) : Decidable (Known entries iri) :=
  inferInstanceAs (Decidable (_ ∨ _))

instance decidableGrown : (entries : List (Iri × Iri)) → Decidable (Grown entries)
  | [] => .isTrue trivial
  | (_, _) :: older =>
      have := decidableGrown older
      inferInstanceAs (Decidable (_ ∧ _ ∧ _))

variable {entries older : List (Iri × Iri)} {a b c child parent : Iri}

theorem Known.cons (known : Known older a) : Known ((child, parent) :: older) a :=
  known.imp id (List.mem_cons_of_mem _)

/-- A new type is none that was known. -/
theorem Grown.ne_of_known (grown : Grown ((child, parent) :: older)) (known : Known older a) :
    child ≠ a := by
  rintro rfl
  rcases known with top | listed
  · exact grown.1.1 top
  · exact grown.1.2.2 listed

theorem Grown.ne_bottom (grown : Grown entries) (known : Known entries a) : a ≠ Iri.bottom := by
  induction entries with
  | nil =>
      rcases known with rfl | listed
      · exact top_ne_bottom
      · cases listed
  | cons e older ih =>
      rcases known with rfl | listed
      · exact top_ne_bottom
      · rcases List.mem_cons.mp listed with rfl | listed
        · exact grown.1.2.1
        · exact ih grown.2.2 (.inr listed)

theorem chain_self : chain ((child, parent) :: older) child = parent :: chain older parent := by
  simp [chain]

theorem chain_of_ne (apart : child ≠ a) : chain ((child, parent) :: older) a = chain older a := by
  simp [chain, apart]

/-- All supertypes are known. -/
theorem Grown.known_of_mem_chain (grown : Grown entries) (above : b ∈ chain entries a) :
    Known entries b := by
  induction entries generalizing a with
  | nil => cases above
  | cons e older ih =>
      obtain ⟨child, parent⟩ := e
      by_cases here : child = a
      · subst here
        rw [chain_self] at above
        rcases List.mem_cons.mp above with rfl | above
        · exact grown.2.1.cons
        · exact (ih grown.2.2 above).cons
      · rw [chain_of_ne here] at above
        exact (ih grown.2.2 above).cons

theorem Grown.chain_top (grown : Grown entries) : chain entries Iri.top = [] := by
  induction entries with
  | nil => rfl
  | cons e older ih =>
      rw [chain_of_ne grown.1.1]
      exact ih grown.2.2

/-- A supertype of a supertype is a supertype. -/
theorem Grown.chain_trans (grown : Grown entries) (first : b ∈ chain entries a)
    (second : c ∈ chain entries b) : c ∈ chain entries a := by
  induction entries generalizing a with
  | nil => cases first
  | cons e older ih =>
      obtain ⟨child, parent⟩ := e
      by_cases here : child = a
      · subst here
        rw [chain_self] at first ⊢
        rcases List.mem_cons.mp first with rfl | first
        · rw [chain_of_ne (grown.ne_of_known grown.2.1)] at second
          exact List.mem_cons_of_mem _ second
        · have known := grown.2.2.known_of_mem_chain first
          rw [chain_of_ne (grown.ne_of_known known)] at second
          exact List.mem_cons_of_mem _ (ih grown.2.2 first second)
      · rw [chain_of_ne here] at first ⊢
        have known := grown.2.2.known_of_mem_chain first
        rw [chain_of_ne (grown.ne_of_known known)] at second
        exact ih grown.2.2 first second

/-- Of two supertypes one is above the other, for there is one way up. -/
theorem Grown.chain_comparable (grown : Grown entries) (first : b ∈ chain entries a)
    (second : c ∈ chain entries a) : b = c ∨ c ∈ chain entries b ∨ b ∈ chain entries c := by
  induction entries generalizing a with
  | nil => cases first
  | cons e older ih =>
      obtain ⟨child, parent⟩ := e
      have lift {x : Iri} (known : Known older x) :
          chain ((child, parent) :: older) x = chain older x :=
        chain_of_ne (grown.ne_of_known known)
      by_cases here : child = a
      · subst here
        rw [chain_self] at first second
        rcases List.mem_cons.mp first with rfl | first <;>
          rcases List.mem_cons.mp second with rfl | second
        · exact .inl rfl
        · rw [lift grown.2.1]
          exact .inr (.inl second)
        · rw [lift grown.2.1]
          exact .inr (.inr first)
        · rw [lift (grown.2.2.known_of_mem_chain first), lift (grown.2.2.known_of_mem_chain second)]
          exact ih grown.2.2 first second
      · rw [chain_of_ne here] at first second
        rw [lift (grown.2.2.known_of_mem_chain first), lift (grown.2.2.known_of_mem_chain second)]
        exact ih grown.2.2 first second

variable {tree : TypeTree}

/-- Being below is being the same, below the top, above the bottom or on the way up. -/
theorem isBelow_iff : tree.isBelow a b = true ↔
    a = b ∨ b = Iri.top ∨ a = Iri.bottom ∨ b ∈ chain tree.entries a := by
  simp [isBelow, supertypes, or_assoc]

theorem eq_top_of_top_isBelow (grown : Grown tree.entries)
    (below : tree.isBelow Iri.top a = true) : a = Iri.top := by
  rcases isBelow_iff.mp below with same | top | bottom | above
  · exact same.symm
  · exact top
  · exact absurd bottom top_ne_bottom
  · rw [grown.chain_top] at above
    cases above

theorem eq_bottom_of_isBelow (grown : Grown tree.entries)
    (below : tree.isBelow a Iri.bottom = true) : a = Iri.bottom := by
  rcases isBelow_iff.mp below with same | top | bottom | above
  · exact same
  · exact absurd top.symm top_ne_bottom
  · exact bottom
  · exact absurd rfl (grown.ne_bottom (grown.known_of_mem_chain above))

/-- Being below goes along the way up. -/
theorem isBelow_trans (grown : Grown tree.entries) (first : tree.isBelow a b = true)
    (second : tree.isBelow b c = true) : tree.isBelow a c = true := by
  rcases isBelow_iff.mp first with rfl | rfl | bottom | above
  · exact second
  · exact isBelow_iff.mpr (.inr (.inl (eq_top_of_top_isBelow grown second)))
  · exact isBelow_iff.mpr (.inr (.inr (.inl bottom)))
  · rcases isBelow_iff.mp second with rfl | top | bottom | above'
    · exact first
    · exact isBelow_iff.mpr (.inr (.inl top))
    · exact absurd bottom (grown.ne_bottom (grown.known_of_mem_chain above))
    · exact isBelow_iff.mpr (.inr (.inr (.inr (grown.chain_trans above above'))))

/-- Two types above a third one that is not the bottom are on one way. -/
theorem isBelow_comparable (grown : Grown tree.entries) (some_ : a ≠ Iri.bottom)
    (first : tree.isBelow a b = true) (second : tree.isBelow a c = true) :
    tree.isBelow b c = true ∨ tree.isBelow c b = true := by
  rcases isBelow_iff.mp first with rfl | rfl | bottom | above
  · exact .inl second
  · exact .inr (isBelow_iff.mpr (.inr (.inl rfl)))
  · exact absurd bottom some_
  · rcases isBelow_iff.mp second with rfl | rfl | bottom | above'
    · exact .inr first
    · exact .inl (isBelow_iff.mpr (.inr (.inl rfl)))
    · exact absurd bottom some_
    · rcases grown.chain_comparable above above' with rfl | here | there
      · exact .inl (isBelow_iff.mpr (.inl rfl))
      · exact .inl (isBelow_iff.mpr (.inr (.inr (.inr here))))
      · exact .inr (isBelow_iff.mpr (.inr (.inr (.inr there))))

open Iri in
/-- The standard types have been registered one after the other. -/
theorem grown_standard : Grown standard.entries := by
  simp [standard, standardEntries, Grown, Known, top, bottom, iriType, literal, rdfsClass,
    owlClass, rdfsDatatype, rdfProperty, owlObjectProperty, owlDatatypeProperty,
    owlAnnotationProperty, owlNamedIndividual, rdfLangString, rdfHtml, xsdString,
    xsdNormalizedString, xsdToken, xsdLanguage, xsdBoolean, xsdDecimal, xsdInteger,
    xsdNonNegativeInteger, xsdPositiveInteger, xsdLong, xsdInt, xsdShort, xsdByte, xsdDouble,
    xsdFloat, xsdDate, xsdDateTime, xsdTime, xsdAnyUri]

end TypeTree

namespace TermType

variable {tree : TypeTree} {sub sup : TermType} {a b : Iri}

theorem isTop_iff : sup.isTop = true ↔ sup = .basic Iri.top := by
  cases sup <;> simp [isTop]

theorem isBottom_iff : sub.isBottom = true ↔ sub = .basic Iri.bottom := by
  cases sub <;> simp [isBottom]

theorem isSubtype_top : sub.isSubtype tree (.basic Iri.top) = true := by
  cases sub <;> simp [isSubtype, isTop]

theorem isSubtype_basic : (basic a).isSubtype tree (.basic b) = true ↔
    tree.isBelow a b = true := by
  simp only [isSubtype, isTop, isBottom, Bool.or_eq_true, beq_iff_eq]
  constructor
  · rintro ((rfl | rfl) | below)
    · simp [TypeTree.isBelow]
    · simp [TypeTree.isBelow]
    · exact below
  · exact .inr

/-- One way for each shape that two types in order have. -/
theorem isSubtype_cases (below : sub.isSubtype tree sup = true) :
    sup = .basic Iri.top ∨ sub = .basic Iri.bottom ∨
      (∃ a b, sub = .basic a ∧ sup = .basic b ∧ tree.isBelow a b = true) ∨
      (∃ a, sub = .lub a ∧ sup = .lub a) ∨
      (∃ inner outer, (sub = .list inner ∨ sub = .neList inner) ∧ sup = .list outer ∧
        inner.isSubtype tree outer = true) ∨
      (∃ inner outer, sub = .neList inner ∧ sup = .neList outer ∧
        inner.isSubtype tree outer = true) := by
  rw [isSubtype.eq_def, Bool.or_eq_true, Bool.or_eq_true, isTop_iff, isBottom_iff] at below
  rcases below with (top | bottom) | below
  · exact .inl top
  · exact .inr (.inl bottom)
  · cases sub <;> cases sup <;> simp_all

/-- A subtype is compatible. -/
theorem isCompatible_of_isSubtype (below : sub.isSubtype tree sup = true) :
    sub.isCompatible tree sup = true := by
  rw [isCompatible.eq_def, below, Bool.true_or]

theorem isCompatible_top : sub.isCompatible tree (.basic Iri.top) = true :=
  isCompatible_of_isSubtype isSubtype_top

theorem lub_isCompatible_basic : (lub a).isCompatible tree (.basic b) = true ↔
    tree.isBelow b a = true ∨ tree.isBelow a b = true := by
  simp only [isCompatible, Bool.or_eq_true, isSubtype_basic]
  constructor
  · rintro (top | here)
    · have same : b = Iri.top := by simpa [isSubtype, isTop, isBottom] using top
      exact .inr (by simp [TypeTree.isBelow, same])
    · exact here
  · exact .inr

theorem bottom_isCompatible : (basic Iri.bottom).isCompatible tree sup = true := by
  apply isCompatible_of_isSubtype
  cases sup <;> simp [isSubtype, isBottom]

end TermType

namespace Term

/-- The type of a list tells whether it is empty and nothing about its elements. -/
theorem list_isCompatible_iff {items : List Term} {tree : TypeTree} {asked : TermType} :
    (Term.list items).intrinsicType.isCompatible tree asked = true ↔
      asked = .basic Iri.top ∨ (∃ inner, asked = .list inner) ∨
        items ≠ [] ∧ ∃ inner, asked = .neList inner := by
  have bottom (inner) : TermType.bottom.isCompatible tree inner = true :=
    TermType.bottom_isCompatible
  cases items <;> cases asked <;>
    simp [intrinsicType, TermType.isCompatible, TermType.isSubtype, TermType.isTop,
      TermType.isBottom, TermType.isSubtype_top, bottom]

end Term

end RdfTemplates
