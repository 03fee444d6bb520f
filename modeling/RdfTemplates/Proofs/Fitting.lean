import RdfTemplates.Expansion.Run
import RdfTemplates.Proofs.ListExpansion
import RdfTemplates.Proofs.Places
import RdfTemplates.Proofs.Types.Compatibility
import RdfTemplates.Proofs.Unfolding

/-!
# Terms that fit

A term suits a type when it passes as one of that type, is a list if that is a
list type, and is not given for the bottom type. A term fits a parameter when it
suits every type that is asked for inside of it and no blank node is given where
none may be. Whatever fits a type fits the types above it, and what a parameter
takes fits as the argument and the default do.
-/

namespace RdfTemplates

namespace Term

/-- Blank nodes pass for every type, and some literals for the bottom type and so for all. -/
def suits (asked : TermType) (t : Term) : Bool :=
  t.isNone || t.intrinsicType.isCompatible TypeTree.standard asked &&
    (t.isList || !asked.isList && !asked.isBottom)

variable {t u : Term} {asked sub sup : TermType} {items : List Term}

theorem suits_iff (some_ : t.isNone = false) : t.suits asked = true ↔
    t.intrinsicType.isCompatible TypeTree.standard asked = true ∧
      (t.isList = true ∨ asked.isList = false ∧ asked.isBottom = false) := by
  simp [suits, some_]

theorem exists_items (list : t.isList = true) : ∃ items, t = .list items := by
  cases t with
  | list items => exact ⟨items, rfl⟩
  | _ => cases list

theorem list_suits_iff : (Term.list items).suits asked = true ↔
    asked = .basic Iri.top ∨ (∃ inner, asked = .list inner) ∨
      items ≠ [] ∧ ∃ inner, asked = .neList inner := by
  rw [suits_iff rfl, list_isCompatible_iff]
  simp [isList]

theorem isNone_of_suits_bottom (suits : t.suits (.basic Iri.bottom) = true) :
    t.isNone = true := by
  by_contra some_
  obtain ⟨-, list | ⟨-, other⟩⟩ := (suits_iff (by simpa using some_)).mp suits
  · obtain ⟨items, rfl⟩ := exists_items list
    rcases list_suits_iff.mp suits with top | ⟨_, same⟩ | ⟨-, _, same⟩
    · exact absurd (TermType.basic.inj top).symm TypeTree.top_ne_bottom
    · cases same
    · cases same
  · cases other

theorem suits_of_isNone (empty : t.isNone = true) : t.suits asked = true := by
  simp [suits, empty]

theorem suits_top : t.suits (.basic Iri.top) = true := by
  cases empty : t.isNone with
  | true => exact suits_of_isNone empty
  | false => exact (suits_iff empty).mpr ⟨TermType.isCompatible_top, .inr ⟨rfl, by decide⟩⟩

/-- What suits a type suits the types above it. -/
theorem suits_mono (below : sub.isSubtype TypeTree.standard sup = true)
    (suits : t.suits sub = true) : t.suits sup = true := by
  cases empty : t.isNone with
  | true => exact suits_of_isNone empty
  | false =>
    obtain ⟨compatible, shape⟩ := (suits_iff empty).mp suits
    rcases TermType.isSubtype_cases below with rfl | rfl | ⟨a, b, rfl, rfl, order⟩ |
      ⟨a, rfl, rfl⟩ | ⟨inner, outer, rfl | rfl, rfl, -⟩ | ⟨inner, outer, rfl, rfl, -⟩
    · exact suits_top
    · rw [isNone_of_suits_bottom suits] at empty
      cases empty
    · have some_ : a ≠ Iri.bottom := by
        rintro rfl
        rw [isNone_of_suits_bottom suits] at empty
        cases empty
      have wider := TermType.isCompatible_of_wider TypeTree.grown_standard
        (by simpa [TermType.mentionsBottom] using some_) compatible below
      refine (suits_iff empty).mpr ⟨wider, .inr ⟨rfl, ?_⟩⟩
      by_contra bottom
      rw [TermType.isBottom, Bool.not_eq_false, beq_iff_eq] at bottom
      rw [bottom] at order
      exact some_ (TypeTree.eq_bottom_of_isBelow TypeTree.grown_standard order)
    · exact suits
    · obtain ⟨items, rfl⟩ := exists_items (shape.resolve_right (by rintro ⟨⟨⟩, -⟩))
      exact list_suits_iff.mpr (.inr (.inl ⟨outer, rfl⟩))
    · obtain ⟨items, rfl⟩ := exists_items (shape.resolve_right (by rintro ⟨⟨⟩, -⟩))
      exact list_suits_iff.mpr (.inr (.inl ⟨outer, rfl⟩))
    · obtain ⟨items, rfl⟩ := exists_items (shape.resolve_right (by rintro ⟨⟨⟩, -⟩))
      rcases list_suits_iff.mp suits with same | ⟨_, same⟩ | ⟨some_, -⟩
      · cases same
      · cases same
      · exact list_suits_iff.mpr (.inr (.inr ⟨some_, outer, rfl⟩))

/-- Where an element type is asked for from above, a list that suits is asked for one from
below. -/
theorem inner?_of_isSubtype {outer : TermType} (below : sub.isSubtype TypeTree.standard sup = true)
    (suits : (Term.list items).suits sub = true) (asks : sup.inner? = some outer) :
    ∃ inner, sub.inner? = some inner ∧ inner.isSubtype TypeTree.standard outer = true := by
  rcases TermType.isSubtype_cases below with rfl | rfl | ⟨a, b, rfl, rfl, -⟩ |
    ⟨a, rfl, rfl⟩ | ⟨inner, outer', rfl | rfl, rfl, order⟩ | ⟨inner, outer', rfl, rfl, order⟩
  · cases asks
  · cases isNone_of_suits_bottom suits
  · cases asks
  · cases asks
  · exact ⟨inner, rfl, Option.some.inj asks ▸ order⟩
  · exact ⟨inner, rfl, Option.some.inj asks ▸ order⟩
  · exact ⟨inner, rfl, Option.some.inj asks ▸ order⟩

end Term

namespace Parameter

/-- Whether the term may be given to the parameter where the type is asked for. -/
def fits (p : Parameter) (asked : TermType) (t : Term) : Bool :=
  (t.places asked).all fun (u, type) => u.suits type && !(p.isNonBlank && u.isBlank)

variable {p q : Parameter} {t u x : Term} {asked inner sub sup : TermType} {items : List Term}

theorem fits_iff : p.fits asked t = true ↔ ∀ u type, (u, type) ∈ t.places asked →
    u.suits type = true ∧ (p.isNonBlank = true → u.isBlank = false) := by
  simp only [fits, List.all_eq_true, Bool.and_eq_true, Bool.not_eq_true', Bool.and_eq_false_imp]
  exact ⟨fun all u type place => all (u, type) place, fun all place here => all _ _ here⟩

theorem suits_of_fits (fits : p.fits asked t = true) : t.suits asked = true :=
  (fits_iff.mp fits t asked (Term.self_mem_places t asked)).1

theorem isBlank_of_fits (fits : p.fits asked t = true) (strict : p.isNonBlank = true) :
    t.isBlank = false :=
  (fits_iff.mp fits t asked (Term.self_mem_places t asked)).2 strict

theorem fits_leaf (leaf : t.isList = false) : p.fits asked t = true ↔
    t.suits asked = true ∧ (p.isNonBlank = true → t.isBlank = false) := by
  simp [fits_iff, Term.places_of_leaf leaf]

theorem fits_none : p.fits asked .none = true :=
  (fits_leaf rfl).mpr ⟨rfl, fun _ => rfl⟩

/-- The elements of a list fit as the list does. -/
theorem fits_element (fits : p.fits asked (.list items) = true) (asks : asked.inner? = some inner)
    (ht : t ∈ items) : p.fits inner t = true := by
  refine fits_iff.mpr fun u type place => fits_iff.mp fits u type ?_
  exact Term.mem_places_list.mpr (.inr ⟨inner, asks, t, ht, place⟩)

/-- Each place that is asked for from above has a place asked for from below. -/
theorem exists_place_of_isSubtype (fits : p.fits sub t = true)
    (below : sub.isSubtype TypeTree.standard sup = true) (place : (u, asked) ∈ t.places sup) :
    ∃ type, (u, type) ∈ t.places sub ∧ type.isSubtype TypeTree.standard asked = true := by
  induction t generalizing sub sup with
  | iri | literal | blank | var | none =>
      rw [Term.places_of_leaf rfl, List.mem_singleton, Prod.mk.injEq] at place
      obtain ⟨rfl, rfl⟩ := place
      exact ⟨sub, Term.self_mem_places _ _, below⟩
  | list items ih =>
      rcases Term.mem_places_list.mp place with ⟨rfl, rfl⟩ | ⟨outer, asks, t, ht, place⟩
      · exact ⟨sub, Term.self_mem_places _ _, below⟩
      · obtain ⟨inner, asks, below⟩ := Term.inner?_of_isSubtype below (suits_of_fits fits) asks
        obtain ⟨type, here, below⟩ := ih t ht (fits_element fits asks ht) below place
        exact ⟨type, Term.mem_places_list.mpr (.inr ⟨inner, asks, t, ht, here⟩), below⟩

theorem fits_mono (fits : p.fits sub t = true)
    (below : sub.isSubtype TypeTree.standard sup = true)
    (flags : q.isNonBlank = true → p.isNonBlank = true) : q.fits sup t = true := by
  refine fits_iff.mpr fun u asked place => ?_
  obtain ⟨type, here, below⟩ := exists_place_of_isSubtype fits below place
  obtain ⟨suits, blank⟩ := fits_iff.mp fits u type here
  exact ⟨Term.suits_mono below suits, fun strict => blank (flags strict)⟩

/-- An argument that fits passes the test of the instance that gives it. -/
theorem checkArgument_of_fits {iri : Iri} {position : Nat} (fits : p.fits p.type t = true) :
    Instance.checkArgument iri position t p = none := by
  unfold Instance.checkArgument
  cases empty : t.isNone with
  | true => rfl
  | false =>
      have compatible := ((Term.suits_iff empty).mp (suits_of_fits fits)).1
      have blank : (p.isNonBlank && t.isBlank) = false := by
        cases strict : p.isNonBlank with
        | true => exact isBlank_of_fits fits strict
        | false => rfl
      simp [compatible, blank]

/-- What a parameter takes fits if the argument and the default do. -/
theorem fits_takes (fits : p.fits p.type t = true)
    (default : ∀ d ∈ p.default?, p.fits p.type d = true) (takes : p.Takes t x) :
    p.fits p.type x = true := by
  rcases takes_cases takes with rfl | ⟨d, has, rfl | ⟨blank, c, rfl⟩⟩
  · exact fits
  · exact default x has
  · cases d with
    | blank b =>
        obtain ⟨suits, flags⟩ := (fits_leaf rfl).mp (default _ has)
        exact (fits_leaf rfl).mpr ⟨suits, flags⟩
    | _ => cases blank

end Parameter

end RdfTemplates
