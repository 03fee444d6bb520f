import RdfTemplates.Proofs.Filling
import RdfTemplates.Parameter

/-!
# Places in a term

A term that stands where a type is asked for has a place for itself and, if it is
a list and the type is a list type, the places of its elements, which stand where
the type of the elements is asked for. Filling in a term keeps its places apart
from those of variables, which become the places of what is filled in.
-/

namespace RdfTemplates

namespace TermType

theorem innerAt?_zero (type : TermType) : type.innerAt? 0 = some type := by
  cases type <;> rfl

theorem innerAt?_succ (type : TermType) (level : Nat) :
    type.innerAt? (level + 1) = type.inner?.bind (·.innerAt? level) := by
  cases type <;> rfl

/-- Takes list constructors off, one after the other. -/
def unwrapped? (type : TermType) : Nat → Option TermType
  | 0 => some type
  | level + 1 => (type.unwrapped? level).bind inner?

/-- The first constructor that is taken off is the outermost one. -/
theorem unwrapped?_succ (type : TermType) (level : Nat) :
    type.unwrapped? (level + 1) = type.inner?.bind (·.unwrapped? level) := by
  induction level with
  | zero => cases type <;> rfl
  | succ level ih =>
      rw [unwrapped?, ih, Option.bind_assoc]
      rfl

theorem innerAt?_eq_unwrapped? (type : TermType) (level : Nat) :
    type.innerAt? level = type.unwrapped? level := by
  induction level generalizing type with
  | zero => exact innerAt?_zero type
  | succ level ih =>
      rw [innerAt?_succ, unwrapped?_succ]
      exact congrArg type.inner?.bind (funext ih)

end TermType

namespace Term

open TermType (innerAt?_zero innerAt?_succ)

theorem mem_occurrencesAll {depth : Nat} {ts : List Term} {place : Term × Nat} :
    place ∈ occurrencesAll depth ts ↔ ∃ t ∈ ts, place ∈ t.occurrences depth := by
  induction ts with
  | nil => simp [occurrencesAll]
  | cons t ts ih => simp [occurrencesAll, ih]

/-- Only the numbers depend on the depth that counting starts with. -/
theorem mem_occurrences_iff {t u : Term} {depth level : Nat} :
    (u, level) ∈ t.occurrences depth ↔
      ∃ inside, level = depth + inside ∧ (u, inside) ∈ t.occurrences 0 := by
  induction t generalizing depth level with
  | iri | literal | blank | var | none =>
      simp only [occurrences, List.mem_singleton, Prod.mk.injEq]
      constructor
      · rintro ⟨rfl, rfl⟩
        exact ⟨0, rfl, rfl, rfl⟩
      · rintro ⟨_, rfl, rfl, rfl⟩
        exact ⟨rfl, rfl⟩
  | list items ih =>
      simp only [occurrences, List.mem_cons, Prod.mk.injEq, mem_occurrencesAll]
      constructor
      · rintro (⟨rfl, rfl⟩ | ⟨t, ht, here⟩)
        · exact ⟨0, rfl, .inl ⟨rfl, rfl⟩⟩
        · obtain ⟨inside, rfl, there⟩ := (ih t ht).mp here
          exact ⟨1 + inside, by omega, .inr ⟨t, ht, (ih t ht).mpr ⟨inside, by omega, there⟩⟩⟩
      · rintro ⟨_, rfl, ⟨rfl, rfl⟩ | ⟨t, ht, here⟩⟩
        · exact .inl ⟨rfl, rfl⟩
        · obtain ⟨inside, rfl, there⟩ := (ih t ht).mp here
          exact .inr ⟨t, ht, (ih t ht).mpr ⟨inside, by omega, there⟩⟩

/-- The first term stands in the second one, with so many lists around it. -/
inductive StandsIn (u : Term) : Nat → Term → Prop where
  | self : StandsIn u 0 u
  | element {items : List Term} {t : Term} {level : Nat} (listed : t ∈ items)
      (inside : StandsIn u level t) : StandsIn u (level + 1) (.list items)

theorem standsIn_of_mem_occurrences {t u : Term} {level : Nat}
    (here : (u, level) ∈ t.occurrences 0) : u.StandsIn level t := by
  induction t generalizing level with
  | iri | literal | blank | var | none =>
      obtain ⟨rfl, rfl⟩ := Prod.mk.inj (List.mem_singleton.mp here)
      exact .self
  | list items ih =>
      rcases List.mem_cons.mp here with same | below
      · obtain ⟨rfl, rfl⟩ := Prod.mk.inj same
        exact .self
      · obtain ⟨t, ht, there⟩ := mem_occurrencesAll.mp below
        obtain ⟨inside, rfl, deep⟩ := mem_occurrences_iff.mp there
        rw [Nat.zero_add, Nat.add_comm]
        exact .element ht (ih t ht deep)

theorem mem_occurrences_of_standsIn {t u : Term} {level : Nat} (stands : u.StandsIn level t) :
    (u, level) ∈ t.occurrences 0 := by
  induction stands with
  | self => cases u <;> simp [occurrences]
  | element listed _ ih =>
      refine List.mem_cons_of_mem _ (mem_occurrencesAll.mpr ⟨_, listed, ?_⟩)
      exact mem_occurrences_iff.mpr ⟨_, Nat.add_comm .., ih⟩

theorem standsIn_iff {t u : Term} {level : Nat} :
    u.StandsIn level t ↔ (u, level) ∈ t.occurrences 0 :=
  ⟨mem_occurrences_of_standsIn, standsIn_of_mem_occurrences⟩

theorem mem_vars_iff {t : Term} {x : Variable} :
    x ∈ t.vars ↔ ∃ level, (.var x, level) ∈ t.occurrences 0 := by
  induction t with
  | iri | literal | blank | none => simp [vars, occurrences]
  | var y => simp [vars, occurrences]
  | list items ih =>
      rw [vars, mem_varsAll]
      constructor
      · rintro ⟨t, ht, hx⟩
        obtain ⟨level, here⟩ := (ih t ht).mp hx
        refine ⟨1 + level, List.mem_cons_of_mem _ (mem_occurrencesAll.mpr ⟨t, ht, ?_⟩)⟩
        exact mem_occurrences_iff.mpr ⟨level, rfl, here⟩
      · rintro ⟨level, here⟩
        rcases List.mem_cons.mp here with self | here
        · cases self
        · obtain ⟨t, ht, here⟩ := mem_occurrencesAll.mp here
          obtain ⟨inside, -, here⟩ := mem_occurrences_iff.mp here
          exact ⟨t, ht, (ih t ht).mpr ⟨inside, here⟩⟩

/-- Every term inside a term with the type that is asked for where it stands. -/
def places (t : Term) (type : TermType) : List (Term × TermType) :=
  (t.occurrences 0).filterMap fun (u, level) => (type.innerAt? level).map (u, ·)

theorem mem_places {t u : Term} {type asked : TermType} :
    (u, asked) ∈ t.places type ↔
      ∃ level, (u, level) ∈ t.occurrences 0 ∧ type.innerAt? level = some asked := by
  simp [places]

theorem self_mem_places (t : Term) (type : TermType) : (t, type) ∈ t.places type := by
  refine mem_places.mpr ⟨0, ?_, innerAt?_zero type⟩
  cases t <;> simp [occurrences]

theorem places_of_leaf {t : Term} (leaf : t.isList = false) (type : TermType) :
    t.places type = [(t, type)] := by
  have here : t.occurrences 0 = [(t, 0)] := by
    cases t with
    | list => cases leaf
    | _ => simp [occurrences]
  simp [places, here, innerAt?_zero]

theorem mem_places_list {items : List Term} {u : Term} {type asked : TermType} :
    (u, asked) ∈ (Term.list items).places type ↔ (u = .list items ∧ asked = type) ∨
      ∃ inner, type.inner? = some inner ∧ ∃ t ∈ items, (u, asked) ∈ t.places inner := by
  simp only [mem_places, occurrences, List.mem_cons, Prod.mk.injEq, mem_occurrencesAll]
  constructor
  · rintro ⟨level, ⟨rfl, rfl⟩ | ⟨t, ht, here⟩, found⟩
    · rw [innerAt?_zero] at found
      exact .inl ⟨rfl, (Option.some.inj found).symm⟩
    · obtain ⟨inside, rfl, there⟩ := mem_occurrences_iff.mp here
      rw [Nat.zero_add, Nat.add_comm, innerAt?_succ, Option.bind_eq_some_iff] at found
      obtain ⟨inner, known, found⟩ := found
      exact .inr ⟨inner, known, t, ht, inside, there, found⟩
  · rintro (⟨rfl, rfl⟩ | ⟨inner, known, t, ht, level, here, found⟩)
    · exact ⟨0, .inl ⟨rfl, rfl⟩, innerAt?_zero _⟩
    · refine ⟨level + 1, .inr ⟨t, ht, mem_occurrences_iff.mpr ⟨level, by omega, here⟩⟩, ?_⟩
      rw [innerAt?_succ, known]
      exact found

end Term

/-- What a term given here is asked to be; a marked one stands for its elements. -/
def Argument.asked (a : Argument) (p : Parameter) : TermType :=
  if a.marked then .list p.type else p.type

end RdfTemplates
