import RdfTemplates.Proofs.ListExpansion
import RdfTemplates.Term.Equality
import Mathlib.Algebra.BigOperators.Group.List.Basic

/-!
# The steps of a cross

A cross takes the combinations of the marked elements in lexicographic order. Its
steps are numbered like the numbers of a mixed radix system: each marked position
is a digit, with as many values as there are elements, and the last one is the
digit that changes from each step to the next.
-/

namespace RdfTemplates

section Products

variable {α β γ : Type} (f : α → β → γ) (xs : List α) (ys : List β)

theorem length_flatMap_map :
    (xs.flatMap fun x => ys.map (f x)).length = xs.length * ys.length := by
  simp [List.length_flatMap]

/-- In blocks of equal length, the number of the block and the place in it are the quotient and
the remainder. -/
theorem getElem?_flatMap_map (k : Nat) :
    (xs.flatMap fun x => ys.map (f x))[k]? =
      xs[k / ys.length]?.bind fun x => ys[k % ys.length]?.map (f x) := by
  induction xs generalizing k with
  | nil => simp
  | cons x xs ih =>
      rw [List.flatMap_cons, List.getElem?_append, List.length_map]
      split
      · rename_i first
        simp [Nat.div_eq_of_lt first, Nat.mod_eq_of_lt first]
      · rename_i later
        rw [ih]
        rcases Nat.eq_zero_or_pos ys.length with none_ | some_
        · simp [List.length_eq_zero_iff.mp none_]
        · have later : ys.length ≤ k := Nat.not_lt.mp later
          rw [← Nat.sub_add_cancel later, Nat.add_div_right _ some_, Nat.add_mod_right,
            Nat.sub_add_cancel later, List.getElem?_cons_succ]

end Products

namespace ListExpansion

variable {a : Argument} {as row : List Argument} {steps : List ArgumentList} {i k : Nat}

/-- The number of steps in which the arguments after a position are gone through once. -/
def period (as : List Argument) (position : Nat) : Nat :=
  (markedLengths (as.drop (position + 1))).prod

/-- The number of the element that the marked argument at a position has in a step. -/
def digit (as : List Argument) (position : Nat) (a : Argument) (step : Nat) : Nat :=
  step / period as position % a.elements.length

theorem markedLengths_cons (a : Argument) (as : List Argument) :
    markedLengths (a :: as) =
      if a.marked then a.elements.length :: markedLengths as else markedLengths as := by
  unfold markedLengths
  cases marked : a.marked <;> simp [marked]

theorem length_crossRows (as : List Argument) :
    (crossRows as).length = (markedLengths as).prod := by
  induction as with
  | nil => rfl
  | cons a as ih =>
      rw [crossRows_cons, markedLengths_cons]
      split
      · rw [length_flatMap_map, List.prod_cons, ih]
      · rw [List.length_map, ih]

/-- At a later position the steps begin anew with every element of the first argument. -/
theorem digit_cons (b : Argument) (here : as[i]? = some a) (marked : a.marked = true) :
    digit (b :: as) (i + 1) a k = digit as i a (k % (markedLengths as).prod) := by
  have split : markedLengths as =
      markedLengths (as.take i) ++ a.elements.length :: markedLengths (as.drop (i + 1)) := by
    have at_ : i < as.length := (List.getElem?_eq_some_iff.mp here).1
    have parts : as = as.take i ++ a :: as.drop (i + 1) := by
      rw [← (List.getElem?_eq_some_iff.mp here).2, List.cons_getElem_drop_succ,
        List.take_append_drop]
    conv_lhs => rw [parts]
    simp [markedLengths, marked]
  have whole : (markedLengths as).prod =
      period as i * (a.elements.length * (markedLengths (as.take i)).prod) := by
    rw [split, List.prod_append, List.prod_cons, period]
    ac_rfl
  rw [digit, digit, whole, Nat.mod_mul_right_div_self, Nat.mod_mul_right_mod]
  rfl

/-- A row has the arguments that are not marked, and elements of the others by its number. -/
structure IsRow (as : List Argument) (k : Nat) (row : List Argument) : Prop where
  length : row.length = as.length
  unmarked : ∀ (i : Nat) (a : Argument), as[i]? = some a → a.marked = false → row[i]? = some a
  marked : ∀ (i : Nat) (a : Argument), as[i]? = some a → a.marked = true →
    ∃ t, a.elements[digit as i a k]? = some t ∧ row[i]? = some (.plain t)

theorem isRow_nil (k : Nat) : IsRow [] k [] := ⟨rfl, nofun, nofun⟩

theorem IsRow.cons_marked {t : Term} (marked : a.marked = true)
    (head : a.elements[k / (markedLengths as).prod]? = some t)
    (tail : IsRow as (k % (markedLengths as).prod) row) :
    IsRow (a :: as) k (.plain t :: row) where
  length := by rw [List.length_cons, List.length_cons, tail.length]
  unmarked i b here bare := by
    cases i with
    | zero => rw [← Option.some.inj here, marked] at bare; cases bare
    | succ i => exact tail.unmarked i b here bare
  marked i b here marked := by
    cases i with
    | zero =>
        obtain rfl := Option.some.inj here
        have below := (List.getElem?_eq_some_iff.mp head).1
        refine ⟨t, ?_, rfl⟩
        rwa [digit, period, List.drop_one, List.tail_cons, Nat.mod_eq_of_lt below]
    | succ i =>
        rw [List.getElem?_cons_succ] at here ⊢
        rw [digit_cons a here marked]
        exact tail.marked i b here marked

theorem IsRow.cons_unmarked (bare : a.marked = false) (tail : IsRow as k row)
    (below : k < (markedLengths as).prod) : IsRow (a :: as) k (a :: row) where
  length := by rw [List.length_cons, List.length_cons, tail.length]
  unmarked i b here marked := by
    cases i with
    | zero => exact here
    | succ i => exact tail.unmarked i b here marked
  marked i b here marked := by
    cases i with
    | zero => rw [← Option.some.inj here, bare] at marked; cases marked
    | succ i =>
        rw [List.getElem?_cons_succ] at here ⊢
        rw [digit_cons a here marked, Nat.mod_eq_of_lt below]
        exact tail.marked i b here marked

theorem isRow_of_getElem? (found : (crossRows as)[k]? = some row) : IsRow as k row := by
  induction as generalizing k row with
  | nil =>
      rw [List.mem_singleton.mp (List.mem_of_getElem? found)]
      exact isRow_nil k
  | cons a as ih =>
      rw [crossRows_cons] at found
      split at found
      · rename_i marked
        rw [getElem?_flatMap_map, length_crossRows] at found
        obtain ⟨t, head, found⟩ := Option.bind_eq_some_iff.mp found
        obtain ⟨tail, there, rfl⟩ := Option.map_eq_some_iff.mp found
        exact .cons_marked marked head (ih there)
      · rename_i bare
        rw [List.getElem?_map] at found
        obtain ⟨tail, there, rfl⟩ := Option.map_eq_some_iff.mp found
        have below := (List.getElem?_eq_some_iff.mp there).1
        rw [length_crossRows] at below
        exact .cons_unmarked (by simpa using bare) (ih there) below

/-- No element of a marked argument is there twice. -/
def Distinct (as : List Argument) : Prop :=
  ∀ a ∈ as, a.marked = true → a.elements.Pairwise fun t u => (t == u) = false

theorem pairwise_crossRows (distinct : Distinct as) :
    (crossRows as).Pairwise fun row row' => (row == row') = false := by
  induction as with
  | nil => exact List.pairwise_singleton _ _
  | cons a as ih =>
      obtain ⟨here, there⟩ := List.forall_mem_cons.mp distinct
      have tails (b : Argument) : ((crossRows as).map (b :: ·)).Pairwise
          fun row row' => (row == row') = false :=
        List.pairwise_map.mpr ((ih there).imp fun {row row'} apart => by
          rw [List.cons_beq_cons, apart, Bool.and_false])
      rw [crossRows_cons]
      split
      · rename_i marked
        refine List.pairwise_flatMap.mpr ⟨fun t _ => tails (.plain t), ?_⟩
        refine (here marked).imp fun {t u} apart row hrow row' hrow' => ?_
        obtain ⟨tail, -, rfl⟩ := List.mem_map.mp hrow
        obtain ⟨tail', -, rfl⟩ := List.mem_map.mp hrow'
        have heads : (Argument.plain t == Argument.plain u) = false := by
          rw [Argument.beq_def]
          exact Bool.and_eq_false_imp.mpr fun same => absurd same (by simp [Argument.plain, apart])
        rw [List.cons_beq_cons, heads, Bool.false_and]
      · exact tails a

/-- The steps are the combinations of the marked elements in lexicographic order: as many as there
are combinations, each in its place and without anything more to expand. -/
structure Lexicographic (as : List Argument) (steps : List ArgumentList) : Prop where
  length : steps.length = (markedLengths as).prod
  expander : ∀ step ∈ steps, step.expander = none
  rows : ∀ (k : Nat) (step : ArgumentList), steps[k]? = some step → IsRow as k step.arguments
  distinct : Distinct as → steps.Pairwise fun step step' => (step == step') = false

/-- A cross always expands, to its combinations in lexicographic order. -/
theorem cross_lexicographic (as : List Argument) :
    ∃ steps : List ArgumentList,
      (⟨as, some .cross⟩ : ArgumentList).expand? = some (steps.map .expanded) ∧
      Lexicographic as steps := by
  refine ⟨(crossRows as).map fun row => ⟨row, none⟩, ?_, ?_, ?_, ?_, ?_⟩
  · simp [ArgumentList.expand?, ListExpander.steps]
  · rw [List.length_map, length_crossRows]
  · intro step listed
    obtain ⟨row, -, rfl⟩ := List.mem_map.mp listed
    rfl
  · intro k step found
    rw [List.getElem?_map] at found
    obtain ⟨row, there, rfl⟩ := Option.map_eq_some_iff.mp found
    exact isRow_of_getElem? there
  · intro distinct
    refine List.pairwise_map.mpr ((pairwise_crossRows distinct).imp fun {row row'} apart => ?_)
    rw [ArgumentList.beq_def, apart, Bool.false_and]

/-- A starter, bread with everything, a main dish and no dessert. -/
def courses : List Argument :=
  [⟨.list [.iri "soup", .iri "salad"], true⟩, .plain (.iri "bread"),
    ⟨.list [.iri "fish", .iri "rice", .iri "beans"], true⟩, ⟨.none, true⟩]

/-- Of the six menus the fifth has salad and rice. -/
theorem cross_lexicographic_courses : Distinct courses ∧
    ∃ steps : List ArgumentList,
      (⟨courses, some .cross⟩ : ArgumentList).expand? = some (steps.map .expanded) ∧
      steps.length = 6 ∧ (steps.Pairwise fun step step' => (step == step') = false) ∧
      ∃ step, steps[4]? = some step ∧ step.arguments[0]? = some (.plain (.iri "salad")) ∧
        step.arguments[1]? = some (.plain (.iri "bread")) ∧
        step.arguments[2]? = some (.plain (.iri "rice")) := by
  have distinct : Distinct courses := by
    simp only [Distinct, courses, List.forall_mem_cons]
    decide
  obtain ⟨steps, made, lexicographic⟩ := cross_lexicographic courses
  have six : steps.length = 6 := lexicographic.length
  have fifth : steps[4]? = some steps[4] := List.getElem?_eq_getElem (by omega)
  have row := lexicographic.rows 4 _ fifth
  obtain ⟨t, salad, first⟩ := row.marked 0 _ rfl rfl
  obtain ⟨u, rice, third⟩ := row.marked 2 _ rfl rfl
  obtain rfl : .iri "salad" = t := Option.some.inj salad
  obtain rfl : .iri "rice" = u := Option.some.inj rice
  exact ⟨distinct, steps, made, six, lexicographic.distinct distinct, _, fifth, first,
    row.unmarked 1 _ rfl rfl, third⟩

end ListExpansion

end RdfTemplates
