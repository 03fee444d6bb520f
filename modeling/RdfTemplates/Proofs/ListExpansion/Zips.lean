import RdfTemplates.Proofs.ListExpansion
import Mathlib.Order.Bounds.Basic

/-!
# The steps of the two zips

Both zips go through the marked lists side by side and differ only in where they
stop. The shortest list decides how far nothing is missing; the zip to the end of
the longest one goes on from there, and each further step says which lists are
used up. A marked `none` is never used up, and any other marked term that is no
list is used up after one step.
-/

namespace RdfTemplates

namespace ListExpansion

variable {a : Argument} {as row : List Argument} {step k i : Nat}

/-- The argument has no element for a step. -/
def UsedUp (a : Argument) (step : Nat) : Prop :=
  a.marked = true ∧ a.term ≠ .none ∧ a.elements.length ≤ step

theorem elementAt?_isNone_iff : (elementAt? step a).isNone = true ↔ UsedUp a step := by
  unfold elementAt? UsedUp
  cases marked : a.marked with
  | false => simp
  | true =>
      cases found : a.elements[step]? with
      | some t =>
          have below := (List.getElem?_eq_some_iff.mp found).1
          constructor
          · intro h
            cases h
          · rintro ⟨-, -, ended⟩
            omega
      | none =>
          have ended : a.elements.length ≤ step := List.getElem?_eq_none_iff.mp found
          by_cases none : a.term.isNone = true
          · simp [Term.isNone_iff.mp none, Term.isNone]
          · simp [none, mt Term.isNone_iff.mpr none, ended]

theorem mem_endedAt : i ∈ endedAt as step ↔ ∃ a, as[i]? = some a ∧ UsedUp a step := by
  simp only [endedAt, List.mem_map, List.mem_filter, elementAt?_isNone_iff]
  constructor
  · rintro ⟨⟨a, _⟩, ⟨listed, used⟩, rfl⟩
    exact ⟨a, List.mem_zipIdx_iff_getElem?.mp listed, used⟩
  · rintro ⟨a, here, used⟩
    exact ⟨(a, i), ⟨List.mem_zipIdx_iff_getElem?.mpr here, used⟩, rfl⟩

theorem pairwise_endedAt (as : List Argument) (step : Nat) :
    (endedAt as step).Pairwise (· < ·) := by
  have kept : (endedAt as step).Sublist (as.zipIdx.map Prod.snd) :=
    List.filter_sublist.map Prod.snd
  have all : (as.zipIdx.map Prod.snd).Pairwise (· < ·) := by
    rw [List.zipIdx_map_snd]
    exact List.pairwise_lt_range'
  exact all.sublist kept

theorem endedAt_eq_nil_iff : endedAt as step = [] ↔ ¬ ∃ a ∈ as, UsedUp a step := by
  rw [List.eq_nil_iff_forall_not_mem]
  constructor
  · rintro none ⟨a, listed, used⟩
    obtain ⟨i, here⟩ := List.mem_iff_getElem?.mp listed
    exact none i (mem_endedAt.mpr ⟨a, here, used⟩)
  · intro none i ended
    obtain ⟨a, here, used⟩ := mem_endedAt.mp ended
    exact none ⟨a, List.mem_of_getElem? here, used⟩

/-- The row pairs the elements at a step. What is not marked and a `none` are in every row. -/
structure IsPairing (as : List Argument) (step : Nat) (row : List Argument) : Prop where
  length : row.length = as.length
  unmarked : ∀ (i : Nat) (a : Argument), as[i]? = some a → a.marked = false → row[i]? = some a
  absent : ∀ (i : Nat) (a : Argument), as[i]? = some a → a.marked = true → a.term = .none →
    row[i]? = some (.plain .none)
  element : ∀ (i : Nat) (a : Argument), as[i]? = some a → a.marked = true → a.term ≠ .none →
    ∃ t, a.elements[step]? = some t ∧ row[i]? = some (.plain t)

theorem elementAt?_absent (marked : a.marked = true) (none : a.term = .none) (step : Nat) :
    elementAt? step a = some (.plain .none) := by
  cases step <;> simp [elementAt?, Argument.elements, marked, none, Term.isNone]

theorem elementAt?_element {b : Argument} (marked : a.marked = true) (other : a.term ≠ .none)
    (found : elementAt? step a = some b) : ∃ t, a.elements[step]? = some t ∧ b = .plain t := by
  have not_none : a.term.isNone = false := by simpa [← Term.isNone_iff] using other
  cases element : a.elements[step]? with
  | none => simp [elementAt?, marked, element, not_none] at found
  | some t =>
      have same : Argument.plain t = b := by simpa [elementAt?, marked, element] using found
      exact ⟨t, rfl, same.symm⟩

theorem isPairing_of_forall₂
    (pairs : List.Forall₂ (fun a b => elementAt? step a = some b) as row) :
    IsPairing as step row := by
  have here (i : Nat) (a : Argument) (at_ : as[i]? = some a) :
      ∃ b, row[i]? = some b ∧ elementAt? step a = some b := by
    obtain ⟨below, rfl⟩ := List.getElem?_eq_some_iff.mp at_
    have below' : i < row.length := pairs.length_eq ▸ below
    exact ⟨row[i], List.getElem?_eq_getElem below', pairs.get below below'⟩
  constructor
  · exact pairs.length_eq.symm
  · intro i a at_ bare
    obtain ⟨b, there, found⟩ := here i a at_
    have same : a = b := by simpa [elementAt?, bare] using found
    rw [there, same]
  · intro i a at_ marked none
    obtain ⟨b, there, found⟩ := here i a at_
    have same := found.symm.trans (elementAt?_absent marked none step)
    rw [there, Option.some.inj same]
  · intro i a at_ marked other
    obtain ⟨b, there, found⟩ := here i a at_
    obtain ⟨t, element, rfl⟩ := elementAt?_element marked other found
    exact ⟨t, element, there⟩

/-- A step names the lists that are used up, or else it pairs the elements. -/
theorem zipStep_cases (as : List Argument) (step : Nat) :
    ((∃ a ∈ as, UsedUp a step) ∧ zipStep as step = .exhausted step (endedAt as step)) ∨
      (¬ ∃ a ∈ as, UsedUp a step) ∧
        ∃ row, zipStep as step = .expanded ⟨row, none⟩ ∧ IsPairing as step row := by
  rw [zipStep_eq]
  by_cases nothing : endedAt as step = []
  · have pairs := forall₂_elements (isSome_of_endedAt nothing)
    refine .inr ⟨endedAt_eq_nil_iff.mp nothing, _, ?_, isPairing_of_forall₂ pairs⟩
    simp only [nothing, if_true]
  · refine .inl ⟨?_, by simp only [nothing, if_false]⟩
    by_contra none
    exact nothing (endedAt_eq_nil_iff.mpr none)

/-- How many elements the marked arguments have. -/
def lengths (as : List Argument) : Set Nat :=
  {n | ∃ a ∈ as, a.marked = true ∧ a.elements.length = n}

theorem mem_markedLengths {n : Nat} : n ∈ markedLengths as ↔ n ∈ lengths as := by
  simp [markedLengths, lengths, and_assoc]

theorem isLeast_min? (some_ : ∃ a ∈ as, a.marked = true) :
    IsLeast (lengths as) ((markedLengths as).min?.getD 0) := by
  obtain ⟨a, listed, marked⟩ := some_
  obtain ⟨least, found⟩ := Option.isSome_iff_exists.mp
    (List.isSome_min?_of_mem (mem_markedLengths.mpr ⟨a, listed, marked, rfl⟩))
  obtain ⟨attained, below⟩ := List.min?_eq_some_iff.mp found
  rw [found]
  constructor
  · exact mem_markedLengths.mp attained
  · intro n h
    exact below n (mem_markedLengths.mpr h)

theorem isGreatest_max? (some_ : ∃ a ∈ as, a.marked = true) :
    IsGreatest (lengths as) ((markedLengths as).max?.getD 0) := by
  obtain ⟨a, listed, marked⟩ := some_
  obtain ⟨greatest, found⟩ := Option.isSome_iff_exists.mp
    (List.isSome_max?_of_mem (mem_markedLengths.mpr ⟨a, listed, marked, rfl⟩))
  obtain ⟨attained, above⟩ := List.max?_eq_some_iff.mp found
  rw [found]
  constructor
  · exact mem_markedLengths.mp attained
  · intro n h
    exact above n (mem_markedLengths.mpr h)

theorem length_zipSteps (as : List Argument) (count : Nat) :
    (zipSteps as count).length = count := by
  simp [zipSteps]

theorem getElem?_zipSteps {count : Nat} {s : ExpansionStep}
    (found : (zipSteps as count)[k]? = some s) : k < count ∧ zipStep as k = s := by
  have below : k < count := by
    have := (List.getElem?_eq_some_iff.mp found).1
    simpa [zipSteps] using this
  refine ⟨below, ?_⟩
  simpa [zipSteps, below] using found

theorem zipSteps_prefix (as : List Argument) {m n : Nat} (le : m ≤ n) :
    zipSteps as m <+: zipSteps as n := by
  have cut : (zipSteps as n).take m = zipSteps as m := by
    simp [zipSteps, ← List.map_take, List.take_range, le]
  rw [← cut]
  exact List.take_prefix m _

/-- No step before the end of the shortest list lacks anything. -/
theorem not_usedUp_of_lt {least : Nat} (shortest : IsLeast (lengths as) least)
    (before : k < least) : ¬ ∃ a ∈ as, UsedUp a k := by
  rintro ⟨a, listed, marked, -, ended⟩
  have le := shortest.2 ⟨a, listed, marked, rfl⟩
  omega

/-- The steps of the zip to the end of the shortest list, and of the zip to the end of the longest
one. -/
structure Zips (as : List Argument) (shorter longer : List ExpansionStep) : Prop where
  least : IsLeast (lengths as) shorter.length
  greatest : IsGreatest (lengths as) longer.length
  begins : shorter <+: longer
  expanded : ∀ s ∈ shorter, ∃ args, s = .expanded args
  exhausted : ∀ (k : Nat) (s : ExpansionStep), longer[k]? = some s →
    ((∃ n positions, s = .exhausted n positions) ↔ ∃ a ∈ as, UsedUp a k)
  positions : ∀ (k n : Nat) (positions : List Nat),
    longer[k]? = some (.exhausted n positions) → n = k ∧ positions.Pairwise (· < ·) ∧
      ∀ i, i ∈ positions ↔ ∃ a, as[i]? = some a ∧ UsedUp a k
  rows : ∀ (k : Nat) (args : ArgumentList), longer[k]? = some (.expanded args) →
    args.expander = none ∧ IsPairing as k args.arguments

theorem zips_zipSteps {least greatest : Nat} (shortest : IsLeast (lengths as) least)
    (longest : IsGreatest (lengths as) greatest) :
    Zips as (zipSteps as least) (zipSteps as greatest) := by
  constructor
  case least => rwa [length_zipSteps]
  case greatest => rwa [length_zipSteps]
  case begins => exact zipSteps_prefix as (longest.2 shortest.1)
  case expanded =>
    intro s listed
    obtain ⟨k, found⟩ := List.mem_iff_getElem?.mp listed
    obtain ⟨before, rfl⟩ := getElem?_zipSteps found
    rcases zipStep_cases as k with ⟨used, -⟩ | ⟨-, row, made, -⟩
    · exact absurd used (not_usedUp_of_lt shortest before)
    · exact ⟨_, made⟩
  case exhausted =>
    intro k s found
    obtain ⟨-, rfl⟩ := getElem?_zipSteps found
    rcases zipStep_cases as k with ⟨used, made⟩ | ⟨none, row, made, -⟩
    · simp [made, used]
    · simp [made, none]
  case positions =>
    intro k n positions found
    obtain ⟨-, made⟩ := getElem?_zipSteps found
    rcases zipStep_cases as k with ⟨-, named⟩ | ⟨-, row, expanded, -⟩
    · obtain ⟨rfl, rfl⟩ := ExpansionStep.exhausted.inj (named.symm.trans made)
      exact ⟨rfl, pairwise_endedAt as k, fun i => mem_endedAt⟩
    · cases expanded.symm.trans made
  case rows =>
    intro k args found
    obtain ⟨-, made⟩ := getElem?_zipSteps found
    rcases zipStep_cases as k with ⟨-, named⟩ | ⟨-, row, expanded, pairing⟩
    · cases named.symm.trans made
    · obtain rfl := ExpansionStep.expanded.inj (expanded.symm.trans made)
      exact ⟨rfl, pairing⟩

/-- With something marked, both zips expand, and the shorter one begins the longer one. -/
theorem zipMin_begins_zipMax (some_ : ∃ a ∈ as, a.marked = true) :
    ∃ shorter longer : List ExpansionStep,
      (⟨as, some .zipMin⟩ : ArgumentList).expand? = some shorter ∧
      (⟨as, some .zipMax⟩ : ArgumentList).expand? = some longer ∧ Zips as shorter longer :=
  ⟨_, _, rfl, rfl, zips_zipSteps (isLeast_min? some_) (isGreatest_max? some_)⟩

/-- Two dancers, three partners, one band that plays on and no prize. -/
def dance : List Argument :=
  [⟨.list [.iri "a", .iri "b"], true⟩, .plain (.iri "band"),
    ⟨.list [.iri "c", .iri "d", .iri "e"], true⟩, ⟨.none, true⟩]

/-- Without a prize there is one pair, and in the third place a dancer is missing. -/
theorem zipMin_begins_zipMax_dance : (∃ a ∈ dance, a.marked = true) ∧
    ∃ shorter longer : List ExpansionStep,
      (⟨dance, some .zipMin⟩ : ArgumentList).expand? = some shorter ∧
      (⟨dance, some .zipMax⟩ : ArgumentList).expand? = some longer ∧ Zips dance shorter longer ∧
      shorter.length = 1 ∧ longer[2]? = some (.exhausted 2 [0]) := by
  have some_ : ∃ a ∈ dance, a.marked = true := ⟨_, List.mem_cons_self, rfl⟩
  obtain ⟨shorter, longer, first, second, zips⟩ := zipMin_begins_zipMax some_
  have one : shorter.length = 1 := by
    rw [← Option.some.inj first]
    rfl
  have third : longer[2]? = some (.exhausted 2 [0]) := by
    rw [← Option.some.inj second]
    rfl
  exact ⟨some_, shorter, longer, first, second, zips, one, third⟩

end ListExpansion

end RdfTemplates
