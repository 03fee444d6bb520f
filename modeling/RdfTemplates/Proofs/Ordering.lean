import RdfTemplates.Numbered
import Mathlib.Data.List.Nodup
import Mathlib.Data.List.Perm.Basic
import Mathlib.Order.Lattice
import Mathlib.Tactic.Tauto

/-!
# Sorting

Sorting keeps the elements. By an order in which any two elements can be compared it
puts them in that order, and repetitions stand next to each other.
-/

namespace RdfTemplates

variable {α : Type}

theorem insertSorted_perm (le : α → α → Bool) (a : α) (xs : List α) :
    (insertSorted le a xs).Perm (a :: xs) := by
  induction xs with
  | nil => exact .refl _
  | cons b xs ih =>
      unfold insertSorted
      split
      · exact (ih.cons b).trans (.swap a b xs)
      · exact .refl _

/-- Nothing is lost by sorting. -/
theorem stableSort_perm (le : α → α → Bool) (xs : List α) : (stableSort le xs).Perm xs := by
  have inserted (sorted : List α) :
      (xs.foldl (fun sorted a => insertSorted le a sorted) sorted).Perm (xs ++ sorted) := by
    induction xs generalizing sorted with
    | nil => exact .refl _
    | cons a xs ih =>
        exact (ih _).trans (((insertSorted_perm le a sorted).append_left xs).trans
          List.perm_middle)
  simpa [stableSort] using inserted []

theorem mem_stableSort {le : α → α → Bool} {xs : List α} {a : α} :
    a ∈ stableSort le xs ↔ a ∈ xs :=
  (stableSort_perm le xs).mem_iff

theorem insertSorted_map {β : Type} {f : α → β} {le : α → α → Bool} {le' : β → β → Bool}
    (same : ∀ a b, le' (f a) (f b) = le a b) (a : α) (xs : List α) :
    insertSorted le' (f a) (xs.map f) = (insertSorted le a xs).map f := by
  induction xs with
  | nil => rfl
  | cons b xs ih =>
      rw [List.map_cons, insertSorted, insertSorted, same, ih]
      split <;> rfl

/-- Sorting by a key does not look at anything else. -/
theorem stableSort_map {β : Type} {f : α → β} {le : α → α → Bool} {le' : β → β → Bool}
    (same : ∀ a b, le' (f a) (f b) = le a b) (xs : List α) :
    stableSort le' (xs.map f) = (stableSort le xs).map f := by
  rw [stableSort, stableSort, List.foldl_map]
  change xs.foldl (fun sorted a => insertSorted le' (f a) sorted) (List.map f []) = _
  exact List.foldl_hom (List.map f) fun sorted a => insertSorted_map same a sorted

/-- A list that runs against the order is turned around. -/
theorem stableSort_eq_reverse {le : α → α → Bool} {xs : List α}
    (descending : xs.Pairwise fun a b => le a b = false) : stableSort le xs = xs.reverse := by
  have inserted (sorted : List α) (above : ∀ b ∈ sorted, ∀ a ∈ xs, le b a = false) :
      xs.foldl (fun sorted a => insertSorted le a sorted) sorted = xs.reverse ++ sorted := by
    induction xs generalizing sorted with
    | nil => rfl
    | cons a xs ih =>
        obtain ⟨below, descending⟩ := List.pairwise_cons.mp descending
        have first : insertSorted le a sorted = a :: sorted := by
          cases sorted with
          | nil => rfl
          | cons b sorted =>
              rw [insertSorted, above b List.mem_cons_self a List.mem_cons_self]
              rfl
        rw [List.foldl_cons, first, ih descending, List.reverse_cons, List.append_assoc]
        · rfl
        · intro b hb c hc
          rcases List.mem_cons.mp hb with rfl | hb
          · exact below c hc
          · exact above b hb c (List.mem_cons_of_mem a hc)
  simpa [stableSort] using inserted [] nofun

section Sorted

variable {le : α → α → Bool}

theorem pairwise_insertSorted (total : ∀ a b, le a b = true ∨ le b a = true)
    (trans : ∀ a b c, le a b = true → le b c = true → le a c = true) (a : α) {xs : List α}
    (sorted : xs.Pairwise fun x y => le x y = true) :
    (insertSorted le a xs).Pairwise fun x y => le x y = true := by
  induction xs with
  | nil => exact List.pairwise_singleton _ a
  | cons b xs ih =>
      obtain ⟨below, sorted⟩ := List.pairwise_cons.mp sorted
      unfold insertSorted
      split
      · rename_i before
        refine List.pairwise_cons.mpr ⟨fun c hc => ?_, ih sorted⟩
        rcases List.mem_cons.mp ((insertSorted_perm le a xs).subset hc) with rfl | hc
        · exact before
        · exact below c hc
      · rename_i after
        have first : le a b = true := (total a b).resolve_right after
        refine List.pairwise_cons.mpr ⟨fun c hc => ?_, List.pairwise_cons.mpr ⟨below, sorted⟩⟩
        rcases List.mem_cons.mp hc with rfl | hc
        · exact first
        · exact trans a b c first (below c hc)

/-- After sorting no element stands before a smaller one. -/
theorem pairwise_stableSort (total : ∀ a b, le a b = true ∨ le b a = true)
    (trans : ∀ a b c, le a b = true → le b c = true → le a c = true) (xs : List α) :
    (stableSort le xs).Pairwise fun x y => le x y = true := by
  have inserted (sorted : List α) (h : sorted.Pairwise fun x y => le x y = true) :
      (xs.foldl (fun sorted a => insertSorted le a sorted) sorted).Pairwise
        fun x y => le x y = true := by
    induction xs generalizing sorted with
    | nil => exact h
    | cons a xs ih => exact ih _ (pairwise_insertSorted total trans a h)
  exact inserted [] .nil

theorem pairwise_stableSort_by {κ : Type} [LinearOrder κ] {key : α → κ}
    (byKey : ∀ a b, le a b = true ↔ key a ≤ key b) (xs : List α) :
    (stableSort le xs).Pairwise fun x y => le x y = true := by
  refine pairwise_stableSort (fun a b => ?_) (fun a b c first second => ?_) xs
  · rw [byKey, byKey]
    exact le_total _ _
  · rw [byKey] at first second ⊢
    exact le_trans first second

variable [BEq α] [LawfulBEq α]

/-- An element met before the last one and again after it would be that one. -/
theorem eraseReps_loop (antisymm : ∀ a b, le a b = true → le b a = true → a = b) (a : α)
    (xs met : List α) (sorted : (met.reverse ++ a :: xs).Pairwise fun x y => le x y = true)
    (nodup : (a :: met).Nodup) :
    (List.eraseRepsBy.loop (· == ·) a xs met).Nodup ∧
      ∀ b, b ∈ List.eraseRepsBy.loop (· == ·) a xs met ↔ b ∈ met ∨ b ∈ a :: xs := by
  induction xs generalizing a met with
  | nil =>
      refine ⟨List.nodup_reverse.mpr nodup, fun b => ?_⟩
      rw [List.eraseRepsBy.loop, List.mem_reverse, List.mem_cons, List.mem_singleton, or_comm]
  | cons c xs ih =>
      rw [List.eraseRepsBy.loop]
      split
      · rename_i same
        obtain rfl := eq_of_beq same
        have dropped := ih a met (sorted.sublist (by simp)) nodup
        refine ⟨dropped.1, fun b => (dropped.2 b).trans ?_⟩
        simp
      · rename_i other
        obtain ⟨-, behind, across⟩ := List.pairwise_append.mp sorted
        have apart : a ≠ c := fun same => by simp [same] at other
        have new : c ∉ a :: met := by
          intro h
          rcases List.mem_cons.mp h with same | h
          · exact apart same.symm
          · have down := across c (List.mem_reverse.mpr h) a List.mem_cons_self
            exact apart (antisymm a c (List.rel_of_pairwise_cons behind List.mem_cons_self) down)
        have kept := ih c (a :: met) (by simpa using sorted) (List.nodup_cons.mpr ⟨new, nodup⟩)
        refine ⟨kept.1, fun b => (kept.2 b).trans ?_⟩
        simp only [List.mem_cons]
        tauto

theorem nodup_eraseReps (antisymm : ∀ a b, le a b = true → le b a = true → a = b) {xs : List α}
    (sorted : xs.Pairwise fun x y => le x y = true) : xs.eraseReps.Nodup := by
  cases xs with
  | nil => exact List.nodup_nil
  | cons a xs => exact (eraseReps_loop antisymm a xs [] sorted (List.nodup_singleton a)).1

theorem mem_eraseReps (antisymm : ∀ a b, le a b = true → le b a = true → a = b) {xs : List α}
    (sorted : xs.Pairwise fun x y => le x y = true) {b : α} : b ∈ xs.eraseReps ↔ b ∈ xs := by
  cases xs with
  | nil => exact Iff.rfl
  | cons a xs =>
      refine ((eraseReps_loop antisymm a xs [] sorted (List.nodup_singleton a)).2 b).trans ?_
      simp

end Sorted

end RdfTemplates
