import RdfTemplates.Proofs.Ordering
import RdfTemplates.Numbered
import Mathlib.Data.List.Nodup

/-!
# Numbers stay apart

No number is given twice: the numbers in use and the released ones are all
different and are those below the count of both. So an item is found again by
its number, and removing a number removes one item only.
-/

namespace RdfTemplates

section Lookup

variable {κ ν : Type} [BEq κ] [LawfulBEq κ] [DecidableEq κ]

/-- The first pair hides the later ones with its key. -/
theorem lookup_cons_ite (k key : κ) (v : ν) (pairs : List (κ × ν)) :
    ((key, v) :: pairs).lookup k = if k = key then some v else pairs.lookup k := by
  rw [List.lookup_cons]
  split
  · rename_i same
    rw [if_pos (eq_of_beq same)]
  · rename_i apart
    rw [if_neg (by simpa using apart)]

theorem lookup_filter_ne (k key : κ) (pairs : List (κ × ν)) :
    (pairs.filter (·.1 != key)).lookup k = if k = key then none else pairs.lookup k := by
  induction pairs with
  | nil => simp
  | cons pair pairs ih =>
      obtain ⟨other, v⟩ := pair
      by_cases gone : other = key
      · subst gone
        simp only [List.filter_cons, bne_self_eq_false, Bool.false_eq_true, if_false, ih]
        by_cases same : k = other <;> simp [lookup_cons_ite, same]
      · have kept : (other != key) = true := by simpa using gone
        simp only [List.filter_cons, kept, if_true, lookup_cons_ite, ih]
        by_cases same : k = other
        · subst same
          simp [gone]
        · simp [same]

end Lookup

namespace Numbered

variable {α β : Type}

/-- The numbers in use. -/
def numbers (c : Numbered α) : List Nat := c.items.map Prod.fst

/-- Numbers in use and released numbers are all different and all below their count. -/
structure Sound (c : Numbered α) : Prop where
  apart : (c.numbers ++ c.released).Nodup
  below : ∀ n ∈ c.numbers ++ c.released, n < c.items.length + c.released.length

theorem sound_empty : (empty : Numbered α).Sound where
  apart := by simp [empty, numbers]
  below := by simp [empty, numbers]

theorem Sound.numbers_nodup {c : Numbered α} (sound : c.Sound) : c.numbers.Nodup :=
  (List.nodup_append.mp sound.apart).1

/-- A number stands for one element. -/
theorem Sound.item_unique {c : Numbered α} (sound : c.Sound) {n : Nat} {a b : α}
    (ha : (n, a) ∈ c.items) (hb : (n, b) ∈ c.items) : a = b := by
  have same : (n, a) = (n, b) := List.inj_on_of_nodup_map sound.numbers_nodup ha hb rfl
  exact (Prod.mk.inj same).2

/-- A new element takes the number that is next. -/
theorem items_add_next (c : Numbered α) (a : α) :
    (c.add a).items = (c.next, a) :: c.items := by
  unfold add next
  split
  · rename_i n rest released
    rw [released]
    rfl
  · rename_i released
    rw [released]
    rfl

theorem items_add (c : Numbered α) (a : α) : ∃ n, (c.add a).items = (n, a) :: c.items :=
  ⟨c.next, c.items_add_next a⟩

theorem latestFirst_add (c : Numbered α) (a : α) :
    (c.add a).latestFirst = a :: c.latestFirst := by
  obtain ⟨n, added⟩ := c.items_add a
  simp [latestFirst, added]

/-- A number that is taken up again was not in use. -/
theorem Sound.add {c : Numbered α} (sound : c.Sound) (a : α) : (c.add a).Sound := by
  obtain ⟨apart, below⟩ := sound
  unfold Numbered.add
  split
  · rename_i n rest released
    rw [released] at apart below
    have moved : (n :: (c.numbers ++ rest)).Perm (c.numbers ++ n :: rest) :=
      List.perm_middle.symm
    refine ⟨moved.symm.nodup apart, fun m hm => ?_⟩
    have := below m (moved.subset hm)
    simp only [List.length_cons] at this ⊢
    omega
  · rename_i released
    rw [released, List.append_nil] at apart
    have old : ∀ n ∈ c.numbers, n < c.items.length := by simpa [released] using below
    have new : c.items.length ∉ c.numbers := fun h => Nat.lt_irrefl _ (old _ h)
    refine ⟨by simpa [numbers] using ⟨by simpa [numbers] using new, apart⟩, fun m hm => ?_⟩
    have split : m = c.items.length ∨ m ∈ c.numbers := by simpa [numbers] using hm
    simp only [List.length_cons, List.length_nil]
    rcases split with same | kept
    · omega
    · have := old m kept
      omega

theorem numbers_remove (c : Numbered α) (n : Nat) :
    (c.remove n).numbers = c.numbers.filter (· != n) := by
  simp only [numbers, remove, List.filter_map]
  rfl

/-- A number that is given up can be used again. -/
theorem Sound.remove {c : Numbered α} (sound : c.Sound) {n : Nat} (used : n ∈ c.numbers) :
    (c.remove n).Sound := by
  have erased : (c.remove n).numbers = c.numbers.erase n := by
    rw [numbers_remove, sound.numbers_nodup.erase_eq_filter]
  have moved : (c.numbers ++ c.released).Perm ((c.remove n).numbers ++ (c.remove n).released) := by
    rw [erased]
    exact ((List.perm_cons_erase used).append_right _).trans List.perm_middle.symm
  have total : (c.remove n).items.length + (c.remove n).released.length =
      c.items.length + c.released.length := by
    simpa [numbers] using moved.length_eq.symm
  exact ⟨moved.nodup sound.apart, fun m hm => total ▸ sound.below m (moved.symm.subset hm)⟩

/-- Removing some numbers leaves the elements of all others, in their order. -/
theorem items_removeAll (c : Numbered α) (ns : List Nat) :
    (c.removeAll ns).items = c.items.filter fun item => !ns.contains item.1 := by
  induction ns generalizing c with
  | nil => simp [removeAll]
  | cons n ns ih =>
      have step : c.removeAll (n :: ns) = (c.remove n).removeAll ns := rfl
      rw [step, ih, remove, List.filter_filter]
      congr 1
      funext item
      by_cases same : item.1 = n <;> simp [same]

theorem mem_removeAll {c : Numbered α} {ns : List Nat} {item : Nat × α} :
    item ∈ (c.removeAll ns).items ↔ item ∈ c.items ∧ item.1 ∉ ns := by
  simp [items_removeAll]

theorem Sound.removeAll {c : Numbered α} (sound : c.Sound) {ns : List Nat} (nodup : ns.Nodup)
    (used : ∀ n ∈ ns, n ∈ c.numbers) : (c.removeAll ns).Sound := by
  induction ns generalizing c with
  | nil => exact sound
  | cons n ns ih =>
      obtain ⟨new, nodup⟩ := List.nodup_cons.mp nodup
      refine ih (sound.remove (used n List.mem_cons_self)) nodup fun m hm => ?_
      have apart : m ≠ n := fun same => new (same ▸ hm)
      rw [numbers_remove]
      simpa [apart] using used m (List.mem_cons_of_mem n hm)

/-- Items given by their numbers are removed, and no others. -/
theorem Sound.mem_removeAll_items {c : Numbered α} (sound : c.Sound) {doomed : List (Nat × α)}
    (used : ∀ item ∈ doomed, item ∈ c.items) {item : Nat × α} :
    item ∈ (c.removeAll (doomed.map Prod.fst)).items ↔ item ∈ c.items ∧ item ∉ doomed := by
  rw [mem_removeAll]
  refine and_congr_right fun here => not_congr ⟨fun listed => ?_, fun listed => ?_⟩
  · obtain ⟨other, gone, same⟩ := List.mem_map.mp listed
    have equal : other = item :=
      Prod.ext same (sound.item_unique (used other gone) (same ▸ here))
    exact equal ▸ gone
  · exact List.mem_map.mpr ⟨item, listed, rfl⟩

theorem sublist_removeAll (c : Numbered α) (ns : List Nat) :
    (c.removeAll ns).items.Sublist c.items := by
  rw [items_removeAll]
  exact List.filter_sublist

/-- What the items are does not matter. -/
theorem Sound.of_numbers {c : Numbered α} {d : Numbered β} (sound : c.Sound)
    (numbers : d.numbers = c.numbers) (released : d.released = c.released) : d.Sound := by
  have length : d.items.length = c.items.length := by
    simpa [Numbered.numbers] using congrArg List.length numbers
  refine ⟨?_, fun n h => ?_⟩
  · rw [numbers, released]
    exact sound.apart
  · rw [numbers, released] at h
    rw [length, released]
    exact sound.below n h

theorem Sound.map {c : Numbered α} (sound : c.Sound) (f : α → β) : (c.map f).Sound :=
  sound.of_numbers (by simp [numbers, Numbered.map]) rfl

theorem Sound.modify {c : Numbered α} (sound : c.Sound) (n : Nat) (f : α → α) :
    (c.modify n f).Sound :=
  sound.of_numbers (by simp [numbers, Numbered.modify, Function.comp_def]) rfl

/-- The order does not depend on what the elements are. -/
theorem latestFirst_map (c : Numbered α) (f : α → β) :
    (c.map f).latestFirst = c.latestFirst.map f := by
  simp [latestFirst, Numbered.map]

theorem map_congr {c : Numbered α} {f g : α → β} (same : ∀ a ∈ c.latestFirst, f a = g a) :
    c.map f = c.map g := by
  unfold Numbered.map
  congr 1
  refine List.map_congr_left fun item listed => ?_
  exact congrArg (Prod.mk item.1) (same item.2 (List.mem_map_of_mem listed))

/-- Elements can be changed before or after one is added. -/
theorem map_add (c : Numbered α) (a : α) (f : α → β) : (c.add a).map f = (c.map f).add (f a) := by
  obtain ⟨items, released⟩ := c
  cases released with
  | nil => simp [Numbered.add, Numbered.map]
  | cons n rest => rfl

theorem map_remove (c : Numbered α) (n : Nat) (f : α → β) :
    (c.remove n).map f = (c.map f).remove n := by
  simp [Numbered.remove, Numbered.map, List.filter_map, Function.comp_def]

theorem map_removeAll (c : Numbered α) (ns : List Nat) (f : α → β) :
    (c.removeAll ns).map f = (c.map f).removeAll ns := by
  induction ns generalizing c with
  | nil => rfl
  | cons n ns ih =>
      have next := ih (c.remove n)
      rwa [map_remove] at next

theorem numberedInOrder_map (c : Numbered α) (f : α → β) :
    (c.map f).numberedInOrder = c.numberedInOrder.map fun (n, a) => (n, f a) :=
  stableSort_map (fun _ _ => rfl) c.items

theorem inOrder_map (c : Numbered α) (f : α → β) : (c.map f).inOrder = c.inOrder.map f := by
  simp [inOrder, numberedInOrder_map]

/-- The new element is found under the next number, and the others under theirs. -/
theorem get?_add (c : Numbered α) (a : α) (n : Nat) :
    (c.add a).get? n = if n = c.next then some a else c.get? n := by
  rw [get?, items_add_next, lookup_cons_ite]
  rfl

/-- One number has its element changed. -/
theorem get?_modify (c : Numbered α) (m n : Nat) (f : α → α) :
    (c.modify m f).get? n = if n = m then (c.get? n).map f else c.get? n := by
  unfold get? modify
  induction c.items with
  | nil => simp
  | cons item items ih =>
      obtain ⟨k, a⟩ := item
      simp only [List.map_cons, lookup_cons_ite, ih]
      by_cases here : n = k
      · subst here
        by_cases same : n = m <;> simp [same]
      · simp [here]

/-- A number that is given up finds nothing. -/
theorem get?_remove (c : Numbered α) (m n : Nat) :
    (c.remove m).get? n = if n = m then none else c.get? n :=
  lookup_filter_ne n m c.items

theorem Sound.get?_eq_some_iff {c : Numbered α} (sound : c.Sound) {n : Nat} {a : α} :
    c.get? n = some a ↔ (n, a) ∈ c.items := by
  constructor
  · intro found
    obtain ⟨before, after, split, -⟩ := List.lookup_eq_some_iff.mp found
    rw [split]
    exact List.mem_append_right _ List.mem_cons_self
  · intro listed
    cases found : c.get? n with
    | none =>
        have none := List.lookup_eq_none_iff.mp found (n, a) listed
        simp at none
    | some b =>
        obtain ⟨before, after, split, -⟩ := List.lookup_eq_some_iff.mp found
        have other : (n, b) ∈ c.items := split ▸ List.mem_append_right _ List.mem_cons_self
        rw [sound.item_unique other listed]

/-- The next number is free. -/
theorem Sound.get?_next {c : Numbered α} (sound : c.Sound) : c.get? c.next = none := by
  cases found : c.get? c.next with
  | none => rfl
  | some a =>
      have old : c.next ∈ c.numbers :=
        List.mem_map.mpr ⟨(c.next, a), sound.get?_eq_some_iff.mp found, rfl⟩
      have both := (sound.add a).numbers_nodup
      rw [numbers, items_add_next, List.map_cons, List.nodup_cons] at both
      exact absurd old both.1

/-- Nothing is lost by sorting. -/
theorem numberedInOrder_perm (c : Numbered α) : c.numberedInOrder.Perm c.items :=
  stableSort_perm _ _

theorem inOrder_perm (c : Numbered α) : c.inOrder.Perm c.latestFirst :=
  c.numberedInOrder_perm.map _

section Upcoming

variable {c : Numbered α}

/-- The numbers that the next additions take: the released ones, the latest first, and then
new ones. -/
def upcoming (c : Numbered α) (count : Nat) : List Nat :=
  c.released.take count ++
    List.range' (c.items.length + c.released.length) (count - c.released.length)

theorem length_upcoming (c : Numbered α) (count : Nat) : (c.upcoming count).length = count := by
  simp only [upcoming, List.length_append, List.length_take, List.length_range']
  omega

/-- The numbers of several elements come up one by one. -/
theorem upcoming_succ (c : Numbered α) (a : α) (count : Nat) :
    ∃ n, (c.add a).items = (n, a) :: c.items ∧
      c.upcoming (count + 1) = n :: (c.add a).upcoming count := by
  unfold add
  split
  · rename_i n rest released
    refine ⟨n, rfl, ?_⟩
    simp only [upcoming, released, List.take_succ_cons, List.cons_append, List.length_cons]
    congr 3 <;> omega
  · rename_i released
    refine ⟨c.items.length, rfl, ?_⟩
    simp [upcoming, released, List.range'_succ]

/-- Elements that are added together take the numbers that come up. -/
theorem items_foldl_add (c : Numbered α) (xs : List α) :
    (xs.foldl add c).items = ((c.upcoming xs.length).zip xs).reverse ++ c.items := by
  induction xs generalizing c with
  | nil => simp
  | cons a xs ih =>
      obtain ⟨n, added, next⟩ := c.upcoming_succ a xs.length
      rw [List.foldl_cons, ih, added, List.length_cons, next]
      simp

/-- Released numbers are below all that are new. -/
theorem Sound.released_lt (sound : c.Sound) {n m count : Nat} (old : n ∈ c.released.take count)
    (new : m ∈ List.range' (c.items.length + c.released.length) (count - c.released.length)) :
    n < m := by
  have below := sound.below n (List.mem_append_right _ (List.mem_of_mem_take old))
  have above := (List.mem_range'_1.mp new).1
  omega

/-- The numbers that come up are all different. -/
theorem Sound.nodup_upcoming (sound : c.Sound) (count : Nat) : (c.upcoming count).Nodup := by
  have released := (List.nodup_append.mp sound.apart).2.1
  refine List.nodup_append.mpr ⟨released.sublist (List.take_sublist _ _), List.nodup_range', ?_⟩
  intro n old m new
  exact Nat.ne_of_lt (sound.released_lt old new)

/-- New numbers come after all that were in use, so only the released ones can be out of order. -/
theorem Sound.pairwise_upcoming_iff (sound : c.Sound) (count : Nat) :
    (c.upcoming count).Pairwise (· < ·) ↔ (c.released.take count).Pairwise (· < ·) := by
  constructor
  · intro ascending
    exact (List.pairwise_append.mp ascending).1
  · intro ascending
    refine List.pairwise_append.mpr ⟨ascending, List.pairwise_lt_range', ?_⟩
    intro n old m new
    exact sound.released_lt old new

end Upcoming

end Numbered

end RdfTemplates
