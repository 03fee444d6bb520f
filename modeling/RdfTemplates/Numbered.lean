/-!
# Sorted and numbered items

In a stable sort every element goes in after all those before it that may stand
before it, so elements that may stand either way keep their order.

In a numbered collection every item has a number of its own. Removing an item
releases its number, and a new item takes the number released last, or the next
one that was never used. The other items keep their numbers.
-/

namespace RdfTemplates

section Sorting

variable {α : Type}

def insertSorted (le : α → α → Bool) (a : α) : List α → List α
  | [] => [a]
  | b :: rest => if le b a then b :: insertSorted le a rest else a :: b :: rest

def stableSort (le : α → α → Bool) (xs : List α) : List α :=
  xs.foldl (fun sorted a => insertSorted le a sorted) []

end Sorting

/-- The items and the released numbers, both with the latest first. -/
structure Numbered (α : Type) where
  items : List (Nat × α)
  released : List Nat

namespace Numbered

variable {α β : Type}

def empty : Numbered α := ⟨[], []⟩

/-- The number that the next item takes. -/
def next (c : Numbered α) : Nat := c.released.head?.getD c.items.length

def add (c : Numbered α) (a : α) : Numbered α :=
  match c.released with
  | n :: rest => ⟨(n, a) :: c.items, rest⟩
  | [] => ⟨(c.items.length, a) :: c.items, []⟩

def remove (c : Numbered α) (number : Nat) : Numbered α :=
  ⟨c.items.filter (·.1 != number), number :: c.released⟩

/-- Removes items one after the other, in the order given. -/
def removeAll (c : Numbered α) (numbers : List Nat) : Numbered α :=
  numbers.foldl remove c

def map (f : α → β) (c : Numbered α) : Numbered β :=
  ⟨c.items.map fun (n, a) => (n, f a), c.released⟩

/-- The item with a number. -/
def get? (c : Numbered α) (number : Nat) : Option α := c.items.lookup number

/-- Changes the item with a number. -/
def modify (c : Numbered α) (number : Nat) (f : α → α) : Numbered α :=
  ⟨c.items.map fun (n, a) => (n, if n == number then f a else a), c.released⟩

/-- The items from the latest to the oldest. -/
def latestFirst (c : Numbered α) : List α := c.items.map (·.2)

def numberedInOrder (c : Numbered α) : List (Nat × α) :=
  stableSort (fun a b => decide (a.1 ≤ b.1)) c.items

/-- The items by number. -/
def inOrder (c : Numbered α) : List α := c.numberedInOrder.map (·.2)

end Numbered

end RdfTemplates
