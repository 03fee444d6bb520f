import RdfTemplates.Store.Lookup

/-!
# Order of dependency

Callees come before their callers. A template that depends on itself, and every
template that depends on such a one, has no place in the order.
-/

namespace RdfTemplates

structure TopologicalOrder where
  sorted : List Iri
  unsorted : List Iri
deriving DecidableEq

def TopologicalOrder.isComplete (order : TopologicalOrder) : Bool := order.unsorted.isEmpty

/-- A sort under way: how many calls of each template lead to templates that are not
sorted yet, the templates without such calls, and what is sorted. -/
structure Sorting where
  remaining : List (Iri × Nat)
  frontier : List Iri
  sorted : List Iri

namespace Store

def startSorting (store : Store) : Sorting :=
  let remaining := store.entryList.map fun e => (e.iri, (store.callsFrom e.iri).length)
  ⟨remaining, (remaining.filter (·.2 == 0)).map (·.1), []⟩

/-- Takes one call off the count of its caller. -/
def settleCall (s : Sorting) (caller : Iri) : Sorting :=
  let remaining := s.remaining.map fun (iri, n) => if iri == caller then (iri, n - 1) else (iri, n)
  let ready := remaining.lookup caller == some 0
  ⟨remaining, if ready then s.frontier ++ [caller] else s.frontier, s.sorted⟩

/-- Sorts the first template of the frontier and settles the calls of it. -/
def sortNext (store : Store) (s : Sorting) : Sorting :=
  match s.frontier with
  | [] => s
  | iri :: rest =>
      ((store.callsTo iri).map (·.2.caller)).foldl settleCall
        ⟨s.remaining, rest, s.sorted ++ [iri]⟩

def topologicalOrder (store : Store) : TopologicalOrder :=
  let entries := store.entryList.map (·.iri)
  let sorted := (Nat.repeat store.sortNext entries.length store.startSorting).sorted
  ⟨sorted, entries.filter (!sorted.contains ·)⟩

def callees (store : Store) (caller : Iri) : List Iri :=
  (store.callsFrom caller).map (·.2.callee)

/-- What the pending IRIs and the calls from them lead to, among the IRIs not met so far. -/
def gather (store : Store) (unmet pending : List Iri) : List Iri :=
  match pending with
  | [] => []
  | iri :: rest =>
      if iri ∈ unmet then
        iri :: store.gather (unmet.erase iri) (store.callees iri ++ rest)
      else store.gather unmet rest
termination_by (unmet.length, pending.length)
decreasing_by
  · have := List.length_erase_of_mem ‹iri ∈ unmet›
    have := List.length_pos_of_mem ‹iri ∈ unmet›
    exact Prod.Lex.left _ _ (by omega)
  · exact Prod.Lex.right _ (by simp)

/-- The entries that a template leads to by one call or more. -/
def reach (store : Store) (iri : Iri) : List Iri :=
  store.gather (store.entryList.map (·.iri)) (store.callees iri)

/-- The templates that depend on themselves. -/
def cyclicTemplates (store : Store) : List Iri :=
  (store.entryList.map (·.iri)).filter fun iri => iri ∈ store.reach iri

end Store

end RdfTemplates
