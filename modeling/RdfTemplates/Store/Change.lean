import RdfTemplates.Store.Declare

/-!
# Removing templates and editing bodies

A removed template stays as an undefined entry while some body instantiates it.
An undefined entry goes with the last call of it.
-/

namespace RdfTemplates

namespace Store

/-- Drops the undefined entries that nothing calls, in the order of their numbers. -/
def prune (store : Store) : Store :=
  let orphans := store.entries.numberedInOrder.filter fun (_, e) =>
    e.status.isUndefined && (store.callsTo e.iri).isEmpty
  { store with entries := store.entries.removeAll (orphans.map Prod.fst) }

def forgetUses (uses : List (Iri × Iri)) (template : Iri) : List (Iri × Iri) :=
  uses.filter (·.2 != template)

def removeEntry (store : Store) (iri : Iri) : Store :=
  let numbers := (store.entries.items.filter (·.2.iri == iri)).map (·.1)
  { store with entries := store.entries.removeAll numbers }

/-- Removes what is declared about an IRI, with its body; `false` if that is nothing. -/
def remove (store : Store) (iri : Iri) : Store × Bool :=
  if store.contains iri then
    let store := { store with
      calls := store.calls.removeAll ((store.callsFrom iri).map Prod.fst)
      predicateUses := forgetUses store.predicateUses iri }
    let store :=
      if (store.callsTo iri).isEmpty then store.removeEntry iri
      else store.setStatus iri .undefined
    (store.prune, true)
  else (store, false)

def addMissingCall (store : Store) (caller : Iri) (i : Instance) : Store :=
  if (store.callsFrom caller).any (·.2.target == i) then store else store.addCall caller i

/-- Takes instances out of the body of a definition and puts others in unless they are
there; `false` if there is no definition. -/
def editBody (store : Store) (iri : Iri) (out into : List Instance) : Store × Bool :=
  if store.isDefinition iri then
    let doomed := (store.callsFrom iri).filter fun (_, c) => out.contains c.target
    let store := { store with calls := store.calls.removeAll (doomed.map Prod.fst) }
    let store := into.foldl (·.addMissingCall iri ·) store
    let uses := forgetUses store.predicateUses iri
    let store := { store with
      predicateUses := (store.bodyOf iri).foldl (noteUse · iri ·) uses }
    (store.prune, true)
  else (store, false)

end Store

end RdfTemplates
