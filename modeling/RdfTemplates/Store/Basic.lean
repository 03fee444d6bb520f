import RdfTemplates.Message
import RdfTemplates.Numbered
import RdfTemplates.Template

/-!
# The template store

The store has one entry for every IRI that was declared or is instantiated in
some body, and one call for every instance in a body. An IRI that is only
instantiated has an undefined entry. Beside the calls the store keeps which
templates write triples with which predicate.
-/

namespace RdfTemplates

/-- How far a template is known: called only, declared by a signature, as a base, or defined. -/
inductive Status where
  | undefined
  | signature (parameters : ParameterList)
  | base (parameters : ParameterList)
  | definition (parameters : ParameterList)

namespace Status

def parameters? : Status → Option ParameterList
  | .undefined => none
  | .signature ps | .base ps | .definition ps => some ps

def isUndefined : Status → Bool
  | .undefined => true
  | _ => false

def isSignature : Status → Bool
  | .signature _ => true
  | _ => false

def isBase : Status → Bool
  | .base _ => true
  | _ => false

def isDefinition : Status → Bool
  | .definition _ => true
  | _ => false

/-- Whether expansion knows what to do at an entry. -/
def isResolved (s : Status) : Bool := s.isBase || s.isDefinition

/-- Whether an entry still waits for its definition. -/
def isMissing (s : Status) : Bool := s.isUndefined || s.isSignature

end Status

/-- What the store has about one IRI. -/
structure Entry where
  iri : Iri
  status : Status

def Entry.signature? (e : Entry) : Option Signature :=
  e.status.parameters?.map fun ps => ⟨e.iri, ps, e.status.isBase⟩

/-- An instance in the body of the template `caller`. -/
structure Call where
  caller : Iri
  target : Instance

def Call.callee (c : Call) : Iri := c.target.iri

/-- How often fetching goes round, and whether the library is looked through. -/
structure StoreConfig where
  /-- How many rounds of fetching are made at most; none at all counts as one. -/
  maxFetchRounds : Nat
  useLibrary : Bool
deriving DecidableEq

namespace StoreConfig

def standard : StoreConfig := ⟨64, true⟩

def withMaxFetchRounds (config : StoreConfig) (rounds : Nat) : StoreConfig :=
  { config with maxFetchRounds := max rounds 1 }

end StoreConfig

/-- Entries and calls under their numbers, what uses which predicate, a library, what could not be
fetched, and messages that wait to be taken. -/
structure Store where
  entries : Numbered Entry
  calls : Numbered Call
  /-- Pairs of a predicate and a template that writes triples with it. -/
  predicateUses : List (Iri × Iri)
  /-- IRIs that are not fetched again. -/
  failed : List Iri
  /-- The declarations that are looked through before a reader is asked. -/
  library : Option (List Declaration)
  messages : Messages
  config : StoreConfig

namespace Store

def empty (config : StoreConfig) : Store :=
  ⟨.empty, .empty, [], [], none, [], config⟩

/-- The entries by number. -/
def entryList (store : Store) : List Entry := store.entries.inOrder

/-- The entry of an IRI. -/
def entry? (store : Store) (iri : Iri) : Option Entry :=
  store.entries.latestFirst.find? (·.iri == iri)

/-- The status of an IRI, if it has an entry. -/
def status? (store : Store) (iri : Iri) : Option Status := (store.entry? iri).map (·.status)

def parameters? (store : Store) (iri : Iri) : Option ParameterList :=
  (store.status? iri).bind Status.parameters?

/-- Whether something has been declared about the IRI. -/
def contains (store : Store) (iri : Iri) : Bool :=
  (store.status? iri).any (!·.isUndefined)

def isBase (store : Store) (iri : Iri) : Bool := (store.status? iri).any Status.isBase

def isDefinition (store : Store) (iri : Iri) : Bool := (store.status? iri).any Status.isDefinition

/-- Whether the IRI is a base or a definition. -/
def isResolved (store : Store) (iri : Iri) : Bool := (store.status? iri).any Status.isResolved

/-- The numbered calls in the body of a template, the latest first. -/
def callsFrom (store : Store) (caller : Iri) : List (Nat × Call) :=
  store.calls.items.filter (·.2.caller == caller)

/-- The numbered calls of a template, the latest first. -/
def callsTo (store : Store) (callee : Iri) : List (Nat × Call) :=
  store.calls.items.filter (·.2.callee == callee)

/-- The instances called by `caller`, by number. -/
def bodyOf (store : Store) (caller : Iri) : List Instance :=
  (stableSort (fun a b => decide (a.1 ≤ b.1)) (store.callsFrom caller)).map (·.2.target)

def body? (store : Store) (iri : Iri) : Option (List Instance) :=
  if store.isDefinition iri then some (store.bodyOf iri) else none

/-- Hands out the messages that wait. -/
def takeMessages (store : Store) : Messages × Store :=
  (store.messages, { store with messages := [] })

end Store

end RdfTemplates
