import RdfTemplates.Store.Basic

/-!
# Adding declarations

A signature may become a base template or a definition later. Nothing else that
is declared is replaced: an addition that does not fit is refused with a
message and changes nothing else.
-/

namespace RdfTemplates

namespace Store

/-- Gives the IRI an undefined entry unless it has an entry. -/
def ensure (store : Store) (iri : Iri) : Store :=
  if (store.entry? iri).isSome then store
  else { store with entries := store.entries.add ⟨iri, .undefined⟩ }

/-- Sets a status, with an entry for it if there was none. -/
def setStatus (store : Store) (iri : Iri) (status : Status) : Store :=
  let store := store.ensure iri
  { store with entries := store.entries.map fun e => if e.iri == iri then { e with status } else e }

def say (store : Store) (m : Message) : Store :=
  { store with messages := store.messages.push m }

/-- Says why a declaration is refused. -/
def refuse (store : Store) (iri : Iri) (reason : String) : Store × Bool :=
  (store.say (.warning ("Template " ++ iri ++ " " ++ reason)), false)

/-- Notes that a template has a triple with this predicate, if it does. -/
def noteUse (uses : List (Iri × Iri)) (template : Iri) (i : Instance) : List (Iri × Iri) :=
  match i.triplePredicate? with
  | some (.iri predicate) =>
      if uses.contains (predicate, template) then uses else (predicate, template) :: uses
  | _ => uses

/-- Adds an instance to a body, with an entry for what it calls. -/
def addCall (store : Store) (caller : Iri) (i : Instance) : Store :=
  let store := store.ensure i.iri
  { store with
    calls := store.calls.add ⟨caller, i⟩
    predicateUses := noteUse store.predicateUses caller i }

/-- Takes a base template unless it contradicts what is declared. -/
def addBase (store : Store) (iri : Iri) (ps : ParameterList) : Store × Bool :=
  match store.status? iri with
  | some (.definition _) => store.refuse iri "is already defined as a template"
  | some (.signature existing) | some (.base existing) =>
      if existing.sameShape ps then (store.setStatus iri (.base ps), true)
      else store.refuse iri "is already in the store with different parameters"
  | some .undefined | none => (store.setStatus iri (.base ps), true)

/-- Takes a signature where nothing is declared yet. -/
def addSignature (store : Store) (s : Signature) : Store × Bool :=
  if s.isBase then store.addBase s.iri s.parameters
  else match store.status? s.iri with
    | some .undefined | none => (store.setStatus s.iri (.signature s.parameters), true)
    | some _ => (store.say (.info ("Signature " ++ s.iri ++ " already exists")), false)

/-- Defines a template with all the calls of its body. -/
def define (store : Store) (t : Template) : Store :=
  t.body.foldl (·.addCall t.iri ·) (store.setStatus t.iri (.definition t.parameters))

/-- Takes a template unless it contradicts what is declared. -/
def addTemplate (store : Store) (t : Template) : Store × Bool :=
  match store.status? t.iri with
  | some (.definition _) => store.refuse t.iri "is already defined, nothing will be added"
  | some (.base _) => store.refuse t.iri "is a base template and cannot be given a body"
  | some (.signature existing) =>
      if existing.sameShape t.parameters then (store.define t, true)
      else store.refuse t.iri ("has parameters that differ from its signature: "
        ++ existing.text ++ " | " ++ t.parameters.text)
  | some .undefined | none => (store.define t, true)

/-- Takes a declaration and answers whether it was taken. -/
def accept (store : Store) : Declaration → Store × Bool
  | .signature s => store.addSignature s
  | .template t => store.addTemplate t

def acceptAll (store : Store) (ds : List Declaration) : Store :=
  ds.foldl (fun store d => (store.accept d).1) store

def addBaseTemplates (store : Store) : Store :=
  store.acceptAll (baseTemplates.map .signature)

end Store

end RdfTemplates
