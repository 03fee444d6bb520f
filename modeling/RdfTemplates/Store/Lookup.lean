import RdfTemplates.Store.Basic

/-!
# Looking things up in a store

What is known about an IRI, what instantiates what, and which IRIs there are of a
kind.
-/

namespace RdfTemplates

namespace Store

def getTemplate (store : Store) (iri : Iri) : Except LookupError Template :=
  match store.status? iri with
  | some (.definition ps) => .ok (.make iri ps (store.bodyOf iri))
  | _ => .error (.missingTemplate iri)

def getSignature (store : Store) (iri : Iri) : Except LookupError Signature :=
  match (store.entry? iri).bind Entry.signature? with
  | some s => .ok s
  | none => .error (.missingSignature iri)

/-- The templates instantiated in the body of a definition, each once. -/
def dependencies (store : Store) (iri : Iri) : Except LookupError (List Iri) :=
  if store.isDefinition iri then .ok (firsts ((store.bodyOf iri).map (·.iri)))
  else .error (.missingTemplate iri)

/-- The templates whose body instantiates `iri`, each once. -/
def dependents (store : Store) (iri : Iri) : List Iri :=
  firsts ((store.callsTo iri).map (·.2.caller))

/-- The IRIs that are called or declared and have neither a definition nor a base. -/
def missing (store : Store) : List Iri :=
  (store.entryList.filter (·.status.isMissing)).map (·.iri)

def templatesUsing (store : Store) (predicate : Iri) : List Iri :=
  (store.predicateUses.filter (·.1 == predicate)).map (·.2)

def declared (store : Store) : List Entry := store.entryList.filter (!·.status.isUndefined)

def iris (store : Store) : List Iri := store.declared.map (·.iri)

def definitionIris (store : Store) : List Iri :=
  (store.entryList.filter (·.status.isDefinition)).map (·.iri)

def baseIris (store : Store) : List Iri :=
  (store.entryList.filter (·.status.isBase)).map (·.iri)

def templates (store : Store) : List Template :=
  store.definitionIris.filterMap fun iri => (store.getTemplate iri).toOption

def signatures (store : Store) : List Signature := store.entryList.filterMap Entry.signature?

/-- One line about the store, for a log. -/
def summary (store : Store) : String :=
  "TemplateStore \x7b nodes: " ++ toString store.entryList.length
    ++ ", dependencies: " ++ toString store.calls.items.length
    ++ ", templates: " ++ toString store.definitionIris.length
    ++ ", failed: " ++ toString store.failed.length
    ++ ", has_standard_library: " ++ toString store.library.isSome ++ " \x7d"

/-- What the store can give to another one: its definitions and its base templates. -/
def offers (store : Store) : List Declaration :=
  store.templates.map .template ++ (store.signatures.filter (·.isBase)).map .signature

end Store

end RdfTemplates
