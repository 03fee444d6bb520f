import RdfTemplates.Store.Declare
import RdfTemplates.Store.Lookup

/-!
# Fetching missing templates

What a store lacks is taken from its library first and asked of a reader next.
A reader may add more than it is asked for, and what it adds may need more in
turn, so fetching goes in rounds. An IRI that could not be fetched is not tried
again.
-/

namespace RdfTemplates

/-- A source of templates with a memory of its own: asked for an IRI, it changes the
store and succeeds or fails. -/
abbrev Reader (σ : Type) := Iri → Store → σ → Except ReaderError Unit × Store × σ

structure Fetching (σ : Type) where
  store : Store
  messages : Messages
  memory : σ

namespace Store

/-- Makes what another store offers the library. -/
def registerLibrary (store library : Store) : Store :=
  { store with library := some library.offers }

def fetchFromLibrary (store : Store) (iri : Iri) : Store × Bool :=
  match store.config.useLibrary, (store.library.getD []).find? (·.iri == iri) with
  | true, some d => store.accept d
  | _, _ => (store, false)

variable {σ : Type}

def Fetching.report (f : Fetching σ) (m : Message) : Fetching σ :=
  { f with messages := f.messages.push m }

def fetchFromReader (reader : Reader σ) (f : Fetching σ) (iri : Iri) : Fetching σ :=
  let (result, store, memory) := reader iri f.store f.memory
  let reason := match result with
    | .ok _ =>
        if store.isResolved iri then none
        else some ("reader did not provide a definition for " ++ iri)
    | .error e => some e.text
  match reason with
  | none =>
      Fetching.report { f with store, memory } (.info ("Fetched template " ++ iri))
  | some reason =>
      let failed := if store.failed.contains iri then store.failed else iri :: store.failed
      Fetching.report { f with store := { store with failed }, memory }
        (.warning ("Failed to fetch template " ++ iri ++ ": " ++ reason))

def fetchOne (reader : Reader σ) (f : Fetching σ) (iri : Iri) : Fetching σ :=
  match f.store.fetchFromLibrary iri with
  | (store, true) =>
      Fetching.report { f with store }
        (.info ("Fetched template " ++ iri ++ " from the standard library"))
  | (store, false) => fetchFromReader reader { f with store } iri

def fetchEach (reader : Reader σ) (iris : List Iri) (f : Fetching σ) : Fetching σ :=
  iris.foldl (fetchOne reader) f

def sortIris (iris : List Iri) : List Iri := stableSort (fun a b => decide (a ≤ b)) iris

/-- The missing IRIs that have not failed, sorted. -/
def unfetched (store : Store) : List Iri :=
  sortIris (store.missing.filter (!store.failed.contains ·))

/-- Fetches in rounds until nothing is missing or a round leaves the same IRIs missing.
With the rounds used up before that, the missing IRIs are given back. -/
def fetchRounds (reader : Reader σ) : Nat → List Iri → Fetching σ →
    Fetching σ × Option (List Iri)
  | _, [], f => (f, none)
  | 0, wanted, f => (f, some wanted)
  | rounds + 1, wanted, f =>
      let f := fetchEach reader wanted f
      let next := f.store.unfetched
      if next == wanted then (f, none) else fetchRounds reader rounds next f

/-- Fetches what is missing. The messages that the store took up meanwhile are handed
back after those of the fetching, and its earlier messages stay with it. -/
def fetchMissing (store : Store) (reader : Reader σ) (memory : σ) : Fetching σ :=
  let rounds := store.config.maxFetchRounds
  let start : Fetching σ := ⟨{ store with messages := [] }, [], memory⟩
  let (f, left) := fetchRounds reader rounds store.unfetched start
  let f := match left with
    | none => f
    | some iris => Fetching.report f (.warning ("Stopped fetching after " ++ toString rounds
        ++ " rounds with " ++ toString iris.length ++ " templates still missing"))
  { f with
    store := { f.store with messages := store.messages }
    messages := f.messages ++ f.store.messages }

/-- Fetches the given IRIs once and follows nothing that they need. -/
def fetchOnly (store : Store) (iris : List Iri) (reader : Reader σ) (memory : σ) : Fetching σ :=
  let wanted := iris.filter fun iri => !store.isResolved iri && !store.failed.contains iri
  fetchEach reader (firsts (sortIris wanted)) ⟨store, [], memory⟩

end Store

end RdfTemplates
