import RdfTemplates.Store.Change
import RdfTemplates.Store.Fetching

/-!
# The store as a graph

What a store is kept in is a graph with an index. A node carries an IRI, what kind of
entry it is and perhaps parameters. An edge leads from a template to the callee of an
instance in its body and carries the arguments. The index has the number of the node for
an IRI. Nothing in the form of the graph ties these to each other: every operation keeps
up the index and the parameters by hand, beside the nodes and their kinds.
-/

namespace RdfTemplates

inductive NodeKind where
  | undefined
  | signature
  | base
  | definition
deriving DecidableEq

structure Node where
  iri : Iri
  kind : NodeKind
  parameters? : Option ParameterList

def Node.signature? (node : Node) : Option Signature :=
  node.parameters?.map fun ps => ⟨node.iri, ps, node.kind == .base⟩

/-- An instance in the body of the node at the source. -/
structure Edge where
  source : Nat
  target : Nat
  arguments : ArgumentList

structure Graph where
  nodes : Numbered Node
  edges : Numbered Edge
  index : List (Iri × Nat)
  /-- Pairs of a predicate and a template that writes triples with it. -/
  predicateUses : List (Iri × Iri)
  /-- IRIs that are not fetched again. -/
  failed : List Iri
  /-- The declarations that are looked through before a reader is asked. -/
  library : Option (List Declaration)
  messages : Messages
  config : StoreConfig

namespace Graph

def empty (config : StoreConfig) : Graph := ⟨.empty, .empty, [], [], [], none, [], config⟩

/-- The number that the index has for an IRI. -/
def number? (g : Graph) (iri : Iri) : Option Nat := g.index.lookup iri

def nodeAt? (g : Graph) (n : Nat) : Option Node := g.nodes.get? n

def node? (g : Graph) (iri : Iri) : Option Node := (g.number? iri).bind g.nodeAt?

def kind? (g : Graph) (iri : Iri) : Option NodeKind := (g.node? iri).map (·.kind)

/-- The IRI that the node carries. -/
def iriAt (g : Graph) (n : Nat) : Iri := ((g.nodeAt? n).map (·.iri)).getD ""

/-- The numbered edges of a body, the latest first. -/
def edgesFrom (g : Graph) (n : Nat) : List (Nat × Edge) := g.edges.items.filter (·.2.source == n)

/-- The numbered edges that lead to a node, the latest first. -/
def edgesTo (g : Graph) (n : Nat) : List (Nat × Edge) := g.edges.items.filter (·.2.target == n)

/-- The instance that an edge stands for. -/
def instanceOf (g : Graph) (e : Edge) : Instance := ⟨g.iriAt e.target, e.arguments⟩

/-- The instances in the body of a node, by the numbers of their edges. -/
def bodyAt (g : Graph) (n : Nat) : List Instance :=
  (stableSort (fun a b => decide (a.1 ≤ b.1)) (g.edgesFrom n)).map fun (_, e) => g.instanceOf e

/-- The body of a definition that the index leads to. -/
def body? (g : Graph) (iri : Iri) : Option (List Instance) := do
  let n ← g.number? iri
  let node ← g.nodeAt? n
  if node.kind = .definition then return g.bodyAt n else none

def isResolved (g : Graph) (iri : Iri) : Bool :=
  (g.kind? iri).any fun kind => kind == .base || kind == .definition

/-- What the graph can give to another one under an IRI. -/
def offer? (g : Graph) (iri : Iri) : Option Declaration := do
  let node ← g.node? iri
  match node.kind with
  | .definition =>
      let ps ← node.parameters?
      let body ← g.body? iri
      return .template (.make iri ps body)
  | .base => return .signature (← node.signature?)
  | _ => none

/-- The IRIs of the nodes of a kind. -/
def irisOf (g : Graph) (kind : NodeKind) : List Iri :=
  (g.nodes.inOrder.filter (·.kind == kind)).map (·.iri)

def offers (g : Graph) : List Declaration :=
  (g.irisOf .definition ++ g.irisOf .base).filterMap g.offer?

/-- The IRIs that are called or declared and have neither a definition nor a base. -/
def missing (g : Graph) : List Iri :=
  (g.nodes.inOrder.filter fun node => node.kind == .undefined || node.kind == .signature).map
    (·.iri)

/-- The number of the node for an IRI, which is made with a place in the index unless the index
leads to one. -/
def ensureNode (g : Graph) (iri : Iri) : Graph × Nat :=
  match g.number? iri with
  | some n => (g, n)
  | none =>
      ({ g with
        nodes := g.nodes.add ⟨iri, .undefined, none⟩
        index := (iri, g.nodes.next) :: g.index }, g.nodes.next)

/-- Gives a node another kind and other parameters. -/
def change (g : Graph) (n : Nat) (kind : NodeKind) (parameters? : Option ParameterList) : Graph :=
  { g with nodes := g.nodes.modify n fun node => { node with kind, parameters? } }

/-- Declares the node for an IRI as being of a kind, with parameters. -/
def declare (g : Graph) (iri : Iri) (kind : NodeKind) (ps : ParameterList) : Graph × Nat :=
  let (g, n) := g.ensureNode iri
  (g.change n kind (some ps), n)

def say (g : Graph) (m : Message) : Graph := { g with messages := g.messages.push m }

def refuse (g : Graph) (iri : Iri) (reason : String) : Graph × Bool :=
  (g.say (.warning ("Template " ++ iri ++ " " ++ reason)), false)

/-- Puts an instance into the body of a node. -/
def addEdge (g : Graph) (source : Nat) (i : Instance) : Graph :=
  let predicateUses := Store.noteUse g.predicateUses (g.iriAt source) i
  let (g, target) := g.ensureNode i.iri
  { g with edges := g.edges.add ⟨source, target, i.arguments⟩, predicateUses }

def addBase (g : Graph) (iri : Iri) (ps : ParameterList) : Graph × Bool :=
  match g.node? iri with
  | none => ((g.declare iri .base ps).1, true)
  | some node =>
      if node.kind = .definition then g.refuse iri "is already defined as a template"
      else if node.parameters?.any (!·.sameShape ps) then
        g.refuse iri "is already in the store with different parameters"
      else ((g.declare iri .base ps).1, true)

def addSignature (g : Graph) (s : Signature) : Graph × Bool :=
  if s.isBase then g.addBase s.iri s.parameters
  else match g.kind? s.iri with
    | none | some .undefined => ((g.declare s.iri .signature s.parameters).1, true)
    | some _ => (g.say (.info ("Signature " ++ s.iri ++ " already exists")), false)

def define (g : Graph) (t : Template) : Graph :=
  let (g, n) := g.declare t.iri .definition t.parameters
  t.body.foldl (·.addEdge n ·) g

def addTemplate (g : Graph) (t : Template) : Graph × Bool :=
  match g.node? t.iri with
  | none => (g.define t, true)
  | some node => match node.kind with
    | .definition => g.refuse t.iri "is already defined, nothing will be added"
    | .base => g.refuse t.iri "is a base template and cannot be given a body"
    | .signature =>
        if node.parameters?.any (·.sameShape t.parameters) then (g.define t, true)
        else g.refuse t.iri ("has parameters that differ from its signature: "
          ++ (node.parameters?.map ParameterList.text).getD "" ++ " | " ++ t.parameters.text)
    | .undefined => (g.define t, true)

def accept (g : Graph) : Declaration → Graph × Bool
  | .signature s => g.addSignature s
  | .template t => g.addTemplate t

/-- Drops edges one after the other, in the order given. -/
def dropEdges (g : Graph) (doomed : List (Nat × Edge)) : Graph :=
  { g with edges := g.edges.removeAll (doomed.map Prod.fst) }

/-- Takes a node out, after the edges from it and the edges to it. -/
def removeNode (g : Graph) (n : Nat) : Graph :=
  let g := g.dropEdges (g.edgesFrom n)
  let g := g.dropEdges (g.edgesTo n)
  { g with nodes := g.nodes.remove n }

/-- Takes the IRI out of the index. -/
def forgetIri (g : Graph) (iri : Iri) : Graph :=
  { g with index := g.index.filter (·.1 != iri) }

/-- Takes a node out and its IRI out of the index. -/
def discard (g : Graph) (n : Nat) : Graph :=
  match g.nodeAt? n with
  | none => g
  | some node => (g.removeNode n).forgetIri node.iri

/-- The undefined nodes that no edge leads to, by number. -/
def orphans (g : Graph) : List Nat :=
  (g.nodes.numberedInOrder.filter fun (n, node) =>
    node.kind == .undefined && (g.edgesTo n).isEmpty).map Prod.fst

def prune (g : Graph) : Graph := g.orphans.foldl discard g

/-- Removes what is declared about an IRI, with its body; `false` if that is nothing. -/
def remove (g : Graph) (iri : Iri) : Graph × Bool :=
  match g.number? iri with
  | none => (g, false)
  | some n =>
      if (g.nodeAt? n).all (·.kind == .undefined) then (g, false)
      else
        let g := g.dropEdges (g.edgesFrom n)
        let g := { g with predicateUses := Store.forgetUses g.predicateUses iri }
        let g :=
          if (g.edgesTo n).isEmpty then (g.removeNode n).forgetIri iri
          else g.change n .undefined none
        (g.prune, true)

/-- Puts an instance into the body of a node unless it is there. -/
def addMissingEdge (g : Graph) (source : Nat) (i : Instance) : Graph :=
  if (g.edgesFrom source).any (g.instanceOf ·.2 == i) then g else g.addEdge source i

/-- Notes anew with which predicates a template writes triples. -/
def renewUses (g : Graph) (iri : Iri) : Graph :=
  { g with
    predicateUses := ((g.body? iri).getD []).foldl (Store.noteUse · iri ·)
      (Store.forgetUses g.predicateUses iri) }

/-- Takes instances out of the body of a definition and puts others in unless they are
there; `false` if there is no definition. -/
def editBody (g : Graph) (iri : Iri) (out into : List Instance) : Graph × Bool :=
  match g.number? iri with
  | none => (g, false)
  | some n =>
      if (g.nodeAt? n).any (·.kind == .definition) then
        let doomed := (g.edgesFrom n).filter fun (_, e) => out.contains (g.instanceOf e)
        let g := into.foldl (·.addMissingEdge n ·) (g.dropEdges doomed)
        ((g.renewUses iri).prune, true)
      else (g, false)

def takeMessages (g : Graph) : Messages × Graph := (g.messages, { g with messages := [] })

/-- Makes what another graph offers the library. -/
def registerLibrary (g library : Graph) : Graph := { g with library := some library.offers }

/-- A source of templates with a memory of its own: asked for an IRI, it changes the
graph and succeeds or fails. -/
abbrev Reader (σ : Type) := Iri → Graph → σ → Except ReaderError Unit × Graph × σ

structure Fetching (σ : Type) where
  graph : Graph
  messages : Messages
  memory : σ

variable {σ : Type}

def Fetching.report (f : Fetching σ) (m : Message) : Fetching σ :=
  { f with messages := f.messages.push m }

def fetchFromLibrary (g : Graph) (iri : Iri) : Graph × Bool :=
  match g.config.useLibrary, (g.library.getD []).find? (·.iri == iri) with
  | true, some d => g.accept d
  | _, _ => (g, false)

def fetchFromReader (reader : Reader σ) (f : Fetching σ) (iri : Iri) : Fetching σ :=
  let (result, graph, memory) := reader iri f.graph f.memory
  let reason := match result with
    | .ok _ =>
        if graph.isResolved iri then none
        else some ("reader did not provide a definition for " ++ iri)
    | .error e => some e.text
  match reason with
  | none =>
      Fetching.report { f with graph, memory } (.info ("Fetched template " ++ iri))
  | some reason =>
      let failed := if graph.failed.contains iri then graph.failed else iri :: graph.failed
      Fetching.report { f with graph := { graph with failed }, memory }
        (.warning ("Failed to fetch template " ++ iri ++ ": " ++ reason))

def fetchOne (reader : Reader σ) (f : Fetching σ) (iri : Iri) : Fetching σ :=
  match f.graph.fetchFromLibrary iri with
  | (graph, true) =>
      Fetching.report { f with graph }
        (.info ("Fetched template " ++ iri ++ " from the standard library"))
  | (graph, false) => fetchFromReader reader { f with graph } iri

def fetchEach (reader : Reader σ) (iris : List Iri) (f : Fetching σ) : Fetching σ :=
  iris.foldl (fetchOne reader) f

/-- The missing IRIs that have not failed, each once and sorted. -/
def unfetched (g : Graph) : List Iri :=
  Store.sortIris (firsts (g.missing.filter (!g.failed.contains ·)))

/-- Fetches in rounds until nothing is missing or a round leaves the same IRIs missing.
With the rounds used up before that, the missing IRIs are given back. -/
def fetchRounds (reader : Reader σ) : Nat → List Iri → Fetching σ →
    Fetching σ × Option (List Iri)
  | _, [], f => (f, none)
  | 0, wanted, f => (f, some wanted)
  | rounds + 1, wanted, f =>
      let f := fetchEach reader wanted f
      let next := f.graph.unfetched
      if next == wanted then (f, none) else fetchRounds reader rounds next f

/-- Fetches what is missing. The messages that the graph took up meanwhile are handed
back after those of the fetching, and its earlier messages stay with it. -/
def fetchMissing (g : Graph) (reader : Reader σ) (memory : σ) : Fetching σ :=
  let rounds := g.config.maxFetchRounds
  let start : Fetching σ := ⟨{ g with messages := [] }, [], memory⟩
  let (f, left) := fetchRounds reader rounds g.unfetched start
  let f := match left with
    | none => f
    | some iris => Fetching.report f (.warning ("Stopped fetching after " ++ toString rounds
        ++ " rounds with " ++ toString iris.length ++ " templates still missing"))
  { f with
    graph := { f.graph with messages := g.messages }
    messages := f.messages ++ f.graph.messages }

/-- Fetches the given IRIs once and follows nothing that they need. -/
def fetchOnly (g : Graph) (iris : List Iri) (reader : Reader σ) (memory : σ) : Fetching σ :=
  let wanted := iris.filter fun iri => !g.isResolved iri && !g.failed.contains iri
  fetchEach reader (firsts (Store.sortIris wanted)) ⟨g, [], memory⟩

end Graph

end RdfTemplates
