import RdfTemplates.Store.Fetching
import RdfTemplates.Substitution

/-!
# Expanding an instance

An instance of a defined template is replaced by the instances of its body,
again and again, until only instances of base templates are left. They come out
in the order of the bodies. An instance that fails gives an error in its place
and does not keep the others from being expanded. Before a template is looked into,
its instance goes through tests of its arguments. The instances taken up count as
steps, and an expansion that needs more steps than allowed ends with an error.
-/

namespace RdfTemplates

namespace Instance

/-- Whether some argument is `none` at a parameter that has no use for it. Such an
instance says nothing and is dropped. -/
def isDiscarded (i : Instance) (ps : ParameterList) : Bool :=
  (i.arguments.terms.zip ps).any fun (t, p) => t.isNone && !p.acceptsNone

def checkArgument (iri : Iri) (position : Nat) (t : Term) (p : Parameter) :
    Option ExpansionError :=
  if t.isNone then none
  else if p.isNonBlank && t.isBlank then some (.blankForNonBlank iri position t.text)
  else if t.intrinsicType.isCompatible TypeTree.standard p.type then none
  else some (.incompatibleType iri position t.text t.intrinsicType p.type)

/-- What is wrong with the first argument that does not fit its parameter. -/
def checkArguments (i : Instance) (ps : ParameterList) : Option ExpansionError :=
  (i.arguments.terms.zip ps).zipIdx.findSome? fun ((t, p), position) =>
    checkArgument i.iri position t p

def exhaustedAt (i : Instance) (step : Nat) (positions : List Nat) : ExpansionError :=
  .exhausted i.text step positions

end Instance

structure ExpansionConfig where
  maxSteps : Nat
  checkArguments : Bool
  /-- Whether missing templates are fetched first. -/
  fetchMissing : Bool
deriving DecidableEq

namespace ExpansionConfig

def standard : ExpansionConfig := ⟨1000000, true, false⟩

/-- No step at all counts as one. -/
def withMaxSteps (config : ExpansionConfig) (steps : Nat) : ExpansionConfig :=
  { config with maxSteps := max steps 1 }

end ExpansionConfig

abbrev ExpansionItem := Except ExpansionError Instance

inductive Work where
  | edge (i : Instance)
  | failed (e : ExpansionError)

/-- What becomes of an instance: an item of the result, or more work in its place. -/
inductive Resolution where
  | item (item : ExpansionItem)
  | work (work : List Work)

namespace Expansion

def listWork (i : Instance) : ExpansionStep → Work
  | .expanded args => .edge ⟨i.iri, args⟩
  | .exhausted step positions => .failed (i.exhaustedAt step positions)

def resolveLists (i : Instance) (expander : ListExpander) : Resolution :=
  if i.arguments.canExpand then .work ((expander.steps i.arguments.arguments).map (listWork i))
  else .item (.error (.unresolvedExpander i.text))

/-- Looks into the definition of an instance whose arguments are in order. -/
def unfold (store : Store) (ps : ParameterList) (i : Instance) (supply : BlankSupply) :
    Resolution × BlankSupply :=
  match Substitution.ofArguments i.arguments ps supply with
  | .error e => (.item (.error (.substitution e)), supply)
  | .ok (s, supply) =>
      let (body, supply) := s.applyBody (store.bodyOf i.iri) supply
      (.work (body.map .edge), supply)

def resolve (store : Store) (checks : Bool) (i : Instance) (supply : BlankSupply) :
    Resolution × BlankSupply :=
  match (store.status? i.iri).filter Status.isResolved with
  | none => (.item (.error (.missingDefinition i.iri)), supply)
  | some status =>
      match i.arguments.expander with
      | some expander => (resolveLists i expander, supply)
      | none =>
          let ps := status.parameters?.getD []
          if i.arguments.size != ps.length then
            (.item (.error (.arity i.iri ps.length i.arguments.size)), supply)
          else if i.isDiscarded ps then (.work [], supply)
          else match if checks then i.checkArguments ps else none with
            | some e => (.item (.error e), supply)
            | none =>
                if status.isBase then (.item (.ok i), supply) else unfold store ps i supply

/-- An expansion under way: what is left to do and how many steps may be taken. -/
structure State where
  pending : List Work
  budget : Nat
  supply : BlankSupply

def start (config : ExpansionConfig) (i : Instance) (supply : BlankSupply) : State :=
  ⟨[.edge i], config.maxSteps, supply⟩

/-- Goes on to the next item, if there is one. -/
def advance (store : Store) (config : ExpansionConfig) : Nat → List Work → BlankSupply →
    Option ExpansionItem × State
  | budget, [], supply => (none, ⟨[], budget, supply⟩)
  | budget, .failed e :: rest, supply => (some (.error e), ⟨rest, budget, supply⟩)
  | 0, .edge _ :: _, supply => (some (.error (.stepLimit config.maxSteps)), ⟨[], 0, supply⟩)
  | budget + 1, .edge i :: rest, supply =>
      match resolve store config.checkArguments i supply with
      | (.item item, supply) => (some item, ⟨rest, budget, supply⟩)
      | (.work work, supply) => advance store config budget (work ++ rest) supply

def next (store : Store) (config : ExpansionConfig) (state : State) :
    Option ExpansionItem × State :=
  advance store config state.budget state.pending state.supply

/-- Puts as many further items as asked for on top of those found, the latest first. -/
def takeOnto (store : Store) (config : ExpansionConfig) : Nat → State → List ExpansionItem →
    List ExpansionItem × State
  | 0, state, found => (found, state)
  | n + 1, state, found =>
      match next store config state with
      | (none, state) => (found, state)
      | (some item, state) => takeOnto store config n state (item :: found)

/-- The first items, as many as asked for. -/
def take (store : Store) (config : ExpansionConfig) (n : Nat) (state : State) :
    List ExpansionItem × State :=
  let (found, state) := takeOnto store config n state []
  (found.reverse, state)

/-- Puts the errors that come before the first instance on top of the items found. -/
def settleFailed : List Work → List ExpansionItem → List ExpansionItem × List Work
  | .failed e :: rest, found => settleFailed rest (.error e :: found)
  | work, found => (found, work)

/-- Puts all further items on top of those found, the latest first. -/
def runOnto (store : Store) (config : ExpansionConfig) : Nat → List Work → BlankSupply →
    List ExpansionItem → List ExpansionItem × BlankSupply
  | budget, work, supply, found =>
    match settleFailed work found with
    | (found, .edge i :: rest) =>
        match budget with
        | 0 => (.error (.stepLimit config.maxSteps) :: found, supply)
        | budget + 1 =>
            match resolve store config.checkArguments i supply with
            | (.item item, supply) => runOnto store config budget rest supply (item :: found)
            | (.work work, supply) => runOnto store config budget (work ++ rest) supply found
    | (found, _) => (found, supply)

/-- All items. -/
def run (store : Store) (config : ExpansionConfig) (state : State) :
    List ExpansionItem × BlankSupply :=
  let (found, supply) := runOnto store config state.budget state.pending state.supply []
  (found.reverse, supply)

end Expansion

/-- Instances of base templates, and a message for every instance that failed. -/
structure Expanded where
  instances : List Instance
  messages : Messages

def Expanded.ofItems (items : List ExpansionItem) : Expanded :=
  ⟨items.filterMap Except.toOption, items.filterMap fun
    | .error e => some e.message
    | .ok _ => none⟩

namespace Store

/-- Fetches what is missing if the expansion is to do that. -/
def fetchIfAsked {σ : Type} (store : Store) (config : ExpansionConfig) (reader : Reader σ)
    (memory : σ) : Fetching σ :=
  if config.fetchMissing then store.fetchMissing reader memory else ⟨store, [], memory⟩

def expand (store : Store) (config : ExpansionConfig) (i : Instance) (supply : BlankSupply) :
    List ExpansionItem × BlankSupply :=
  Expansion.run store config (Expansion.start config i supply)

def expandEach (store : Store) (config : ExpansionConfig) : List Instance → BlankSupply →
    List ExpansionItem × BlankSupply
  | [], supply => ([], supply)
  | i :: rest, supply =>
      let (items, supply) := store.expand config i supply
      let (others, supply) := expandEach store config rest supply
      (items ++ others, supply)

def expandAll (store : Store) (config : ExpansionConfig) (is : List Instance)
    (supply : BlankSupply) : Expanded × BlankSupply :=
  let (items, supply) := store.expandEach config is supply
  (.ofItems items, supply)

end Store

end RdfTemplates
