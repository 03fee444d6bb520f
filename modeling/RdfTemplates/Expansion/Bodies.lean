import RdfTemplates.Expansion.Run
import RdfTemplates.MatchingSearch
import RdfTemplates.Store.Change
import RdfTemplates.Store.DependencyOrder

/-!
# Expanding and refactoring bodies

The bodies of a store are expanded into a new store, callees before callers, so
that the instances of a body are replaced by bodies that are expanded already.
An instance that cannot be expanded stays in its body. Templates that depend on
a dependency cycle are copied as they are.

Refactoring goes the other way. If the body of one template matches into the body
of another one, the matched instances can be replaced by a single instance of the
first template. A matching is refused when a parameter would not get a value, when
`none` or a blank node could reach a parameter that treats it differently, and when
a blank node of the matched instances also occurs outside of them.
-/

namespace RdfTemplates

/-- A body under expansion: the template it belongs to, the store with the expanded
callees, and which instances are to be replaced at all. -/
structure BodyExpansion where
  caller : Iri
  parameters : ParameterList
  target : Store
  accept : Instance → Bool
  maxSteps : Nat

namespace BodyExpansion

/-- Whether no optional parameter of the caller is given to a callee's parameter that is
not optional: a later `none` there has to drop the instance and nothing else. -/
def keepsOptional (e : BodyExpansion) (i : Instance) (ps : ParameterList) : Bool :=
  (i.arguments.terms.zip ps).all fun (t, p) =>
    let source := t.asVar?.bind fun v => e.parameters.labelled? v.label
    !source.any (·.isOptional) || p.isOptional

/-- What an instance of the body becomes: the instances in its place, or itself. -/
inductive Step where
  | keep
  | replace (body : List Instance)

structure Progress where
  messages : Messages
  supply : BlankSupply

def stepLists (i : Instance) (expander : ListExpander) (p : Progress) : Step × Progress :=
  if i.arguments.canExpand then
    let steps := expander.steps i.arguments.arguments
    let expanded := steps.filterMap fun
      | .expanded args => some ⟨i.iri, args⟩
      | .exhausted .. => none
    let failures := steps.filterMap fun
      | .expanded _ => none
      | .exhausted step positions => some (i.exhaustedAt step positions).message
    (.replace expanded, { p with messages := p.messages ++ failures })
  else (.keep, p)

def unfold (e : BodyExpansion) (ps : ParameterList) (i : Instance) (p : Progress) :
    Step × Progress :=
  match Substitution.ofArguments i.arguments ps p.supply with
  | .error cause => (.keep, { p with messages := p.messages.push (.error cause.text) })
  | .ok (s, supply) =>
      let (body, supply) := s.applyBody (e.target.bodyOf i.iri) supply
      (.replace body, { p with supply })

def pushError (p : Progress) (e : ExpansionError) : Progress :=
  { p with messages := p.messages.pushUnique e.message }

def step (e : BodyExpansion) (i : Instance) (p : Progress) : Step × Progress :=
  if !e.accept i then (.keep, p)
  else match (e.target.status? i.iri).bind fun s => s.parameters?.map ((s, ·)) with
    | none => (.keep, pushError p (.missingDefinition i.iri))
    | some (status, ps) =>
        match i.arguments.expander with
        | some expander => stepLists i expander p
        | none =>
            if i.arguments.size != ps.length then
              (.keep, pushError p (.arity i.iri ps.length i.arguments.size))
            else if i.isDiscarded ps then (.replace [], p)
            else if status.isDefinition && e.keepsOptional i ps then e.unfold ps i p
            else (.keep, p)

/-- Puts the expanded body on top of the instances found, the latest first. -/
def runOnto (e : BodyExpansion) : Nat → List Instance → Progress → List Instance →
    List Instance × Progress
  | _, [], p, found => (found, p)
  | 0, i :: rest, p, found =>
      let m := Message.error ("Expansion of " ++ e.caller ++ " stopped after "
        ++ toString e.maxSteps ++ " steps")
      ((i :: rest).reverse ++ found, { p with messages := p.messages.push m })
  | budget + 1, i :: rest, p, found =>
      match e.step i p with
      | (.keep, p) => runOnto e budget rest p (i :: found)
      | (.replace body, p) => runOnto e budget (body ++ rest) p found

def run (e : BodyExpansion) (body : List Instance) (p : Progress) : List Instance × Progress :=
  let (found, p) := e.runOnto e.maxSteps body p []
  (found.reverse, p)

end BodyExpansion

structure StoreExpansion where
  store : Store
  messages : Messages

namespace Store

/-- Takes over what an entry declares without a body. -/
def copyDeclaration (target : Store) (e : Entry) : Store :=
  match e.status with
  | .base ps => (target.addBase e.iri ps).1
  | .signature ps => (target.addSignature ⟨e.iri, ps, false⟩).1
  | _ => target

/-- Takes over an entry whose callees are in the target, with its body expanded. -/
def expandEntry (source : Store) (config : ExpansionConfig) (accept : Instance → Bool)
    (state : Store × BodyExpansion.Progress) (iri : Iri) : Store × BodyExpansion.Progress :=
  let (target, p) := state
  match source.entry? iri with
  | some ⟨_, .definition ps⟩ =>
      let e : BodyExpansion := ⟨iri, ps, target, accept, config.maxSteps⟩
      let (body, p) := e.run (source.bodyOf iri) p
      ((target.addTemplate (.make iri ps body)).1, p)
  | some e => (target.copyDeclaration e, p)
  | none => (target, p)

def cycleMessage? (cyclic : List Iri) (e : Entry) : Option Message :=
  if cyclic.contains e.iri then
    some (.error ("Template " ++ e.iri ++ " is part of a dependency cycle and is not expanded"))
  else if e.status.isDefinition then
    some (.warning ("Template " ++ e.iri ++ " depends on a dependency cycle and is not expanded"))
  else none

/-- Takes over an entry that cannot be sorted, as it is. -/
def copyEntry (source : Store) (cyclic : List Iri) (state : Store × BodyExpansion.Progress)
    (iri : Iri) : Store × BodyExpansion.Progress :=
  let (target, p) := state
  match source.entry? iri with
  | none => (target, p)
  | some e =>
      let p := { p with messages := p.messages ++ (cycleMessage? cyclic e).toList }
      match source.getTemplate iri with
      | .ok t => ((target.addTemplate t).1, p)
      | .error _ => (target.copyDeclaration e, p)

/-- Expands the accepted instances of all bodies into a new store. -/
def expandBodies (source : Store) (config : ExpansionConfig) (accept : Instance → Bool)
    (supply : BlankSupply) : StoreExpansion × BlankSupply :=
  let order := source.topologicalOrder
  let cyclic := if order.unsorted.isEmpty then [] else source.cyclicTemplates
  let start := (empty source.config, ⟨[], supply⟩)
  let sorted := order.sorted.foldl (source.expandEntry config accept) start
  let (target, p) := order.unsorted.foldl (source.copyEntry cyclic) sorted
  let (messages, target) := target.takeMessages
  (⟨target, messages ++ p.messages⟩, p.supply)

def expandAllBodies (source : Store) (config : ExpansionConfig) (supply : BlankSupply) :
    StoreExpansion × BlankSupply :=
  source.expandBodies config (fun _ => true) supply

/-- Expands only the instances of the listed templates. -/
def expandVocabulary (source : Store) (config : ExpansionConfig) (iris : List Iri)
    (supply : BlankSupply) : StoreExpansion × BlankSupply :=
  source.expandBodies config (fun i => iris.contains i.iri) supply

end Store

/-- Whether a `none` given here goes on into the body. -/
def Parameter.passesNone (p : Parameter) : Bool := p.isOptional && !p.hasDefault

def Term.occursIn (t : Term) (i : Instance) : Bool :=
  i.arguments.terms.any fun u => (u.occurrences 0).any (·.1 == t)

namespace Refactoring

/-- The error of a parameter of `used` whose flags do not suit what it is bound to. -/
def flagConflict? (used changed : Template) (s : Substitution) (p : Parameter) :
    Option RefactoringError :=
  let bound := s.apply p.term
  let source := bound.asVar?.bind fun v => changed.parameters.labelled? v.label
  match source.filter (·.passesNone) with
  | some q =>
      if p.passesNone then blankConflict? bound source
      else some (.optionalMismatch used.iri changed.iri p.label q.label)
  | none => blankConflict? bound source
where
  blankConflict? (bound : Term) (source : Option Parameter) : Option RefactoringError :=
    if p.isNonBlank && (bound.isBlank || source.any (!·.isNonBlank)) then
      some (.nonBlankMismatch used.iri changed.iri p.label bound.text)
    else none

/-- The instances of the changed body that the matching accounts for. -/
def matched (used : Template) (s : Substitution) : List Instance :=
  used.body.map s.applyInstance

def remaining (used changed : Template) (s : Substitution) : List Instance :=
  changed.body.filter (!(matched used s).contains ·)

/-- A blank node of the matched instances that the remaining ones also have. Of several,
the written form of the matching says which. -/
def sharedBlank? (used changed : Template) (s : Substitution) : Option Term :=
  ((s.sorted.filter (·.1.isBlank)).map (·.2)).find? fun b =>
    (remaining used changed s).any b.occursIn

/-- Why a matching cannot be used, if it cannot. -/
def refusal? (used changed : Template) (s : Substitution) : Option RefactoringError :=
  match used.parameters.find? fun p => !s.contains p.term with
  | some p => some (.unboundParameter used.iri changed.iri p.label)
  | none =>
      match used.parameters.findSome? (flagConflict? used changed s) with
      | some e => some e
      | none => (sharedBlank? used changed s).map fun b => .sharedBlank changed.iri b.text

/-- The instance that takes the place of the matched ones. -/
def call (used : Template) (s : Substitution) : Instance :=
  .ofTerms used.iri (used.parameters.map fun p => s.apply p.term)

/-- The first matching that can be used, or why the first one cannot. -/
def choose (used changed : Template) : Except RefactoringError Substitution :=
  let found := Substitution.matchBodies used.body changed.body
  match found.find? fun s => (refusal? used changed s).isNone with
  | some s => .ok s
  | none => .error ((found.findSome? (refusal? used changed)).getD
      (.noUnifier used.iri changed.iri))

end Refactoring

open Refactoring in
/-- Makes the template `changed` instantiate `used` where the body of `used` matches into
its body. -/
def Store.refactor (store : Store) (used changed : Iri) :
    Except RefactoringError Substitution × Store :=
  if used == changed then (.error (.sameTemplate used), store)
  else match store.getTemplate used, store.getTemplate changed with
    | .error e, _ => (.error (.store e), store)
    | _, .error e => (.error (.store e), store)
    | .ok t, .ok u =>
        match choose t u with
        | .error e => (.error e, store)
        | .ok s => (.ok s, (store.editBody changed (matched t s) [call t s]).1)

end RdfTemplates
