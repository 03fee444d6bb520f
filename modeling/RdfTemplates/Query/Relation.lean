import RdfTemplates.MatchingSearch
import RdfTemplates.Query.Tuple
import RdfTemplates.Store.Lookup

/-!
# Relations on a store

A relation binds its output variables as far as they are unbound and checks
them otherwise, so that it can be used in several directions. Its input
variables have to be bound.
-/

namespace RdfTemplates

/-- The relations that queries are made of, by the variables they read and bind. -/
inductive Relation where
  /-- An IRI with an entry in the store. -/
  | template (template : Var)
  | parameters (template parameters : Var)
  /-- The body of a definition. -/
  | body (template body : Var)
  | inst (body inst : Var)
  | instanceIri (inst iri : Var)
  | arguments (inst arguments : Var)
  | isUndefined (template : Var)
  | isSignature (template : Var)
  | isBase (template : Var)
  | length (list length : Var)
  /-- The term at a position of a list. -/
  | index (list index term : Var)
  | isOptional (parameters index : Var)
  | isNonBlank (parameters index : Var)
  | hasDefault (parameters index : Var)
  /-- A position marked for list expansion. -/
  | hasListExpander (arguments index : Var)
  | hasExpander (inst : Var)
  | hasCross (inst : Var)
  | hasZipMin (inst : Var)
  | hasZipMax (inst : Var)
  /-- A term other than a list and the number of lists around it. -/
  | hasOccurrenceAt (term inside level : Var)
  | isVariable (term : Var)
  | isBlank (term : Var)
  | isNotNone (term : Var)
  | typeOf (term type : Var)
  | innerTypeAt (type level inner : Var)
  | innerType (type inner : Var)
  | listType (type list : Var)
  | isSubtypeOf (sub sup : Var)
  | isCompatibleWith (type other : Var)
  | unifiesTerms (a b unifier : Var)
  | unifiesParameters (ps qs unifier : Var)
  | unifiesParametersUnordered (ps qs unifier : Var)
  /-- A bound unifier is extended. -/
  | unifiesBody (body into unifier : Var)
  | merge (a b unifier : Var)
  | applyUnifier (value unifier unified : Var)
  | equals (a b : Var)
  | notEquals (a b : Var)
  /-- One of the two orders of a pair. -/
  | removeSymmetry (a b : Var)
  | isDependencyOf (callee caller : Var)
  | dependsTransitive (template callee : Var)

namespace Relation

def keepIf (t : Tuple) (holds : Bool) : List Tuple := if holds then [t] else []

/-- A free output is bound, and a bound one is compared. -/
def bindOrCheck (t : Tuple) (v : Var) (value : Value) : List Tuple :=
  match t.get? v with
  | some bound => keepIf t (bound == value)
  | none => [t.bind v value]

/-- A tuple for each value, or the tuple if its value is among them. -/
def bindEach (t : Tuple) (v : Var) (values : List Value) : List Tuple :=
  match t.get? v with
  | some bound => keepIf t (values.any (· == bound))
  | none => values.map (t.bind v)

def bindOrCheck? (t : Tuple) (v : Var) : Option Value → List Tuple
  | some value => bindOrCheck t v value
  | none => []

/-- The IRIs in the order of their texts. -/
def sortedIris (iris : List Iri) : List Iri := stableSort (fun a b => decide (a ≤ b)) iris

/-- All templates of the store, or the one that is bound. -/
def runTemplate (store : Store) (t : Tuple) (v : Var) : Reading (List Tuple) := do
  if t.hasBound v then
    return keepIf t (store.entry? (← t.iri v)).isSome
  else
    return bindEach t v ((sortedIris (store.entryList.map (·.iri))).map .iri)

/-- Bound bodies are compared as sets. -/
def runBody (store : Store) (t : Tuple) (template body : Var) : Reading (List Tuple) := do
  match store.body? (← t.iri template), t.get? body with
  | none, _ => return []
  | some is, none => return [t.bind body (.body is)]
  | some is, some (.body bound) =>
      return keepIf t (bound.length == is.length && bound.all is.contains)
  | some _, some _ => return []

/-- The places of a list with their terms, or the term at the place that is bound. -/
def runIndex (t : Tuple) (list index term : Var) : Reading (List Tuple) := do
  let value ← t.value list
  if t.hasBound index then
    return bindOrCheck? t term ((value.termAt? (← t.int index)).map .term)
  else
    let fits (u : Term) : Bool := match t.get? term with
      | some bound => bound == .term u
      | none => true
    return (List.range (value.length?.getD 0)).filterMap fun i =>
      (value.termAt? i).bind fun u =>
        if fits u then some ((t.bind index (.int i)).bind term (.term u)) else none

/-- Binds or checks an index below `length` with a property. -/
def indicesWhere (t : Tuple) (index : Var) (length : Nat) (holds : Nat → Bool) :
    Reading (List Tuple) := do
  if t.hasBound index then
    let i ← t.int index
    return keepIf t (i < length && holds i)
  else
    return ((List.range length).filter holds).map fun i => t.bind index (.int i)

def runParameterTest (t : Tuple) (parameters index : Var) (test : Parameter → Bool) :
    Reading (List Tuple) := do
  let ps ← t.parameters parameters
  indicesWhere t index ps.length fun i => ps[i]?.any test

def runListExpander (t : Tuple) (arguments index : Var) : Reading (List Tuple) := do
  let args ← t.arguments arguments
  indicesWhere t index args.size args.isMarkedAt

def runExpanderTest (t : Tuple) (inst : Var) (test : Option ListExpander → Bool) :
    Reading (List Tuple) :=
  return keepIf t (test (← t.inst inst).arguments.expander)

/-- The terms inside of a term with their depths. -/
def runOccurrence (t : Tuple) (term inside level : Var) : Reading (List Tuple) := do
  let wanted ← if t.hasBound level then some <$> t.int level else pure none
  let outer ← t.term term
  return (outer.occurrences 0).flatMap fun (u, depth) =>
    if !u.isList && wanted.all (· == depth) then
      bindOrCheck (t.bind level (.int depth)) inside (.term u)
    else []

def runTermTest (t : Tuple) (term : Var) (test : Term → Bool) : Reading (List Tuple) :=
  return keepIf t (test (← t.term term))

/-- Every type inside a list type, with the number of list constructors around it. -/
def innerTypes (depth : Nat) : TermType → List (Nat × TermType)
  | .list inner => (depth, .list inner) :: innerTypes (depth + 1) inner
  | .neList inner => (depth, .neList inner) :: innerTypes (depth + 1) inner
  | type => [(depth, type)]

def runInnerTypeAt (t : Tuple) (type level inner : Var) : Reading (List Tuple) := do
  let outer ← t.type type
  if t.hasBound level then
    return bindOrCheck? t inner ((outer.innerAt? (← t.int level)).map .type)
  else
    return (innerTypes 0 outer).flatMap fun (depth, found) =>
      bindOrCheck (t.bind level (.int depth)) inner (.type found)

def runTypeTest (t : Tuple) (a b : Var) (test : TypeTree → TermType → TermType → Bool) :
    Reading (List Tuple) :=
  return keepIf t (test TypeTree.standard (← t.type a) (← t.type b))

/-- The substitution that takes two terms to their unified term. -/
def unifierOf (a b unified : Term) : Substitution :=
  let s := if a == unified then Substitution.empty else Substitution.empty.insert a unified
  if b == unified then s else s.insert b unified

/-- The unifier of two terms takes each of them to what they unify to. -/
def runUnifiesTerms (t : Tuple) (a b unifier : Var) : Reading (List Tuple) := do
  let x ← t.term a
  let y ← t.term b
  if t.hasBound unifier then
    let s ← t.substitution unifier
    return keepIf t (s.apply x == s.apply y)
  else
    return match x.unify? y with
      | some unified => [t.bind unifier (.substitution (unifierOf x y unified))]
      | none => []

/-- The unifiers of two bodies, merged with the one that is bound. -/
def runUnifiesBody (t : Tuple) (body into unifier : Var) : Reading (List Tuple) := do
  let found := Substitution.matchBodies (← t.body body) (← t.body into)
  let base := match t.get? unifier with
    | none => some Substitution.empty
    | some (.substitution s) => some s
    | some _ => none
  return match base with
    | none => []
    | some base => found.filterMap fun s =>
        (base.merge? s).map fun merged => t.bind unifier (.substitution merged)

def applied? (s : Substitution) : Value → Option Value
  | .term u => some (.term (s.apply u))
  | .terms us => some (.terms (us.map s.apply))
  | .arguments args => some (.arguments (s.applyArguments args))
  | .inst i => some (.inst (s.applyInstance i))
  | .body is => some (.body (is.map s.applyInstance))
  | _ => none

/-- Integers are ordered by value, other values by their written form. -/
def precedes : Value → Value → Bool
  | .int a, .int b => a ≤ b
  | a, b => decide (a.text ≤ b.text)

def runValueTest (t : Tuple) (a b : Var) (test : Value → Value → Bool) : Reading (List Tuple) :=
  return keepIf t (test (← t.value a) (← t.value b))

/-- What a template calls, each once. -/
def calleesOf (store : Store) (iri : Iri) : List Iri :=
  match store.dependencies iri with
  | .ok iris => sortedIris iris
  | .error _ => []

/-- Breadth first, the IRIs reached from those in the queue, up to the target if one is
given; `true` if the target was met. -/
def reachFrom (store : Store) (target : Option Iri) : Nat → List Iri → List Iri → Bool × List Iri
  | 0, _, reached => (false, reached)
  | _, [], reached => (false, reached)
  | fuel + 1, iri :: queue, reached =>
      if reached.contains iri then reachFrom store target fuel queue reached
      else if target == some iri then (true, reached)
      else reachFrom store target fuel (queue ++ calleesOf store iri) (reached ++ [iri])

/-- All that a template depends on, or whether it depends on what is bound. -/
def runDependsTransitive (store : Store) (t : Tuple) (template callee : Var) :
    Reading (List Tuple) := do
  let start ← t.iri template
  let target ← if t.hasBound callee then some <$> t.iri callee else pure none
  let fuel := 2 * store.calls.items.length + 1
  let (met, reached) := reachFrom store target fuel (calleesOf store start) []
  return match target with
    | some _ => keepIf t met
    | none => bindEach t callee (reached.map .iri)

/-- What a relation finds from a tuple. -/
def run (store : Store) (t : Tuple) : Relation → Reading (List Tuple)
  | .template v => runTemplate store t v
  | .parameters v ps =>
      return bindOrCheck? t ps ((store.parameters? (← t.iri v)).map .parameters)
  | .body v is => runBody store t v is
  | .inst is i => return bindEach t i ((← t.body is).map .inst)
  | .instanceIri i v => return bindOrCheck t v (.iri (← t.inst i).iri)
  | .arguments i args => return bindOrCheck t args (.arguments (← t.inst i).arguments)
  | .isUndefined v => return keepIf t (!store.contains (← t.iri v))
  | .isSignature v => return keepIf t (store.contains (← t.iri v))
  | .isBase v => return keepIf t (store.isBase (← t.iri v))
  | .length xs n => return bindOrCheck? t n ((← t.value xs).length?.map .int)
  | .index xs n u => runIndex t xs n u
  | .isOptional ps n => runParameterTest t ps n Parameter.isOptional
  | .isNonBlank ps n => runParameterTest t ps n Parameter.isNonBlank
  | .hasDefault ps n => runParameterTest t ps n Parameter.hasDefault
  | .hasListExpander args n => runListExpander t args n
  | .hasExpander i => runExpanderTest t i (·.isSome)
  | .hasCross i => runExpanderTest t i (· == some .cross)
  | .hasZipMin i => runExpanderTest t i (· == some .zipMin)
  | .hasZipMax i => runExpanderTest t i (· == some .zipMax)
  | .hasOccurrenceAt u x n => runOccurrence t u x n
  | .isVariable u => runTermTest t u Term.isVar
  | .isBlank u => runTermTest t u Term.isBlank
  | .isNotNone u => runTermTest t u (!·.isNone)
  | .typeOf u ty => return bindOrCheck t ty (.type (← t.term u).intrinsicType)
  | .innerTypeAt ty n x => runInnerTypeAt t ty n x
  | .innerType ty x => return bindOrCheck? t x ((← t.type ty).inner?.map .type)
  | .listType ty x => return bindOrCheck t x (.type (.list (← t.type ty)))
  | .isSubtypeOf a b => runTypeTest t a b TermType.isSubtype
  | .isCompatibleWith a b => runTypeTest t a b TermType.isCompatible
  | .unifiesTerms a b x => runUnifiesTerms t a b x
  | .unifiesParameters ps qs x => do
      let us := (← t.parameters ps).map Parameter.term
      let vs := (← t.parameters qs).map Parameter.term
      return bindOrCheck? t x ((Substitution.matchTerms? us vs .empty).map .substitution)
  | .unifiesParametersUnordered ps qs x => do
      let us := (← t.parameters ps).map Parameter.term
      let vs := (← t.parameters qs).map Parameter.term
      return bindEach t x ((Substitution.matchUnordered us vs).map .substitution)
  | .unifiesBody is js x => runUnifiesBody t is js x
  | .merge a b x => do
      let merged := (← t.substitution a).merge? (← t.substitution b)
      return bindOrCheck? t x (merged.map .substitution)
  | .applyUnifier a s x => do
      let s ← t.substitution s
      return bindOrCheck? t x (applied? s (← t.value a))
  | .equals a b => runValueTest t a b (· == ·)
  | .notEquals a b => runValueTest t a b (· != ·)
  | .removeSymmetry a b => runValueTest t a b precedes
  | .isDependencyOf callee caller => do
      let callers := sortedIris (store.dependents (← t.iri callee))
      return bindEach t caller (callers.map .iri)
  | .dependsTransitive v callee => runDependsTransitive store t v callee

end Relation

end RdfTemplates
