import RdfTemplates.Template

/-!
# Substitutions

A substitution replaces terms by terms and goes into lists. In a template body it
also renames the blank nodes that have no binding, so that two instances of a
template share no blank node of its body.
-/

namespace RdfTemplates

/-- A finite map between terms; no two keys are the same term. -/
structure Substitution where
  bindings : List (Term × Term)

namespace Substitution

def empty : Substitution := ⟨[]⟩

def size (s : Substitution) : Nat := s.bindings.length

/-- What the key is bound to. -/
def get? (s : Substitution) (key : Term) : Option Term := s.bindings.lookup key

def contains (s : Substitution) (key : Term) : Bool := (s.get? key).isSome

/-- Gives a new value to the key wherever it is bound; the key stays as it is written. -/
def replace (key value : Term) (bindings : List (Term × Term)) : List (Term × Term) :=
  bindings.map fun (k, v) => if key == k then (k, value) else (k, v)

/-- Binds a key, whatever it was bound to before. -/
def insert (s : Substitution) (key value : Term) : Substitution :=
  if s.contains key then ⟨replace key value s.bindings⟩ else ⟨(key, value) :: s.bindings⟩

def ofList (pairs : List (Term × Term)) : Substitution :=
  pairs.foldl (fun s (key, value) => s.insert key value) empty

/-- Whether two substitutions bind the same keys to the same terms. -/
def same (s t : Substitution) : Bool :=
  (s.bindings.all fun (key, value) => (t.get? key).any (· == value)) && s.size == t.size

instance : BEq Substitution := ⟨same⟩

/-- What the parameter stands for when it is given the term: a default takes the
place of `none`, and a blank node as default is a new one each time. -/
def received (p : Parameter) (t : Term) (supply : BlankSupply) : Term × BlankSupply :=
  match t, p.default? with
  | .none, some (.blank _) => supply.mint
  | .none, some d => (d, supply)
  | t, _ => (t, supply)

def bindParameters : List (Argument × Parameter) → Substitution → BlankSupply →
    Substitution × BlankSupply
  | [], s, supply => (s, supply)
  | (a, p) :: rest, s, supply =>
      let (value, supply) := received p a.term supply
      bindParameters rest (s.insert p.term value) supply

/-- The parameters bound to what they receive, if there are as many arguments. -/
def ofArguments (args : ArgumentList) (ps : ParameterList) (supply : BlankSupply) :
    Except ArityMismatch (Substitution × BlankSupply) :=
  if args.size == ps.length then
    .ok (bindParameters (args.arguments.zip ps) empty supply)
  else .error ⟨ps.length, args.size⟩

mutual
/-- What is bound is replaced as a whole, and other lists are gone into. -/
def apply (s : Substitution) (t : Term) : Term :=
  match s.get? t with
  | some u => u
  | none => match t with
    | .list items => .list (applyAll s items)
    | t => t
def applyAll (s : Substitution) : List Term → List Term
  | [] => []
  | t :: ts => apply s t :: applyAll s ts
end

def applyArguments (s : Substitution) (args : ArgumentList) : ArgumentList :=
  args.mapTerms s.apply

def applyInstance (s : Substitution) (i : Instance) : Instance :=
  i.mapTerms s.apply

/-- A substitution that grows by a new blank node for every blank node it meets
without a binding. -/
structure Freshening where
  bindings : Substitution
  supply : BlankSupply

mutual
/-- A term under the bindings, with a new label for each blank node that has none. -/
def freshen (t : Term) (state : Freshening) : Term × Freshening :=
  match state.bindings.get? t with
  | some u => (u, state)
  | none => match t with
    | .blank b =>
        let (new, supply) := state.supply.mint
        (new, ⟨state.bindings.insert (.blank b) new, supply⟩)
    | .list items =>
        let (items, state) := freshenAll items state
        (.list items, state)
    | t => (t, state)
def freshenAll : List Term → Freshening → List Term × Freshening
  | [], state => ([], state)
  | t :: ts, state =>
      let (t, state) := freshen t state
      let (ts, state) := freshenAll ts state
      (t :: ts, state)
end

def freshenArguments : List Argument → Freshening → List Argument × Freshening
  | [], state => ([], state)
  | a :: rest, state =>
      let (t, state) := freshen a.term state
      let (rest, state) := freshenArguments rest state
      ({ a with term := t } :: rest, state)

/-- A body under the bindings, whose blank nodes are renewed throughout. -/
def freshenBody : List Instance → Freshening → List Instance × Freshening
  | [], state => ([], state)
  | i :: rest, state =>
      let (arguments, state) := freshenArguments i.arguments.arguments state
      let (rest, state) := freshenBody rest state
      ({ i with arguments := { i.arguments with arguments } } :: rest, state)

/-- Applies a substitution to a template body. Blank nodes without a binding become new
ones, the same one throughout the body. -/
def applyBody (s : Substitution) (body : List Instance) (supply : BlankSupply) :
    List Instance × BlankSupply :=
  let (body, state) := freshenBody body ⟨s, supply⟩
  (body, state.supply)

/-- The union of two substitutions that agree on the keys they share. -/
def merge? (s t : Substitution) : Option Substitution :=
  t.bindings.foldlM (fun merged (key, value) =>
    match merged.get? key with
    | some existing => if existing == value then some merged else none
    | none => some (merged.insert key value)) s

def bindingText : Term × Term → String
  | (key, value) => key.text ++ " -> " ++ value.text

/-- The bindings in the order of their written form. -/
def sorted (s : Substitution) : List (Term × Term) :=
  stableSort (fun a b => decide (bindingText a ≤ bindingText b)) s.bindings

/-- The bindings as they are written in messages. -/
def text (s : Substitution) : String :=
  "\x7b" ++ ", ".intercalate (s.sorted.map bindingText) ++ "\x7d"

end Substitution

end RdfTemplates
