import RdfTemplates.Query.Answers
import RdfTemplates.Query.Relation

/-!
# Queries

A query takes a tuple to its answers. Relations and negations are evaluated on
a tuple as soon as the query comes to it; a negation asks for one answer. The
right side of a conjunction comes to a tuple only when somebody asks for more
answers than the tuples before it have, and both sides of a disjunction come to
theirs together.

Some relations between templates, instances and positions go through values
that are nobody's concern. They are bound to hidden variables; the numbers given
to two such queries that are used together have to be different.
-/

namespace RdfTemplates

inductive Query where
  | relation (r : Relation)
  | bind (v : Var) (value : Value)
  | and (left right : Query)
  | or (left right : Query)
  | not (query : Query)
  | distinct (query : Query)

namespace Query

def eval (store : Store) : Query → Tuple → Reading Answers
  | .relation r, t => return .ofList (← r.run store t)
  | .bind v value, t => return .ofList [t.bind v value]
  | .and left right, t => return (← left.eval store t).bind (right.eval store)
  | .or left right, t => do
      let a ← left.eval store t
      let b ← right.eval store t
      return a.append fun _ => b
  | .not query, t => do
      let isEmpty ← (← query.eval store t).isEmpty
      return .ofList (Relation.keepIf t isEmpty)
  | .distinct query, t => return (← query.eval store t).distinct

/-- The answers for the empty tuple. -/
def run (store : Store) (q : Query) : Reading Answers := q.eval store .empty

def all (q : Query) (others : List Query) : Query := others.foldl .and q

/-- The parameter at an index of a template. -/
def parameterIndex (number : Nat) (template index parameter : Var) : Query :=
  .and (.relation (.parameters template (.hidden number)))
    (.relation (.index (.hidden number) index parameter))

/-- The argument at an index of an instance. -/
def argumentIndex (number : Nat) (inst index argument : Var) : Query :=
  .and (.relation (.arguments inst (.hidden number)))
    (.relation (.index (.hidden number) index argument))

/-- An instance in the body of a template. -/
def bodyInstance (number : Nat) (template inst : Var) : Query :=
  .and (.relation (.body template (.hidden number)))
    (.relation (.inst (.hidden number) inst))

/-- How many hidden variables `usedAsType` takes, starting with the number given. -/
def usedAsTypeWidth : Nat := 6

/-- The type that the callee expects inside so many lists in an argument. A marked
argument is expected to be a list of what its parameter expects. -/
def usedAsType (number : Nat) (inst index level type : Var) : Query :=
  let callee := Var.hidden number
  let parameter := Var.hidden (number + 1)
  let parameterType := Var.hidden (number + 2)
  let arguments := Var.hidden (number + 3)
  let listType := Var.hidden (number + 4)
  let marked := Query.relation (.hasListExpander arguments index)
  all (.relation (.instanceIri inst callee))
    [parameterIndex (number + 5) callee index parameter,
     .relation (.arguments inst arguments),
     .relation (.typeOf parameter parameterType),
     .or
      (all marked
        [.relation (.listType parameterType listType),
         .relation (.innerTypeAt listType level type)])
      (.and (.not marked) (.relation (.innerTypeAt parameterType level type)))]

def t1 : Var := .named "T1"
def t2 : Var := .named "T2"
def p1 : Var := .named "P1"
def p2 : Var := .named "P2"
def b1 : Var := .named "B1"
def b2 : Var := .named "B2"

/-- Two templates whose parameters unify in some order, the body of the first into the
body of the second. -/
def unifies : Query :=
  let u := Var.named "U"
  all (.relation (.template t1))
    [.relation (.template t2), .relation (.notEquals t1 t2),
     .relation (.parameters t1 p1), .relation (.parameters t2 p2),
     .relation (.unifiesParametersUnordered p1 p2 u),
     .relation (.body t1 b1), .relation (.body t2 b2),
     .relation (.unifiesBody b1 b2 u)]

/-- Two templates that unify into each other. -/
def equal : Query :=
  let n := Var.named "N"
  let u1 := Var.named "U1"
  let u2 := Var.named "U2"
  all (.relation (.template t1))
    [.relation (.template t2), .relation (.notEquals t1 t2), .relation (.removeSymmetry t1 t2),
     .relation (.parameters t1 p1), .relation (.parameters t2 p2),
     .relation (.body t1 b1), .relation (.body t2 b2),
     .relation (.length b1 n), .relation (.length b2 n),
     .relation (.unifiesParametersUnordered p1 p2 u1), .relation (.unifiesBody b1 b2 u1),
     .relation (.unifiesParametersUnordered p2 p1 u2), .relation (.unifiesBody b2 b1 u2)]

end Query

def pairPrecedes (a b : Iri × Iri) : Bool :=
  decide (a.1 < b.1) || a.1 == b.1 && decide (a.2 ≤ b.2)

namespace Store

/-- The pairs of templates that a query binds, sorted and each once. -/
def templatePairs (store : Store) (q : Query) : Reading (List (Iri × Iri)) := do
  let tuples ← (← q.run store).all
  let pairs ← tuples.mapM fun t => return (← t.iri Query.t1, ← t.iri Query.t2)
  return (stableSort pairPrecedes pairs).eraseReps

/-- The pairs of a template to use and a template to change. -/
def refactorings (store : Store) : Reading (List (Iri × Iri)) :=
  store.templatePairs .unifies

def equalTemplates (store : Store) : Reading (List (Iri × Iri)) :=
  store.templatePairs .equal

end Store

end RdfTemplates
