import RdfTemplates.Vocabulary

/-!
# Types of terms

A basic type is named by an IRI. A least upper bound over a basic type is what
a constant of unknown precise type has: an IRI may turn out to be a class, a
property or an individual. List types nest to any depth.
-/

namespace RdfTemplates

/-- The types of terms, with lists and lists that are not empty. -/
inductive TermType where
  | basic (iri : Iri)
  | lub (iri : Iri)
  | list (inner : TermType)
  | neList (inner : TermType)
deriving DecidableEq, Inhabited

namespace TermType

def top : TermType := .basic Iri.top
def bottom : TermType := .basic Iri.bottom
def anyIri : TermType := .basic Iri.iriType
def anyLiteral : TermType := .basic Iri.literal

def isTop : TermType → Bool
  | .basic iri => iri == Iri.top
  | _ => false

def isBottom : TermType → Bool
  | .basic iri => iri == Iri.bottom
  | _ => false

def isList : TermType → Bool
  | .list _ | .neList _ => true
  | _ => false

/-- What the elements of a list type are. -/
def inner? : TermType → Option TermType
  | .list inner | .neList inner => some inner
  | _ => none

/-- The type below `level` list constructors. -/
def innerAt? : TermType → Nat → Option TermType
  | type, 0 => some type
  | .list inner, level + 1 => inner.innerAt? level
  | .neList inner, level + 1 => inner.innerAt? level
  | _, _ + 1 => none

/-- Replaces every least upper bound by the basic type it is over. -/
def removeLub : TermType → TermType
  | .basic iri => .basic iri
  | .lub iri => .basic iri
  | .list inner => .list inner.removeLub
  | .neList inner => .neList inner.removeLub

def text : TermType → String
  | .basic iri => iri.compact
  | .lub iri => "LUB<" ++ iri.compact ++ ">"
  | .list inner => "List<" ++ inner.text ++ ">"
  | .neList inner => "NEList<" ++ inner.text ++ ">"

end TermType

end RdfTemplates
