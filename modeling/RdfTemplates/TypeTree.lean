import RdfTemplates.Failure

/-!
# The tree of basic types

Every registered type has one direct supertype, which was known before it. The
top type has no supertype, and the bottom type is below all types without being
registered. Subtyping and compatibility of list types go through the elements;
a non-empty list may stand for a list and not the other way round.
-/

namespace RdfTemplates

/-- Registered types with their direct supertypes, the latest first. -/
structure TypeTree where
  entries : List (Iri × Iri)

namespace TypeTree

def empty : TypeTree := ⟨[]⟩

def supertype? (tree : TypeTree) (iri : Iri) : Option Iri :=
  tree.entries.lookup iri

def contains (tree : TypeTree) (iri : Iri) : Bool :=
  iri == Iri.top || iri == Iri.bottom || (tree.supertype? iri).isSome

def get? (tree : TypeTree) (iri : Iri) : Option TermType :=
  if tree.contains iri then some (.basic iri) else none

/-- The type of a literal; an unregistered datatype says no more than that it is one. -/
def literalType (tree : TypeTree) (datatype : Iri) : TermType :=
  (tree.get? datatype).getD .anyLiteral

/-- The number of types, the top and bottom types included. -/
def size (tree : TypeTree) : Nat := tree.entries.length + 2

/-- One line about the tree, for a log. -/
def summary (tree : TypeTree) : String :=
  "TypeRegistry \x7b types: " ++ toString tree.size ++ " \x7d"

/-- Registering a type again below the same supertype changes nothing. -/
def register (tree : TypeTree) (iri parent : Iri) : Except TypeError TypeTree :=
  if iri == Iri.top || iri == Iri.bottom then .error (.builtIn iri)
  else if !tree.contains parent || parent == Iri.bottom then
    .error (.unknownSupertype iri parent)
  else match tree.supertype? iri with
    | none => .ok ⟨(iri, parent) :: tree.entries⟩
    | some existing =>
        if existing == parent then .ok tree
        else .error (.conflictingSupertype iri existing parent)

/-- The chain of supertypes, nearest first. A supertype is registered before its
subtypes, so the chain goes on among the older entries. -/
def chain : List (Iri × Iri) → Iri → List Iri
  | [], _ => []
  | (child, parent) :: older, iri =>
      if child == iri then parent :: chain older parent else chain older iri

def supertypes (tree : TypeTree) (iri : Iri) : List Iri := chain tree.entries iri

def isBelow (tree : TypeTree) (sub sup : Iri) : Bool :=
  sub == sup || sup == Iri.top || sub == Iri.bottom || (tree.supertypes sub).contains sup

/-- Basic types with their supertypes, each after its supertype. -/
def standardEntries : List (Iri × Iri) :=
  [(Iri.iriType, Iri.top), (Iri.literal, Iri.top),
   (Iri.rdfsClass, Iri.iriType), (Iri.owlClass, Iri.rdfsClass),
   (Iri.rdfsDatatype, Iri.rdfsClass), (Iri.rdfProperty, Iri.iriType),
   (Iri.owlObjectProperty, Iri.rdfProperty), (Iri.owlDatatypeProperty, Iri.rdfProperty),
   (Iri.owlAnnotationProperty, Iri.rdfProperty), (Iri.owlNamedIndividual, Iri.iriType),
   (Iri.rdfLangString, Iri.literal), (Iri.rdfHtml, Iri.literal),
   (Iri.xsdString, Iri.literal), (Iri.xsdNormalizedString, Iri.xsdString),
   (Iri.xsdToken, Iri.xsdNormalizedString), (Iri.xsdLanguage, Iri.xsdToken),
   (Iri.xsdBoolean, Iri.literal), (Iri.xsdDecimal, Iri.literal),
   (Iri.xsdInteger, Iri.xsdDecimal), (Iri.xsdNonNegativeInteger, Iri.xsdInteger),
   (Iri.xsdPositiveInteger, Iri.xsdNonNegativeInteger), (Iri.xsdLong, Iri.xsdInteger),
   (Iri.xsdInt, Iri.xsdLong), (Iri.xsdShort, Iri.xsdInt), (Iri.xsdByte, Iri.xsdShort),
   (Iri.xsdDouble, Iri.literal), (Iri.xsdFloat, Iri.literal), (Iri.xsdDate, Iri.literal),
   (Iri.xsdDateTime, Iri.literal), (Iri.xsdTime, Iri.literal), (Iri.xsdAnyUri, Iri.literal)]

def standard : TypeTree := ⟨standardEntries.reverse⟩

end TypeTree

namespace TermType

/-- Whether every term of type `sub` is a term of type `sup`. -/
def isSubtype (tree : TypeTree) (sub sup : TermType) : Bool :=
  sup.isTop || sub.isBottom || match sub, sup with
    | .basic a, .basic b => tree.isBelow a b
    | .lub a, .lub b => a == b
    | .list a, .list b => isSubtype tree a b
    | .neList a, .list b => isSubtype tree a b
    | .neList a, .neList b => isSubtype tree a b
    | _, _ => false

/-- Whether a term of type `found` may stand where `expected` is asked for. A least
upper bound may turn out to be any type comparable to the one it is over. -/
def isCompatible (tree : TypeTree) (found expected : TermType) : Bool :=
  found.isSubtype tree expected || match found, expected with
    | .lub a, _ => expected.isSubtype tree (.basic a) || (basic a).isSubtype tree expected
    | .list a, .list b => isCompatible tree a b
    | .neList a, .list b => isCompatible tree a b
    | .neList a, .neList b => isCompatible tree a b
    | _, _ => false

end TermType

end RdfTemplates
