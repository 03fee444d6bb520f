import RdfTemplates.TypeTree

/-!
# Terms

A term is what a template is given as an argument. The type of a variable is
the declared type of the parameter it stands for and takes no part in
comparing terms: two variables are the same when their labels are.

Blank nodes are told apart by their labels, so a new one takes a label that was
never handed out before: a fixed stem and the next number.
-/

namespace RdfTemplates

/-- A literal by its text, its datatype and its language, if it has one. -/
structure Literal where
  lexical : String
  datatype : Iri
  language : Option String
deriving DecidableEq

/-- A variable by its label, with the type that it has where it is declared. -/
structure Variable where
  label : String
  type : TermType

instance : BEq Variable := ⟨fun a b => a.label == b.label⟩

/-- What an argument can be. -/
inductive Term where
  | iri (iri : Iri)
  | literal (literal : Literal)
  | blank (label : String)
  | var (v : Variable)
  | list (items : List Term)
  | none
deriving Inhabited

namespace Literal

def plain (lexical : String) : Literal := ⟨lexical, Iri.xsdString, none⟩
def typed (lexical : String) (datatype : Iri) : Literal := ⟨lexical, datatype, none⟩
def tagged (lexical language : String) : Literal := ⟨lexical, Iri.rdfLangString, some language⟩

def text (l : Literal) : String :=
  let quoted := "\"" ++ l.lexical ++ "\""
  match l.language with
  | some tag => quoted ++ "@" ++ tag
  | none => if l.datatype == Iri.xsdString then quoted else quoted ++ "^^" ++ l.datatype.compact

end Literal

namespace Term

mutual
/-- Equality of terms, which does not look at the types of variables. -/
def same : Term → Term → Bool
  | .iri a, .iri b => a == b
  | .literal a, .literal b => a == b
  | .blank a, .blank b => a == b
  | .var a, .var b => a == b
  | .list as, .list bs => sameAll as bs
  | .none, .none => true
  | _, _ => false
def sameAll : List Term → List Term → Bool
  | [], [] => true
  | a :: as, b :: bs => same a b && sameAll as bs
  | _, _ => false
end

instance : BEq Term := ⟨same⟩

def isVar : Term → Bool
  | .var _ => true
  | _ => false

def isBlank : Term → Bool
  | .blank _ => true
  | _ => false

def isNone : Term → Bool
  | .none => true
  | _ => false

def isList : Term → Bool
  | .list _ => true
  | _ => false

def items? : Term → Option (List Term)
  | .list items => some items
  | _ => Option.none

def asVar? : Term → Option Variable
  | .var v => some v
  | _ => Option.none

mutual
/-- Whether no variable occurs in the term. -/
def isGround : Term → Bool
  | .var _ => false
  | .list items => areGround items
  | _ => true
def areGround : List Term → Bool
  | [] => true
  | t :: ts => t.isGround && areGround ts
end

mutual
/-- The variables of a term, from left to right and with repetitions. -/
def vars : Term → List Variable
  | .var v => [v]
  | .list items => varsAll items
  | _ => []
def varsAll : List Term → List Variable
  | [] => []
  | t :: ts => t.vars ++ varsAll ts
end

mutual
/-- Every term inside a term with the number of lists around it, outermost first. -/
def occurrences (depth : Nat) : Term → List (Term × Nat)
  | .list items => (.list items, depth) :: occurrencesAll (depth + 1) items
  | t => [(t, depth)]
def occurrencesAll (depth : Nat) : List Term → List (Term × Nat)
  | [] => []
  | t :: ts => occurrences depth t ++ occurrencesAll depth ts
end

/-- The type a term has whatever it is used for. -/
def intrinsicType : Term → TermType
  | .iri _ => .lub Iri.iriType
  | .literal l => TypeTree.standard.literalType l.datatype
  | .blank _ => .lub Iri.top
  | .var v => v.type
  | .list [] => .list .bottom
  | .list (_ :: _) => .neList (.lub Iri.top)
  | .none => .bottom

/-- The type of a variable that is to stand for the term. -/
def variableType (t : Term) : TermType := t.intrinsicType.removeLub

mutual
/-- The term as it is written in messages. -/
def text : Term → String
  | .iri i => i.compact
  | .literal l => l.text
  | .blank b => "_:" ++ b
  | .var v => "?" ++ v.label
  | .list items => "(" ++ ", ".intercalate (texts items) ++ ")"
  | .none => "none"
def texts : List Term → List String
  | [] => []
  | t :: ts => t.text :: texts ts
end

end Term

/-- The number that the label of the next new blank node carries. -/
structure BlankSupply where
  next : Nat
deriving DecidableEq

namespace BlankSupply

/-- What all minted labels begin with. -/
def stem : String := "genid"

def label (number : Nat) : String := stem ++ toString number

/-- A blank node with the next label, and the supply without it. -/
def mint (supply : BlankSupply) : Term × BlankSupply :=
  (.blank (label supply.next), ⟨supply.next + 1⟩)

end BlankSupply

end RdfTemplates
