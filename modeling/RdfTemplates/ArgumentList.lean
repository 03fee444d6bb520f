import RdfTemplates.Term

/-!
# Argument lists

An argument may be marked for list expansion, and an argument list may carry an
expander that says how the marked lists are combined.
-/

namespace RdfTemplates

/-- How the lists of an instance are expanded. -/
inductive ListExpander where
  | cross
  | zipMin
  | zipMax
deriving DecidableEq

def ListExpander.text : ListExpander → String
  | .cross => "cross"
  | .zipMin => "zipMin"
  | .zipMax => "zipMax"

/-- A term, and whether it is marked for expansion. -/
structure Argument where
  term : Term
  marked : Bool
deriving BEq

namespace Argument

def plain (term : Term) : Argument := ⟨term, false⟩

def text (a : Argument) : String := if a.marked then "++" ++ a.term.text else a.term.text

end Argument

/-- The arguments of an instance with their expander. -/
structure ArgumentList where
  arguments : List Argument
  expander : Option ListExpander
deriving BEq

namespace ArgumentList

/-- Arguments of which none is marked. -/
def ofTerms (terms : List Term) : ArgumentList := ⟨terms.map Argument.plain, none⟩

def size (args : ArgumentList) : Nat := args.arguments.length

def terms (args : ArgumentList) : List Term := args.arguments.map (·.term)

def term? (args : ArgumentList) (position : Nat) : Option Term :=
  args.arguments[position]?.map (·.term)

def isMarkedAt (args : ArgumentList) (position : Nat) : Bool :=
  args.arguments[position]?.any (·.marked)

def markedPositions (args : ArgumentList) : List Nat :=
  args.arguments.zipIdx.filterMap fun (a, position) => if a.marked then some position else none

/-- Whether every marked argument is a list or `none`. A variable or a blank node at
a marked position is only known once the enclosing template is instantiated. -/
def canExpand (args : ArgumentList) : Bool :=
  args.arguments.all fun a => !a.marked || a.term.isList || a.term.isNone

/-- Replaces the terms and keeps the marks and the expander. -/
def mapTerms (f : Term → Term) (args : ArgumentList) : ArgumentList :=
  { args with arguments := args.arguments.map fun a => { a with term := f a.term } }

def tupleText (args : ArgumentList) : String :=
  "(" ++ ", ".intercalate (args.arguments.map Argument.text) ++ ")"

def text (args : ArgumentList) : String :=
  match args.expander with
  | some e => e.text ++ " | " ++ args.tupleText
  | none => args.tupleText

end ArgumentList

end RdfTemplates
