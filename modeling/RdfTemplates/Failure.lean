import RdfTemplates.Message
import RdfTemplates.TermType

/-!
# Everything that can fail

Every part has its own type of failures, and every failure a text. One type
takes up the failures of a whole run.
-/

namespace RdfTemplates

/-- Why a type cannot be registered. -/
inductive TypeError where
  | unknownSupertype (iri parent : Iri)
  | conflictingSupertype (iri existing requested : Iri)
  | builtIn (iri : Iri)
deriving DecidableEq

def TypeError.text : TypeError → String
  | .unknownSupertype iri parent =>
      "cannot register type " ++ iri ++ ": unknown supertype " ++ parent
  | .conflictingSupertype iri existing requested =>
      "type " ++ iri ++ " already has supertype " ++ existing ++ ", cannot add " ++ requested
  | .builtIn iri => "type " ++ iri ++ " is built in and cannot be redefined"

/-- How many arguments were expected and how many are there. -/
structure ArityMismatch where
  expected : Nat
  got : Nat
deriving DecidableEq

def ArityMismatch.text (e : ArityMismatch) : String :=
  "cannot make substitution: expected " ++ toString e.expected ++ " arguments, got "
    ++ toString e.got

/-- Why nothing could be looked up. -/
inductive LookupError where
  | missingTemplate (iri : Iri)
  | missingSignature (iri : Iri)
deriving DecidableEq

def LookupError.text : LookupError → String
  | .missingTemplate iri => "missing template definition for " ++ iri
  | .missingSignature iri => "missing signature for " ++ iri

/-- Why a reader gave nothing. -/
inductive ReaderError where
  | notFound (iri : Iri)
  | malformed (iri : Iri) (reason : String)
  | other (text : String)
deriving DecidableEq

def ReaderError.text : ReaderError → String
  | .notFound iri => "no source found for template " ++ iri
  | .malformed iri reason => "malformed template " ++ iri ++ ": " ++ reason
  | .other text => "reader failed: " ++ text

/-- Instances and arguments are kept in their written form. -/
inductive ExpansionError where
  | missingDefinition (iri : Iri)
  | unresolvedExpander (inst : String)
  | arity (iri : Iri) (expected got : Nat)
  | incompatibleType (iri : Iri) (position : Nat) (argument : String) (found expected : TermType)
  | blankForNonBlank (iri : Iri) (position : Nat) (argument : String)
  | exhausted (inst : String) (step : Nat) (positions : List Nat)
  | stepLimit (limit : Nat)
  | substitution (cause : ArityMismatch)
deriving DecidableEq

namespace ExpansionError

/-- Positions as they are counted in messages. -/
def positionsText (positions : List Nat) : String :=
  "[" ++ ", ".intercalate (positions.map toString) ++ "]"

def text : ExpansionError → String
  | .missingDefinition iri => "missing definition of template " ++ iri.compact
  | .unresolvedExpander inst =>
      "cannot expand lists of " ++ inst ++ ": a marked argument is not a list"
  | .arity iri expected got =>
      "wrong number of arguments to " ++ iri.compact ++ ": expected " ++ toString expected
        ++ ", got " ++ toString got
  | .incompatibleType iri position argument found expected =>
      "argument " ++ argument ++ " at position " ++ toString position ++ " of " ++ iri.compact
        ++ " has type " ++ found.text ++ ", incompatible with " ++ expected.text
  | .blankForNonBlank iri position argument =>
      "blank node " ++ argument ++ " given for non-blank parameter at position "
        ++ toString position ++ " of " ++ iri.compact
  | .exhausted inst step positions =>
      "zipMax step " ++ toString step ++ " of " ++ inst ++ " is out of elements at positions "
        ++ positionsText positions
  | .stepLimit limit => "expansion stopped after " ++ toString limit ++ " steps"
  | .substitution cause => cause.text

/-- An error is reported as such. -/
def message (e : ExpansionError) : Message := .error e.text

end ExpansionError

/-- Arguments and blank nodes are kept in their written form. -/
inductive RefactoringError where
  | store (cause : LookupError)
  | sameTemplate (iri : Iri)
  | noUnifier (used changed : Iri)
  | unboundParameter (used changed : Iri) (parameter : String)
  | optionalMismatch (used changed : Iri) (parameter argument : String)
  | nonBlankMismatch (used changed : Iri) (parameter argument : String)
  | sharedBlank (changed : Iri) (blank : String)
deriving DecidableEq

def RefactoringError.text : RefactoringError → String
  | .store cause => cause.text
  | .sameTemplate iri => "cannot refactor " ++ iri ++ " using itself"
  | .noUnifier used changed =>
      "body of " ++ used ++ " does not unify into the body of " ++ changed
  | .unboundParameter used changed parameter =>
      "parameter ?" ++ parameter ++ " of " ++ used ++ " is not bound when refactoring " ++ changed
  | .optionalMismatch used changed parameter argument =>
      "parameter ?" ++ parameter ++ " of " ++ used ++ " would receive none from ?" ++ argument
        ++ " of " ++ changed ++ ", changing its expansion"
  | .nonBlankMismatch used changed parameter argument =>
      "non-blank parameter ?" ++ parameter ++ " of " ++ used ++ " would receive " ++ argument
        ++ " from " ++ changed
  | .sharedBlank changed blank =>
      "blank node " ++ blank ++ " of " ++ changed ++ " is shared outside the matched instances"

/-- The failures of a whole run, each with its cause. -/
inductive Failure where
  | lookup (cause : LookupError)
  | reader (cause : ReaderError)
  | expansion (cause : ExpansionError)
  | refactoring (cause : RefactoringError)
  | type (cause : TypeError)
  | arity (cause : ArityMismatch)
deriving DecidableEq

namespace Failure

def text : Failure → String
  | .lookup cause => cause.text
  | .reader cause => cause.text
  | .expansion cause => cause.text
  | .refactoring cause => cause.text
  | .type cause => cause.text
  | .arity cause => cause.text

def message (f : Failure) : Message := .error f.text

end Failure

end RdfTemplates
