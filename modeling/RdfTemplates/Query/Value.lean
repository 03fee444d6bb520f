import RdfTemplates.Substitution

/-!
# Values of query variables
-/

namespace RdfTemplates

inductive Value where
  | iri (iri : Iri)
  | term (term : Term)
  | terms (terms : List Term)
  | parameters (parameters : ParameterList)
  | arguments (arguments : ArgumentList)
  | inst (inst : Instance)
  | body (body : List Instance)
  /-- An index, a length or a nesting level. -/
  | int (n : Nat)
  | type (type : TermType)
  | substitution (substitution : Substitution)
deriving BEq

namespace Value

def kind : Value → String
  | .iri _ => "iri"
  | .term _ => "term"
  | .terms _ => "terms"
  | .parameters _ => "parameters"
  | .arguments _ => "arguments"
  | .inst _ => "instance"
  | .body _ => "body"
  | .int _ => "int"
  | .type _ => "type"
  | .substitution _ => "substitution"

/-- The number of elements of a value that is a list. -/
def length? : Value → Option Nat
  | .terms ts => some ts.length
  | .term (.list ts) => some ts.length
  | .parameters ps => some ps.length
  | .arguments args => some args.size
  | .body is => some is.length
  | _ => none

/-- The term at a position of a value that lists terms. -/
def termAt? (v : Value) (position : Nat) : Option Term :=
  match v with
  | .terms ts => ts[position]?
  | .term (.list ts) => ts[position]?
  | .parameters ps => ps[position]?.map Parameter.term
  | .arguments args => args.term? position
  | _ => none

def text : Value → String
  | .iri i => i.compact
  | .term t => t.text
  | .terms ts => (Term.list ts).text
  | .parameters ps => ps.text
  | .arguments args => args.text
  | .inst i => i.text
  | .body is => "\x7b" ++ ", ".intercalate (is.map Instance.text) ++ "\x7d"
  | .int n => toString n
  | .type t => t.text
  | .substitution s => s.text

end Value

end RdfTemplates
