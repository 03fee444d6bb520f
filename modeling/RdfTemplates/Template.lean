import RdfTemplates.ListExpansion
import RdfTemplates.Parameter

/-!
# Signatures, templates and declarations

A template has a body of instances of other templates. In the body a variable
labelled like a parameter has the type of that parameter, and no instance is
listed twice. A base template has no body: expansion stops there.
-/

namespace RdfTemplates

/-- A call of a template with its arguments. -/
structure Instance where
  iri : Iri
  arguments : ArgumentList
deriving BEq

namespace Instance

def ofTerms (iri : Iri) (terms : List Term) : Instance := ⟨iri, .ofTerms terms⟩

def text (i : Instance) : String :=
  match i.arguments.expander with
  | some e => e.text ++ " | " ++ i.iri.compact ++ i.arguments.tupleText
  | none => i.iri.compact ++ i.arguments.tupleText

def isTriple (i : Instance) : Bool := i.iri == Iri.triple

/-- The predicate, where the instance is a triple. -/
def triplePredicate? (i : Instance) : Option Term :=
  if i.isTriple then i.arguments.term? 1 else none

def mapTerms (f : Term → Term) (i : Instance) : Instance :=
  { i with arguments := i.arguments.mapTerms f }

end Instance

/-- A template without a body, which may be a base template. -/
structure Signature where
  iri : Iri
  parameters : ParameterList
  isBase : Bool
deriving BEq

def Signature.text (s : Signature) : String :=
  s.iri.compact ++ s.parameters.text ++ if s.isBase then " :: BASE" else ""

namespace Term

mutual
/-- Gives every variable labelled like a parameter the type of the first such one. -/
def retype (ps : ParameterList) : Term → Term
  | .var v => match ps.labelled? v.label with
      | some p => p.term
      | .none => .var v
  | .list items => .list (retypeAll ps items)
  | t => t
def retypeAll (ps : ParameterList) : List Term → List Term
  | [] => []
  | t :: ts => retype ps t :: retypeAll ps ts
end

end Term

/-- The elements of a list that no earlier element equals, in their order. -/
def firsts {α : Type} [BEq α] (xs : List α) : List α :=
  xs.foldl (fun kept x => if kept.contains x then kept else kept ++ [x]) []

/-- A template with its parameters and its body. -/
structure Template where
  iri : Iri
  parameters : ParameterList
  body : List Instance
deriving BEq

namespace Template

/-- A template whose body has the declared types and no instance twice. -/
def make (iri : Iri) (parameters : ParameterList) (body : List Instance) : Template :=
  ⟨iri, parameters, firsts (body.map (·.mapTerms (Term.retype parameters)))⟩

def signature (t : Template) : Signature := ⟨t.iri, t.parameters, false⟩

def text (t : Template) : String :=
  t.signature.text ++ " :: \x7b" ++ ",".intercalate (t.body.map fun i => " " ++ i.text) ++ " \x7d"

end Template

/-- What a document may declare about a template. -/
inductive Declaration where
  | signature (signature : Signature)
  | template (template : Template)

def Declaration.iri : Declaration → Iri
  | .signature s => s.iri
  | .template t => t.iri

/-- The two base templates from which all triples come. -/
def baseTemplates : List Signature :=
  let subject := Parameter.mandatory "subject" .anyIri
  let predicate := Parameter.mandatory "predicate" .anyIri
  let object := Parameter.mandatory "object" .top
  let optional : ParameterFlags := ⟨true, false⟩
  [⟨Iri.triple, [subject, { predicate with flags := ⟨false, true⟩ }, object], true⟩,
   ⟨Iri.nullableTriple,
    [{ subject with flags := optional }, { predicate with flags := ⟨true, true⟩ },
     { object with flags := optional }], true⟩]

end RdfTemplates
