/-!
# IRIs of the template vocabulary

IRIs are compared character by character. In written output an IRI of one of
five well-known namespaces is shortened to a namespace label and a local name,
and every other IRI stands between angle brackets.
-/

namespace RdfTemplates

/-- An IRI by its text. -/
abbrev Iri := String

namespace Iri

/-- The template for a triple. -/
def triple : Iri := "http://ns.ottr.xyz/0.4/Triple"
/-- The template for a triple whose object may be missing. -/
def nullableTriple : Iri := "http://ns.ottr.xyz/0.4/NullableTriple"

/-- The type of every term. -/
def top : Iri := "http://www.w3.org/2000/01/rdf-schema#Resource"

/-- The type below every type. -/
def bottom : Iri := "http://ns.ottr.xyz/0.4/Bot"

/-- The type of IRIs. -/
def iriType : Iri := "http://ns.ottr.xyz/0.4/IRI"
/-- The type of all literals. -/
def literal : Iri := "http://www.w3.org/2000/01/rdf-schema#Literal"

def rdfsClass : Iri := "http://www.w3.org/2000/01/rdf-schema#Class"
def rdfsDatatype : Iri := "http://www.w3.org/2000/01/rdf-schema#Datatype"
def rdfProperty : Iri := "http://www.w3.org/1999/02/22-rdf-syntax-ns#Property"
def rdfLangString : Iri := "http://www.w3.org/1999/02/22-rdf-syntax-ns#langString"
def rdfHtml : Iri := "http://www.w3.org/1999/02/22-rdf-syntax-ns#HTML"

def owlClass : Iri := "http://www.w3.org/2002/07/owl#Class"
def owlObjectProperty : Iri := "http://www.w3.org/2002/07/owl#ObjectProperty"
def owlDatatypeProperty : Iri := "http://www.w3.org/2002/07/owl#DatatypeProperty"
def owlAnnotationProperty : Iri := "http://www.w3.org/2002/07/owl#AnnotationProperty"
def owlNamedIndividual : Iri := "http://www.w3.org/2002/07/owl#NamedIndividual"

def xsdString : Iri := "http://www.w3.org/2001/XMLSchema#string"
def xsdNormalizedString : Iri := "http://www.w3.org/2001/XMLSchema#normalizedString"
def xsdToken : Iri := "http://www.w3.org/2001/XMLSchema#token"
def xsdLanguage : Iri := "http://www.w3.org/2001/XMLSchema#language"
def xsdBoolean : Iri := "http://www.w3.org/2001/XMLSchema#boolean"
def xsdDecimal : Iri := "http://www.w3.org/2001/XMLSchema#decimal"
def xsdInteger : Iri := "http://www.w3.org/2001/XMLSchema#integer"
def xsdNonNegativeInteger : Iri := "http://www.w3.org/2001/XMLSchema#nonNegativeInteger"
def xsdPositiveInteger : Iri := "http://www.w3.org/2001/XMLSchema#positiveInteger"
def xsdLong : Iri := "http://www.w3.org/2001/XMLSchema#long"
def xsdInt : Iri := "http://www.w3.org/2001/XMLSchema#int"
def xsdShort : Iri := "http://www.w3.org/2001/XMLSchema#short"
def xsdByte : Iri := "http://www.w3.org/2001/XMLSchema#byte"
def xsdDouble : Iri := "http://www.w3.org/2001/XMLSchema#double"
def xsdFloat : Iri := "http://www.w3.org/2001/XMLSchema#float"
def xsdDate : Iri := "http://www.w3.org/2001/XMLSchema#date"
def xsdDateTime : Iri := "http://www.w3.org/2001/XMLSchema#dateTime"
def xsdTime : Iri := "http://www.w3.org/2001/XMLSchema#time"
def xsdAnyUri : Iri := "http://www.w3.org/2001/XMLSchema#anyURI"

/-- The labelled namespaces, in the order in which they are tried. -/
def namespaces : List (String × String) :=
  [("ottr", "http://ns.ottr.xyz/0.4/"),
   ("rdf", "http://www.w3.org/1999/02/22-rdf-syntax-ns#"),
   ("rdfs", "http://www.w3.org/2000/01/rdf-schema#"),
   ("xsd", "http://www.w3.org/2001/XMLSchema#"),
   ("owl", "http://www.w3.org/2002/07/owl#")]

/-- The local name of an IRI in the namespace `space`. -/
def localName? (space : String) (iri : Iri) : Option String :=
  if space.toList.isPrefixOf iri.toList then
    some (String.ofList (iri.toList.drop space.toList.length))
  else none

/-- The IRI with the prefix of its namespace, or else in angle brackets. -/
def compact (iri : Iri) : String :=
  match namespaces.findSome? fun (label, space) =>
      (localName? space iri).map fun name => label ++ ":" ++ name with
  | some short => short
  | none => "<" ++ iri ++ ">"

end Iri

end RdfTemplates
