import RdfTemplates.Term

/-!
# Parameters

An optional parameter may be given `none`, and a non-blank one may not be given
a blank node. A default takes the place of `none`. Parameters are compared by
label, flags and default, not by type.
-/

namespace RdfTemplates

/-- Whether a parameter may be missing, and whether it may not be a blank node. -/
structure ParameterFlags where
  optional : Bool
  nonBlank : Bool
deriving DecidableEq

/-- The flags as a number: 1 for optional, 2 for non-blank. -/
def ParameterFlags.bits (flags : ParameterFlags) : Nat :=
  flags.optional.toNat + 2 * flags.nonBlank.toNat

/-- Reads the two low bits of a number. -/
def ParameterFlags.ofBits (bits : Nat) : ParameterFlags := ⟨bits.testBit 0, bits.testBit 1⟩

/-- A variable with its flags and its default, if it has one. -/
structure Parameter where
  var : Variable
  flags : ParameterFlags
  default? : Option Term
deriving BEq

namespace Parameter

/-- A parameter without flags and default. -/
def mandatory (label : String) (type : TermType) : Parameter :=
  ⟨⟨label, type⟩, ⟨false, false⟩, none⟩

def label (p : Parameter) : String := p.var.label
def type (p : Parameter) : TermType := p.var.type
def term (p : Parameter) : Term := .var p.var
def isOptional (p : Parameter) : Bool := p.flags.optional
def isNonBlank (p : Parameter) : Bool := p.flags.nonBlank
def hasDefault (p : Parameter) : Bool := p.default?.isSome

/-- Whether `none` may be given here without dropping the instance. -/
def acceptsNone (p : Parameter) : Bool := p.isOptional || p.hasDefault

def text (p : Parameter) : String :=
  (if p.isOptional then "? " else "") ++ (if p.isNonBlank then "! " else "")
    ++ p.type.text ++ " ?" ++ p.label
    ++ match p.default? with
      | some t => " = " ++ t.text
      | none => ""

end Parameter

abbrev ParameterList := List Parameter

namespace ParameterList

def text (ps : ParameterList) : String :=
  "[" ++ ", ".intercalate (ps.map Parameter.text) ++ "]"

/-- The parameter with a label. -/
def labelled? (ps : ParameterList) (label : String) : Option Parameter :=
  ps.find? fun p => p.label == label

def indexOf? (ps : ParameterList) (v : Variable) : Option Nat :=
  ps.findIdx? fun p => p.var == v

/-- Whether two parameter lists have the same length and the same flags at every
position. -/
def sameShape (ps qs : ParameterList) : Bool :=
  ps.map (·.flags) == qs.map (·.flags)

end ParameterList

end RdfTemplates
