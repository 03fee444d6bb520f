import RdfTemplates.Quoted
import RdfTemplates.Query.Value

/-!
# Tuples

A tuple binds variables to values. Reading a variable that is not bound, or
that holds another kind of value, is a mistake in the query and ends it.
-/

namespace RdfTemplates

/-- A variable with a name of the user's, or one that only a query itself uses. -/
inductive Var where
  | named (name : String)
  | hidden (number : Nat)
deriving DecidableEq

def Var.name : Var → String
  | .named name => name
  | .hidden number => "_v" ++ toString number

/-- What goes wrong when a variable is read. -/
inductive Violation where
  | unbound (name : String)
  | wrongKind (name expected found : String)
  | other (text : String)
deriving DecidableEq

def Violation.text : Violation → String
  | .unbound name => "invariant violated: variable " ++ name ++ " is not bound"
  | .wrongKind name expected found =>
      "invariant violated: variable " ++ name ++ " holds " ++ found ++ ", expected " ++ expected
  | .other text => "invariant violated: " ++ text

/-- What comes of reading variables. -/
abbrev Reading := Except Violation

/-- Bindings of variables, of each at most one. -/
structure Tuple where
  bindings : List (Var × Value)

namespace Tuple

def empty : Tuple := ⟨[]⟩

def size (t : Tuple) : Nat := t.bindings.length

def get? (t : Tuple) (v : Var) : Option Value := t.bindings.lookup v

/-- Whether the variable is bound. -/
def hasBound (t : Tuple) (v : Var) : Bool := (t.get? v).isSome

/-- Binds a variable, whatever it was bound to before. -/
def bind (t : Tuple) (v : Var) (value : Value) : Tuple :=
  ⟨(v, value) :: t.bindings.filter (·.1 != v)⟩

/-- Whether two tuples bind the same variables to the same values. -/
def same (t u : Tuple) : Bool :=
  t.size == u.size && t.bindings.all fun (v, value) => u.get? v == some value

instance : BEq Tuple := ⟨same⟩

/-- What the variable is bound to, or that it is not. -/
def value (t : Tuple) (v : Var) : Reading Value :=
  match t.get? v with
  | some value => .ok value
  | none => .error (.unbound v.name)

/-- Reads a variable with a function for the values of one kind. -/
def read {α : Type} (kind : String) (of? : Value → Option α) (t : Tuple) (v : Var) : Reading α := do
  let value ← t.value v
  match of? value with
  | some a => .ok a
  | none => .error (.wrongKind v.name kind value.kind)

def iri : Tuple → Var → Reading Iri :=
  read "iri" fun | .iri a => some a | _ => none

def term : Tuple → Var → Reading Term :=
  read "term" fun | .term a => some a | _ => none

def parameters : Tuple → Var → Reading ParameterList :=
  read "parameters" fun | .parameters a => some a | _ => none

def arguments : Tuple → Var → Reading ArgumentList :=
  read "arguments" fun | .arguments a => some a | _ => none

def inst : Tuple → Var → Reading Instance :=
  read "instance" fun | .inst a => some a | _ => none

def body : Tuple → Var → Reading (List Instance) :=
  read "body" fun | .body a => some a | _ => none

def int : Tuple → Var → Reading Nat :=
  read "int" fun | .int a => some a | _ => none

def type : Tuple → Var → Reading TermType :=
  read "type" fun | .type a => some a | _ => none

def substitution : Tuple → Var → Reading Substitution :=
  read "substitution" fun | .substitution a => some a | _ => none

/-- The written form of a value, for messages. -/
def written (t : Tuple) (v : Var) : Reading String := return (← t.value v).text

/-- The written form of an index, counted from one, for messages. -/
def position (t : Tuple) (v : Var) : Reading String := return toString ((← t.int v) + 1)

/-- The bindings sorted by name, names and written values between quotation marks. -/
def text (t : Tuple) : String :=
  let sorted := stableSort (fun a b => decide (a.1.name ≤ b.1.name)) t.bindings
  let entries := sorted.map fun (v, value) => quoted v.name ++ ": " ++ quoted value.text
  "\x7b" ++ ", ".intercalate entries ++ "\x7d"

end Tuple

end RdfTemplates
