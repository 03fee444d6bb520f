import RdfTemplates.Numbered

/-!
# Messages

Problems that are the user's are collected as messages and handed back. The
order of messages is the order in which they came up.
-/

namespace RdfTemplates

/-- How grave a message is, from a mere note up. -/
inductive Severity where
  | info
  | warning
  | error
  | fatal
deriving DecidableEq

namespace Severity

/-- The place of a severity in the order. -/
def rank : Severity → Nat
  | .info => 0
  | .warning => 1
  | .error => 2
  | .fatal => 3

def text : Severity → String
  | .info => "INFO"
  | .warning => "WARNING"
  | .error => "ERROR"
  | .fatal => "FATAL"

def max (a b : Severity) : Severity := if a.rank ≤ b.rank then b else a

end Severity

/-- What is said, and how grave it is. -/
structure Message where
  severity : Severity
  text : String
deriving DecidableEq

namespace Message

def info (text : String) : Message := ⟨.info, text⟩
def warning (text : String) : Message := ⟨.warning, text⟩
def error (text : String) : Message := ⟨.error, text⟩

def isError (m : Message) : Bool := Severity.error.rank ≤ m.severity.rank

/-- The message as one line. -/
def line (m : Message) : String := "[" ++ m.severity.text ++ "] " ++ m.text

end Message

/-- Messages in the order in which they came up. -/
abbrev Messages := List Message

namespace Messages

def push (ms : Messages) (m : Message) : Messages := ms ++ [m]

/-- Adds a message unless the same one is there. -/
def pushUnique (ms : Messages) (m : Message) : Messages :=
  if ms.contains m then ms else ms.push m

/-- The gravest severity, if anything is said. -/
def mostSevere? (ms : Messages) : Option Severity :=
  (ms.map (·.severity)).foldl (fun worst s => some (worst.elim s (·.max s))) none

def hasErrors (ms : Messages) : Bool := ms.any Message.isError

def count (ms : Messages) (severity : Severity) : Nat :=
  ms.countP (·.severity == severity)

def errors (ms : Messages) : Messages := ms.filter Message.isError

/-- The messages with the gravest first. -/
def bySeverity (ms : Messages) : Messages :=
  stableSort (fun a b => decide (a.severity.rank ≤ b.severity.rank)) ms

def text (ms : Messages) : String :=
  String.join (ms.map fun m => m.line ++ "\n")

end Messages

end RdfTemplates
