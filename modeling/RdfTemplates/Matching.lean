import RdfTemplates.Substitution

/-!
# Unification and matching of terms

Unification treats both sides alike and yields the unified term. Matching binds
only the variables and blank nodes of its left side, blank nodes to blank nodes
only, and yields the substitution that turns the left side into the right one.
-/

namespace RdfTemplates

namespace Term

mutual
def unify? : Term → Term → Option Term
  | .var _, u => some u
  | t, .var _ => some t
  | .list ts, .list us => (unifyAll? ts us).map .list
  | t, u => if t == u then some t else .none
def unifyAll? : List Term → List Term → Option (List Term)
  | [], [] => some []
  | t :: ts, u :: us => do
      let v ← unify? t u
      let vs ← unifyAll? ts us
      return v :: vs
  | _, _ => .none
end

end Term

namespace Substitution

/-- Adds a binding unless the key is bound to another term. -/
def bind? (s : Substitution) (key value : Term) : Option Substitution :=
  match s.get? key with
  | some existing => if existing == value then some s else none
  | none => some (s.insert key value)

mutual
/-- Extends a substitution to one that turns the first term into the second. -/
def matchTerm? : Term → Term → Substitution → Option Substitution
  | .var v, u, s => s.bind? (.var v) u
  | .blank b, .blank c, s => s.bind? (.blank b) (.blank c)
  | .list ts, .list us, s => matchTerms? ts us s
  | t, u, s => if t == u then some s else none
def matchTerms? : List Term → List Term → Substitution → Option Substitution
  | [], [], s => some s
  | t :: ts, u :: us, s => (matchTerm? t u s).bind (matchTerms? ts us)
  | _, _, _ => none
end

def matchEach? : List Argument → List Argument → Substitution → Option Substitution
  | [], [], s => some s
  | a :: as, b :: bs, s =>
      if a.marked == b.marked then (matchTerm? a.term b.term s).bind (matchEach? as bs) else none
  | _, _, _ => none

/-- Matches position by position; the expanders and the marks have to agree. -/
def matchArguments? (args into : ArgumentList) (s : Substitution) : Option Substitution :=
  if args.expander == into.expander then matchEach? args.arguments into.arguments s else none

def matchInstance? (i into : Instance) (s : Substitution) : Option Substitution :=
  if i.iri == into.iri then matchArguments? i.arguments into.arguments s else none

end Substitution

end RdfTemplates
