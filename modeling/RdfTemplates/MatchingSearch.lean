import RdfTemplates.Matching

/-!
# Search for matchings of collections

The search pairs each source with a target of its own and collects the
substitutions that match all pairs. Targets are tried in their order, and each
try of a pair counts as an attempt; the search ends when the attempts are used
up and keeps what it has found.
-/

namespace RdfTemplates

namespace MatchingSearch

structure Progress where
  attempts : Nat
  /-- What was found, the latest first and without repetitions. -/
  found : List Substitution

/-- Each element of a list with the other ones. -/
def choices {β : Type} : List β → List (β × List β)
  | [] => []
  | b :: rest => (b, rest) :: (choices rest).map fun (c, others) => (c, b :: others)

def record (s : Substitution) (p : Progress) : Progress :=
  if p.found.contains s then p else { p with found := s :: p.found }

def search {α β : Type} (limit : Nat) (matchPair? : α → β → Substitution → Option Substitution) :
    List α → List β → Substitution → Progress → Progress
  | [], _, s, p => record s p
  | source :: sources, targets, s, p =>
      (choices targets).foldl (fun p (target, others) =>
        if limit ≤ p.attempts then p
        else
          let p := { p with attempts := p.attempts + 1 }
          match matchPair? source target s with
          | some s => search limit matchPair? sources others s p
          | none => p) p

def run {α β : Type} (limit : Nat) (matchPair? : α → β → Substitution → Option Substitution)
    (sources : List α) (targets : List β) : List Substitution :=
  (search limit matchPair? sources targets .empty ⟨0, []⟩).found.reverse

end MatchingSearch

namespace Substitution

def searchLimit : Nat := 100000

/-- The matchings of a list of terms with the permutations of another one. -/
def matchUnordered (ts us : List Term) : List Substitution :=
  if ts.length == us.length then MatchingSearch.run searchLimit matchTerm? ts us else []

end Substitution

namespace Substitution

/-- The order of instances with their written forms: by template, then by written form. -/
def triedBefore (i j : Instance × String) : Bool :=
  decide (i.1.iri < j.1.iri) || i.1.iri == j.1.iri && decide (i.2 ≤ j.2)

/-- The instances in the order in which they are tried. -/
def trialOrder (body : List Instance) : List Instance :=
  (stableSort triedBefore (body.map fun i => (i, i.text))).map (·.1)

/-- The matchings of a body into another one, each instance with one of its own. -/
def matchBodies (body into : List Instance) : List Substitution :=
  if body.isEmpty || into.length < body.length then []
  else MatchingSearch.run searchLimit matchInstance? (trialOrder body) (trialOrder into)

end Substitution

end RdfTemplates
