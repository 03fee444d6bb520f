import RdfTemplates.ArgumentList

/-!
# List expansion

An argument list with an expander stands for several argument lists without
one. `cross` takes every combination of the marked elements, the last marked
position varying fastest. The two zips take the first elements, then the second
ones and so on, up to the end of the shortest or of the longest marked list; a
step for which some list has no element left is reported as exhausted. A marked
`none` goes on as `none`, and any other marked term that is not a list counts
as its own single element.
-/

namespace RdfTemplates

/-- The arguments of one step, or the positions whose lists have ended. -/
inductive ExpansionStep where
  | expanded (args : ArgumentList)
  | exhausted (step : Nat) (positions : List Nat)
deriving BEq

/-- What a marked argument stands for, one after the other. -/
def Argument.elements (a : Argument) : List Term :=
  match a.term with
  | .list items => items
  | t => [t]

namespace ListExpansion

/-- The rows of a cross. An empty marked list leaves none, whatever comes after it. -/
def crossRows : List Argument → List (List Argument)
  | [] => [[]]
  | a :: rest =>
      if a.marked && a.elements.isEmpty then []
      else
        let tails := crossRows rest
        if a.marked then a.elements.flatMap fun t => tails.map (Argument.plain t :: ·)
        else tails.map (a :: ·)

theorem crossRows_cons (a : Argument) (rest : List Argument) :
    crossRows (a :: rest) =
      if a.marked then
        a.elements.flatMap fun t => (crossRows rest).map (Argument.plain t :: ·)
      else (crossRows rest).map (a :: ·) := by
  cases hm : a.marked with
  | false => simp [crossRows, hm]
  | true => cases he : a.elements <;> simp [crossRows, hm, he]

/-- The argument that stands in place of `a` in the step numbered `step`. -/
def elementAt? (step : Nat) (a : Argument) : Option Argument :=
  if a.marked then
    match a.elements[step]? with
    | some t => some (.plain t)
    | none => if a.term.isNone then some (.plain .none) else none
  else some a

/-- The arguments of one step of a zip. -/
def zipStep (arguments : List Argument) (step : Nat) : ExpansionStep :=
  match arguments.zipIdx.filter fun (a, _) => (elementAt? step a).isNone with
  | [] => .expanded ⟨arguments.filterMap (elementAt? step), none⟩
  | ended => .exhausted step (ended.map (·.2))

def markedLengths (arguments : List Argument) : List Nat :=
  (arguments.filter (·.marked)).map (·.elements.length)

def zipSteps (arguments : List Argument) (count : Nat) : List ExpansionStep :=
  (List.range count).map (zipStep arguments)

end ListExpansion

open ListExpansion in
/-- All steps of an expander. -/
def ListExpander.steps (arguments : List Argument) : ListExpander → List ExpansionStep
  | .cross => (crossRows arguments).map fun row => .expanded ⟨row, none⟩
  | .zipMin => zipSteps arguments ((markedLengths arguments).min?.getD 0)
  | .zipMax => zipSteps arguments ((markedLengths arguments).max?.getD 0)

/-- The steps an argument list stands for, if it has an expander. -/
def ArgumentList.expand? (args : ArgumentList) : Option (List ExpansionStep) :=
  args.expander.map (·.steps args.arguments)

end RdfTemplates
