import RdfTemplates.Template

/-!
# When terms are the same

Comparing two terms leaves the types of their variables aside: two terms are the
same exactly when nothing but such types tells them apart. So being the same is
an equivalence, for terms and for what is made of them.
-/

namespace RdfTemplates

/-- Two elements are the same exactly when the function takes them to one value. -/
def SameUnder {α β : Type} [BEq α] (f : α → β) : Prop :=
  ∀ a b : α, (a == b) = true ↔ f a = f b

namespace SameUnder

variable {α β : Type} [BEq α] {f : α → β}

/-- What compares images is an equivalence. -/
theorem equivBEq (h : SameUnder f) : EquivBEq α where
  rfl {a} := (h a a).mpr rfl
  symm {a b} k := (h b a).mpr ((h a b).mp k).symm
  trans {a b c} k l := (h a c).mpr (((h a b).mp k).trans ((h b c).mp l))

/-- Lists are compared image by image. -/
theorem list (h : SameUnder f) : SameUnder (List.map f)
  | [], [] => by simp
  | [], _ :: _ => by simp
  | _ :: _, [] => by simp
  | a :: as, b :: bs => by simp [h a b, list h as bs]

end SameUnder

namespace Term

mutual
/-- The term with every variable of the top type. -/
def untyped : Term → Term
  | .var v => .var ⟨v.label, .top⟩
  | .list items => .list (untypedAll items)
  | t => t
def untypedAll : List Term → List Term
  | [] => []
  | t :: ts => t.untyped :: untypedAll ts
end

mutual
/-- Terms are the same if they are without their types. -/
theorem same_iff_untyped : ∀ t u : Term, same t u = true ↔ t.untyped = u.untyped
  | .list ts, u => by
      cases u <;> simp [same, untyped, sameAll_iff_untypedAll]
  | .iri _, u => by cases u <;> simp [same, untyped]
  | .literal _, u => by cases u <;> simp [same, untyped]
  | .blank _, u => by cases u <;> simp [same, untyped]
  | .var v, u => by
      cases u with
      | var w => exact ⟨fun h => by simp_all [same, untyped, BEq.beq], fun h => by
          simp_all [same, untyped, BEq.beq]⟩
      | _ => simp [same, untyped]
  | .none, u => by cases u <;> simp [same, untyped]
theorem sameAll_iff_untypedAll : ∀ ts us : List Term,
    sameAll ts us = true ↔ untypedAll ts = untypedAll us
  | [], us => by cases us <;> simp [sameAll, untypedAll]
  | t :: ts, us => by
      cases us with
      | nil => simp [sameAll, untypedAll]
      | cons u us =>
          simp [sameAll, untypedAll, same_iff_untyped t u, sameAll_iff_untypedAll ts us]
end

theorem sameUnder_untyped : SameUnder untyped := same_iff_untyped

instance : EquivBEq Term := sameUnder_untyped.equivBEq

end Term

namespace Argument

/-- The argument with the types of its variables forgotten. -/
def untyped (a : Argument) : Argument := { a with term := a.term.untyped }

theorem beq_def (a b : Argument) : (a == b) = (a.term == b.term && a.marked == b.marked) := rfl

theorem sameUnder_untyped : SameUnder untyped := by
  intro a b
  cases a; cases b
  simp [beq_def, untyped, Term.sameUnder_untyped _ _]

instance : EquivBEq Argument := sameUnder_untyped.equivBEq

end Argument

namespace ArgumentList

def untyped (args : ArgumentList) : ArgumentList :=
  { args with arguments := args.arguments.map Argument.untyped }

theorem beq_def (as bs : ArgumentList) :
    (as == bs) = (as.arguments == bs.arguments && as.expander == bs.expander) := rfl

theorem sameUnder_untyped : SameUnder untyped := by
  intro as bs
  cases as; cases bs
  simp [beq_def, untyped, Argument.sameUnder_untyped.list _ _]

instance : EquivBEq ArgumentList := sameUnder_untyped.equivBEq

end ArgumentList

namespace Instance

/-- The instance with the types of its variables forgotten. -/
def untyped (i : Instance) : Instance := { i with arguments := i.arguments.untyped }

theorem beq_def (i j : Instance) : (i == j) = (i.iri == j.iri && i.arguments == j.arguments) := rfl

theorem sameUnder_untyped : SameUnder untyped := by
  intro i j
  cases i; cases j
  simp [beq_def, untyped, ArgumentList.sameUnder_untyped _ _]

instance : EquivBEq Instance := sameUnder_untyped.equivBEq

end Instance

end RdfTemplates
