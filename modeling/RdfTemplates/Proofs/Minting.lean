import RdfTemplates.Proofs.Filling
import RdfTemplates.Term
import Mathlib.Logic.Function.Basic

/-!
# Labels that are still to come

A supply avoids the labels that it will not hand out any more. What was minted
between two supplies is avoided by the first one never, by the second one
always. Fillings that differ in minted labels only make the same of a term that
the supply avoids.
-/

namespace RdfTemplates

namespace BlankSupply

/-- No two numbers make the same label. -/
theorem label_injective : Function.Injective label := by
  intro m n same
  have digits : toString m = toString n := (String.append_right_inj stem).mp same
  have decimal : Nat.toDigits 10 m = Nat.toDigits 10 n := by
    simpa only [Nat.toString_eq_repr, Nat.toList_repr] using congrArg String.toList digits
  have number := congrArg (fun digits => Nat.ofDigitChars 10 digits 0) decimal
  simpa only [Nat.ofDigitChars_ten_toDigits] using number

/-- The label is none of those that are yet to be minted. -/
def Avoids (supply : BlankSupply) (b : String) : Prop := ∀ n, supply.next ≤ n → b ≠ label n

/-- The label has been minted on the way from one supply to the other. -/
def Minted (supply later : BlankSupply) (b : String) : Prop :=
  ∃ n, supply.next ≤ n ∧ n < later.next ∧ b = label n

variable {supply later last : BlankSupply} {b : String}

theorem Avoids.grow (avoids : supply.Avoids b) (grows : supply.next ≤ later.next) :
    later.Avoids b :=
  fun n h => avoids n (Nat.le_trans grows h)

theorem Avoids.not_minted (avoids : supply.Avoids b) : ¬ supply.Minted later b := by
  rintro ⟨n, from_, -, same⟩
  exact avoids n from_ same

/-- What has been minted is not minted again. -/
theorem Minted.avoids (minted : supply.Minted later b) : later.Avoids b := by
  obtain ⟨m, -, before, rfl⟩ := minted
  intro n after same
  have equal := label_injective same
  omega

theorem Minted.left (minted : supply.Minted later b) (grows : later.next ≤ last.next) :
    supply.Minted last b := by
  obtain ⟨n, from_, before, rfl⟩ := minted
  exact ⟨n, from_, by omega, rfl⟩

theorem Minted.right (minted : later.Minted last b) (grows : supply.next ≤ later.next) :
    supply.Minted last b := by
  obtain ⟨n, from_, before, rfl⟩ := minted
  exact ⟨n, by omega, before, rfl⟩

theorem minted_label (supply : BlankSupply) :
    supply.Minted ⟨supply.next + 1⟩ (label supply.next) :=
  ⟨supply.next, Nat.le_refl _, Nat.lt_succ_self _, rfl⟩

/-- The label begins like a minted one. -/
def isStemmed (b : String) : Bool := stem.toList.isPrefixOf b.toList

/-- A label that begins otherwise is never minted. -/
theorem avoids_of_not_stemmed (supply : BlankSupply) {b : String} (other : isStemmed b = false) :
    supply.Avoids b := by
  rintro n - rfl
  have starts : stem.toList <+: (label n).toList := by
    rw [label, String.toList_append]
    exact List.prefix_append _ _
  rw [isStemmed, List.isPrefixOf_iff_prefix.mpr starts] at other
  cases other

end BlankSupply

/-- No label of the term is still to come. -/
def Term.AvoidedBy (t : Term) (supply : BlankSupply) : Prop := ∀ b ∈ t.blanks, supply.Avoids b

/-- None of the blank nodes of the instance is yet to be minted. -/
def Instance.AvoidedBy (i : Instance) (supply : BlankSupply) : Prop :=
  ∀ b ∈ i.blanks, supply.Avoids b

theorem Instance.avoidedBy_of_bare {i : Instance} (bare : i.blanks = []) (supply : BlankSupply) :
    i.AvoidedBy supply := by
  intro b hb
  rw [bare] at hb
  cases hb

theorem Instance.avoidedBy_iff {i : Instance} {supply : BlankSupply} :
    i.AvoidedBy supply ↔ ∀ t ∈ i.arguments.terms, t.AvoidedBy supply := by
  simp only [Instance.AvoidedBy, Instance.blanks, List.mem_flatMap, Term.AvoidedBy]
  constructor
  · exact fun h t ht b hb => h b ⟨t, ht, hb⟩
  · rintro h b ⟨t, ht, hb⟩
    exact h t ht b hb

theorem Instance.AvoidedBy.grow {i : Instance} {supply later : BlankSupply}
    (avoided : i.AvoidedBy supply) (grows : supply.next ≤ later.next) : i.AvoidedBy later :=
  fun b h => (avoided b h).grow grows

namespace Filling

/-- The fillings differ at most in labels minted between the two supplies. -/
structure Agrees (supply later : BlankSupply) (f g : Filling) : Prop where
  value : g.value = f.value
  blank : ∀ b, ¬ supply.Minted later b → g.blank b = f.blank b

namespace Agrees

variable {supply later last : BlankSupply} {f g h : Filling}

theorem refl (supply later : BlankSupply) (f : Filling) : Agrees supply later f f :=
  ⟨rfl, fun _ _ => rfl⟩

/-- One mapping of labels after the other agrees with the first on what was there. -/
theorem trans (first : Agrees supply later f g) (second : Agrees later last g h)
    (grows : supply.next ≤ later.next) (grows' : later.next ≤ last.next) :
    Agrees supply last f h := by
  refine ⟨second.value.trans first.value, fun b unminted => ?_⟩
  have before : ¬ supply.Minted later b := fun minted => unminted (minted.left grows')
  have after : ¬ later.Minted last b := fun minted => unminted (minted.right grows)
  rw [second.blank b after, first.blank b before]

/-- On terms that were there, a later mapping is the earlier one. -/
theorem fill_eq (agrees : Agrees supply later f g) {t : Term} (avoided : t.AvoidedBy supply) :
    t.fill g = t.fill f :=
  Term.fill_congr t (fun x _ => congrFun agrees.value x)
    (fun b hb => agrees.blank b (avoided b hb).not_minted)

theorem instance_eq (agrees : Agrees supply later f g) {i : Instance}
    (avoided : i.AvoidedBy supply) : i.fill g = i.fill f :=
  Instance.fill_congr i (fun x _ => congrFun agrees.value x)
    (fun b hb => agrees.blank b (avoided b hb).not_minted)

end Agrees

theorem agrees_setLabel (f : Filling) (supply : BlankSupply) (c : String) :
    Agrees supply ⟨supply.next + 1⟩ f (f.setLabel (BlankSupply.label supply.next) c) := by
  refine ⟨rfl, fun b unminted => ?_⟩
  have apart : b ≠ BlankSupply.label supply.next := by
    rintro rfl
    exact unminted supply.minted_label
  simp [setLabel, apart]

theorem blank_setLabel (f : Filling) (b c : String) : (f.setLabel b c).blank b = c := by
  simp [setLabel]

end Filling

end RdfTemplates
