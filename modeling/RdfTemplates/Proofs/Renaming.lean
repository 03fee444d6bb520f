import RdfTemplates.Proofs.Matching.Search
import RdfTemplates.Proofs.Store.Bodies
import Mathlib.Algebra.Order.BigOperators.Group.List
import Mathlib.Algebra.Order.Ring.Nat
import Mathlib.Data.Finset.Card
import Mathlib.Data.Set.Function

/-!
# Renamed templates

A renaming takes the variables and the blank nodes of a template one to one to those
of another, its body to the other body as a set and its parameters to the other
parameters in some order. Two templates are renamed copies exactly when valuations
take the one to the other and back, whatever these put in for variables: no term gets
fewer places by putting something in, so nothing but variables was put in, and a
finite set that is taken onto another one and back is taken there one to one.
-/

namespace RdfTemplates

namespace Term

mutual
/-- The number of places in a term, inside lists too, where no variable stands. -/
def weight : Term → Nat
  | .var _ => 0
  | .list items => 1 + weightAll items
  | _ => 1
def weightAll : List Term → Nat
  | [] => 0
  | t :: ts => t.weight + weightAll ts
end

theorem weightAll_eq_sum (ts : List Term) : weightAll ts = (ts.map weight).sum := by
  induction ts with
  | nil => rfl
  | cons t ts ih => rw [weightAll, ih, List.map_cons, List.sum_cons]

/-- Types weigh nothing. -/
theorem weight_untyped (t : Term) : t.untyped.weight = t.weight := by
  induction t with
  | iri | literal | none | blank | var => rfl
  | list items ih =>
      rw [untyped, weight, weight, weightAll_eq_sum, weightAll_eq_sum, untypedAll_eq_map,
        List.map_map]
      congr 2
      exact List.map_congr_left ih

theorem isVar_of_weight {t : Term} (h : t.weight = 0) : t.isVar = true := by
  cases t with
  | var => rfl
  | list items =>
      rw [weight] at h
      omega
  | _ => cases h

end Term

section Sums

variable {α : Type} {f g : α → Nat} {xs : List α}

theorem eq_of_sum_map_eq (le : ∀ x ∈ xs, f x ≤ g x) (same : (xs.map g).sum = (xs.map f).sum) :
    ∀ x ∈ xs, g x = f x := by
  induction xs with
  | nil => nofun
  | cons x xs ih =>
      obtain ⟨here, there⟩ := List.forall_mem_cons.mp le
      have rest := List.sum_le_sum there
      simp only [List.map_cons, List.sum_cons] at same
      exact List.forall_mem_cons.mpr ⟨by omega, ih there (by omega)⟩

end Sums

/-- No filling makes a term lighter. -/
theorem Term.weight_le_fill (f : Filling) (t : Term) : t.weight ≤ (t.fill f).weight := by
  induction t with
  | iri | literal | none | blank => exact Nat.le_refl _
  | var x => exact Nat.zero_le _
  | list items ih =>
      rw [fill_list, weight, weight, weightAll_eq_sum, weightAll_eq_sum, List.map_map]
      exact Nat.add_le_add_left (List.sum_le_sum ih) 1

/-- Where no place is added, variables stand for variables. -/
theorem Term.isVar_of_weight_fill {f : Filling} {t : Term} (same : (t.fill f).weight = t.weight) :
    ∀ x ∈ t.vars, (f.value x).isVar = true := by
  induction t with
  | iri | literal | none | blank => nofun
  | var y =>
      intro x hx
      obtain rfl := List.mem_singleton.mp hx
      exact isVar_of_weight same
  | list items ih =>
      intro x hx
      obtain ⟨t, ht, hx⟩ := mem_varsAll.mp hx
      rw [fill_list, weight, weight, weightAll_eq_sum, weightAll_eq_sum, List.map_map] at same
      have each := eq_of_sum_map_eq (fun t _ => weight_le_fill f t) (Nat.add_left_cancel same)
      exact ih t ht (each t ht) x hx

namespace Instance

def weight (i : Instance) : Nat := (i.arguments.terms.map Term.weight).sum

theorem terms_untyped (i : Instance) :
    i.untyped.arguments.terms = i.arguments.terms.map Term.untyped :=
  i.arguments.terms_mapTerms Term.untyped

theorem weight_untyped (i : Instance) : i.untyped.weight = i.weight := by
  rw [weight, terms_untyped, List.map_map]
  exact congrArg List.sum (List.map_congr_left fun t _ => t.weight_untyped)

/-- The weight of a filled instance, term by term. -/
theorem weight_fill (f : Filling) (i : Instance) :
    (i.fill f).weight = (i.arguments.terms.map fun t => (t.fill f).weight).sum := by
  rw [weight, arguments_fill, ArgumentList.terms_mapTerms, List.map_map]
  rfl

theorem weight_le_fill (f : Filling) (i : Instance) : i.weight ≤ (i.fill f).weight := by
  rw [weight_fill]
  exact List.sum_le_sum fun t _ => t.weight_le_fill f

/-- Where nothing becomes heavier, variables are taken to variables. -/
theorem isVar_of_weight_fill {f : Filling} {i : Instance} (same : (i.fill f).weight = i.weight) :
    ∀ x ∈ i.vars, (f.value x).isVar = true := by
  intro x hx
  obtain ⟨t, ht, hx⟩ := mem_vars.mp hx
  rw [weight_fill, weight] at same
  have each := eq_of_sum_map_eq (fun t _ => t.weight_le_fill f) same
  exact Term.isVar_of_weight_fill (each t ht) x hx

end Instance

/-- What the valuation makes of a template are the parameters and the body of another one, each
in some order and whatever the types of variables. -/
structure Valuation.Takes (v : Valuation) (t u : Template) : Prop where
  parameters : (t.parameters.map fun p => (p.term.fill v.filling).untyped).Perm
    (u.parameters.map fun p => p.term.untyped)
  body : (t.body.map fun i => (i.fill v.filling).untyped).Perm (u.body.map Instance.untyped)

namespace Valuation.Takes

variable {v w : Valuation} {t u : Template}

/-- Bodies that are taken to each other weigh the same. -/
theorem weight_eq (takes : v.Takes t u) :
    (t.body.map fun i => (i.fill v.filling).weight).sum = (u.body.map Instance.weight).sum := by
  have same := (takes.body.map Instance.weight).sum_eq
  simpa [Function.comp_def, Instance.weight_untyped] using same

/-- Taken there and back, a body gets no place on the way. -/
theorem isVar_of_mem_vars (there : v.Takes t u) (back : w.Takes u t) {i : Instance}
    (hi : i ∈ t.body) {x : Variable} (hx : x ∈ i.vars) : (v.value x.label).isVar = true := by
  have grown : (t.body.map Instance.weight).sum ≤
      (t.body.map fun i => (i.fill v.filling).weight).sum :=
    List.sum_le_sum fun i _ => i.weight_le_fill v.filling
  have grown' : (u.body.map Instance.weight).sum ≤
      (u.body.map fun i => (i.fill w.filling).weight).sum :=
    List.sum_le_sum fun i _ => i.weight_le_fill w.filling
  have same : (t.body.map fun i => (i.fill v.filling).weight).sum =
      (t.body.map Instance.weight).sum := by
    have := there.weight_eq
    have := back.weight_eq
    omega
  have each := eq_of_sum_map_eq (fun i _ => i.weight_le_fill v.filling) same
  exact Instance.isVar_of_weight_fill (each i hi) x hx

theorem isVar_of_mem_parameters (takes : v.Takes t u) {p : Parameter} (hp : p ∈ t.parameters) :
    (v.value p.label).isVar = true := by
  obtain ⟨q, -, same⟩ := List.mem_map.mp
    (takes.parameters.subset (List.mem_map_of_mem hp))
  change q.term.untyped = (v.value p.label).untyped at same
  cases value : v.value p.label with
  | var => rfl
  | _ =>
      rw [value] at same
      cases same

end Valuation.Takes

/-- Another label for each variable and for each blank node. -/
structure Renaming where
  label : String → String
  blank : String → String

namespace Renaming

/-- A renaming as a valuation. -/
def valuation (r : Renaming) : Valuation := ⟨fun x => .var ⟨r.label x, .top⟩, r.blank⟩

/-- The instance with other labels. -/
def apply (r : Renaming) (i : Instance) : Instance := i.fill r.valuation.filling

end Renaming

namespace Template

/-- The labels of the variables among the parameters and in the body. -/
def labels (t : Template) : List String :=
  t.parameters.map (·.label) ++ t.body.flatMap fun i => i.vars.map (·.label)

def blanks (t : Template) : List String := t.body.flatMap Instance.blanks

end Template

/-- The renaming takes the variables of the one template one to one to those of the other, and so
the blank nodes, the parameters to the others in some order and the body to the other one. -/
structure Renaming.Carries (r : Renaming) (t u : Template) : Prop where
  labels : Set.BijOn r.label {x | x ∈ t.labels} {x | x ∈ u.labels}
  blanks : Set.BijOn r.blank {b | b ∈ t.blanks} {b | b ∈ u.blanks}
  parameters : (t.parameters.map fun p => r.label p.label).Perm (u.parameters.map (·.label))
  body : ∀ j, (t.body.map r.apply).contains j = u.body.contains j

namespace Term

def labels (t : Term) : List String := t.vars.map (·.label)

theorem labels_list (items : List Term) : (list items).labels = items.flatMap labels := by
  have all (ts : List Term) : varsAll ts = ts.flatMap vars := by
    induction ts with
    | nil => rfl
    | cons t ts ih => rw [varsAll, ih, List.flatMap_cons]
  rw [labels, vars, all, List.map_flatMap]
  rfl

theorem blanks_list (items : List Term) : (list items).blanks = items.flatMap blanks := by
  rw [blanks]
  induction items with
  | nil => rfl
  | cons t ts ih => rw [blanksAll, ih, List.flatMap_cons]

theorem labels_untyped (t : Term) : t.untyped.labels = t.labels := by
  induction t with
  | iri | literal | none | blank | var => rfl
  | list items ih =>
      rw [untyped, untypedAll_eq_map, labels_list, labels_list, List.flatMap_map]
      exact List.flatMap_congr ih

theorem blanks_untyped (t : Term) : t.untyped.blanks = t.blanks := by
  induction t with
  | iri | literal | none | blank | var => rfl
  | list items ih =>
      rw [untyped, untypedAll_eq_map, blanks_list, blanks_list, List.flatMap_map]
      exact List.flatMap_congr ih

theorem labels_rename (r : Renaming) (t : Term) :
    (t.fill r.valuation.filling).labels = t.labels.map r.label := by
  induction t with
  | iri | literal | none | blank | var => rfl
  | list items ih =>
      rw [fill_list, labels_list, labels_list, List.flatMap_map, List.map_flatMap]
      exact List.flatMap_congr ih

theorem blanks_rename (r : Renaming) (t : Term) :
    (t.fill r.valuation.filling).blanks = t.blanks.map r.blank := by
  induction t with
  | iri | literal | none | blank | var => rfl
  | list items ih =>
      rw [fill_list, blanks_list, blanks_list, List.flatMap_map, List.map_flatMap]
      exact List.flatMap_congr ih

end Term

namespace Instance

def labels (i : Instance) : List String := i.vars.map (·.label)

theorem labels_eq (i : Instance) : i.labels = i.arguments.terms.flatMap Term.labels := by
  rw [labels, vars, List.map_flatMap]
  rfl

theorem labels_untyped (i : Instance) : i.untyped.labels = i.labels := by
  rw [labels_eq, labels_eq, terms_untyped, List.flatMap_map]
  exact List.flatMap_congr fun t _ => t.labels_untyped

theorem blanks_untyped (i : Instance) : i.untyped.blanks = i.blanks := by
  rw [blanks, blanks, terms_untyped, List.flatMap_map]
  exact List.flatMap_congr fun t _ => t.blanks_untyped

theorem labels_rename (r : Renaming) (i : Instance) :
    (r.apply i).labels = i.labels.map r.label := by
  rw [Renaming.apply, labels_eq, labels_eq, arguments_fill, ArgumentList.terms_mapTerms,
    List.flatMap_map, List.map_flatMap]
  exact List.flatMap_congr fun t _ => t.labels_rename r

theorem blanks_rename (r : Renaming) (i : Instance) :
    (r.apply i).blanks = i.blanks.map r.blank := by
  rw [Renaming.apply, blanks, blanks, arguments_fill, ArgumentList.terms_mapTerms,
    List.flatMap_map, List.map_flatMap]
  exact List.flatMap_congr fun t _ => t.blanks_rename r

end Instance

/-- A function that takes a finite set onto another one is one to one, if some function takes the
other set back onto the first. -/
theorem bijOn_of_perm {f g : String → String} {xs ys : List String} (there : (xs.map f).Perm ys)
    (back : (ys.map g).Perm xs) : Set.BijOn f {x | x ∈ xs} {y | y ∈ ys} := by
  have image {f : String → String} {xs ys : List String} (taken : (xs.map f).Perm ys) :
      xs.toFinset.image f = ys.toFinset := by
    ext y
    simp [← taken.mem_iff]
  have few : ys.toFinset.card ≤ xs.toFinset.card := by
    rw [← image there]
    exact Finset.card_image_le
  have many : xs.toFinset.card ≤ ys.toFinset.card := by
    rw [← image back]
    exact Finset.card_image_le
  have injective : Set.InjOn f xs.toFinset := by
    rw [← Finset.card_image_iff, image there]
    exact Nat.le_antisymm few many
  refine ⟨fun x hx => there.subset (List.mem_map_of_mem hx), ?_, fun y hy => ?_⟩
  · rwa [List.coe_toFinset] at injective
  · obtain ⟨x, hx, same⟩ := List.mem_map.mp (there.symm.subset hy)
    exact ⟨x, hx, same⟩

namespace Valuation

/-- What is left of a valuation that puts variables in for variables. -/
def toRenaming (v : Valuation) : Renaming where
  label x := match v.value x with
    | .var y => y.label
    | _ => x
  blank := v.blank

variable {v w : Valuation} {t u : Template}

theorem untyped_value {x : String} (isVar : (v.value x).isVar = true) :
    (v.value x).untyped = .var ⟨v.toRenaming.label x, .top⟩ := by
  cases value : v.value x with
  | var y => simp [toRenaming, value, Term.untyped]
  | _ =>
      rw [value] at isVar
      cases isVar

/-- Where a valuation takes variables to variables, it is a renaming but for types. -/
theorem untyped_fill_toRenaming {t : Term}
    (areVars : ∀ x ∈ t.vars, (v.value x.label).isVar = true) :
    (t.fill v.toRenaming.valuation.filling).untyped = (t.fill v.filling).untyped := by
  induction t with
  | iri | literal | none | blank => rfl
  | var x => exact (untyped_value (areVars x List.mem_cons_self)).symm
  | list items ih =>
      simp only [Term.fill_list, Term.untyped, Term.untypedAll_eq_map, List.map_map]
      congr 1
      refine List.map_congr_left fun t ht => ih t ht fun x hx => areVars x ?_
      exact Term.mem_varsAll.mpr ⟨t, ht, hx⟩

theorem untyped_apply_toRenaming {i : Instance}
    (areVars : ∀ x ∈ i.vars, (v.value x.label).isVar = true) :
    (v.toRenaming.apply i).untyped = (i.fill v.filling).untyped := by
  rw [Renaming.apply, Instance.fill, Instance.fill, Instance.untyped_eq_mapTerms,
    Instance.untyped_eq_mapTerms, Instance.mapTerms_mapTerms, Instance.mapTerms_mapTerms]
  refine Instance.mapTerms_congr i fun t ht => untyped_fill_toRenaming fun x hx => areVars x ?_
  exact Instance.mem_vars.mpr ⟨t, ht, hx⟩

/-- Two valuations that take two templates to each other are renamings. -/
theorem Takes.toRenaming (there : v.Takes t u) (back : w.Takes u t) :
    v.toRenaming.valuation.Takes t u := by
  constructor
  case parameters =>
    refine (List.Perm.of_eq (List.map_congr_left fun p hp => ?_)).trans there.parameters
    exact (untyped_value (there.isVar_of_mem_parameters hp)).symm
  case body =>
    refine (List.Perm.of_eq (List.map_congr_left fun i hi => ?_)).trans there.body
    exact untyped_apply_toRenaming fun x hx => there.isVar_of_mem_vars back hi hx

end Valuation

namespace Renaming

variable {r : Renaming} {t u : Template}

/-- The parameters are renamed to the parameters. -/
theorem parameters_of_takes (takes : r.valuation.Takes t u) :
    (t.parameters.map fun p => r.label p.label).Perm (u.parameters.map (·.label)) := by
  have labels := takes.parameters.flatMap_right Term.labels
  rw [List.flatMap_map, List.flatMap_map] at labels
  rw [List.map_eq_flatMap, List.map_eq_flatMap]
  exact labels

/-- The labels of variables are renamed to the labels of variables. -/
theorem labels_of_takes (takes : r.valuation.Takes t u) :
    (t.labels.map r.label).Perm u.labels := by
  have body := takes.body.flatMap_right Instance.labels
  simp only [List.flatMap_map, Instance.labels_untyped] at body
  rw [Template.labels, Template.labels, List.map_append, List.map_map, List.map_flatMap]
  refine (parameters_of_takes takes).append ((List.Perm.of_eq ?_).trans body)
  exact List.flatMap_congr fun i _ => (i.labels_rename r).symm

/-- The blank nodes are renamed to the blank nodes. -/
theorem blanks_of_takes (takes : r.valuation.Takes t u) :
    (t.blanks.map r.blank).Perm u.blanks := by
  have body := takes.body.flatMap_right Instance.blanks
  simp only [List.flatMap_map, Instance.blanks_untyped] at body
  rw [Template.blanks, Template.blanks, List.map_flatMap]
  refine (List.Perm.of_eq ?_).trans body
  exact List.flatMap_congr fun i _ => (i.blanks_rename r).symm

/-- Two renamings, there and back, are one to one. -/
theorem carries_of_takes {r' : Renaming} (there : r.valuation.Takes t u)
    (back : r'.valuation.Takes u t) : r.Carries t u where
  labels := bijOn_of_perm (labels_of_takes there) (labels_of_takes back)
  blanks := bijOn_of_perm (blanks_of_takes there) (blanks_of_takes back)
  parameters := parameters_of_takes there
  body j := by
    rw [Bool.eq_iff_iff, Instance.contains_iff_untyped, Instance.contains_iff_untyped, List.map_map]
    exact there.body.mem_iff

/-- The renaming that takes labels back, as far as it goes. -/
noncomputable def inverse (r : Renaming) (t : Template) : Renaming where
  label := Function.invFunOn r.label {x | x ∈ t.labels}
  blank := Function.invFunOn r.blank {b | b ∈ t.blanks}

theorem fill_unchanged (t : Term) :
    t.fill (⟨id, id⟩ : Renaming).valuation.filling = t.untyped := by
  induction t with
  | iri | literal | none | blank | var => rfl
  | list items ih =>
      rw [Term.fill_list, Term.untyped, Term.untypedAll_eq_map]
      exact congrArg Term.list (List.map_congr_left ih)

theorem apply_unchanged (i : Instance) : (⟨id, id⟩ : Renaming).apply i = i.untyped :=
  Instance.mapTerms_congr i fun t _ => fill_unchanged t

/-- A renaming and then one that takes the labels back. -/
theorem apply_apply {r' : Renaming} {i : Instance}
    (labels : ∀ x ∈ i.labels, r'.label (r.label x) = x)
    (blanks : ∀ b ∈ i.blanks, r'.blank (r.blank b) = b) :
    r'.apply (r.apply i) = i.untyped := by
  rw [← apply_unchanged, apply, apply, Instance.fill_fill]
  refine i.fill_congr (fun x hx => ?_) blanks
  change Term.var ⟨r'.label (r.label x.label), .top⟩ = .var ⟨x.label, .top⟩
  rw [labels x.label (List.mem_map_of_mem hx)]

theorem apply_untyped (r : Renaming) (i : Instance) : r.apply i.untyped = r.apply i := by
  rw [apply, Instance.fill, Instance.untyped_eq_mapTerms, Instance.mapTerms_mapTerms]
  exact Instance.mapTerms_congr i fun t _ => r.valuation.fill_untyped t

/-- The variables that a renaming puts in have no type of their own. -/
theorem untyped_apply (r : Renaming) (i : Instance) : (r.apply i).untyped = r.apply i := by
  have terms (t : Term) :
      (t.fill r.valuation.filling).untyped = t.fill r.valuation.filling := by
    induction t with
    | iri | literal | none | blank | var => rfl
    | list items ih =>
        rw [Term.fill_list, Term.untyped, Term.untypedAll_eq_map, List.map_map]
        exact congrArg Term.list (List.map_congr_left ih)
  rw [apply, Instance.fill, Instance.untyped_eq_mapTerms, Instance.mapTerms_mapTerms]
  exact Instance.mapTerms_congr i fun t _ => terms t

/-- A renaming takes one template to the other if it takes parameters to parameters and the one body
to the other. -/
theorem takes_of_perm
    (parameters : (t.parameters.map fun p => r.label p.label).Perm (u.parameters.map (·.label)))
    (body : (t.body.map r.apply).Perm (u.body.map Instance.untyped)) : r.valuation.Takes t u := by
  constructor
  case parameters =>
    have terms := parameters.map fun x => Term.var ⟨x, .top⟩
    rw [List.map_map, List.map_map] at terms
    exact terms
  case body =>
    refine (List.Perm.of_eq (List.map_congr_left fun i _ => ?_)).trans body
    exact r.untyped_apply i

namespace Carries

theorem label_inverse (carries : r.Carries t u) {x : String} (hx : x ∈ t.labels) :
    (r.inverse t).label (r.label x) = x :=
  carries.labels.injOn.leftInvOn_invFunOn hx

theorem blank_inverse (carries : r.Carries t u) {b : String} (hb : b ∈ t.blanks) :
    (r.inverse t).blank (r.blank b) = b :=
  carries.blanks.injOn.leftInvOn_invFunOn hb

/-- Renaming there and back leaves a body as it was. -/
theorem map_apply_inverse (carries : r.Carries t u) :
    (t.body.map r.apply).map (r.inverse t).apply = t.body.map Instance.untyped := by
  rw [List.map_map]
  refine List.map_congr_left fun i hi => apply_apply (fun x hx => carries.label_inverse ?_)
    fun b hb => carries.blank_inverse ?_
  · exact List.mem_append_right _ (List.mem_flatMap.mpr ⟨i, hi, hx⟩)
  · exact List.mem_flatMap.mpr ⟨i, hi, hb⟩

/-- The one body is a reordering of the other, renamed: what is taken back to different instances is
different. -/
theorem body_perm (carries : r.Carries t u) (distinct : Distinct t.body)
    (distinct' : Distinct u.body) : (t.body.map r.apply).Perm (u.body.map Instance.untyped) := by
  have apart : ((t.body.map r.apply).map (r.inverse t).apply).Nodup := by
    rw [carries.map_apply_inverse]
    exact Instance.nodup_untyped distinct
  have listed (j : Instance) : j.untyped ∈ (t.body.map r.apply).map Instance.untyped ↔
      j.untyped ∈ u.body.map Instance.untyped := by
    rw [← Instance.contains_iff_untyped, ← Instance.contains_iff_untyped, carries.body j]
  refine (List.perm_ext_iff_of_nodup (.of_map _ apart)
    (Instance.nodup_untyped distinct')).mpr fun j => ?_
  constructor
  · intro h
    obtain ⟨i, hi, rfl⟩ := List.mem_map.mp h
    rw [← r.untyped_apply]
    exact (listed (r.apply i)).mp (List.mem_map_of_mem h)
  · intro h
    obtain ⟨k, hk, rfl⟩ := List.mem_map.mp h
    obtain ⟨_, here, same⟩ := List.mem_map.mp ((listed k).mpr h)
    obtain ⟨i, hi, rfl⟩ := List.mem_map.mp here
    rw [← same, r.untyped_apply]
    exact here

theorem takes (carries : r.Carries t u) (distinct : Distinct t.body) (distinct' : Distinct u.body) :
    r.valuation.Takes t u :=
  takes_of_perm carries.parameters (carries.body_perm distinct distinct')

theorem takes_inverse (carries : r.Carries t u) (distinct : Distinct t.body)
    (distinct' : Distinct u.body) : (r.inverse t).valuation.Takes u t := by
  refine takes_of_perm ?_ ?_
  · have labels := carries.parameters.map (r.inverse t).label
    rw [List.map_map, List.map_map] at labels
    refine labels.symm.trans (List.Perm.of_eq (List.map_congr_left fun p hp => ?_))
    exact carries.label_inverse (List.mem_append_left _ (List.mem_map_of_mem hp))
  · have body := (carries.body_perm distinct distinct').map (r.inverse t).apply
    rw [carries.map_apply_inverse, List.map_map] at body
    refine (List.Perm.of_eq (List.map_congr_left fun i _ => ?_)).trans body.symm
    exact ((r.inverse t).apply_untyped i).symm

end Carries

end Renaming

/-- Two templates are renamed copies when valuations take the one to the other and back. -/
theorem Template.exists_renaming_iff {t u : Template} (distinct : Distinct t.body)
    (distinct' : Distinct u.body) : (∃ r : Renaming, r.Carries t u) ↔
      (∃ v : Valuation, v.Takes t u) ∧ ∃ w : Valuation, w.Takes u t := by
  constructor
  · rintro ⟨r, carries⟩
    exact ⟨⟨_, carries.takes distinct distinct'⟩, ⟨_, carries.takes_inverse distinct distinct'⟩⟩
  · rintro ⟨⟨v, there⟩, w, back⟩
    exact ⟨_, Renaming.carries_of_takes (there.toRenaming back) (back.toRenaming there)⟩

end RdfTemplates
