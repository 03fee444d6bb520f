import RdfTemplates.Template
import RdfTemplates.Term.Equality
import Mathlib.Data.List.Basic

/-!
# Filling in terms

A filling puts a term in place of every variable and a label in place of every
blank node label. What a filling makes of a term depends on the variables and
labels of the term only. A valuation goes by the labels of variables, so it
does not tell terms apart that are the same. A relabelling leaves variables alone.
-/

namespace RdfTemplates

/-- What is put for each variable and for each blank node. -/
structure Filling where
  value : Variable → Term
  blank : String → String

namespace Term

/-- Induction on the terms inside lists. -/
@[elab_as_elim, induction_eliminator]
theorem listInduction {P : Term → Prop} (iri : ∀ i, P (.iri i)) (literal : ∀ l, P (.literal l))
    (blank : ∀ b, P (.blank b)) (var : ∀ x, P (.var x))
    (list : ∀ items : List Term, (∀ t ∈ items, P t) → P (.list items)) (none : P .none) :
    ∀ t, P t
  | .iri i => iri i
  | .literal l => literal l
  | .blank b => blank b
  | .var x => var x
  | .list items => list items fun t _ =>
      listInduction iri literal blank var list none t
  | .none => none

mutual
/-- The term with what the filling puts for its variables and blank nodes. -/
def fill (f : Filling) : Term → Term
  | .var x => f.value x
  | .blank b => .blank (f.blank b)
  | .list items => .list (fillAll f items)
  | t => t
def fillAll (f : Filling) : List Term → List Term
  | [] => []
  | t :: ts => fill f t :: fillAll f ts
end

mutual
/-- The blank node labels of a term, from left to right and with repetitions. -/
def blanks : Term → List String
  | .blank b => [b]
  | .list items => blanksAll items
  | _ => []
def blanksAll : List Term → List String
  | [] => []
  | t :: ts => t.blanks ++ blanksAll ts
end

theorem fillAll_eq_map (f : Filling) (ts : List Term) : fillAll f ts = ts.map (fill f) := by
  induction ts with
  | nil => rfl
  | cons t ts ih => rw [fillAll, ih, List.map_cons]

theorem untypedAll_eq_map (ts : List Term) : untypedAll ts = ts.map untyped := by
  induction ts with
  | nil => rfl
  | cons t ts ih => rw [untypedAll, ih, List.map_cons]

theorem mem_blanksAll {ts : List Term} {b : String} :
    b ∈ blanksAll ts ↔ ∃ t ∈ ts, b ∈ t.blanks := by
  induction ts with
  | nil => simp [blanksAll]
  | cons t ts ih => simp [blanksAll, ih]

theorem mem_varsAll {ts : List Term} {x : Variable} :
    x ∈ varsAll ts ↔ ∃ t ∈ ts, x ∈ t.vars := by
  induction ts with
  | nil => simp [varsAll]
  | cons t ts ih => simp [varsAll, ih]

@[simp] theorem fill_list (f : Filling) (items : List Term) :
    (Term.list items).fill f = .list (items.map (fill f)) := by
  rw [fill, fillAll_eq_map]

/-- A filling matters only on the variables and blank nodes that there are. -/
theorem fill_congr {f g : Filling} (t : Term) (values : ∀ x ∈ t.vars, f.value x = g.value x)
    (labels : ∀ b ∈ t.blanks, f.blank b = g.blank b) : t.fill f = t.fill g := by
  induction t with
  | iri | literal | none => rfl
  | blank b => simp [fill, labels b (by simp [blanks])]
  | var x => exact values x (by simp [vars])
  | list items ih =>
      rw [fill_list, fill_list]
      congr 1
      apply List.map_congr_left
      intro t h
      exact ih t h (fun x hx => values x (mem_varsAll.mpr ⟨t, h, hx⟩))
        (fun b hb => labels b (mem_blanksAll.mpr ⟨t, h, hb⟩))

/-- The variables of a filled term come from what was put for its variables. -/
theorem mem_vars_fill {f : Filling} {t : Term} {x : Variable} (h : x ∈ (t.fill f).vars) :
    ∃ y ∈ t.vars, x ∈ (f.value y).vars := by
  induction t with
  | iri | literal | none | blank => cases h
  | var y => exact ⟨y, by simp [vars], h⟩
  | list items ih =>
      rw [fill_list] at h
      obtain ⟨u, listed, h⟩ := mem_varsAll.mp h
      obtain ⟨t, ht, rfl⟩ := List.mem_map.mp listed
      obtain ⟨y, hy, h⟩ := ih t ht h
      exact ⟨y, mem_varsAll.mpr ⟨t, ht, hy⟩, h⟩

/-- The blank nodes of a filled term come from what was put for its variables, or are relabelled. -/
theorem mem_blanks_fill {f : Filling} {t : Term} {b : String} (h : b ∈ (t.fill f).blanks) :
    (∃ y ∈ t.vars, b ∈ (f.value y).blanks) ∨ ∃ c ∈ t.blanks, b = f.blank c := by
  induction t with
  | iri | literal | none => cases h
  | blank c => exact .inr ⟨c, by simp [blanks], List.mem_singleton.mp h⟩
  | var y => exact .inl ⟨y, by simp [vars], h⟩
  | list items ih =>
      rw [fill_list] at h
      obtain ⟨u, listed, h⟩ := mem_blanksAll.mp h
      obtain ⟨t, ht, rfl⟩ := List.mem_map.mp listed
      rcases ih t ht h with ⟨y, hy, h⟩ | ⟨c, hc, same⟩
      · exact .inl ⟨y, mem_varsAll.mpr ⟨t, ht, hy⟩, h⟩
      · exact .inr ⟨c, mem_blanksAll.mpr ⟨t, ht, hc⟩, same⟩

theorem isNone_iff {t : Term} : t.isNone = true ↔ t = .none := by
  cases t <;> simp [isNone]

end Term

namespace Filling

/-- One filling after the other. -/
def andThen (f g : Filling) : Filling :=
  ⟨fun x => (f.value x).fill g, fun b => g.blank (f.blank b)⟩

/-- Filling twice is filling once with both. -/
theorem fill_fill (f g : Filling) (t : Term) : (t.fill f).fill g = t.fill (f.andThen g) := by
  induction t with
  | iri | literal | none | blank | var => rfl
  | list items ih => simpa [andThen] using ih

/-- Takes every blank node label to another one and leaves variables alone. -/
def relabelling (labels : String → String) : Filling := ⟨.var, labels⟩

@[simp] theorem isNone_relabelling (labels : String → String) (t : Term) :
    (t.fill (relabelling labels)).isNone = t.isNone := by
  cases t <;> rfl

/-- Keeping all labels changes nothing. -/
theorem fill_relabelling_id (t : Term) : t.fill (relabelling id) = t := by
  induction t with
  | iri | literal | none | blank | var => rfl
  | list items ih =>
      rw [Term.fill_list]
      congr 1
      exact (List.map_congr_left ih).trans (List.map_id items)

/-- The filling with another label in place of one. -/
def setLabel (f : Filling) (b c : String) : Filling :=
  { f with blank := Function.update f.blank b c }

end Filling

/-- What variables and blank nodes stand for, by their labels. -/
structure Valuation where
  value : String → Term
  blank : String → String

namespace Valuation

/-- A valuation puts values for variables by their labels. -/
def filling (v : Valuation) : Filling := ⟨fun x => v.value x.label, v.blank⟩

@[simp] theorem filling_value (v : Valuation) (x : Variable) :
    v.filling.value x = v.value x.label := rfl

@[simp] theorem filling_blank (v : Valuation) (b : String) : v.filling.blank b = v.blank b := rfl

/-- A valuation does not look at the types of variables. -/
theorem fill_untyped (v : Valuation) (t : Term) : t.untyped.fill v.filling = t.fill v.filling := by
  induction t with
  | iri | literal | none | blank | var => rfl
  | list items ih => simpa [Term.untyped, Term.untypedAll_eq_map] using ih

/-- Terms that are equal but for types are filled alike. -/
theorem fill_same (v : Valuation) {t u : Term} (same : (t == u) = true) :
    t.fill v.filling = u.fill v.filling := by
  rw [← fill_untyped v t, ← fill_untyped v u, (Term.sameUnder_untyped t u).mp same]

end Valuation

namespace ArgumentList

variable (f : Term → Term) (args : ArgumentList)

@[simp] theorem terms_mapTerms : (args.mapTerms f).terms = args.terms.map f := by
  simp [terms, mapTerms, Function.comp_def]

@[simp] theorem size_mapTerms : (args.mapTerms f).size = args.size := by
  simp [size, mapTerms]

@[simp] theorem expander_mapTerms : (args.mapTerms f).expander = args.expander := rfl

end ArgumentList

namespace Instance

/-- The instance with all its terms filled. -/
def fill (f : Filling) (i : Instance) : Instance := i.mapTerms (Term.fill f)

def vars (i : Instance) : List Variable := i.arguments.terms.flatMap Term.vars

def blanks (i : Instance) : List String := i.arguments.terms.flatMap Term.blanks

@[simp] theorem iri_fill (f : Filling) (i : Instance) : (i.fill f).iri = i.iri := rfl

@[simp] theorem arguments_fill (f : Filling) (i : Instance) :
    (i.fill f).arguments = i.arguments.mapTerms (Term.fill f) := rfl

theorem untyped_eq_mapTerms (i : Instance) : i.untyped = i.mapTerms Term.untyped := rfl

theorem mapTerms_congr {f g : Term → Term} (i : Instance)
    (h : ∀ t ∈ i.arguments.terms, f t = g t) : i.mapTerms f = i.mapTerms g := by
  have arguments : i.arguments.arguments.map (fun a => { a with term := f a.term }) =
      i.arguments.arguments.map fun a => { a with term := g a.term } := by
    apply List.map_congr_left
    intro a ha
    rw [h a.term (List.mem_map_of_mem ha)]
  simp only [mapTerms, ArgumentList.mapTerms, arguments]

theorem mapTerms_mapTerms (f g : Term → Term) (i : Instance) :
    (i.mapTerms f).mapTerms g = i.mapTerms fun t => g (f t) := by
  simp [mapTerms, ArgumentList.mapTerms, Function.comp_def]

theorem fill_fill (f g : Filling) (i : Instance) : (i.fill f).fill g = i.fill (f.andThen g) := by
  rw [fill, fill, mapTerms_mapTerms]
  exact mapTerms_congr i fun t _ => Filling.fill_fill f g t

theorem fill_congr {f g : Filling} (i : Instance) (values : ∀ x ∈ i.vars, f.value x = g.value x)
    (labels : ∀ b ∈ i.blanks, f.blank b = g.blank b) : i.fill f = i.fill g :=
  mapTerms_congr i fun t h => Term.fill_congr t
    (fun x hx => values x (List.mem_flatMap.mpr ⟨t, h, hx⟩))
    (fun b hb => labels b (List.mem_flatMap.mpr ⟨t, h, hb⟩))

theorem fill_relabelling_id (i : Instance) : i.fill (.relabelling id) = i := by
  have same := mapTerms_congr i fun t _ => Filling.fill_relabelling_id t
  rw [fill, same]
  simp [mapTerms, ArgumentList.mapTerms]

theorem mem_vars {i : Instance} {x : Variable} :
    x ∈ i.vars ↔ ∃ t ∈ i.arguments.terms, x ∈ t.vars := List.mem_flatMap

theorem mem_blanks {i : Instance} {b : String} :
    b ∈ i.blanks ↔ ∃ t ∈ i.arguments.terms, b ∈ t.blanks := List.mem_flatMap

theorem mem_vars_fill {f : Filling} {i : Instance} {x : Variable} (h : x ∈ (i.fill f).vars) :
    ∃ y ∈ i.vars, x ∈ (f.value y).vars := by
  obtain ⟨u, listed, h⟩ := mem_vars.mp h
  rw [arguments_fill, ArgumentList.terms_mapTerms] at listed
  obtain ⟨t, ht, rfl⟩ := List.mem_map.mp listed
  obtain ⟨y, hy, h⟩ := Term.mem_vars_fill h
  exact ⟨y, mem_vars.mpr ⟨t, ht, hy⟩, h⟩

theorem mem_blanks_fill {f : Filling} {i : Instance} {b : String} (h : b ∈ (i.fill f).blanks) :
    (∃ y ∈ i.vars, b ∈ (f.value y).blanks) ∨ ∃ c ∈ i.blanks, b = f.blank c := by
  obtain ⟨u, listed, h⟩ := mem_blanks.mp h
  rw [arguments_fill, ArgumentList.terms_mapTerms] at listed
  obtain ⟨t, ht, rfl⟩ := List.mem_map.mp listed
  rcases Term.mem_blanks_fill h with ⟨y, hy, h⟩ | ⟨c, hc, same⟩
  · exact .inl ⟨y, mem_vars.mpr ⟨t, ht, hy⟩, h⟩
  · exact .inr ⟨c, mem_blanks.mpr ⟨t, ht, hc⟩, same⟩

theorem fill_same (v : Valuation) {i j : Instance} (same : (i == j) = true) :
    i.fill v.filling = j.fill v.filling := by
  have untyped (i : Instance) : i.untyped.fill v.filling = i.fill v.filling := by
    simp [fill, mapTerms, ArgumentList.mapTerms, Instance.untyped, ArgumentList.untyped,
      Argument.untyped, Valuation.fill_untyped]
  rw [← untyped i, ← untyped j, (sameUnder_untyped i j).mp same]

end Instance

end RdfTemplates
