import RdfTemplates.Proofs.Filling
import RdfTemplates.ListExpansion
import Mathlib.Data.List.Forall2

/-!
# List expansion and filling

As soon as every marked argument is a list or `none`, it makes no difference
whether terms are replaced before the lists are expanded or after, by a filling
or by anything else that goes into lists and leaves `none` alone. The terms of
the steps are arguments or elements of arguments.
-/

namespace RdfTemplates

/-- The argument with its term filled. -/
def Argument.fill (f : Filling) (a : Argument) : Argument := { a with term := a.term.fill f }

namespace Instance

variable {i : Instance} {f : Filling} {ps : ParameterList}

theorem mem_zip_fill {a : Argument} {q : Parameter}
    (h : (a, q) ∈ i.arguments.arguments.zip ps) :
    (a.fill f, q) ∈ (i.fill f).arguments.arguments.zip ps := by
  have filled : (i.fill f).arguments.arguments =
      i.arguments.arguments.map (Argument.fill f) := rfl
  rw [filled, List.zip_map_left]
  exact List.mem_map.mpr ⟨(a, q), h, rfl⟩

theorem mem_filled_zip {pair : Argument × Parameter}
    (h : pair ∈ (i.fill f).arguments.arguments.zip ps) :
    ∃ a q, (a, q) ∈ i.arguments.arguments.zip ps ∧ pair = (a.fill f, q) := by
  have filled : (i.fill f).arguments.arguments =
      i.arguments.arguments.map (Argument.fill f) := rfl
  rw [filled, List.zip_map_left] at h
  obtain ⟨⟨a, q⟩, here, rfl⟩ := List.mem_map.mp h
  exact ⟨a, q, here, rfl⟩

end Instance

/-- A list becomes the list of what its elements become, and `none` stays as it is. -/
structure GoesIntoLists (f : Term → Term) : Prop where
  list : ∀ items, f (.list items) = .list (items.map f)
  none : f .none = .none

theorem Term.goesIntoLists_fill (f : Filling) : GoesIntoLists (Term.fill f) :=
  ⟨fill_list f, rfl⟩

/-- The argument with another term and the mark it had. -/
def Argument.mapTerm (f : Term → Term) (a : Argument) : Argument := { a with term := f a.term }

/-- Replaces the terms of the arguments. A step without arguments stays as it is. -/
def ExpansionStep.mapTerms (f : Term → Term) : ExpansionStep → ExpansionStep
  | .expanded args => .expanded (args.mapTerms f)
  | .exhausted step positions => .exhausted step positions

/-- The step with its terms filled. -/
def ExpansionStep.fill (f : Filling) : ExpansionStep → ExpansionStep := mapTerms (Term.fill f)

namespace ListExpansion

/-- The argument can be expanded if it is to be. -/
def Known (a : Argument) : Prop := a.marked = true → a.term.isList = true ∨ a.term.isNone = true

/-- Lists can be expanded if each marked argument is known. -/
theorem canExpand_iff {args : ArgumentList} :
    args.canExpand = true ↔ ∀ a ∈ args.arguments, Known a := by
  simp only [ArgumentList.canExpand, List.all_eq_true, Bool.or_eq_true, Bool.not_eq_true', Known]
  refine forall₂_congr fun a _ => ?_
  cases a.marked <;> simp

theorem Known.cases {a : Argument} (known : Known a) (marked : a.marked = true) :
    (∃ items, a.term = .list items) ∨ a.term = .none := by
  rcases known marked with list | none
  · cases term : a.term with
    | list items => exact .inl ⟨items, rfl⟩
    | _ => rw [term] at list; cases list
  · exact .inr (Term.isNone_iff.mp none)

/-- The positions of the lists that have no element left. -/
def endedAt (as : List Argument) (step : Nat) : List Nat :=
  (as.zipIdx.filter fun (a, _) => (elementAt? step a).isNone).map (·.2)

/-- A step of a zip expands if no list has ended by then. -/
theorem zipStep_eq (as : List Argument) (step : Nat) :
    zipStep as step =
      if endedAt as step = [] then .expanded ⟨as.filterMap (elementAt? step), none⟩
      else .exhausted step (endedAt as step) := by
  unfold zipStep endedAt
  cases as.zipIdx.filter fun (a, _) => (elementAt? step a).isNone <;> simp

section Replacing

variable {f : Term → Term} (goes : GoesIntoLists f)

@[simp] theorem marked_mapTerm (f : Term → Term) (a : Argument) :
    (a.mapTerm f).marked = a.marked := rfl

include goes

theorem known_mapTerm {a : Argument} (known : Known a) : Known (a.mapTerm f) := by
  intro marked
  rcases known.cases marked with ⟨items, list⟩ | none
  · exact .inl (by rw [Argument.mapTerm, list, goes.list]; rfl)
  · exact .inr (by rw [Argument.mapTerm, none, goes.none]; rfl)

/-- A map that goes into lists goes to the elements. -/
theorem elements_mapTerm {a : Argument} (known : Known a) (marked : a.marked = true) :
    (a.mapTerm f).elements = a.elements.map f := by
  rcases known.cases marked with ⟨items, list⟩ | none
  · simp [Argument.mapTerm, Argument.elements, list, goes.list]
  · simp [Argument.mapTerm, Argument.elements, none, goes.none]

theorem isNone_mapTerm_marked {a : Argument} (known : Known a) (marked : a.marked = true) :
    (a.mapTerm f).term.isNone = a.term.isNone := by
  rcases known.cases marked with ⟨items, list⟩ | none
  · simp [Argument.mapTerm, list, goes.list, Term.isNone]
  · simp [Argument.mapTerm, none, goes.none]

/-- Combinations of elements are mapped one by one. -/
theorem crossRows_mapTerm {as : List Argument} (known : ∀ a ∈ as, Known a) :
    crossRows (as.map (Argument.mapTerm f)) =
      (crossRows as).map (List.map (Argument.mapTerm f)) := by
  induction as with
  | nil => rfl
  | cons a as ih =>
      have rest := ih fun b h => known b (List.mem_cons_of_mem a h)
      rw [List.map_cons, crossRows_cons, crossRows_cons, rest, marked_mapTerm]
      cases marked : a.marked with
      | true =>
          rw [elements_mapTerm goes (known a List.mem_cons_self) marked]
          simp [List.map_flatMap, List.flatMap_map, Function.comp_def, Argument.plain,
            Argument.mapTerm]
      | false => simp [Function.comp_def]

theorem elementAt?_mapTerm (step : Nat) {a : Argument} (known : Known a) :
    elementAt? step (a.mapTerm f) = (elementAt? step a).map (Argument.mapTerm f) := by
  unfold elementAt?
  rw [marked_mapTerm]
  cases marked : a.marked with
  | false => rfl
  | true =>
      rw [elements_mapTerm goes known marked, isNone_mapTerm_marked goes known marked,
        List.getElem?_map]
      cases a.elements[step]? with
      | some t => rfl
      | none => by_cases none : a.term.isNone = true <;>
          simp [none, Argument.plain, Argument.mapTerm, goes.none]

theorem endedAt_mapTerm {as : List Argument} (known : ∀ a ∈ as, Known a) (step : Nat) :
    endedAt (as.map (Argument.mapTerm f)) step = endedAt as step := by
  unfold endedAt
  rw [List.zipIdx_map, List.filter_map, List.map_map]
  have same : as.zipIdx.filter ((fun x : Argument × Nat => (elementAt? step x.1).isNone) ∘
      Prod.map (Argument.mapTerm f) id) =
      as.zipIdx.filter fun x => (elementAt? step x.1).isNone := by
    apply List.filter_congr
    intro x h
    have here := known x.1 (List.fst_mem_of_mem_zipIdx h)
    simp [elementAt?_mapTerm goes step here]
  rw [same]
  rfl

/-- A step of a zip is mapped, and an exhausted one stays so. -/
theorem zipStep_mapTerm {as : List Argument} (known : ∀ a ∈ as, Known a) (step : Nat) :
    zipStep (as.map (Argument.mapTerm f)) step = (zipStep as step).mapTerms f := by
  have elements : (as.map (Argument.mapTerm f)).filterMap (elementAt? step) =
      (as.filterMap (elementAt? step)).map (Argument.mapTerm f) := by
    rw [List.filterMap_map, List.map_filterMap]
    apply List.filterMap_congr
    intro a h
    exact elementAt?_mapTerm goes step (known a h)
  rw [zipStep_eq, zipStep_eq, endedAt_mapTerm goes known step, elements]
  split
  · rfl
  · rfl

/-- The lengths of the marked lists are left alone. -/
theorem markedLengths_mapTerm {as : List Argument} (known : ∀ a ∈ as, Known a) :
    markedLengths (as.map (Argument.mapTerm f)) = markedLengths as := by
  unfold markedLengths
  rw [List.filter_map, List.map_map]
  apply List.map_congr_left
  intro a h
  obtain ⟨listed, marked⟩ := List.mem_filter.mp h
  have elements := elements_mapTerm goes (known a listed) marked
  simp [elements]

end Replacing

end ListExpansion

open ListExpansion

theorem ArgumentList.canExpand_mapTerms {f : Term → Term} (goes : GoesIntoLists f)
    {args : ArgumentList} (known : args.canExpand = true) :
    (args.mapTerms f).canExpand = true := by
  rw [canExpand_iff] at known ⊢
  intro b h
  obtain ⟨a, listed, rfl⟩ := List.mem_map.mp h
  exact known_mapTerm goes (known a listed)

theorem ArgumentList.canExpand_fill (f : Filling) {args : ArgumentList}
    (known : args.canExpand = true) : (args.mapTerms (Term.fill f)).canExpand = true :=
  canExpand_mapTerms (Term.goesIntoLists_fill f) known

/-- A map that goes into lists can be made before the lists are expanded or in each step. -/
theorem ListExpander.steps_mapTerms {f : Term → Term} (goes : GoesIntoLists f)
    {args : ArgumentList} (known : args.canExpand = true) (expander : ListExpander) :
    expander.steps (args.mapTerms f).arguments =
      (expander.steps args.arguments).map (ExpansionStep.mapTerms f) := by
  have all := canExpand_iff.mp known
  have arguments : (args.mapTerms f).arguments = args.arguments.map (Argument.mapTerm f) := rfl
  have zips (count : Nat) : zipSteps (args.arguments.map (Argument.mapTerm f)) count =
      (zipSteps args.arguments count).map (ExpansionStep.mapTerms f) := by
    unfold zipSteps
    rw [List.map_map]
    apply List.map_congr_left
    intro step _
    exact zipStep_mapTerm goes all step
  rw [arguments]
  cases expander with
  | cross =>
      unfold ListExpander.steps
      rw [crossRows_mapTerm goes all, List.map_map, List.map_map]
      rfl
  | zipMin => simp only [ListExpander.steps, markedLengths_mapTerm goes all, zips]
  | zipMax => simp only [ListExpander.steps, markedLengths_mapTerm goes all, zips]

theorem ListExpander.steps_fill (f : Filling) {args : ArgumentList}
    (known : args.canExpand = true) (expander : ListExpander) :
    expander.steps (args.mapTerms (Term.fill f)).arguments =
      (expander.steps args.arguments).map (ExpansionStep.fill f) :=
  steps_mapTerms (Term.goesIntoLists_fill f) known expander

namespace ListExpansion

theorem mem_elements {a : Argument} {t : Term} : t ∈ a.elements ↔
    (∃ items, a.term = .list items ∧ t ∈ items) ∨
      (∀ items, a.term ≠ .list items) ∧ t = a.term := by
  unfold Argument.elements
  split
  · rename_i items same
    simp [same]
  · rename_i other
    have other (items : List Term) : a.term ≠ .list items := other items
    simp [other]

/-- The term is an argument, an element of a marked one, or `none`. -/
def ComesFrom (as : List Argument) (t : Term) : Prop :=
  t = .none ∨ ∃ a ∈ as, t = a.term ∨ t ∈ a.elements

/-- What may stand in place of an argument in a step. -/
def TakesPlace (a b : Argument) : Prop :=
  if a.marked then b = .plain .none ∨ ∃ t ∈ a.elements, b = .plain t else b = a

theorem forall₂_crossRows {as row : List Argument} (h : row ∈ crossRows as) :
    List.Forall₂ TakesPlace as row := by
  induction as generalizing row with
  | nil =>
      rw [List.mem_singleton.mp h]
      exact .nil
  | cons a as ih =>
      rw [crossRows_cons] at h
      split at h
      · rename_i marked
        obtain ⟨t, ht, made⟩ := List.mem_flatMap.mp h
        obtain ⟨tail, htail, rfl⟩ := List.mem_map.mp made
        refine .cons ?_ (ih htail)
        rw [TakesPlace, if_pos marked]
        exact .inr ⟨t, ht, rfl⟩
      · rename_i bare
        obtain ⟨tail, htail, rfl⟩ := List.mem_map.mp h
        refine .cons ?_ (ih htail)
        rw [TakesPlace, if_neg bare]

theorem takesPlace_elementAt? {a b : Argument} {step : Nat} (h : elementAt? step a = some b) :
    TakesPlace a b := by
  unfold elementAt? at h
  unfold TakesPlace
  split at h
  · rename_i marked
    rw [if_pos marked]
    split at h
    · rename_i t found
      exact .inr ⟨t, List.mem_of_getElem? found, (Option.some.inj h).symm⟩
    · split at h
      · exact .inl (Option.some.inj h).symm
      · cases h
  · rename_i bare
    rw [if_neg bare]
    exact (Option.some.inj h).symm

theorem isSome_of_endedAt {as : List Argument} {step : Nat} (none : endedAt as step = []) :
    ∀ a ∈ as, (elementAt? step a).isSome := by
  intro a ha
  by_contra ended
  obtain ⟨n, here⟩ := List.mem_iff_getElem?.mp ha
  rw [endedAt, List.map_eq_nil_iff, List.filter_eq_nil_iff] at none
  exact none (a, n) (List.mem_zipIdx_iff_getElem?.mpr here) (by simpa using ended)

theorem forall₂_elements {as : List Argument} {step : Nat}
    (all : ∀ a ∈ as, (elementAt? step a).isSome) :
    List.Forall₂ (fun a b => elementAt? step a = some b) as (as.filterMap (elementAt? step)) := by
  induction as with
  | nil => exact .nil
  | cons a as ih =>
      obtain ⟨b, found⟩ := Option.isSome_iff_exists.mp (all a List.mem_cons_self)
      rw [List.filterMap_cons_some found]
      exact .cons found (ih fun c hc => all c (List.mem_cons_of_mem a hc))

theorem forall₂_filterMap {as : List Argument} {step : Nat}
    (all : ∀ a ∈ as, (elementAt? step a).isSome) :
    List.Forall₂ TakesPlace as (as.filterMap (elementAt? step)) :=
  (forall₂_elements all).imp fun _ _ => takesPlace_elementAt?

/-- In every step each argument takes the place of one that was given. -/
theorem forall₂_steps {expander : ListExpander} {as : List Argument} {args : ArgumentList}
    (h : .expanded args ∈ expander.steps as) : List.Forall₂ TakesPlace as args.arguments := by
  have zips (count : Nat) (h : .expanded args ∈ zipSteps as count) :
      List.Forall₂ TakesPlace as args.arguments := by
    obtain ⟨step, -, made⟩ := List.mem_map.mp h
    rw [zipStep_eq] at made
    split at made
    · rename_i none
      rw [← ExpansionStep.expanded.inj made]
      exact forall₂_filterMap (isSome_of_endedAt none)
    · cases made
  cases expander with
  | cross =>
      obtain ⟨row, hrow, made⟩ := List.mem_map.mp h
      rw [← ExpansionStep.expanded.inj made]
      exact forall₂_crossRows hrow
  | zipMin => exact zips _ h
  | zipMax => exact zips _ h

theorem TakesPlace.comesFrom {as : List Argument} {a b : Argument} (takes : TakesPlace a b)
    (ha : a ∈ as) : ComesFrom as b.term := by
  unfold TakesPlace at takes
  split at takes
  · rcases takes with rfl | ⟨t, ht, rfl⟩
    · exact .inl rfl
    · exact .inr ⟨a, ha, .inr ht⟩
  · rw [takes]
    exact .inr ⟨a, ha, .inl rfl⟩

/-- The terms of a step come from the arguments. -/
theorem comesFrom_steps {expander : ListExpander} {as : List Argument} {args : ArgumentList}
    (h : .expanded args ∈ expander.steps as) {b : Argument} (hb : b ∈ args.arguments) :
    ComesFrom as b.term := by
  obtain ⟨k, below, rfl⟩ := List.mem_iff_getElem.mp hb
  have pairs := forall₂_steps h
  have takes := pairs.get (pairs.length_eq ▸ below) below
  exact TakesPlace.comesFrom takes (List.get_mem _ _)

/-- An argument given to a parameter in a step stands in place of one given to it before. -/
theorem exists_pair_of_step {as bs : List Argument} (pairs : List.Forall₂ TakesPlace as bs)
    {qs : ParameterList} {b : Argument} {q : Parameter} (h : (b, q) ∈ bs.zip qs) :
    ∃ a, (a, q) ∈ as.zip qs ∧ TakesPlace a b := by
  induction pairs generalizing qs with
  | nil => cases h
  | cons takes _ ih =>
      cases qs with
      | nil => cases h
      | cons p qs =>
          rcases List.mem_cons.mp h with same | h
          · obtain ⟨rfl, rfl⟩ := Prod.mk.inj same
            exact ⟨_, List.mem_cons_self, takes⟩
          · obtain ⟨a, ha, takes⟩ := ih h
            exact ⟨a, List.mem_cons_of_mem _ ha, takes⟩

/-- Every marked list has an element at each step that the shortest one has. -/
theorem endedAt_eq_nil {as : List Argument} {step : Nat}
    (below : ∀ length ∈ markedLengths as, step < length) : endedAt as step = [] := by
  rw [endedAt, List.map_eq_nil_iff, List.filter_eq_nil_iff]
  rintro ⟨a, k⟩ listed
  have ha : a ∈ as := List.fst_mem_of_mem_zipIdx listed
  change ¬ (elementAt? step a).isNone = true
  intro ended
  unfold elementAt? at ended
  split at ended
  · rename_i marked
    have here := below _ (List.mem_map_of_mem (List.mem_filter.mpr ⟨ha, marked⟩))
    rw [List.getElem?_eq_getElem here] at ended
    cases ended
  · cases ended

/-- Only a zip up to the end of the longest list runs out of elements. -/
theorem eq_zipMax_of_exhausted {expander : ListExpander} {as : List Argument} {step : Nat}
    {positions : List Nat} (h : .exhausted step positions ∈ expander.steps as) :
    expander = .zipMax := by
  cases expander with
  | zipMax => rfl
  | cross =>
      obtain ⟨row, -, made⟩ := List.mem_map.mp h
      cases made
  | zipMin =>
      obtain ⟨at_, before, made⟩ := List.mem_map.mp h
      rw [List.mem_range] at before
      have below (length) (listed : length ∈ markedLengths as) : at_ < length := by
        obtain ⟨least, found⟩ := Option.isSome_iff_exists.mp (List.isSome_min?_of_mem listed)
        rw [found] at before
        exact Nat.lt_of_lt_of_le before ((List.min?_eq_some_iff.mp found).2 length listed)
      rw [zipStep_eq, if_pos (endedAt_eq_nil below)] at made
      cases made

/-- A term of a step is missing, given, or an element of a list that was given. -/
theorem ComesFrom.cases {as : List Argument} {t : Term} (comes : ComesFrom as t) :
    t = .none ∨ ∃ a ∈ as, t = a.term ∨ ∃ items, a.term = .list items ∧ t ∈ items := by
  rcases comes with none | ⟨a, ha, same | element⟩
  · exact .inl none
  · exact .inr ⟨a, ha, .inl same⟩
  · exact .inr ⟨a, ha, (mem_elements.mp element).elim .inr fun itself => .inl itself.2⟩

theorem ComesFrom.blanks {as : List Argument} {t : Term} (comes : ComesFrom as t) {b : String}
    (hb : b ∈ t.blanks) : ∃ a ∈ as, b ∈ a.term.blanks := by
  rcases comes.cases with rfl | ⟨a, ha, rfl | ⟨items, same, element⟩⟩
  · cases hb
  · exact ⟨a, ha, hb⟩
  · exact ⟨a, ha, same ▸ Term.mem_blanksAll.mpr ⟨t, element, hb⟩⟩

theorem ComesFrom.vars {as : List Argument} {t : Term} (comes : ComesFrom as t) {x : Variable}
    (hx : x ∈ t.vars) : ∃ a ∈ as, x ∈ a.term.vars := by
  rcases comes.cases with rfl | ⟨a, ha, rfl | ⟨items, same, element⟩⟩
  · cases hx
  · exact ⟨a, ha, hx⟩
  · exact ⟨a, ha, same ▸ Term.mem_varsAll.mpr ⟨t, element, hx⟩⟩

end ListExpansion

end RdfTemplates
