import RdfTemplates.Proofs.Checks
import RdfTemplates.Proofs.Expansion.Models
import RdfTemplates.Proofs.Fitting

/-!
# Bodies that give their arguments well

No check compares the type of a parameter with a single place where the parameter
is used, looks at the lists that stand in a body, or asks whether a blank node of
the body or a default may be given. A body that is in order there too fits
whatever fitting values its parameters take.
-/

namespace RdfTemplates

namespace Term

/-- Whether a term of a body may stand where the type is asked for, as far as no check tells. -/
def passes (ps : ParameterList) (asked : TermType) : Term → Bool
  | .var x => (ps.labelled? x.label).all fun p => p.type.isSubtype TypeTree.standard asked
  | .list items => (Term.list items).suits asked
  | .none => true
  | _ => !asked.isList && !asked.isBottom

/-- Whether no blank node comes to stand in the place of the term. -/
def neverBlank (ps : ParameterList) : Term → Bool
  | .blank _ => false
  | .var x => (ps.labelled? x.label).all (·.isNonBlank)
  | _ => true

variable {t u : Term} {f : Filling} {asked type : TermType}

theorem exists_var (isVar : t.isVar = true) : ∃ x, t = .var x := by
  cases t with
  | var x => exact ⟨x, rfl⟩
  | _ => cases isVar

theorem isBlank_fill (constant : t.isVar = false) : (t.fill f).isBlank = t.isBlank := by
  cases t with
  | var => cases constant
  | list items => rw [fill_list]; rfl
  | _ => rfl

theorem suits_fill (constant : t.isVar = false) :
    (t.fill f).suits asked = t.suits asked := by
  cases t with
  | var => cases constant
  | list items => cases items <;> rfl
  | _ => rfl

theorem suits_of_passes {ps : ParameterList} (passes : t.passes ps asked = true)
    (constant : t.isVar = false) (compatible : t.isList = false →
      t.intrinsicType.isCompatible TypeTree.standard asked = true) : t.suits asked = true := by
  cases t with
  | var => cases constant
  | list items => exact passes
  | none => rfl
  | iri | literal | blank =>
      refine (suits_iff rfl).mpr ⟨compatible rfl, .inr ?_⟩
      simpa [Term.passes] using passes

/-- The places of a filled term are those in what variables stand for and its own others. -/
theorem places_fill (place : (u, asked) ∈ (t.fill f).places type) :
    (∃ x inner, (.var x, inner) ∈ t.places type ∧ (u, asked) ∈ (f.value x).places inner) ∨
      ∃ v, (v, asked) ∈ t.places type ∧ v.isVar = false ∧ u = v.fill f := by
  induction t generalizing type with
  | var x => exact .inl ⟨x, type, self_mem_places _ _, place⟩
  | iri | literal | blank | none =>
      rw [places_of_leaf rfl, List.mem_singleton, Prod.mk.injEq] at place
      obtain ⟨rfl, rfl⟩ := place
      exact .inr ⟨_, self_mem_places _ _, rfl, rfl⟩
  | list items ih =>
      rw [fill_list] at place
      rcases mem_places_list.mp place with ⟨rfl, rfl⟩ | ⟨inner, asks, v, listed, place⟩
      · exact .inr ⟨_, self_mem_places _ _, rfl, (fill_list f items).symm⟩
      · obtain ⟨t, ht, rfl⟩ := List.mem_map.mp listed
        have inside {v : Term} {type : TermType} (here : (v, type) ∈ t.places inner) :
            (v, type) ∈ (Term.list items).places _ :=
          mem_places_list.mpr (.inr ⟨inner, asks, t, ht, here⟩)
        rcases ih t ht place with ⟨x, type, here, place⟩ | ⟨v, here, constant, same⟩
        · exact .inl ⟨x, type, inside here, place⟩
        · exact .inr ⟨v, inside here, constant, same⟩

end Term

/-- Whether the argument suits its parameter where no check looks. Checks look at the flags of
a variable that is passed on as it is. -/
def Argument.isWellGiven (ps : ParameterList) (a : Argument) (q : Parameter) : Bool :=
  (a.term.places (a.asked q)).all fun (u, asked) =>
    u.passes ps asked && (!q.isNonBlank || a.term.isVar || u.neverBlank ps)

theorem Argument.isWellGiven_iff {ps : ParameterList} {a : Argument} {q : Parameter} :
    a.isWellGiven ps q = true ↔ ∀ u asked, (u, asked) ∈ a.term.places (a.asked q) →
      u.passes ps asked = true ∧
        (q.isNonBlank = true → a.term.isVar = true ∨ u.neverBlank ps = true) := by
  have flags (u : Term) : (!q.isNonBlank || a.term.isVar || u.neverBlank ps) = true ↔
      (q.isNonBlank = true → a.term.isVar = true ∨ u.neverBlank ps = true) := by
    cases q.isNonBlank <;> simp
  simp only [isWellGiven, List.all_eq_true, Bool.and_eq_true, flags]
  exact ⟨fun all u asked place => all (u, asked) place, fun all place here => all _ _ here⟩

namespace Store

/-- What a store must be like beyond its checks for expansion to go well. -/
structure WellGiven (store : Store) : Prop where
  arguments : ∀ ⦃iri ps⦄, store.status? iri = some (.definition ps) → ∀ i ∈ store.bodyOf iri,
    ∀ qs ∈ store.parameters? i.iri, ∀ pair ∈ i.arguments.arguments.zip qs,
      pair.1.isWellGiven ps pair.2 = true
  defaults : ∀ ⦃iri ps⦄, store.status? iri = some (.definition ps) → ∀ p ∈ ps,
    ∀ d ∈ p.default?, p.fits p.type d = true

instance (store : Store) : Decidable store.WellGiven :=
  decidable_of_iff
    (∀ iri ps, store.status? iri = some (.definition ps) →
      (∀ i ∈ store.bodyOf iri, ∀ qs ∈ store.parameters? i.iri,
        ∀ pair ∈ i.arguments.arguments.zip qs, pair.1.isWellGiven ps pair.2 = true) ∧
      ∀ p ∈ ps, ∀ d ∈ p.default?, p.fits p.type d = true) <| by
    constructor
    · intro each
      exact ⟨fun _ _ defined => (each _ _ defined).1, fun _ _ defined => (each _ _ defined).2⟩
    · exact fun well _ _ defined => ⟨well.arguments defined, well.defaults defined⟩

end Store

namespace Argument

variable {ps : ParameterList} {a : Argument} {q : Parameter} {w : Valuation}

/-- A well given argument fits when the values of the parameters fit and the checks found nothing.
Inside of what a parameter stands for, its type is below the one asked for. -/
theorem fits_fill (well : a.isWellGiven ps q = true) (labels : (ps.map (·.label)).Nodup)
    (closed : ∀ x ∈ a.term.vars, x.label ∈ ps.map (·.label))
    (constants : ∀ u asked, (u, asked) ∈ a.term.places (a.asked q) → u.isList = false →
      u.isVar = false → u.intrinsicType.isCompatible TypeTree.standard asked = true)
    (flags : q.isNonBlank = true → ∀ x, a.term = .var x → ∀ p ∈ ps, p.label = x.label →
      p.isNonBlank = true)
    (values : ∀ p ∈ ps, p.fits p.type (w.value p.label) = true) :
    q.fits (a.asked q) (a.term.fill w.filling) = true := by
  refine Parameter.fits_iff.mpr fun u asked place => ?_
  rcases Term.places_fill place with ⟨x, type, here, place⟩ | ⟨v, here, constant, rfl⟩
  · obtain ⟨level, occurs, -⟩ := Term.mem_places.mp here
    obtain ⟨p, hp, same⟩ := List.mem_map.mp (closed x (Term.mem_vars_iff.mpr ⟨level, occurs⟩))
    have found : ps.labelled? x.label = some p := same ▸ ParameterList.labelled?_of_mem labels hp
    obtain ⟨passes, blank⟩ := isWellGiven_iff.mp well _ _ here
    have below : p.type.isSubtype TypeTree.standard type = true := by
      simpa [Term.passes, found] using passes
    have strict (given : q.isNonBlank = true) : p.isNonBlank = true := by
      rcases blank given with direct | never
      · obtain ⟨y, is_var⟩ := Term.exists_var direct
        have only := here
        rw [is_var, Term.places_of_leaf rfl, List.mem_singleton, Prod.mk.injEq] at only
        exact flags given x (is_var.trans only.1.symm) p hp same
      · simpa [Term.neverBlank, found] using never
    have fits := Parameter.fits_mono (values p hp) below strict
    rw [same] at fits
    exact Parameter.fits_iff.mp fits u asked place
  · obtain ⟨passes, blank⟩ := isWellGiven_iff.mp well _ _ here
    rw [Term.suits_fill constant, Term.isBlank_fill constant]
    refine ⟨Term.suits_of_passes passes constant fun leaf => constants v asked here leaf constant,
      fun given => ?_⟩
    rcases blank given with direct | never
    · obtain ⟨y, is_var⟩ := Term.exists_var direct
      rw [is_var, Term.places_of_leaf rfl, List.mem_singleton, Prod.mk.injEq] at here
      rw [here.1] at constant
      cases constant
    · cases v with
      | blank => cases never
      | _ => rfl

end Argument

namespace Instance

variable {i : Instance} {ps : ParameterList}

/-- What an argument is asked to be; marks count in instances with an expander only. -/
def asked (i : Instance) (a : Argument) (p : Parameter) : TermType :=
  if i.arguments.expander.isSome then a.asked p else p.type

/-- Whether every argument fits its parameter. -/
def fits (i : Instance) (ps : ParameterList) : Bool :=
  (i.arguments.arguments.zip ps).all fun (a, p) => p.fits (i.asked a p) a.term

theorem fits_iff : i.fits ps = true ↔
    ∀ a p, (a, p) ∈ i.arguments.arguments.zip ps → p.fits (i.asked a p) a.term = true := by
  simp only [fits, List.all_eq_true]
  exact ⟨fun all a p pair => all (a, p) pair, fun all pair here => all _ _ here⟩

theorem asked_plain (plain : i.arguments.expander = none) (a : Argument) (p : Parameter) :
    i.asked a p = p.type := by
  simp [asked, plain]

theorem asked_marked {expander : ListExpander} (marked : i.arguments.expander = some expander)
    (a : Argument) (p : Parameter) : i.asked a p = a.asked p := by
  simp [asked, marked]

theorem checkArguments_of_fits (plain : i.arguments.expander = none) (fits : i.fits ps = true) :
    i.checkArguments ps = none := by
  refine List.findSome?_eq_none_iff.mpr fun pair listed => ?_
  obtain ⟨⟨t, p⟩, position⟩ := pair
  have here := List.fst_mem_of_mem_zipIdx listed
  rw [ArgumentList.terms, List.zip_map_left] at here
  obtain ⟨⟨a, q⟩, pair, same⟩ := List.mem_map.mp here
  obtain ⟨rfl, rfl⟩ := Prod.mk.inj same
  have fitted := fits_iff.mp fits a q pair
  rw [asked_plain plain] at fitted
  exact Parameter.checkArgument_of_fits fitted

variable {expander : ListExpander}

theorem canExpand_of_fits (marked : i.arguments.expander = some expander)
    (arity : i.arguments.size = ps.length) (fits : i.fits ps = true) :
    i.arguments.canExpand = true := by
  refine ListExpansion.canExpand_iff.mpr fun a ha mark => ?_
  obtain ⟨k, here⟩ := List.mem_iff_getElem?.mp ha
  have below : k < ps.length := by
    rw [← arity]
    exact (List.getElem?_eq_some_iff.mp here).1
  have pair := Check.mem_zip_iff.mpr ⟨k, here, List.getElem?_eq_getElem below⟩
  have suits := Parameter.suits_of_fits (fits_iff.mp fits a _ pair)
  rw [asked_marked marked, Argument.asked, if_pos mark] at suits
  cases empty : a.term.isNone with
  | true => exact .inr rfl
  | false =>
      obtain ⟨-, list | ⟨other, -⟩⟩ := (Term.suits_iff empty).mp suits
      · exact .inl list
      · cases other

/-- The steps of lists that fit give arguments that fit. -/
theorem fits_step (marked : i.arguments.expander = some expander) (fits : i.fits ps = true)
    {args : ArgumentList} (step : .expanded args ∈ expander.steps i.arguments.arguments)
    (plain : args.expander = none) : Instance.fits ⟨i.iri, args⟩ ps = true := by
  refine fits_iff.mpr fun b p pair => ?_
  obtain ⟨a, before, takes⟩ :=
    ListExpansion.exists_pair_of_step (ListExpansion.forall₂_steps step) pair
  have fitted := fits_iff.mp fits a p before
  rw [asked_marked marked, Argument.asked] at fitted
  rw [asked_plain plain]
  unfold ListExpansion.TakesPlace at takes
  split at takes
  · rename_i mark
    rw [if_pos mark] at fitted
    rcases takes with rfl | ⟨t, ht, rfl⟩
    · exact Parameter.fits_none
    · rcases ListExpansion.mem_elements.mp ht with ⟨items, same, ht⟩ | ⟨other, itself⟩
      · rw [same] at fitted
        exact Parameter.fits_element fitted rfl ht
      · rw [itself]
        have suits := Parameter.suits_of_fits fitted
        cases empty : a.term.isNone with
        | true =>
            rw [Argument.plain, Term.isNone_iff.mp empty]
            exact Parameter.fits_none
        | false =>
            obtain ⟨-, list | ⟨list, -⟩⟩ := (Term.suits_iff empty).mp suits
            · obtain ⟨items, same⟩ := Term.exists_items list
              exact absurd same (other items)
            · cases list
  · rename_i bare
    rw [if_neg bare] at fitted
    rw [takes]
    exact fitted

end Instance

namespace Store

variable {store : Store} {iri : Iri} {ps qs : ParameterList} {k : Instance} {w : Valuation}

/-- The instances of a body fit whatever fitting values the parameters have. -/
theorem WellGiven.fits_body (well : store.WellGiven) (checked : store.Checked)
    (defined : store.status? iri = some (.definition ps)) (hk : k ∈ store.bodyOf iri)
    (callee : store.parameters? k.iri = some qs)
    (values : ∀ p ∈ ps, p.fits p.type (w.value p.label) = true) :
    (k.fill w.filling).fits qs = true := by
  have gives : store.Gives ps k qs := ⟨⟨iri, defined, hk⟩, callee⟩
  refine Instance.fits_iff.mpr fun b q pair => ?_
  obtain ⟨a, q, before, same⟩ := Instance.mem_filled_zip pair
  obtain ⟨rfl, rfl⟩ := Prod.mk.inj same
  have ha : a ∈ k.arguments.arguments := (List.of_mem_zip before).1
  have fitted : q.fits (a.asked q) (a.term.fill w.filling) = true :=
    Argument.fits_fill (well.arguments defined k hk qs callee (a, q) before)
      (checked.labels iri ps (Store.parameters_of_definition defined))
      (fun x hx => checked.closed iri ps defined k hk x
        (Instance.mem_vars.mpr ⟨a.term, List.mem_map_of_mem ha, hx⟩))
      (checked.constants ps k qs gives a q before) (checked.flags ps k qs gives a q before) values
  have asked : (k.fill w.filling).asked (a.fill w.filling) q = a.asked q := by
    cases marked : k.arguments.expander with
    | some expander => exact Instance.asked_marked marked _ q
    | none =>
        have bare := checked.unmarked iri ps defined k hk marked a ha
        have filled : (k.fill w.filling).arguments.expander = none := marked
        rw [Instance.asked_plain filled, Argument.asked, bare]
        rfl
  rw [asked]
  exact fitted

end Store

end RdfTemplates
