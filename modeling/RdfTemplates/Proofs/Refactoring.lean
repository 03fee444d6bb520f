import RdfTemplates.Expansion.Bodies
import RdfTemplates.Proofs.Expansion.Bodies
import RdfTemplates.Proofs.Matching
import RdfTemplates.Proofs.Store.Editing
import RdfTemplates.Proofs.Store.Reachability

/-!
# What refactoring does to an expansion

The changed body asks for what is left of it and for the new instance, and this
asks for what the matched instances asked for, as long as nothing that is `none`
is dropped or replaced on the way and the blank nodes of the template used stay
apart from each other and from what its parameters are given. The checks see to
the first only for variables whose parameters have no default, and the second is
not checked at all.
-/

namespace RdfTemplates

namespace Refactoring

/-- What the checks of a matching leave open. -/
structure Faithful (used changed : Template) (s : Substitution) : Prop where
  none : ∀ p ∈ used.parameters, (s.apply p.term).isNone = true → p.mayBeNone = true
  default : ∀ p ∈ used.parameters, ∀ x ∈ (s.apply p.term).asVar?, ∀ q ∈ changed.parameters,
    q.label = x.label → ∀ d ∈ q.default?, d.isNone = true → p.mayBeNone = true
  distinct : ∀ i ∈ used.body, ∀ j ∈ used.body, ∀ b ∈ i.blanks, ∀ c ∈ j.blanks,
    (s.apply (.blank b) == s.apply (.blank c)) = true → b = c
  foreign : ∀ p ∈ used.parameters, ∀ c ∈ (s.apply p.term).blanks, ∀ i ∈ used.body,
    ∀ b ∈ i.blanks, (s.apply (.blank b) == .blank c) = false

instance (used changed : Template) (s : Substitution) : Decidable (Faithful used changed s) :=
  decidable_of_iff
    ((∀ p ∈ used.parameters, (s.apply p.term).isNone = true → p.mayBeNone = true) ∧
      (∀ p ∈ used.parameters, ∀ x ∈ (s.apply p.term).asVar?, ∀ q ∈ changed.parameters,
        q.label = x.label → ∀ d ∈ q.default?, d.isNone = true → p.mayBeNone = true) ∧
      (∀ i ∈ used.body, ∀ j ∈ used.body, ∀ b ∈ i.blanks, ∀ c ∈ j.blanks,
        (s.apply (.blank b) == s.apply (.blank c)) = true → b = c) ∧
      ∀ p ∈ used.parameters, ∀ c ∈ (s.apply p.term).blanks, ∀ i ∈ used.body,
        ∀ b ∈ i.blanks, (s.apply (.blank b) == .blank c) = false)
    ⟨fun ⟨given, default, distinct, foreign⟩ => ⟨given, default, distinct, foreign⟩,
      fun faithful => ⟨faithful.none, faithful.default, faithful.distinct, faithful.foreign⟩⟩

/-- How the stores, the templates and the matching of a refactoring belong together. -/
structure Done (store other : Store) (used changed : Template) (s : Substitution) : Prop where
  apart : used.iri ≠ changed.iri
  uses : store.status? used.iri = some (.definition used.parameters)
  changes : store.status? changed.iri = some (.definition changed.parameters)
  usedBody : .make used.iri used.parameters (store.bodyOf used.iri) = used
  changedBody : .make changed.iri changed.parameters (store.bodyOf changed.iri) = changed
  found : s ∈ Substitution.matchBodies used.body changed.body
  accepted : refusal? used changed s = none
  edited : (store.editBody changed.iri (matched used s) [call used s]).1 = other

theorem of_choose_eq_ok {used changed : Template} {s : Substitution}
    (chosen : choose used changed = .ok s) :
    s ∈ Substitution.matchBodies used.body changed.body ∧ refusal? used changed s = none := by
  unfold choose at chosen
  dsimp only at chosen
  split at chosen
  · rename_i found
    obtain rfl := Except.ok.inj chosen
    exact ⟨List.mem_of_find?_eq_some found, by simpa using List.find?_some found⟩
  · cases chosen

theorem done_of_refactor {store other : Store} {used changed : Iri} {s : Substitution}
    (refactored : store.refactor used changed = (.ok s, other)) :
    ∃ t u, store.getTemplate used = .ok t ∧ store.getTemplate changed = .ok u ∧
      used = t.iri ∧ changed = u.iri ∧ Done store other t u s := by
  cases Store.refactorsTo_of_refactor refactored with
  | @made t u _ apart uses changes chosen =>
      obtain ⟨rfl, usedStatus, usedBody⟩ := Store.getTemplate_eq_ok uses
      obtain ⟨rfl, changedStatus, changedBody⟩ := Store.getTemplate_eq_ok changes
      obtain ⟨found, accepted⟩ := of_choose_eq_ok chosen
      exact ⟨t, u, uses, changes, rfl, rfl,
        ⟨apart, usedStatus, changedStatus, usedBody, changedBody, found, accepted, rfl⟩⟩

structure Checked (used changed : Template) (s : Substitution) : Prop where
  bound : ∀ p ∈ used.parameters, (s.get? p.term).isSome
  flags : ∀ p ∈ used.parameters, flagConflict? used changed s p = none
  unshared : sharedBlank? used changed s = none

theorem Done.checked {store other : Store} {used changed : Template} {s : Substitution}
    (done : Done store other used changed s) : Checked used changed s := by
  have accepted := done.accepted
  unfold refusal? at accepted
  split at accepted
  · cases accepted
  · rename_i bound
    split at accepted
    · cases accepted
    · rename_i flags
      refine ⟨fun p hp => ?_, List.findSome?_eq_none_iff.mp flags,
        Option.map_eq_none_iff.mp accepted⟩
      simpa [Substitution.contains, Option.isSome_iff_ne_none] using
        List.find?_eq_none.mp bound p hp

theorem occurrences_of_mem_blanks {t : Term} {b : String} (h : b ∈ t.blanks) (depth : Nat) :
    ∃ d, (.blank b, d) ∈ t.occurrences depth := by
  have all (ts : List Term) {n d : Nat} {t u : Term} (ht : t ∈ ts)
      (hu : (u, d) ∈ t.occurrences n) : (u, d) ∈ Term.occurrencesAll n ts := by
    induction ts with
    | nil => cases ht
    | cons t' ts ih =>
        rw [Term.occurrencesAll, List.mem_append]
        rcases List.mem_cons.mp ht with rfl | ht
        · exact .inl hu
        · exact .inr (ih ht)
  induction t generalizing depth with
  | blank c =>
      rw [List.mem_singleton.mp h]
      exact ⟨depth, List.mem_cons_self⟩
  | list items ih =>
      obtain ⟨t, ht, hb⟩ := Term.mem_blanksAll.mp h
      obtain ⟨d, listed⟩ := ih t ht hb (depth + 1)
      exact ⟨d, List.mem_cons_of_mem _ (all items ht listed)⟩
  | iri | literal | none | var => cases h

theorem occursIn_of_mem_blanks {i : Instance} {b : String} (h : b ∈ i.blanks) :
    (Term.blank b).occursIn i = true := by
  obtain ⟨t, ht, hb⟩ := Instance.mem_blanks.mp h
  obtain ⟨d, listed⟩ := occurrences_of_mem_blanks hb 0
  exact List.any_eq_true.mpr ⟨t, ht, List.any_eq_true.mpr ⟨_, listed, BEq.rfl⟩⟩

namespace Done

variable {store other : Store} {used changed : Template} {s : Substitution}

theorem matching (done : Done store other used changed s) (closed : store.Closed) :
    s.Binds (changed.parameters.map (·.label)) ∧
      (∀ i ∈ used.body, ∀ b ∈ i.blanks, (s.get? (.blank b)).isSome) ∧
      ∀ i ∈ used.body, ∃ j ∈ changed.body, (s.applyInstance i == j) = true := by
  refine Substitution.matched_of_mem_matchBodies (fun j hj x hx => ?_) done.found
  rw [← done.changedBody] at hj
  obtain ⟨k, hk, y, hy, same⟩ := Template.label_of_mem_make hj hx
  rw [← same]
  exact closed.vars done.changes k hk y hy

/-- No blank node of the template used stands for one that is left in the changed body. -/
theorem unshared (done : Done store other used changed s) (closed : store.Closed)
    {i j : Instance} (hi : i ∈ used.body) (hj : j ∈ remaining used changed s) {b : String}
    (hb : b ∈ i.blanks) : s.reading.blank b ∉ j.blanks := by
  intro shared
  obtain ⟨binds, blanks, -⟩ := done.matching closed
  obtain ⟨u, bound⟩ := Option.isSome_iff_exists.mp (blanks i hi b hb)
  obtain ⟨c, rfl⟩ := binds.blanks b u bound
  rw [Substitution.blank_reading bound] at shared
  obtain ⟨key, listed, same⟩ := Substitution.exists_mem_of_get? bound
  have isBlank : key.isBlank = true := by
    rw [Substitution.Freshening.beq_blank.mp (BEq.symm same)]
    rfl
  have value : Term.blank c ∈ (s.sorted.filter (·.1.isBlank)).map (·.2) :=
    List.mem_map.mpr ⟨(key, .blank c), List.mem_filter.mpr
      ⟨mem_stableSort.mpr listed, isBlank⟩, rfl⟩
  have free := List.find?_eq_none.mp done.checked.unshared _ value
  exact free (List.any_eq_true.mpr ⟨j, hj, occursIn_of_mem_blanks shared⟩)

theorem exists_parameter (done : Done store other used changed s) (closed : store.Closed)
    {i : Instance} (hi : i ∈ used.body) {x : Variable} (hx : x ∈ i.vars) :
    ∃ p ∈ used.parameters, p.label = x.label := by
  rw [← done.usedBody] at hi
  obtain ⟨k, hk, y, hy, same⟩ := Template.label_of_mem_make hi hx
  obtain ⟨p, hp, label⟩ := List.mem_map.mp (closed.vars done.uses k hk y hy)
  exact ⟨p, hp, label.trans same⟩

theorem value_parameter (done : Done store other used changed s) {p : Parameter}
    (hp : p ∈ used.parameters) : s.reading.value p.label = s.apply p.term := by
  obtain ⟨u, bound⟩ := Option.isSome_iff_exists.mp (done.checked.bound p hp)
  rw [Substitution.apply_of_bound bound]
  exact Substitution.value_reading bound

/-- What the variables and blank nodes of the template used stand for in the changed body. -/
def through (s : Substitution) (v : Valuation) : Valuation :=
  ⟨fun label => (s.reading.value label).fill v.filling, fun b => v.blank (s.reading.blank b)⟩

theorem fill_matched (done : Done store other used changed s) (closed : store.Closed)
    {i : Instance} (hi : i ∈ used.body) (v : Valuation) :
    (s.applyInstance i).fill v.filling = i.fill (through s v).filling := by
  have bound (x) (hx : x ∈ i.vars) : (s.get? (.var x)).isSome := by
    obtain ⟨p, hp, same⟩ := done.exists_parameter closed hi hx
    rw [← s.get?_var same]
    exact done.checked.bound p hp
  have applied : s.applyInstance i = i.fill s.reading.filling :=
    Instance.mapTerms_congr i fun t ht => Substitution.apply_eq_fill (done.matching closed).1 t
      fun x hx => bound x (Instance.mem_vars.mpr ⟨t, ht, hx⟩)
  rw [applied, Instance.fill_fill]
  rfl

/-- The old body asks for what is left and for what was matched. -/
theorem fill_old (done : Done store other used changed s) (closed : store.Closed)
    (P : Instance → Prop) (v : Valuation) :
    (∀ j ∈ store.bodyOf changed.iri, P (j.fill v.filling)) ↔
      (∀ j ∈ remaining used changed s, P (j.fill v.filling)) ∧
        ∀ i ∈ used.body, P (i.fill (through s v).filling) := by
  rw [← Template.fill_make changed.iri changed.parameters _ P, done.changedBody]
  constructor
  · refine fun all => ⟨fun j hj => all j (List.mem_filter.mp hj).1, fun i hi => ?_⟩
    obtain ⟨j, hj, same⟩ := (done.matching closed).2.2 i hi
    rw [← done.fill_matched closed hi, Instance.fill_same v same]
    exact all j hj
  · rintro ⟨left, asked⟩ j hj
    cases matched_ : (matched used s).contains j with
    | false => exact left j (List.mem_filter.mpr ⟨hj, by rw [matched_]; rfl⟩)
    | true =>
        obtain ⟨k, hk, same⟩ := List.contains_iff_exists_mem_beq.mp matched_
        obtain ⟨i, hi, rfl⟩ := List.mem_map.mp hk
        rw [Instance.fill_same v same, done.fill_matched closed hi]
        exact asked i hi

/-- The new body asks for what is left and for the new instance. -/
theorem fill_new (done : Done store other used changed s) (wf : store.WellFormed)
    (P : Instance → Prop) (v : Valuation) :
    (∀ j ∈ other.bodyOf changed.iri, P (j.fill v.filling)) ↔
      (∀ j ∈ remaining used changed s, P (j.fill v.filling)) ∧
        P ((call used s).fill v.filling) := by
  have body (j) : j ∈ other.bodyOf changed.iri ↔
      (j ∈ store.bodyOf changed.iri ∧ (matched used s).contains j = false) ∨
        (j = call used s ∧ ∀ k ∈ store.bodyOf changed.iri,
          (matched used s).contains k = false → (k == call used s) = false) := by
    rw [← done.edited, Store.mem_bodyOf_editBody wf (Store.isDefinition_iff.mpr ⟨_, done.changes⟩)]
    simp
  constructor
  · refine fun all => ⟨fun j hj => ?_, ?_⟩
    · obtain ⟨listed, kept⟩ := List.mem_filter.mp hj
      rw [← done.changedBody] at listed
      obtain ⟨k, hk, same⟩ := Template.exists_same_of_mem_make listed
      rw [Instance.fill_same v same]
      refine all k ((body k).mpr (.inl ⟨hk, ?_⟩))
      rw [← List.contains_congr same]
      simpa using kept
    · by_cases there : ∃ k ∈ store.bodyOf changed.iri,
          (matched used s).contains k = false ∧ (k == call used s) = true
      · obtain ⟨k, hk, kept, same⟩ := there
        rw [← Instance.fill_same v same]
        exact all k ((body k).mpr (.inl ⟨hk, kept⟩))
      · refine all _ ((body _).mpr (.inr ⟨rfl, fun k hk kept => ?_⟩))
        by_contra same
        exact there ⟨k, hk, kept, by simpa using same⟩
  · rintro ⟨left, asked⟩ j hj
    rcases (body j).mp hj with ⟨hj, kept⟩ | ⟨rfl, -⟩
    · obtain ⟨k, hk, same⟩ := Template.exists_mem_make hj
      rw [← Instance.fill_same v same]
      refine left k (List.mem_filter.mpr ⟨done.changedBody ▸ hk, ?_⟩)
      rw [List.contains_congr same, kept]
      rfl
    · exact asked

theorem mayBeNone_of_passesNone {p : Parameter} (passes : p.passesNone = true) :
    p.mayBeNone = true := by
  obtain ⟨optional, bare⟩ := Bool.and_eq_true_iff.mp passes
  refine Parameter.mayBeNone_of_isOptional optional fun d has => ?_
  simp [Parameter.hasDefault, Option.mem_def.mp has] at bare

theorem passesNone_of_flags {p q : Parameter} {x : Variable}
    (flags : flagConflict? used changed s p = none) (given : s.apply p.term = .var x)
    (labelled : changed.parameters.labelled? x.label = some q) (passes : q.passesNone = true) :
    p.passesNone = true := by
  unfold flagConflict? at flags
  simp only [given, Term.asVar?, Option.bind_some, labelled, Option.filter_some, passes,
    if_true] at flags
  split at flags
  · assumption
  · cases flags

/-- What is `none` gets to parameters only that keep it. -/
theorem mayBeNone (done : Done store other used changed s) (closed : store.Closed)
    (faithful : Faithful used changed s) {v : Valuation}
    (suits : BodyExpansion.Suits v changed.parameters) {p : Parameter} (hp : p ∈ used.parameters)
    (emptied : (s.apply p.term).fill v.filling = .none) : p.mayBeNone = true := by
  cases given : s.apply p.term with
  | none => exact faithful.none p hp (by rw [given]; rfl)
  | var x =>
      obtain ⟨u, bound⟩ := Option.isSome_iff_exists.mp (done.checked.bound p hp)
      obtain rfl : u = .var x := (Substitution.apply_of_bound bound).symm.trans given
      obtain ⟨q, hq, same⟩ := List.mem_map.mp
        ((done.matching closed).1.vars _ _ bound x (by simp [Term.vars]))
      have value : v.value q.label = .none := by
        rw [given] at emptied
        rw [same]
        exact emptied
      have may := suits q hq value
      cases has : q.default? with
      | some d =>
          rw [Parameter.mayBeNone, Parameter.keepsNone, has] at may
          have none_ : d.isNone = true := (Bool.and_eq_true_iff.mp may).2
          exact faithful.default p hp x (by rw [given]; rfl) q hq same d has none_
      | none =>
          have labelled : changed.parameters.labelled? x.label = some q :=
            same ▸ ParameterList.labelled?_of_mem (closed.labels done.changes) hq
          have passes : q.passesNone = true := by
            simpa [Parameter.passesNone, Parameter.mayBeNone, Parameter.acceptsNone,
              Parameter.keepsNone, Parameter.hasDefault, has] using may
          exact mayBeNone_of_passesNone
            (passesNone_of_flags (done.checked.flags p hp) given labelled passes)
  | list items =>
      rw [given, Term.fill_list] at emptied
      cases emptied
  | _ =>
      rw [given] at emptied
      cases emptied

/-- The variables of the new instance are those of what the parameters are bound to. -/
theorem mem_vars_call (done : Done store other used changed s) {x : Variable}
    (h : x ∈ (call used s).vars) :
    ∃ p ∈ used.parameters, ∃ u, s.get? p.term = some u ∧ x ∈ u.vars := by
  obtain ⟨t, ht, hx⟩ := Instance.mem_vars.mp h
  have terms : (call used s).arguments.terms = used.parameters.map fun p => s.apply p.term := by
    simp [call, Instance.ofTerms, ArgumentList.ofTerms, ArgumentList.terms, Argument.plain,
      Function.comp_def]
  rw [terms] at ht
  obtain ⟨p, hp, rfl⟩ := List.mem_map.mp ht
  obtain ⟨u, bound⟩ := Option.isSome_iff_exists.mp (done.checked.bound p hp)
  rw [Substitution.apply_of_bound bound] at hx
  exact ⟨p, hp, u, bound, hx⟩

theorem zip_call (used : Template) (s : Substitution) (f : Filling) :
    ((call used s).fill f).arguments.arguments.zip used.parameters =
      used.parameters.map fun p => (Argument.plain ((s.apply p.term).fill f), p) := by
  have zipped := List.zip_map' (f := fun p : Parameter => Argument.plain ((s.apply p.term).fill f))
    (g := id) (l := used.parameters)
  have arguments : ((call used s).fill f).arguments.arguments =
      used.parameters.map fun p => Argument.plain ((s.apply p.term).fill f) := by
    simp [call, Instance.ofTerms, ArgumentList.ofTerms, Instance.fill, Instance.mapTerms,
      ArgumentList.mapTerms, Function.comp_def, Argument.plain]
  rw [arguments]
  simpa using zipped

theorem mem_call {f : Filling} {pair : Argument × Parameter}
    (h : pair ∈ ((call used s).fill f).arguments.arguments.zip used.parameters) :
    pair.2 ∈ used.parameters ∧ pair.1.term = (s.apply pair.2.term).fill f := by
  rw [zip_call] at h
  obtain ⟨p, hp, rfl⟩ := List.mem_map.mp h
  exact ⟨hp, rfl⟩

theorem size_call (used : Template) (s : Substitution) (f : Filling) :
    ((call used s).fill f).arguments.size = used.parameters.length := by
  simp [call, Instance.ofTerms, ArgumentList.ofTerms, ArgumentList.size, Instance.fill,
    Instance.mapTerms, ArgumentList.mapTerms]

/-- What a parameter takes in the new instance is what its variable stands for. -/
theorem takes_call (done : Done store other used changed s) (closed : store.Closed)
    (faithful : Faithful used changed s) {v : Valuation}
    (suits : BodyExpansion.Suits v changed.parameters) {p : Parameter} (hp : p ∈ used.parameters)
    {x : Term} :
    p.Takes ((s.apply p.term).fill v.filling) x ↔ x = (s.apply p.term).fill v.filling := by
  by_cases emptied : (s.apply p.term).fill v.filling = .none
  · have may := done.mayBeNone closed faithful suits hp emptied
    exact Parameter.takes_of_keepsNone (Bool.and_eq_true_iff.mp may).2
  · exact Parameter.takes_of_ne emptied

theorem kept_call (done : Done store other used changed s) (closed : store.Closed)
    (faithful : Faithful used changed s) {v : Valuation}
    (suits : BodyExpansion.Suits v changed.parameters) :
    ((call used s).fill v.filling).isDiscarded used.parameters = false := by
  rw [Instance.isDiscarded, ArgumentList.terms, List.zip_map_left, List.any_map, List.any_eq_false]
  rintro ⟨a, p⟩ h dropped
  obtain ⟨hp, given⟩ := mem_call h
  obtain ⟨emptied, refused⟩ := Bool.and_eq_true_iff.mp dropped
  have may :=
    done.mayBeNone closed faithful suits hp (given.symm.trans (Term.isNone_iff.mp emptied))
  have refused : p.acceptsNone = false := by simpa using refused
  rw [Parameter.mayBeNone, refused] at may
  cases may

variable {facts : Instance → Prop} {v : Valuation}

/-- The matched instances make the new one hold. -/
theorem holds_call (done : Done store other used changed s) (closed : store.Closed)
    (faithful : Faithful used changed s) (suits : BodyExpansion.Suits v changed.parameters)
    {last : Store} (defined : last.status? used.iri = some (.definition used.parameters))
    (body : ∀ j ∈ last.bodyOf used.iri, j ∈ store.bodyOf used.iri)
    (asked : ∀ i ∈ used.body, Expansion.Holds last facts (i.fill (through s v).filling)) :
    Expansion.Holds last facts ((call used s).fill v.filling) := by
  refine .unfolded (through s v) defined rfl (fun pair h => ?_) ?_
  · obtain ⟨hp, given⟩ := mem_call h
    rw [given, done.takes_call closed faithful suits hp]
    exact congrArg (Term.fill v.filling) (done.value_parameter hp)
  · have all := Template.fill_make used.iri used.parameters (store.bodyOf used.iri)
      (Expansion.Holds last facts) (through s v)
    rw [done.usedBody] at all
    exact fun j hj => all.mp asked j (body j hj)

/-- The label that stands for a blank node of the changed body, if one of the template used
stands for it. -/
noncomputable def chosenLabel (used : Template) (s : Substitution) (w : Valuation)
    (labels : String → String) (c : String) : String :=
  open Classical in
  if h : ∃ b, (∃ i ∈ used.body, b ∈ i.blanks) ∧ s.reading.blank b = c then w.blank h.choose
  else labels c

theorem apply_blank (done : Done store other used changed s) (closed : store.Closed) (b : String) :
    s.apply (.blank b) = .blank (s.reading.blank b) := by
  have filled := Substitution.apply_eq_fill (done.matching closed).1 (.blank b)
    (by simp [Term.vars])
  rw [filled]
  rfl

theorem chosenLabel_image (done : Done store other used changed s) (closed : store.Closed)
    (faithful : Faithful used changed s) (w : Valuation) (labels : String → String) {i : Instance}
    (hi : i ∈ used.body) {b : String} (hb : b ∈ i.blanks) :
    chosenLabel used s w labels (s.reading.blank b) = w.blank b := by
  have here : ∃ a, (∃ i ∈ used.body, a ∈ i.blanks) ∧ s.reading.blank a = s.reading.blank b :=
    ⟨b, ⟨i, hi, hb⟩, rfl⟩
  rw [chosenLabel, dif_pos here]
  obtain ⟨⟨j, hj, hc⟩, same⟩ := here.choose_spec
  refine congrArg w.blank (faithful.distinct j hj i hi _ hc b hb ?_)
  rw [done.apply_blank closed, done.apply_blank closed, same]
  exact BEq.rfl

theorem chosenLabel_other {w : Valuation} {labels : String → String} {c : String}
    (apart : ∀ i ∈ used.body, ∀ b ∈ i.blanks, s.reading.blank b ≠ c) :
    chosenLabel used s w labels c = labels c := by
  rw [chosenLabel, dif_neg]
  rintro ⟨b, ⟨i, hi, hb⟩, same⟩
  exact apart i hi b hb same

/-- The new instance makes the matched ones hold, and touches nothing that is left. -/
theorem holds_matched (done : Done store other used changed s) (closed : store.Closed)
    (faithful : Faithful used changed s) (suits : BodyExpansion.Suits v changed.parameters)
    (holds : Expansion.Holds store facts ((call used s).fill v.filling)) :
    ∃ labels : String → String,
      (∀ j ∈ remaining used changed s,
        j.fill (⟨v.value, labels⟩ : Valuation).filling = j.fill v.filling) ∧
      ∀ i ∈ used.body,
        Expansion.Holds store facts (i.fill (through s ⟨v.value, labels⟩).filling) := by
  have inOrder : Expansion.InOrder false used.parameters ((call used s).fill v.filling) :=
    ⟨rfl, size_call used s _, done.kept_call closed faithful suits, nofun⟩
  obtain ⟨w, takes, body⟩ := holds.body done.uses inOrder
  refine ⟨chosenLabel used s w v.blank, fun j hj => ?_, fun i hi => ?_⟩
  · refine Instance.fill_congr j (fun _ _ => rfl) fun c hc => chosenLabel_other ?_
    rintro i hi b hb rfl
    exact done.unshared closed hi hj hb hc
  · have all := Template.fill_make used.iri used.parameters (store.bodyOf used.iri)
      (Expansion.Holds store facts) w
    rw [done.usedBody] at all
    have same : i.fill (through s ⟨v.value, chosenLabel used s w v.blank⟩).filling =
        i.fill w.filling := by
      refine Instance.fill_congr i (fun x hx => ?_) fun b hb =>
        done.chosenLabel_image closed faithful w v.blank hi hb
      obtain ⟨p, hp, label⟩ := done.exists_parameter closed hi hx
      have taken := takes (Argument.plain ((s.apply p.term).fill v.filling), p) (by
        rw [zip_call]
        exact List.mem_map_of_mem hp)
      have value : w.value p.label = (s.apply p.term).fill v.filling :=
        (done.takes_call closed faithful suits hp).mp taken
      rw [Valuation.filling_value, Valuation.filling_value, ← label, value, through]
      dsimp only
      rw [done.value_parameter hp]
      refine Term.fill_congr _ (fun _ _ => rfl) fun c hc => chosenLabel_other ?_
      rintro j hj b hb rfl
      have foreign := faithful.foreign p hp _ hc j hj b hb
      rw [done.apply_blank closed, BEq.rfl] at foreign
      cases foreign
    rw [same]
    exact all.mpr body i hi

theorem sameAt (done : Done store other used changed s) (wf : store.WellFormed) (iri : Iri) :
    store.SameAt other iri := by
  rw [← done.edited]
  exact ⟨fun ps => (Store.status?_editBody wf rfl _ _ _).symm,
    fun ps => (Store.status?_editBody wf rfl _ _ _).symm⟩

theorem mem_bodyOf_of_ne (done : Done store other used changed s) (wf : store.WellFormed)
    {iri : Iri} (apart : iri ≠ changed.iri) {j : Instance} :
    j ∈ other.bodyOf iri ↔ j ∈ store.bodyOf iri := by
  rw [← done.edited, Store.mem_bodyOf_editBody wf (Store.isDefinition_iff.mpr ⟨_, done.changes⟩)]
  simp [apart]

theorem closed_other (done : Done store other used changed s) (wf : store.WellFormed)
    (closed : store.Closed) : other.Closed where
  labels iri ps defined := closed.labels (((done.sameAt wf iri).definition ps).mpr defined)
  defaults iri ps defined := closed.defaults (((done.sameAt wf iri).definition ps).mpr defined)
  vars iri ps defined j hj x hx := by
    have old := ((done.sameAt wf iri).definition ps).mpr defined
    rw [← done.edited, Store.mem_bodyOf_editBody wf
      (Store.isDefinition_iff.mpr ⟨_, done.changes⟩)] at hj
    rcases hj with ⟨hj, -⟩ | ⟨rfl, rfl, -⟩
    · exact closed.vars old j hj x hx
    · obtain rfl := Status.definition.inj (Option.some.inj (done.changes.symm.trans old))
      obtain ⟨p, -, u, bound, hx⟩ := done.mem_vars_call hx
      exact (done.matching closed).1.vars _ u bound x hx

theorem holds_other (done : Done store other used changed s) (wf : store.WellFormed)
    (closed : store.Closed) (faithful : Faithful used changed s) {i : Instance}
    (holds : Expansion.Holds store facts i) : Expansion.Holds other facts i := by
  refine holds.carry (fun iri (_ : True) => done.sameAt wf iri) (fun _ _ _ _ => trivial) trivial ?_
  intro i ps v _ defined plain takes body
  have defined' := ((done.sameAt wf i.iri).definition ps).mp defined
  by_cases here : i.iri = changed.iri
  · rw [here] at defined body
    obtain rfl := Status.definition.inj (Option.some.inj (done.changes.symm.trans defined))
    refine Expansion.holds_of_suits plain defined' takes fun suits => ⟨v.blank, ?_⟩
    obtain ⟨left, asked⟩ := (done.fill_old closed (Expansion.Holds other facts) v).mp body
    rw [here]
    refine (done.fill_new wf (Expansion.Holds other facts) v).mpr ⟨left, ?_⟩
    exact done.holds_call closed faithful suits (((done.sameAt wf _).definition _).mp done.uses)
      (fun j hj => (done.mem_bodyOf_of_ne wf done.apart).mp hj) asked
  · exact .unfolded v defined' plain takes fun j hj =>
      body j ((done.mem_bodyOf_of_ne wf here).mp hj)

theorem holds_store (done : Done store other used changed s) (wf : store.WellFormed)
    (closed : store.Closed) (faithful : Faithful used changed s) {i : Instance}
    (holds : Expansion.Holds other facts i) : Expansion.Holds store facts i := by
  refine holds.carry (fun iri (_ : True) => (done.sameAt wf iri).symm) (fun _ _ _ _ => trivial)
    trivial ?_
  intro i ps v _ defined plain takes body
  have defined' := ((done.sameAt wf i.iri).definition ps).mpr defined
  by_cases here : i.iri = changed.iri
  · rw [here] at body
    have changes := done.changes
    rw [← here] at changes
    obtain rfl := Status.definition.inj (Option.some.inj (changes.symm.trans defined'))
    refine Expansion.holds_of_suits plain defined' takes fun suits => ?_
    obtain ⟨left, called⟩ := (done.fill_new wf (Expansion.Holds store facts) v).mp body
    obtain ⟨labels, untouched, asked⟩ := done.holds_matched closed faithful suits called
    refine ⟨labels, ?_⟩
    rw [here]
    refine (done.fill_old closed (Expansion.Holds store facts) ⟨v.value, labels⟩).mpr
      ⟨fun j hj => ?_, asked⟩
    rw [untouched j hj]
    exact left j hj
  · exact .unfolded v defined' plain takes fun j hj =>
      body j ((done.mem_bodyOf_of_ne wf here).mpr hj)

end Done

open Expansion in
/-- A refactoring along a faithful substitution changes nothing about what comes out of any
instance. -/
theorem refactor_alike {store other : Store} (reachable : store.Reachable) (closed : store.Closed)
    {used changed : Iri} {s : Substitution}
    (refactored : store.refactor used changed = (.ok s, other))
    (faithful : ∀ t u, store.getTemplate used = .ok t → store.getTemplate changed = .ok u →
      Faithful t u s) (i : Instance) : ExpandsAlike store other i := by
  obtain ⟨t, u, uses, changes, -, -, done⟩ := done_of_refactor refactored
  have wf := reachable.wellFormed
  have kept := faithful t u uses changes
  exact expandsAlike_of_holds closed (done.closed_other wf closed) fun facts =>
    ⟨done.holds_other wf closed kept, done.holds_store wf closed kept⟩

/-- A book that is read and lent, and a template for what has a tag and a note. -/
def books : Store :=
  (Store.empty .standard).acceptAll [
    .signature ⟨"Fact", [.mandatory "subject" .top, .mandatory "object" .top], true⟩,
    .template (.make "Tagged" [.mandatory "thing" .top, .mandatory "tag" .top] [
      .ofTerms "Fact" [.var ⟨"thing", .top⟩, .var ⟨"tag", .top⟩],
      .ofTerms "Fact" [.var ⟨"thing", .top⟩, .blank "note"]]),
    .template (.make "Book" [⟨⟨"title", .top⟩, ⟨true, false⟩, some (.literal (.plain "unnamed"))⟩] [
      .ofTerms "Fact" [.var ⟨"title", .top⟩, .iri "read"],
      .ofTerms "Fact" [.var ⟨"title", .top⟩, .blank "entry"],
      .ofTerms "Fact" [.var ⟨"title", .top⟩, .iri "lent"]])]

/-- The tag of a book is that it is lent, and its note is its entry. -/
def lending : Substitution :=
  ⟨[(.blank "note", .blank "entry"), (.var ⟨"tag", .top⟩, .iri "lent"),
    (.var ⟨"thing", .top⟩, .var ⟨"title", .top⟩)]⟩

def taggedBooks : Store := (books.refactor "Tagged" "Book").2

theorem reachable_books : books.Reachable := by
  apply Store.reachable_acceptAll
  simp [Declaration.Made]

/-- The books are tagged by one call, and a book without a title still comes out the same. -/
theorem refactor_alike_books :
    books.Reachable ∧ books.Closed ∧ books.refactor "Tagged" "Book" = (.ok lending, taggedBooks) ∧
      (∀ t u, books.getTemplate "Tagged" = .ok t → books.getTemplate "Book" = .ok u →
        Faithful t u lending) ∧
      (taggedBooks.bodyOf "Book").map (·.iri) = ["Fact", "Tagged"] ∧
      Expansion.ExpandsAlike books taggedBooks (.ofTerms "Book" [.none]) := by
  have closed : books.Closed := by decide
  have refactored : books.refactor "Tagged" "Book" = (.ok lending, taggedBooks) := rfl
  have faithful (t u) (first : books.getTemplate "Tagged" = .ok t)
      (second : books.getTemplate "Book" = .ok u) : Faithful t u lending := by
    obtain rfl := Except.ok.inj first
    obtain rfl := Except.ok.inj second
    decide
  exact ⟨reachable_books, closed, refactored, faithful, rfl,
    refactor_alike reachable_books closed refactored faithful _⟩

/-- The constant `none` given to a parameter that drops it. -/
def silences : Store :=
  (Store.empty .standard).acceptAll [
    .signature ⟨"Fact", [⟨⟨"object", .top⟩, ⟨true, false⟩, none⟩], true⟩,
    .template (.make "States" [.mandatory "thing" .top] [
      .ofTerms "Fact" [.var ⟨"thing", .top⟩]]),
    .template (.make "Silence" [] [.ofTerms "Fact" [.none]])]

def statedSilences : Store := (silences.refactor "States" "Silence").2

/-- Before, the fact comes out; afterwards the instance that stands for it is dropped. -/
theorem not_refactor_alike_silences :
    silences.Reachable ∧ silences.Closed ∧
      (silences.refactor "States" "Silence").1 = .ok ⟨[(.var ⟨"thing", .top⟩, .none)]⟩ ∧
      ¬ Expansion.ExpandsAlike silences statedSilences (.ofTerms "Silence" []) := by
  have closed : silences.Closed := by decide
  have reachable : silences.Reachable := by
    apply Store.reachable_acceptAll
    simp [Declaration.Made]
  have labels : silences.Unstemmed := by decide
  have labels' : statedSilences.Unstemmed := by decide
  refine ⟨reachable, closed, rfl, ?_⟩
  exact Expansion.not_expandsAlike_of_lost (o := .ofTerms "Fact" [.none])
    (rfl : Expansion.unchecked.checkArguments = false) (Instance.avoidedBy_of_bare rfl ⟨0⟩)
    (labels.labelsAvoided ⟨0⟩).defaults (labels'.labelsAvoided ⟨0⟩).defaults rfl rfl

end Refactoring

end RdfTemplates
