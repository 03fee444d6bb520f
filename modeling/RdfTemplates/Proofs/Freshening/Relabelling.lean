import RdfTemplates.Proofs.Freshening.Simultaneous
import RdfTemplates.Proofs.ListExpansion
import RdfTemplates.Proofs.Unfolding

/-!
# Arguments with other labels

A blank node is looked up and passed on but never looked into. So a template that is
given the same arguments with other labels makes the same body of them with other
labels, and mints as many blank nodes on the way, from whatever number on.
-/

namespace RdfTemplates

namespace BlankSupply

variable {labels : String → String} {supply other : BlankSupply}

/-- The labels still to come from the one supply go to those from the other, one after the
other. -/
def Shifts (labels : String → String) (supply other : BlankSupply) : Prop :=
  ∀ k, labels (label (supply.next + k)) = label (other.next + k)

theorem Shifts.later (shifts : Shifts labels supply other) (k : Nat) :
    Shifts labels ⟨supply.next + k⟩ ⟨other.next + k⟩ := by
  intro n
  dsimp only
  rw [Nat.add_assoc, Nat.add_assoc]
  exact shifts (k + n)

theorem exists_shifts (labels : String → String) (supply other : BlankSupply) :
    ∃ shifted, Shifts shifted supply other ∧ ∀ b, supply.Avoids b → shifted b = labels b := by
  classical
  refine ⟨fun b => if h : ∃ k, b = label (supply.next + k) then label (other.next + h.choose)
    else labels b, fun k => ?_, fun b avoids => ?_⟩
  · have here : ∃ n, label (supply.next + k) = label (supply.next + n) := ⟨k, rfl⟩
    have number : supply.next + k = supply.next + here.choose :=
      label_injective here.choose_spec
    simp only [dif_pos here]
    rw [← Nat.add_left_cancel number]
  · have apart : ¬ ∃ k, b = label (supply.next + k) := by
      rintro ⟨k, same⟩
      exact avoids _ (Nat.le_add_right _ k) same
    simp only [dif_neg apart]

end BlankSupply

namespace Substitution

variable {labels : String → String} {s s' : Substitution} {supply other start start' : BlankSupply}
variable {met : List String} {t : Term}

/-- The other substitution binds what the one binds, to the same terms with other labels. -/
def Relabels (labels : String → String) (s s' : Substitution) : Prop :=
  ∀ k, s'.get? k = (s.get? k).map (Term.fill (.relabelling labels))

theorem Relabels.get?_of_bound {u : Term} (relabels : Relabels labels s s')
    (bound : s.get? t = some u) : s'.get? t = some (u.fill (.relabelling labels)) := by
  rw [relabels, bound]
  rfl

theorem Relabels.get?_of_unbound (relabels : Relabels labels s s') (unbound : s.get? t = none) :
    s'.get? t = none := by
  rw [relabels, unbound]
  rfl

theorem unmapped_list {items : List Term} (unbound : s.get? (.list items) = none) :
    s.unmapped (.list items) = items.flatMap s.unmapped := by
  have all (ts : List Term) : s.unmappedAll ts = ts.flatMap s.unmapped := by
    induction ts with
    | nil => rfl
    | cons t ts ih => rw [unmappedAll, ih, List.flatMap_cons]
  rw [unmapped, unbound]
  exact all items

/-- What is left as it is depends on the keys only. -/
theorem Relabels.unmapped_eq (relabels : Relabels labels s s') (t : Term) :
    s'.unmapped t = s.unmapped t := by
  induction t with
  | list items ih =>
      cases known : s.get? (.list items) with
      | some u =>
          rw [unmapped_of_bound known, unmapped_of_bound (relabels.get?_of_bound known)]
      | none =>
          rw [unmapped_list known, unmapped_list (relabels.get?_of_unbound known)]
          exact List.flatMap_congr ih
  | iri | literal | none | blank | var =>
      unfold unmapped
      rw [relabels]
      cases s.get? _ with
      | some u => rfl
      | none => rfl

theorem Relabels.unmappedIn_eq (relabels : Relabels labels s s') (body : List Instance) :
    s'.unmappedIn body = s.unmappedIn body := by
  refine List.flatMap_congr fun i _ => List.flatMap_congr fun a _ => ?_
  exact relabels.unmapped_eq a.term

theorem Relabels.apply_bound {u : Term} (relabels : Relabels labels s s')
    (bound : s.get? t = some u) : s'.apply t = (s.apply t).fill (.relabelling labels) := by
  rw [apply_of_bound bound, apply_of_bound (relabels.get?_of_bound bound)]

theorem Relabels.apply_eq (relabels : Relabels labels s s') (nothing : s.unmapped t = []) :
    s'.apply t = (s.apply t).fill (.relabelling labels) := by
  induction t with
  | blank b =>
      cases known : s.get? (.blank b) with
      | some u => exact relabels.apply_bound known
      | none =>
          rw [unmapped, known] at nothing
          cases nothing
  | list items ih =>
      cases known : s.get? (.list items) with
      | some u => exact relabels.apply_bound known
      | none =>
          rw [unmapped_list known, List.flatMap_eq_nil_iff] at nothing
          rw [apply_list_of_unbound known, apply_list_of_unbound (relabels.get?_of_unbound known),
            Term.fill_list, List.map_map]
          exact congrArg Term.list (List.map_congr_left fun t ht => ih t ht (nothing t ht))
  | iri | literal | none | var =>
      cases known : s.get? _ with
      | some u => exact relabels.apply_bound known
      | none =>
          rw [apply_of_unbound known rfl, apply_of_unbound (relabels.get?_of_unbound known) rfl]
          rfl

theorem Relabels.applyInstance_eq (relabels : Relabels labels s s') {i : Instance}
    (nothing : ∀ a ∈ i.arguments.arguments, s.unmapped a.term = []) :
    s'.applyInstance i = (s.applyInstance i).fill (.relabelling labels) := by
  rw [applyInstance, applyInstance, Instance.fill, Instance.mapTerms_mapTerms]
  refine Instance.mapTerms_congr i fun t ht => ?_
  obtain ⟨a, ha, rfl⟩ := List.mem_map.mp ht
  exact relabels.apply_eq (nothing a ha)

theorem relabels_relabelled (relabels : Relabels labels s s')
    (shifts : BlankSupply.Shifts labels supply other) (met : List String) :
    Relabels labels (s.relabelled (labelled supply met)) (s'.relabelled (labelled other met)) := by
  induction met with
  | nil => exact relabels
  | cons b met ih =>
      intro t
      rw [labelled, labelled, get?_relabelled_cons, get?_relabelled_cons, ih]
      split
      · exact congrArg (fun c => some (Term.blank c)) (shifts met.length).symm
      · rfl

theorem isSome_get?_relabelled {pairs : List (String × String)} {b : String}
    (known : b ∈ pairs.map Prod.fst ∨ (s.get? (.blank b)).isSome) :
    ((s.relabelled pairs).get? (.blank b)).isSome := by
  induction pairs with
  | nil => exact known.resolve_left List.not_mem_nil
  | cons pair pairs ih =>
      rw [get?_relabelled_cons]
      split
      · rfl
      · rename_i apart
        refine ih (known.imp_left fun listed => ?_)
        rw [List.map_cons, List.mem_cons] at listed
        refine listed.resolve_left fun same => apart ?_
        exact Freshening.beq_blank.mpr (congrArg Term.blank same)

/-- With labels for all that is left as it is, nothing is left. -/
theorem unmapped_relabelled (all : ∀ b ∈ s.unmapped t, b ∈ met) :
    (s.relabelled (labelled supply met)).unmapped t = [] := by
  induction t with
  | blank b =>
      have known : b ∈ (labelled supply met).map Prod.fst ∨ (s.get? (.blank b)).isSome := by
        rw [keys_labelled]
        cases known : s.get? (.blank b) with
        | some u => exact .inr rfl
        | none => exact .inl (all b (by simp [unmapped, known]))
      obtain ⟨u, bound⟩ := Option.isSome_iff_exists.mp (isSome_get?_relabelled known)
      exact unmapped_of_bound bound
  | list items ih =>
      cases known : s.get? (.list items) with
      | some u =>
          exact unmapped_of_bound (by rw [get?_relabelled_of_not_blank _ rfl, known])
      | none =>
          rw [unmapped_list known] at all
          rw [unmapped_list (by rw [get?_relabelled_of_not_blank _ rfl, known]),
            List.flatMap_eq_nil_iff]
          exact fun t ht => ih t ht fun b hb => all b (List.mem_flatMap.mpr ⟨t, ht, hb⟩)
  | iri | literal | none | var =>
      unfold unmapped
      rw [get?_relabelled_of_not_blank _ rfl]
      cases s.get? _ with
      | some u => rfl
      | none => rfl

/-- The body comes out with other labels, and as many are handed out. -/
theorem Relabels.applyBody (relabels : Relabels labels s s')
    (shifts : BlankSupply.Shifts labels supply other) (body : List Instance) :
    ∃ k, (s.applyBody body supply).2 = ⟨supply.next + k⟩ ∧
      s'.applyBody body other =
        ((s.applyBody body supply).1.map (·.fill (.relabelling labels)), ⟨other.next + k⟩) := by
  have met : s'.handedOut body other =
      labelled other ((s.unmappedIn body).foldl meet []) := by
    rw [handedOut, relabels.unmappedIn_eq]
  refine ⟨(s.handedOut body supply).length, by rw [applyBody_eq_map], ?_⟩
  rw [applyBody_eq_map, applyBody_eq_map, met, handedOut, length_labelled, length_labelled,
    List.map_map]
  congr 1
  refine List.map_congr_left fun i hi => ?_
  refine (relabels_relabelled relabels shifts _).applyInstance_eq fun a ha => ?_
  refine unmapped_relabelled fun b hb => mem_meetAll.mpr (.inr ?_)
  exact List.mem_flatMap.mpr ⟨i, hi, List.mem_flatMap.mpr ⟨a, ha, hb⟩⟩

/-- A default that is put in place as it is has the same labels. -/
def FixesDefault (labels : String → String) (p : Parameter) : Prop :=
  ∀ d ∈ p.default?, d.fill (.relabelling labels) = d

theorem received_relabels (shifts : BlankSupply.Shifts labels supply other) {p : Parameter}
    (fixes : FixesDefault labels p) (t : Term) :
    ∃ k, (received p t supply).2 = ⟨supply.next + k⟩ ∧
      received p (t.fill (.relabelling labels)) other =
        ((received p t supply).1.fill (.relabelling labels), ⟨other.next + k⟩) := by
  cases t with
  | none =>
      have still : Term.none.fill (.relabelling labels) = .none := rfl
      cases has : p.default? with
      | none => exact ⟨0, by simp [received, has, still]⟩
      | some d =>
          have same := fixes d has
          cases d with
          | blank b =>
              have next : labels (BlankSupply.label supply.next) = BlankSupply.label other.next :=
                shifts 0
              exact ⟨1, by simp [received, has, BlankSupply.mint, Term.fill, Filling.relabelling,
                next]⟩
          | _ => exact ⟨0, by simp only [received, has, still, same]; exact ⟨rfl, rfl⟩⟩
  | _ => exact ⟨0, rfl, rfl⟩

/-- The states of two runs that started at the supplies and differ in labels only. -/
structure Freshening.Alongside (labels : String → String) (supply other : BlankSupply)
    (state state' : Freshening) : Prop where
  bindings : Relabels labels state.bindings state'.bindings
  minted : ∃ k, state.supply = ⟨supply.next + k⟩ ∧ state'.supply = ⟨other.next + k⟩

namespace Freshening.Alongside

variable {state state' : Freshening}

theorem shifts (alongside : Alongside labels supply other state state')
    (shifts : BlankSupply.Shifts labels supply other) :
    BlankSupply.Shifts labels state.supply state'.supply := by
  obtain ⟨k, here, there⟩ := alongside.minted
  rw [here, there]
  exact shifts.later k

theorem give (alongside : Alongside labels supply other state state')
    (shifts : BlankSupply.Shifts labels supply other) {pair : Argument × Parameter}
    (fixes : FixesDefault labels pair.2) :
    Alongside labels supply other (state.give pair)
      (state'.give (pair.1.fill (.relabelling labels), pair.2)) := by
  obtain ⟨n, minted, received⟩ :=
    received_relabels (alongside.shifts shifts) fixes pair.1.term
  have given : state'.give (pair.1.fill (.relabelling labels), pair.2) =
      ⟨state'.bindings.insert pair.2.term ((Substitution.received pair.2 pair.1.term
        state.supply).1.fill (.relabelling labels)), ⟨state'.supply.next + n⟩⟩ := by
    unfold Freshening.give Argument.fill
    rw [received]
  rw [given]
  constructor
  case bindings =>
    intro t
    rw [Freshening.give, get?_insert, get?_insert, alongside.bindings t]
    split <;> rfl
  case minted =>
    obtain ⟨k, here, there⟩ := alongside.minted
    refine ⟨k + n, ?_, ?_⟩
    · rw [Freshening.give, minted, here, Nat.add_assoc]
    · rw [there, Nat.add_assoc]

theorem give_all {pairs : List (Argument × Parameter)}
    (alongside : Alongside labels supply other state state')
    (shifts : BlankSupply.Shifts labels supply other)
    (fixes : ∀ pair ∈ pairs, FixesDefault labels pair.2) :
    Alongside labels supply other (pairs.foldl Freshening.give state)
      ((pairs.map (Prod.map (Argument.fill (.relabelling labels)) id)).foldl
        Freshening.give state') := by
  induction pairs generalizing state state' with
  | nil => exact alongside
  | cons pair pairs ih =>
      exact ih (alongside.give shifts (fixes pair List.mem_cons_self))
        fun other h => fixes other (List.mem_cons_of_mem pair h)

end Freshening.Alongside

theorem alongside_given (shifts : BlankSupply.Shifts labels supply other) {ps : ParameterList}
    (fixes : ∀ p ∈ ps, FixesDefault labels p) (args : ArgumentList) :
    Freshening.Alongside labels supply other (given args ps supply)
      (given (args.mapTerms (Term.fill (.relabelling labels))) ps other) := by
  have zipped : (args.mapTerms (Term.fill (.relabelling labels))).arguments.zip ps =
      (args.arguments.zip ps).map (Prod.map (Argument.fill (.relabelling labels)) id) :=
    List.zip_map_left ..
  have empty : Freshening.Alongside labels supply other ⟨.empty, supply⟩ ⟨.empty, other⟩ :=
    ⟨fun _ => rfl, 0, rfl, rfl⟩
  unfold given
  rw [zipped]
  exact empty.give_all shifts fun pair h => fixes pair.2 (List.of_mem_zip h).2

theorem ofArguments_eq_given {args : ArgumentList} {ps : ParameterList}
    (arity : args.size = ps.length) (supply : BlankSupply) :
    ofArguments args ps supply =
      .ok ((given args ps supply).bindings, (given args ps supply).supply) := by
  rw [ofArguments, if_pos (beq_iff_eq.mpr arity), Freshening.bindParameters_eq]
  rfl

/-- A template that is given its arguments with other labels, and goes on with other numbers,
makes its body with other labels and mints as many. -/
theorem ofArguments_relabels (shifts : BlankSupply.Shifts labels supply other)
    {args : ArgumentList} {ps : ParameterList} {bound left : BlankSupply}
    {body js : List Instance} (fixes : ∀ p ∈ ps, FixesDefault labels p)
    (ok : ofArguments args ps supply = .ok (s, bound))
    (applied : s.applyBody body bound = (js, left)) :
    ∃ s' bound' k, left = ⟨supply.next + k⟩ ∧
      ofArguments (args.mapTerms (Term.fill (.relabelling labels))) ps other =
        .ok (s', bound') ∧
      s'.applyBody body bound' = (js.map (·.fill (.relabelling labels)), ⟨other.next + k⟩) := by
  obtain ⟨arity, rfl, rfl⟩ := eq_given_of_ok ok
  have alongside := alongside_given shifts fixes args
  have arity' : (args.mapTerms (Term.fill (.relabelling labels))).size = ps.length := by
    rw [ArgumentList.size_mapTerms, arity]
  obtain ⟨n, here, there⟩ := alongside.minted
  obtain ⟨k, minted, applied'⟩ := alongside.bindings.applyBody (alongside.shifts shifts) body
  rw [applied] at minted applied'
  refine ⟨_, _, n + k, ?_, ofArguments_eq_given arity' other, ?_⟩
  · rw [here, Nat.add_assoc] at minted
    exact minted
  · rw [applied', there, Nat.add_assoc]

end Substitution

end RdfTemplates
