import RdfTemplates.Proofs.Minting
import RdfTemplates.Substitution.Lookup

/-!
# Applying a substitution to a body

While a body is gone through, the substitution only grows, by a new blank node
for a blank node of the body. In the end the body is filled in with what the
grown substitution binds. A filling of what was bound before can be changed at
the new labels so that the blank nodes of the body stand for whatever is wanted.
-/

namespace RdfTemplates

namespace Substitution

/-- What a substitution binds, as a valuation. -/
def reading (s : Substitution) : Valuation where
  value label := (s.get? (.var ⟨label, .top⟩)).getD .none
  blank b := match s.get? (.blank b) with
    | some (.blank c) => c
    | _ => b

/-- Filled in, the bound terms are what the valuation says. -/
structure Reads (s : Substitution) (v : Valuation) (f : Filling) : Prop where
  vars : ∀ x u, s.get? (.var x) = some u → u.fill f = v.value x.label
  blanks : ∀ b u, s.get? (.blank b) = some u → u.fill f = .blank (v.blank b)

theorem get?_var (s : Substitution) {x y : Variable} (same : x.label = y.label) :
    s.get? (.var x) = s.get? (.var y) := by
  apply get?_congr
  rw [Term.sameUnder_untyped, Term.untyped, Term.untyped, same]

theorem value_reading {s : Substitution} {x : Variable} {u : Term}
    (bound : s.get? (.var x) = some u) : s.reading.value x.label = u := by
  have found : s.get? (.var ⟨x.label, .top⟩) = some u := by
    rw [← bound]
    exact s.get?_var rfl
  simp [reading, found]

theorem blank_reading {s : Substitution} {b c : String}
    (bound : s.get? (.blank b) = some (.blank c)) : s.reading.blank b = c := by
  simp [reading, bound]

/-- A substitution that binds variables and blank nodes only, these to blank nodes. -/
structure Freshening.Keyed (state : Freshening) : Prop where
  keys : ∀ k u, state.bindings.get? k = some u → k.isVar = true ∨ k.isBlank = true
  blanks : ∀ b u, state.bindings.get? (.blank b) = some u → ∃ c, u = .blank c

/-- Besides, no value has a label that is still to come. -/
structure Freshening.Sound (state : Freshening) : Prop where
  keyed : state.Keyed
  avoided : ∀ k u, state.bindings.get? k = some u → u.AvoidedBy state.supply

/-- How a state may grow. -/
structure Freshening.Leads (state next : Freshening) : Prop where
  kept : ∀ k u, state.bindings.get? k = some u → next.bindings.get? k = some u
  added : ∀ k u, next.bindings.get? k = some u →
    state.bindings.get? k = some u ∨ k.isBlank = true
  grows : state.supply.next ≤ next.supply.next
  keyed : state.Keyed → next.Keyed
  sound : state.Sound → next.Sound
  reads : ∀ v f, state.Sound → state.bindings.Reads v f →
    ∃ g, Filling.Agrees state.supply next.supply f g ∧ next.bindings.Reads v g

namespace Freshening

variable {state next last : Freshening}

theorem Leads.refl (state : Freshening) : state.Leads state where
  kept := fun _ _ h => h
  added := fun _ _ h => .inl h
  grows := Nat.le_refl _
  keyed := id
  sound := id
  reads := fun _ f _ reads => ⟨f, .refl _ _ f, reads⟩

theorem Leads.trans (first : state.Leads next) (second : next.Leads last) : state.Leads last where
  kept := fun k u h => second.kept k u (first.kept k u h)
  added := fun k u h => by
    rcases second.added k u h with old | new
    · exact first.added k u old
    · exact .inr new
  grows := Nat.le_trans first.grows second.grows
  keyed := fun keyed => second.keyed (first.keyed keyed)
  sound := fun sound => second.sound (first.sound sound)
  reads := fun v f sound reads => by
    obtain ⟨g, agrees, reads⟩ := first.reads v f sound reads
    obtain ⟨h, agrees', reads⟩ := second.reads v g (first.sound sound) reads
    exact ⟨h, agrees.trans agrees' first.grows second.grows, reads⟩

/-- The state after a new blank node was bound. -/
def mintFor (state : Freshening) (b : String) : Freshening :=
  ⟨state.bindings.insert (.blank b) (.blank (BlankSupply.label state.supply.next)),
    ⟨state.supply.next + 1⟩⟩

theorem beq_blank {t : Term} {b : String} : (t == .blank b) = true ↔ t = .blank b := by
  cases t <;> simp [Term.sameUnder_untyped _ _, Term.untyped]

theorem get?_mintFor_self (state : Freshening) (b : String) :
    (state.mintFor b).bindings.get? (.blank b) =
      some (.blank (BlankSupply.label state.supply.next)) := by
  rw [mintFor, get?_insert, if_pos (beq_blank.mpr rfl)]

theorem get?_mintFor_of_ne {b : String} {t : Term} (apart : t ≠ .blank b) :
    (state.mintFor b).bindings.get? t = state.bindings.get? t := by
  rw [mintFor, get?_insert, if_neg (mt beq_blank.mp apart)]

/-- A binding afterwards is the new one or an old one. -/
theorem get?_mintFor {b : String} {k u : Term}
    (bound : (state.mintFor b).bindings.get? k = some u) :
    (k = .blank b ∧ u = .blank (BlankSupply.label state.supply.next)) ∨
      state.bindings.get? k = some u := by
  by_cases here : k = .blank b
  · subst here
    rw [get?_mintFor_self] at bound
    exact .inl ⟨rfl, (Option.some.inj bound).symm⟩
  · rw [get?_mintFor_of_ne here] at bound
    exact .inr bound

theorem keyed_mintFor (keyed : state.Keyed) (b : String) : (state.mintFor b).Keyed where
  keys := by
    intro k u bound
    rcases get?_mintFor bound with ⟨rfl, -⟩ | old
    · exact .inr rfl
    · exact keyed.keys k u old
  blanks := by
    intro c u bound
    rcases get?_mintFor bound with ⟨-, rfl⟩ | old
    · exact ⟨_, rfl⟩
    · exact keyed.blanks c u old

theorem sound_mintFor (sound : state.Sound) (b : String) : (state.mintFor b).Sound where
  keyed := keyed_mintFor sound.keyed b
  avoided := by
    intro k u bound
    rcases get?_mintFor bound with ⟨-, rfl⟩ | old
    · intro c hc
      rw [List.mem_singleton.mp hc]
      exact state.supply.minted_label.avoids
    · exact fun c hc => (sound.avoided k u old c hc).grow (Nat.le_succ _)

theorem leads_mintFor {b : String} (unbound : state.bindings.get? (.blank b) = none) :
    state.Leads (state.mintFor b) where
  kept := by
    intro k u bound
    rw [get?_mintFor_of_ne]
    · exact bound
    · rintro rfl
      rw [unbound] at bound
      cases bound
  added := by
    intro k u bound
    rcases get?_mintFor bound with ⟨rfl, -⟩ | old
    · exact .inr rfl
    · exact .inl old
  grows := Nat.le_succ _
  keyed := fun keyed => keyed_mintFor keyed b
  sound := fun sound => sound_mintFor sound b
  reads := by
    intro v f sound reads
    let g := f.setLabel (BlankSupply.label state.supply.next) (v.blank b)
    have agrees : Filling.Agrees state.supply ⟨state.supply.next + 1⟩ f g :=
      Filling.agrees_setLabel f state.supply (v.blank b)
    refine ⟨g, agrees, fun x u bound => ?_, fun c u bound => ?_⟩
    · rcases get?_mintFor bound with ⟨same, -⟩ | old
      · cases same
      · rw [agrees.fill_eq (sound.avoided _ u old)]
        exact reads.vars x u old
    · rcases get?_mintFor bound with ⟨same, rfl⟩ | old
      · rw [Term.blank.inj same, Term.fill]
        exact congrArg Term.blank (Filling.blank_setLabel f _ _)
      · rw [agrees.fill_eq (sound.avoided _ u old)]
        exact reads.blanks c u old

/-- The state has grown by the blank nodes of the terms. -/
structure Covers (state next : Freshening) (terms : List Term) : Prop where
  leads : state.Leads next
  bound : ∀ t ∈ terms, ∀ b ∈ t.blanks, (next.bindings.get? (.blank b)).isSome

theorem Covers.nil (state : Freshening) : state.Covers state [] :=
  ⟨.refl state, nofun⟩

theorem Covers.append {ts us : List Term} (first : state.Covers next ts)
    (second : next.Covers last us) : state.Covers last (ts ++ us) := by
  refine ⟨first.leads.trans second.leads, fun t ht b hb => ?_⟩
  rcases List.mem_append.mp ht with here | there
  · obtain ⟨u, bound⟩ := Option.isSome_iff_exists.mp (first.bound t here b hb)
    rw [second.leads.kept _ _ bound]
    rfl
  · exact second.bound t there b hb

theorem Keyed.get?_list (keyed : state.Keyed) (items : List Term) :
    state.bindings.get? (.list items) = none := by
  cases bound : state.bindings.get? (.list items) with
  | none => rfl
  | some u => rcases keyed.keys _ u bound with h | h <;> cases h

theorem freshen_bound {t u : Term} (bound : state.bindings.get? t = some u) :
    freshen t state = (u, state) := by
  unfold freshen
  rw [bound]

theorem freshen_blank {b : String} (unbound : state.bindings.get? (.blank b) = none) :
    freshen (.blank b) state =
      (.blank (BlankSupply.label state.supply.next), state.mintFor b) := by
  unfold freshen
  rw [unbound]
  rfl

theorem freshen_unbound {t : Term} (blank : t.isBlank = false) (list : t.isList = false)
    (unbound : state.bindings.get? t = none) : freshen t state = (t, state) := by
  unfold freshen
  rw [unbound]
  cases t with
  | blank => cases blank
  | list => cases list
  | _ => rfl

theorem freshen_leaf {t : Term} (blank : t.isBlank = false) (list : t.isList = false) :
    (freshen t state).2 = state := by
  cases known : state.bindings.get? t with
  | some u => rw [freshen_bound known]
  | none => rw [freshen_unbound blank list known]

theorem freshen_list (keyed : state.Keyed) (items : List Term) :
    freshen (.list items) state =
      (.list (freshenAll items state).1, (freshenAll items state).2) := by
  rw [freshen, keyed.get?_list]

theorem freshenAll_covers (ts : List Term) (each : ∀ t ∈ ts, ∀ state : Freshening,
    state.Keyed → state.Covers (freshen t state).2 [t]) (keyed : state.Keyed) :
    state.Covers (freshenAll ts state).2 ts := by
  induction ts generalizing state with
  | nil => exact .nil state
  | cons t ts ih =>
      have first := each t List.mem_cons_self state keyed
      exact first.append (ih (fun u hu => each u (List.mem_cons_of_mem t hu))
        (first.leads.keyed keyed))

theorem freshen_covers (t : Term) (keyed : state.Keyed) : state.Covers (freshen t state).2 [t] := by
  induction t generalizing state with
  | blank b =>
      cases known : state.bindings.get? (.blank b) with
      | none =>
          rw [freshen_blank known]
          refine ⟨leads_mintFor known, fun t ht c hc => ?_⟩
          obtain rfl := List.mem_singleton.mp ht
          rw [List.mem_singleton.mp hc, get?_mintFor_self]
          rfl
      | some u =>
          rw [freshen_bound known]
          refine ⟨.refl state, fun t ht c hc => ?_⟩
          obtain rfl := List.mem_singleton.mp ht
          rw [List.mem_singleton.mp hc, known]
          rfl
  | list items ih =>
      have items_ := freshenAll_covers items (fun t ht state keyed => ih t ht keyed) keyed
      rw [freshen_list keyed]
      refine ⟨items_.leads, fun t ht b hb => ?_⟩
      obtain rfl := List.mem_singleton.mp ht
      obtain ⟨u, hu, hb⟩ := Term.mem_blanksAll.mp hb
      exact items_.bound u hu b hb
  | iri | literal | none | var =>
      rw [freshen_leaf rfl rfl]
      exact ⟨.refl state, by simp [Term.blanks]⟩

theorem Leads.isSome_get? (leads : state.Leads next) {k : Term}
    (bound : (state.bindings.get? k).isSome) : (next.bindings.get? k).isSome := by
  obtain ⟨u, bound⟩ := Option.isSome_iff_exists.mp bound
  rw [leads.kept k u bound]
  rfl

theorem freshenAll_eq {ts : List Term} (each : ∀ t ∈ ts, ∀ state : Freshening, state.Keyed →
      (∀ x ∈ t.vars, (state.bindings.get? (.var x)).isSome) → (freshen t state).2.Leads last →
      (freshen t state).1 = t.fill last.bindings.reading.filling)
    (keyed : state.Keyed)
    (vars : ∀ t ∈ ts, ∀ x ∈ t.vars, (state.bindings.get? (.var x)).isSome)
    (leads : (freshenAll ts state).2.Leads last) :
    (freshenAll ts state).1 = ts.map (Term.fill last.bindings.reading.filling) := by
  induction ts generalizing state with
  | nil => rfl
  | cons t ts ih =>
      have first := (freshen_covers t keyed).leads
      have after := first.keyed keyed
      have rest := (freshenAll_covers ts (fun u _ _ keyed => freshen_covers u keyed)
        after).leads
      have head := each t List.mem_cons_self state keyed (vars t List.mem_cons_self)
        (rest.trans leads)
      have tail := ih (fun u hu => each u (List.mem_cons_of_mem t hu)) after
        (fun u hu x hx => first.isSome_get? (vars u (List.mem_cons_of_mem t hu) x hx)) leads
      rw [freshenAll, List.map_cons, ← head, ← tail]

/-- What comes out is the term filled in with what is bound in the end. -/
theorem freshen_eq (t : Term) (keyed : state.Keyed)
    (vars : ∀ x ∈ t.vars, (state.bindings.get? (.var x)).isSome)
    (leads : (freshen t state).2.Leads last) :
    (freshen t state).1 = t.fill last.bindings.reading.filling := by
  induction t generalizing state with
  | iri | literal | none =>
      unfold freshen
      split
      · rename_i bound
        rcases keyed.keys _ _ bound with h | h <;> cases h
      · rfl
  | var x =>
      obtain ⟨u, bound⟩ := Option.isSome_iff_exists.mp (vars x (by simp [Term.vars]))
      rw [freshen_bound bound] at leads ⊢
      exact (value_reading (leads.kept _ _ bound)).symm
  | blank b =>
      cases known : state.bindings.get? (.blank b) with
      | none =>
          rw [freshen_blank known] at leads ⊢
          have bound := leads.kept _ _ (get?_mintFor_self state b)
          simp [Term.fill, blank_reading bound]
      | some u =>
          rw [freshen_bound known] at leads ⊢
          obtain ⟨c, rfl⟩ := keyed.blanks b u known
          simp [Term.fill, blank_reading (leads.kept _ _ known)]
  | list items ih =>
      rw [freshen_list keyed] at leads ⊢
      have items_ := freshenAll_eq
        (fun t ht state keyed vars leads => ih t ht keyed vars leads) keyed
        (fun t ht x hx => vars x (Term.mem_varsAll.mpr ⟨t, ht, hx⟩)) leads
      rw [Term.fill_list, ← items_]

theorem freshenArguments_eq (as : List Argument) (keyed : state.Keyed) :
    state.Covers (freshenArguments as state).2 (as.map (·.term)) ∧
      ∀ last : Freshening, (freshenArguments as state).2.Leads last →
        (∀ t ∈ as.map (·.term), ∀ x ∈ t.vars, (state.bindings.get? (.var x)).isSome) →
        (freshenArguments as state).1 =
          as.map fun a => { a with term := a.term.fill last.bindings.reading.filling } := by
  induction as generalizing state with
  | nil => exact ⟨.nil state, fun _ _ _ => rfl⟩
  | cons a as ih =>
      have first := freshen_covers a.term keyed
      obtain ⟨covers, rest⟩ := ih (first.leads.keyed keyed)
      refine ⟨first.append covers, fun last leads vars => ?_⟩
      have head := freshen_eq a.term keyed (vars a.term List.mem_cons_self)
        (covers.leads.trans leads)
      have tail := rest last leads fun t ht x hx =>
        first.leads.isSome_get? (vars t (List.mem_cons_of_mem _ ht) x hx)
      rw [freshenArguments, List.map_cons, ← head, ← tail]

theorem freshenBody_eq (body : List Instance) (keyed : state.Keyed) :
    state.Covers (freshenBody body state).2 (body.flatMap (·.arguments.terms)) ∧
      ∀ last : Freshening, (freshenBody body state).2.Leads last →
        (∀ i ∈ body, ∀ x ∈ i.vars, (state.bindings.get? (.var x)).isSome) →
        (freshenBody body state).1 = body.map (·.fill last.bindings.reading.filling) := by
  induction body generalizing state with
  | nil => exact ⟨.nil state, fun _ _ _ => rfl⟩
  | cons i body ih =>
      obtain ⟨first, here⟩ := freshenArguments_eq i.arguments.arguments keyed
      obtain ⟨covers, rest⟩ := ih (first.leads.keyed keyed)
      refine ⟨first.append covers, fun last leads vars => ?_⟩
      have head := here last (covers.leads.trans leads) fun t ht x hx =>
        vars i List.mem_cons_self x (List.mem_flatMap.mpr ⟨t, ht, hx⟩)
      have tail := rest last leads fun j hj x hx =>
        first.leads.isSome_get? (vars j (List.mem_cons_of_mem i hj) x hx)
      have unfolded : (freshenBody (i :: body) state).1 =
          ⟨i.iri, ⟨(freshenArguments i.arguments.arguments state).1, i.arguments.expander⟩⟩ ::
            (freshenBody body (freshenArguments i.arguments.arguments state).2).1 := rfl
      rw [unfolded, List.map_cons, ← tail, head]
      rfl

/-- Filling in what is bound and then filling that is filling in what is wanted. -/
theorem fill_reading {s : Substitution} {v : Valuation} {f : Filling} (reads : s.Reads v f)
    (blanks : ∀ b u, s.get? (.blank b) = some u → ∃ c, u = .blank c) {i : Instance}
    (vars : ∀ x ∈ i.vars, (s.get? (.var x)).isSome)
    (labels : ∀ b ∈ i.blanks, (s.get? (.blank b)).isSome) :
    (i.fill s.reading.filling).fill f = i.fill v.filling := by
  rw [Instance.fill_fill]
  apply Instance.fill_congr
  · intro x hx
    obtain ⟨u, bound⟩ := Option.isSome_iff_exists.mp (vars x hx)
    change (s.reading.value x.label).fill f = v.value x.label
    rw [value_reading bound]
    exact reads.vars x u bound
  · intro b hb
    obtain ⟨u, bound⟩ := Option.isSome_iff_exists.mp (labels b hb)
    obtain ⟨c, rfl⟩ := blanks b u bound
    change f.blank (s.reading.blank b) = v.blank b
    rw [blank_reading bound]
    exact Term.blank.inj (reads.blanks b _ bound)

end Freshening

end Substitution

end RdfTemplates
