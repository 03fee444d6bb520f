import RdfTemplates.Proofs.Expansion.Hygiene
import RdfTemplates.Proofs.Freshening.Relabelling

/-!
# Runs that differ in labels

Labels decide nothing in a run, so the same instance with other labels goes the same
way, with other numbers for the blank nodes minted on it. A run with checks can be
led along one without: it goes through the same instances with other labels, and
where it rejects an instance it waits until the other one is through with it. The
labels are chosen as they are minted and kept from then on.
-/

namespace RdfTemplates

section Labels

variable (labels : String → String)

@[simp] theorem Term.isList_relabelling (t : Term) :
    (t.fill (.relabelling labels)).isList = t.isList := by
  cases t <;> rfl

theorem ArgumentList.canExpand_relabelling (args : ArgumentList) :
    (args.mapTerms (Term.fill (.relabelling labels))).canExpand = args.canExpand := by
  simp [canExpand, mapTerms, Function.comp_def]

end Labels

namespace Expansion

variable {store : Store} {i : Instance} {labels : String → String}
variable {old : String → Prop} {start supply next left other left' : BlankSupply}

theorem InOrder.loosen {checks : Bool} {ps : ParameterList} (inOrder : InOrder checks ps i) :
    InOrder false ps i :=
  ⟨inOrder.plain, inOrder.arity, inOrder.kept, nofun⟩

/-- The same instances with other labels, and an error for an error. -/
inductive Alike (labels : String → String) : Work → Work → Prop where
  | edge (i : Instance) : Alike labels (.edge i) (.edge (i.fill (.relabelling labels)))
  | failed (e e' : ExpansionError) : Alike labels (.failed e) (.failed e')

/-- What becomes of the same instance with other labels. -/
inductive BecomeAlike (labels : String → String) : Resolution → Resolution → Prop where
  | fact (i : Instance) :
      BecomeAlike labels (.item (.ok i)) (.item (.ok (i.fill (.relabelling labels))))
  | error (e e' : ExpansionError) : BecomeAlike labels (.item (.error e)) (.item (.error e'))
  | work {place place' : List Work} (each : List.Forall₂ (Alike labels) place place') :
      BecomeAlike labels (.work place) (.work place')

theorem alike_steps (labels : String → String) (i : Instance) (steps : List ExpansionStep) :
    List.Forall₂ (Alike labels) (steps.map (listWork i))
      ((steps.map (ExpansionStep.fill (.relabelling labels))).map
        (listWork (i.fill (.relabelling labels)))) := by
  induction steps with
  | nil => exact .nil
  | cons step steps ih =>
      refine .cons ?_ ih
      cases step with
      | expanded args => exact .edge ⟨i.iri, args⟩
      | exhausted step positions => exact .failed _ _

theorem alike_body (labels : String → String) (body : List Instance) :
    List.Forall₂ (Alike labels) (body.map .edge)
      ((body.map (·.fill (.relabelling labels))).map .edge) := by
  induction body with
  | nil => exact .nil
  | cons j body ih => exact .cons (.edge j) ih

/-- With checks the instance is rejected, or the one with other labels becomes the same with
other labels without them, and as many blank nodes are minted. -/
theorem Becomes.alike {r : Resolution} (h : Becomes store true i supply r left)
    (shifts : BlankSupply.Shifts labels supply other) (fixes : FixesDefaults store labels) :
    (∃ e, r = .item (.error e)) ∨
      ∃ r' k, Becomes store false (i.fill (.relabelling labels)) other r' ⟨other.next + k⟩ ∧
        left = ⟨supply.next + k⟩ ∧ BecomeAlike labels r r' := by
  cases h with
  | missing unresolved => exact .inr ⟨_, 0, .missing unresolved, rfl, .error _ _⟩
  | stuck resolved marked unknown =>
      refine .inr ⟨_, 0, .stuck resolved marked ?_, rfl, .error _ _⟩
      rw [Instance.arguments_fill, ArgumentList.canExpand_relabelling, unknown]
  | @lists expander resolved marked known =>
      have known' := ArgumentList.canExpand_fill (.relabelling labels) known
      refine .inr ⟨_, 0, .lists resolved marked known', rfl, .work ?_⟩
      rw [Instance.arguments_fill, ListExpander.steps_fill _ known]
      exact alike_steps labels i _
  | arity resolved parameters plain apart =>
      refine .inr ⟨_, 0, .arity resolved parameters plain ?_, rfl, .error _ _⟩
      simpa using apart
  | discarded resolved parameters plain arity dropped =>
      refine .inr ⟨_, 0, .discarded resolved parameters plain ?_ ?_, rfl, .work .nil⟩
      · simpa using arity
      · rw [isDiscarded_relabelling, dropped]
  | rejected => exact .inl ⟨_, rfl⟩
  | fact base inOrder =>
      exact .inr ⟨_, 0, .fact base (inOrder.loosen.relabelling labels), rfl, .fact i⟩
  | @unfolded ps s bound left body defined inOrder given applied =>
      obtain ⟨s', bound', k, minted, given', applied'⟩ :=
        Substitution.ofArguments_relabels shifts (fun p hp d has => fixes defined p hp d has)
          given applied
      exact .inr ⟨_, k, .unfolded defined (inOrder.loosen.relabelling labels) given'
        applied', minted, .work (alike_body labels body)⟩

theorem Becomes.supply_le {checks : Bool} {r : Resolution}
    (h : Becomes store checks i supply r left) : supply.next ≤ left.next := by
  cases h with
  | @unfolded ps _ _ _ _ _ _ given applied =>
      obtain ⟨-, rfl, rfl⟩ := Substitution.eq_given_of_ok given
      rw [Substitution.applyBody_eq_map] at applied
      obtain ⟨-, rfl⟩ := Prod.mk.inj applied
      have bound : supply.next ≤ (Substitution.given i.arguments ps supply).supply.next :=
        Substitution.Freshening.grows_give_all _ ⟨.empty, supply⟩
      exact Nat.le_trans bound (Nat.le_add_right _ _)
  | _ => exact Nat.le_refl _

theorem Yields.supply_le {checks : Bool} {work : List Work} {items : List ExpansionItem}
    (h : Yields store checks work supply items left) : supply.next ≤ left.next := by
  induction h with
  | nil => exact Nat.le_refl _
  | failed _ ih => exact ih
  | item head _ ih => exact Nat.le_trans head.supply_le ih
  | work head _ _ inner tail => exact Nat.le_trans head.supply_le (Nat.le_trans inner tail)

/-- What is minted in the one run is minted in the other, and what is different stays so. -/
structure Carries (labels : String → String) (supply left other left' : BlankSupply) : Prop where
  grows : other.next ≤ left'.next
  minted : ∀ b, supply.Minted left b → other.Minted left' (labels b)
  injective : Set.InjOn labels {b | supply.Minted left b}

theorem Carries.nothing (labels : String → String) (supply : BlankSupply)
    (grows : other.next ≤ left'.next) : Carries labels supply supply other left' := by
  have none (b : String) : ¬ supply.Minted supply b := by
    rintro ⟨n, from_, before, -⟩
    omega
  exact ⟨grows, fun b minted => absurd minted (none b), fun b minted => absurd minted (none b)⟩

theorem carries_of_shifts (shifts : BlankSupply.Shifts labels supply other) (k : Nat) :
    Carries labels supply ⟨supply.next + k⟩ other ⟨other.next + k⟩ where
  grows := Nat.le_add_right _ _
  minted := by
    rintro b ⟨n, from_, before, rfl⟩
    obtain ⟨m, rfl⟩ := Nat.exists_eq_add_of_le from_
    dsimp only at before
    exact ⟨other.next + m, by omega, by dsimp only; omega, shifts m⟩
  injective := by
    rintro _ ⟨n, from_, -, rfl⟩ _ ⟨n', from', -, rfl⟩ same
    obtain ⟨m, rfl⟩ := Nat.exists_eq_add_of_le from_
    obtain ⟨m', rfl⟩ := Nat.exists_eq_add_of_le from'
    rw [shifts, shifts] at same
    have number := BlankSupply.label_injective same
    congr 1
    omega

/-- What is minted is minted before or after. -/
theorem minted_split {b : String} (minted : supply.Minted left b) (next : BlankSupply) :
    supply.Minted next b ∨ next.Minted left b := by
  obtain ⟨n, from_, before, rfl⟩ := minted
  rcases Nat.lt_or_ge n next.next with early | late
  · exact .inl ⟨n, from_, early, rfl⟩
  · exact .inr ⟨n, late, before, rfl⟩

/-- One part of a run after the other. A label of the first part is not taken to one of the second
part. -/
theorem Carries.trans {labels' : String → String} {next' : BlankSupply}
    (first : Carries labels supply next other next')
    (second : Carries labels' next left next' left')
    (kept : ∀ b, next.Avoids b → labels' b = labels b) :
    Carries labels' supply left other left' where
  grows := Nat.le_trans first.grows second.grows
  minted := by
    intro b minted
    rcases minted_split minted next with early | late
    · rw [kept b early.avoids]
      exact (first.minted b early).left second.grows
    · exact (second.minted b late).right first.grows
  injective := by
    have apart {b c : String} (early : supply.Minted next b) (late : next.Minted left c) :
        labels' b ≠ labels' c := by
      rw [kept b early.avoids]
      intro same
      exact (first.minted b early).avoids.not_minted (same ▸ second.minted c late)
    intro b mintedB c mintedC same
    rcases minted_split mintedB next with earlyB | lateB
    · rcases minted_split mintedC next with earlyC | lateC
      · rw [kept b earlyB.avoids, kept c earlyC.avoids] at same
        exact first.injective earlyB earlyC same
      · exact absurd same (apart earlyB lateC)
    · rcases minted_split mintedC next with earlyC | lateC
      · exact absurd same.symm (apart earlyC lateB)
      · exact second.injective lateB lateC same

/-- All labels on the way come from the start or were minted since. The labels of defaults are
there at the start, and no label of the start is still to come. -/
structure Settled (store : Store) (old : String → Prop) (start : BlankSupply) : Prop where
  defaults : ∀ ⦃iri ps⦄, store.status? iri = some (.definition ps) → ∀ p ∈ ps,
    ∀ d ∈ p.default?, ∀ b ∈ d.blanks, old b
  avoids : ∀ b, old b → start.Avoids b

namespace Settled

variable (settled : Settled store old start)

include settled

theorem takesOld (i : Instance) : TakesOld store true old i :=
  fun _ defined _ pair h _ d has _ => settled.defaults defined pair.2 (List.of_mem_zip h).2 d has

theorem fixesDefaults (fixed : ∀ b, old b → labels b = b) : FixesDefaults store labels := by
  intro iri ps defined p hp d has
  have same : d.fill (.relabelling labels) = d.fill (.relabelling id) :=
    Term.fill_congr d (fun _ _ => rfl) fun b hb =>
      fixed b (settled.defaults defined p hp d has b hb)
  rw [same, Filling.fill_relabelling_id]

theorem avoidedBy (since : start.next ≤ supply.next) (traced : i.Traced old start supply) :
    i.AvoidedBy supply := by
  intro b hb
  rcases traced b hb with before | minted
  · exact (settled.avoids b before).grow since
  · exact minted.avoids

/-- The labels of the start stay as they are while those since are kept. -/
theorem fixes {labels' : String → String} (since : start.next ≤ supply.next)
    (fixed : ∀ b, old b → labels b = b) (kept : ∀ b, supply.Avoids b → labels' b = labels b) :
    ∀ b, old b → labels' b = b := by
  intro b here
  rw [kept b ((settled.avoids b here).grow since), fixed b here]

theorem fill_eq {labels' : String → String} (since : start.next ≤ supply.next)
    (traced : i.Traced old start supply) (kept : ∀ b, supply.Avoids b → labels' b = labels b) :
    i.fill (.relabelling labels') = i.fill (.relabelling labels) :=
  Instance.fill_congr i (fun _ _ => rfl) fun b hb => kept b (settled.avoidedBy since traced b hb)

end Settled

theorem alike_congr {labels' : String → String} {work work' : List Work}
    (alike : List.Forall₂ (Alike labels) work work') (same : ∀ i, .edge i ∈ work →
      i.fill (.relabelling labels') = i.fill (.relabelling labels)) :
    List.Forall₂ (Alike labels') work work' := by
  induction alike with
  | nil => exact .nil
  | cons first _ ih =>
      refine .cons ?_ (ih fun i h => same i (List.mem_cons_of_mem _ h))
      cases first with
      | edge i =>
          rw [← same i List.mem_cons_self]
          exact .edge i
      | failed e e' => exact .failed e e'

theorem outputs_append (items others : List ExpansionItem) :
    Store.outputs (items ++ others) = Store.outputs items ++ Store.outputs others :=
  List.filterMap_append

/-- The same instances come out with other labels, and perhaps more. -/
def Passes (labels : String → String) (items others : List ExpansionItem) : Prop :=
  ((Store.outputs items).map (·.fill (.relabelling labels))).Sublist (Store.outputs others)

theorem Passes.append {labels' : String → String} {items others more others' : List ExpansionItem}
    (first : Passes labels items others) (second : Passes labels' more others')
    (same : ∀ o ∈ Store.outputs items,
      o.fill (.relabelling labels') = o.fill (.relabelling labels)) :
    Passes labels' (items ++ more) (others ++ others') := by
  rw [Passes, outputs_append, outputs_append, List.map_append, List.map_congr_left same]
  exact List.Sublist.append first second

theorem passes_error (labels : String → String) (e : ExpansionError)
    (others : List ExpansionItem) : Passes labels [.error e] others := List.nil_sublist _

/-- A run with checks that goes along with one without, which comes to the other items. -/
structure GoesAlong (store : Store) (old : String → Prop) (start : BlankSupply)
    (labels labels' : String → String) (work : List Work)
    (supply left other left' : BlankSupply) (items others : List ExpansionItem) : Prop where
  yields : Yields store true work supply items left
  kept : ∀ b, supply.Avoids b → labels' b = labels b
  carries : Carries labels' supply left other left'
  passes : Passes labels' items others
  traced : ∀ o ∈ Store.outputs items, o.Traced old start left

namespace GoesAlong

variable {labels' labels'' : String → String} {work rest : List Work} {next' : BlankSupply}
variable {items others more others' : List ExpansionItem}

theorem nil (labels : String → String) (supply other : BlankSupply) :
    GoesAlong store old start labels labels [] supply supply other other [] [] where
  yields := .nil supply
  kept := fun _ _ => rfl
  carries := .nothing labels supply (Nat.le_refl _)
  passes := .slnil
  traced := nofun

theorem append (settled : Settled store old start) (since : start.next ≤ next.next)
    (first : GoesAlong store old start labels labels' work supply next other next' items
      others)
    (second : GoesAlong store old start labels' labels'' rest next left next' left' more
      others') :
    GoesAlong store old start labels labels'' (work ++ rest) supply left other left'
      (items ++ more) (others ++ others') where
  yields := yields_append.mpr ⟨items, more, next, rfl, first.yields, second.yields⟩
  kept := by
    intro b avoids
    rw [second.kept b (avoids.grow first.yields.supply_le), first.kept b avoids]
  carries := first.carries.trans second.carries second.kept
  passes := first.passes.append second.passes fun o here =>
    settled.fill_eq since (first.traced o here) second.kept
  traced := by
    intro o listed
    rw [outputs_append] at listed
    rcases List.mem_append.mp listed with here | there
    · exact fun b hb => (first.traced o here b hb).grow second.yields.supply_le
    · exact second.traced o there

theorem failed (labels : String → String) (e e' : ExpansionError) (supply other : BlankSupply) :
    GoesAlong store old start labels labels [.failed e] supply supply other other
      [.error e] [.error e'] where
  yields := .failed (.nil supply)
  kept := fun _ _ => rfl
  carries := .nothing labels supply (Nat.le_refl _)
  passes := passes_error labels e _
  traced := nofun

/-- Rejected in the run with checks, an instance leaves it as it was. -/
theorem rejected {e : ExpansionError} (head : Becomes store true i supply (.item (.error e)) left)
    (kept : ∀ b, supply.Avoids b → labels' b = labels b)
    (grows : other.next ≤ left'.next) (others : List ExpansionItem) :
    GoesAlong store old start labels labels' [.edge i] supply left other left' [.error e]
      others where
  yields := .item head (.nil left)
  kept := kept
  carries := by
    rw [head.supply_eq]
    exact .nothing labels' supply grows
  passes := passes_error labels' e others
  traced := nofun

end GoesAlong

/-- One instance, with checks, beside the same one with other labels. -/
theorem exists_alike (settled : Settled store old start) (since : start.next ≤ supply.next)
    (traced : i.Traced old start supply) (fixed : ∀ b, old b → labels b = b)
    {r' : Resolution} (head' : Becomes store false (i.fill (.relabelling labels)) other r' left') :
    ∃ r left labels', Becomes store true i supply r left ∧
      (∀ b, supply.Avoids b → labels' b = labels b) ∧ Carries labels' supply left other left' ∧
      (BecomeAlike labels' r r' ∨ ∃ e, r = .item (.error e)) := by
  obtain ⟨labels', shifts, kept⟩ := BlankSupply.exists_shifts labels supply other
  have fixed' : ∀ b, old b → labels' b = b := settled.fixes since fixed kept
  have head := becomes_resolve store true i supply
  rw [← settled.fill_eq since traced kept] at head'
  refine ⟨_, _, labels', head, kept, ?_⟩
  rcases head.alike shifts (settled.fixesDefaults fixed') with
    ⟨e, rejected⟩ | ⟨r, k, becomes, minted, alike⟩
  · rw [rejected] at head
    rw [head.supply_eq]
    exact ⟨.nothing labels' supply head'.supply_le, .inr ⟨e, rejected⟩⟩
  · obtain ⟨rfl, rfl⟩ := becomes.unique head'
    rw [minted]
    exact ⟨carries_of_shifts shifts k, .inl alike⟩

theorem exists_goesAlong_item (settled : Settled store old start)
    (since : start.next ≤ supply.next) (traced : i.Traced old start supply)
    (fixed : ∀ b, old b → labels b = b) {x : ExpansionItem}
    (head' : Becomes store false (i.fill (.relabelling labels)) other (.item x) left') :
    ∃ labels' left items, GoesAlong store old start labels labels' [.edge i] supply left
      other left' items [x] := by
  obtain ⟨r, left, labels', head, kept, carries, alike | ⟨e, rfl⟩⟩ :=
    exists_alike settled since traced fixed head'
  · cases alike with
    | fact o =>
        obtain ⟨rfl, rfl⟩ : o = i ∧ left = supply := by
          cases head
          exact ⟨rfl, rfl⟩
        refine ⟨labels', _, [.ok o], .item head (.nil _), kept, carries, ?_, ?_⟩
        · exact List.Sublist.refl _
        · intro j listed
          obtain rfl := List.mem_singleton.mp listed
          exact traced
    | error e e' =>
        exact ⟨labels', left, [.error e], .item head (.nil left), kept, carries,
          passes_error labels' e _, nofun⟩
  · exact ⟨labels', left, [.error e], .rejected head kept head'.supply_le _⟩

theorem exists_goesAlong_work (settled : Settled store old start)
    (since : start.next ≤ supply.next) (traced : i.Traced old start supply)
    (fixed : ∀ b, old b → labels b = b) {place' : List Work} {next' : BlankSupply}
    {others : List ExpansionItem}
    (head' : Becomes store false (i.fill (.relabelling labels)) other (.work place') next')
    (inner' : Yields store false place' next' others left')
    (inner : ∀ {place : List Work} {next : BlankSupply} {labels : String → String},
      start.next ≤ next.next → (∀ j, .edge j ∈ place → j.Traced old start next) →
      (∀ b, old b → labels b = b) → List.Forall₂ (Alike labels) place place' →
      ∃ labels' left items, GoesAlong store old start labels labels' place next left
        next' left' items others) :
    ∃ labels' left items, GoesAlong store old start labels labels' [.edge i] supply left
      other left' items others := by
  obtain ⟨r, next, labels₁, head, kept, carries, alike | ⟨e, rfl⟩⟩ :=
    exists_alike settled since traced fixed head'
  · cases alike with
    | work each =>
        obtain ⟨grows, placed⟩ := head.traced since (settled.takesOld i) traced
        have fixed' : ∀ b, old b → labels₁ b = b := settled.fixes since fixed kept
        obtain ⟨labels₂, left, items, along⟩ :=
          inner (Nat.le_trans since grows) placed fixed' each
        refine ⟨labels₂, left, items, ?_⟩
        constructor
        case yields =>
          have alone := Yields.work head along.yields (.nil left)
          rwa [List.append_nil] at alone
        case kept =>
          intro b avoids
          rw [along.kept b (avoids.grow grows), kept b avoids]
        case carries => exact carries.trans along.carries along.kept
        case passes => exact along.passes
        case traced => exact along.traced
  · exact ⟨labels₁, next, [.error e],
      .rejected head kept (Nat.le_trans head'.supply_le inner'.supply_le) others⟩

/-- Work that waits while the work before it is done waits with the labels made meanwhile. -/
theorem exists_goesAlong_append (settled : Settled store old start)
    (since : start.next ≤ supply.next) (fixed : ∀ b, old b → labels b = b)
    {labels₁ : String → String} {work rest rest' : List Work} {next' : BlankSupply}
    {items others others' : List ExpansionItem}
    (traced : ∀ i, .edge i ∈ rest → i.Traced old start supply)
    (alike : List.Forall₂ (Alike labels) rest rest')
    (first : GoesAlong store old start labels labels₁ work supply next other next' items
      others)
    (tail : ∀ {next : BlankSupply} {labels : String → String}, start.next ≤ next.next →
      (∀ i, .edge i ∈ rest → i.Traced old start next) → (∀ b, old b → labels b = b) →
      List.Forall₂ (Alike labels) rest rest' →
      ∃ labels' left items, GoesAlong store old start labels labels' rest next left
        next' left' items others') :
    ∃ labels' left items, GoesAlong store old start labels labels' (work ++ rest) supply
      left other left' items (others ++ others') := by
  have grows := first.yields.supply_le
  have later := Nat.le_trans since grows
  obtain ⟨labels₂, left, more, second⟩ := tail later
    (fun i h b hb => (traced i h b hb).grow grows)
    (settled.fixes since fixed first.kept)
    (alike_congr alike fun i h => settled.fill_eq since (traced i h) first.kept)
  exact ⟨labels₂, left, items ++ more, first.append settled later second⟩

/-- Beside every run without checks there goes one with checks, from any number on. -/
theorem Yields.exists_goesAlong (settled : Settled store old start) {work work' : List Work}
    {others : List ExpansionItem} (h : Yields store false work' other others left')
    (since : start.next ≤ supply.next)
    (traced : ∀ i, .edge i ∈ work → i.Traced old start supply)
    (fixed : ∀ b, old b → labels b = b) (alike : List.Forall₂ (Alike labels) work work') :
    ∃ labels' left items, GoesAlong store old start labels labels' work supply left other
      left' items others := by
  induction h generalizing work supply labels with
  | nil =>
      cases alike
      exact ⟨labels, supply, [], .nil labels supply _⟩
  | @failed e' _ other _ _ _ ih =>
      cases alike with
      | cons first rest =>
          cases first with
          | failed e =>
              have here : GoesAlong store old start labels labels [.failed e] supply supply
                  other other [.error e] [.error e'] := .failed labels e e' supply other
              exact exists_goesAlong_append settled since fixed
                (fun i h => traced i (List.mem_cons_of_mem _ h)) rest here ih
  | item head' _ ih =>
      cases alike with
      | cons first rest =>
          cases first with
          | edge i =>
              obtain ⟨labels₁, next, items, here⟩ := exists_goesAlong_item settled since
                (traced i List.mem_cons_self) fixed head'
              exact exists_goesAlong_append settled since fixed
                (fun i h => traced i (List.mem_cons_of_mem _ h)) rest here ih
  | work head' inner' _ inner tail =>
      cases alike with
      | cons first rest =>
          cases first with
          | edge i =>
              obtain ⟨labels₁, next, items, here⟩ := exists_goesAlong_work settled since
                (traced i List.mem_cons_self) fixed head' inner' inner
              exact exists_goesAlong_append settled since fixed
                (fun i h => traced i (List.mem_cons_of_mem _ h)) rest here tail

/-- A run with checks beside one of the same instance without them. -/
theorem exists_goesAlong_self (settled : Settled store old start) (given : ∀ b ∈ i.blanks, old b)
    {others : List ExpansionItem} (h : Yields store false [.edge i] other others left') :
    ∃ labels' left items, GoesAlong store old start id labels' [.edge i] start left other
      left' items others := by
  refine h.exists_goesAlong settled (Nat.le_refl _) ?_ (fun _ _ => rfl) ?_
  · intro j listed b hb
    obtain rfl := Work.edge.inj (List.mem_singleton.mp listed)
    exact .inl (given b hb)
  · have same : i.fill (.relabelling id) = i := Instance.fill_relabelling_id i
    have alone : Alike id (.edge i) (.edge (i.fill (.relabelling id))) := .edge i
    rw [same] at alone
    exact .cons alone .nil

end Expansion

end RdfTemplates
