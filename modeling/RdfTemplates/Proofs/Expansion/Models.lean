import RdfTemplates.Proofs.Expansion.Run
import RdfTemplates.Proofs.ListExpansion
import RdfTemplates.Proofs.Unfolding

/-!
# What an instance says about facts

Some facts make an instance hold if its expansion is found among them, whatever
labels its new blank nodes have. An expansion makes its own instance hold, and
it is the most general one: wherever the instance holds, its results are found
again under other labels for the new blank nodes. So two stores in which an
instance holds for the same facts expand it to sets that map into each other.
-/

namespace RdfTemplates

namespace Store

/-- In every definition the labels are distinct, the variables of the body are parameters and
no default has a variable. -/
structure Closed (store : Store) : Prop where
  labels : ∀ ⦃iri ps⦄, store.status? iri = some (.definition ps) → (ps.map (·.label)).Nodup
  vars : ∀ ⦃iri ps⦄, store.status? iri = some (.definition ps) → ∀ j ∈ store.bodyOf iri,
    ∀ x ∈ j.vars, x.label ∈ ps.map (·.label)
  defaults : ∀ ⦃iri ps⦄, store.status? iri = some (.definition ps) → ∀ p ∈ ps, ∀ d,
    p.default? = some d → d.vars = []

def definition? (store : Store) (iri : Iri) : Option ParameterList :=
  match store.status? iri with
  | some (.definition ps) => some ps
  | _ => none

theorem mem_definition? {store : Store} {iri : Iri} {ps : ParameterList} :
    ps ∈ store.definition? iri ↔ store.status? iri = some (.definition ps) := by
  unfold definition?
  split
  · rename_i qs status
    simp [status]
  · rename_i other
    simp only [Option.mem_def, reduceCtorEq, false_iff]
    exact other ps

/-- A definition has an entry, so there are finitely many to look at. -/
instance decidableDefinitions (store : Store) (P : Iri → ParameterList → Prop)
    [∀ iri ps, Decidable (P iri ps)] :
    Decidable (∀ iri ps, store.status? iri = some (.definition ps) → P iri ps) :=
  decidable_of_iff
    (∀ e ∈ store.entries.latestFirst, ∀ ps ∈ store.definition? e.iri, P e.iri ps) <| by
    constructor
    · intro each iri ps defined
      obtain ⟨e, used, rfl⟩ := (store.status?_isSome iri).mp (by rw [defined]; rfl)
      exact each e used ps (mem_definition?.mpr defined)
    · exact fun all e _ ps defined => all e.iri ps (mem_definition?.mp defined)

instance (store : Store) : Decidable store.Closed :=
  decidable_of_iff
    (∀ iri ps, store.status? iri = some (.definition ps) → (ps.map (·.label)).Nodup ∧
      (∀ j ∈ store.bodyOf iri, ∀ x ∈ j.vars, x.label ∈ ps.map (·.label)) ∧
      ∀ p ∈ ps, ∀ d ∈ p.default?, d.vars = []) <| by
    constructor
    · intro each
      exact ⟨fun _ _ defined => (each _ _ defined).1, fun _ _ defined => (each _ _ defined).2.1,
        fun _ _ defined => (each _ _ defined).2.2⟩
    · exact fun closed _ _ defined =>
        ⟨closed.labels defined, closed.vars defined, closed.defaults defined⟩

/-- No default has a label that is still to come. -/
def DefaultsAvoided (store : Store) (supply : BlankSupply) : Prop :=
  ∀ ⦃iri ps⦄, store.status? iri = some (.definition ps) → ∀ p ∈ ps, ∀ d,
    p.default? = some d → d.AvoidedBy supply

theorem DefaultsAvoided.grow {store : Store} {supply later : BlankSupply}
    (avoided : store.DefaultsAvoided supply) (grows : supply.next ≤ later.next) :
    store.DefaultsAvoided later :=
  fun _ _ defined p hp d has b hb => (avoided defined p hp d has b hb).grow grows

end Store

namespace Expansion

/-- Whether facts account for an instance. An instance that fails or is dropped asks for none. -/
inductive Holds (store : Store) (facts : Instance → Prop) : Instance → Prop where
  | unresolved {i : Instance} (unresolved : store.isResolved i.iri = false) : Holds store facts i
  | stuck {i : Instance} {expander : ListExpander} (marked : i.arguments.expander = some expander)
      (unknown : i.arguments.canExpand = false) : Holds store facts i
  | lists {i : Instance} {expander : ListExpander} (marked : i.arguments.expander = some expander)
      (each : ∀ args, .expanded args ∈ expander.steps i.arguments.arguments →
        Holds store facts ⟨i.iri, args⟩) : Holds store facts i
  | arity {i : Instance} {ps : ParameterList} (plain : i.arguments.expander = none)
      (parameters : store.parameters? i.iri = some ps) (apart : i.arguments.size ≠ ps.length) :
      Holds store facts i
  | discarded {i : Instance} {ps : ParameterList} (plain : i.arguments.expander = none)
      (parameters : store.parameters? i.iri = some ps) (dropped : i.isDiscarded ps = true) :
      Holds store facts i
  | fact {i : Instance} {ps : ParameterList} (base : store.status? i.iri = some (.base ps))
      (plain : i.arguments.expander = none) (listed : facts i) : Holds store facts i
  | unfolded {i : Instance} {ps : ParameterList} (v : Valuation)
      (defined : store.status? i.iri = some (.definition ps))
      (plain : i.arguments.expander = none)
      (takes : ∀ pair ∈ i.arguments.arguments.zip ps,
        pair.2.Takes pair.1.term (v.value pair.2.label))
      (body : ∀ j ∈ store.bodyOf i.iri, Holds store facts (j.fill v.filling)) :
      Holds store facts i

variable {store : Store} {facts : Instance → Prop} {i : Instance}

theorem Holds.step {expander : ListExpander} (holds : Holds store facts i)
    (resolved : store.isResolved i.iri = true) (marked : i.arguments.expander = some expander)
    (known : i.arguments.canExpand = true) {args : ArgumentList}
    (h : .expanded args ∈ expander.steps i.arguments.arguments) :
    Holds store facts ⟨i.iri, args⟩ := by
  cases holds with
  | unresolved unresolved =>
      rw [resolved] at unresolved
      cases unresolved
  | stuck _ unknown =>
      rw [known] at unknown
      cases unknown
  | lists marked' each =>
      obtain rfl := Option.some.inj (marked.symm.trans marked')
      exact each args h
  | arity plain | discarded plain | fact _ plain | unfolded _ _ plain =>
      rw [marked] at plain
      cases plain

/-- An instance in order holds only as a fact or through the body of its template. -/
theorem Holds.fact_or_unfolded {ps : ParameterList} (holds : Holds store facts i)
    (known : store.status? i.iri = some (.base ps) ∨ store.status? i.iri = some (.definition ps))
    (inOrder : InOrder false ps i) :
    (∃ qs, store.status? i.iri = some (.base qs)) ∧ facts i ∨
      ∃ qs, store.status? i.iri = some (.definition qs) ∧
        ∃ v : Valuation, (∀ pair ∈ i.arguments.arguments.zip qs,
            pair.2.Takes pair.1.term (v.value pair.2.label)) ∧
          ∀ j ∈ store.bodyOf i.iri, Holds store facts (j.fill v.filling) := by
  have parameters := Store.parameters_of_status known
  cases holds with
  | unresolved unresolved =>
      rw [resolved_iff.mpr ⟨ps, known⟩] at unresolved
      cases unresolved
  | stuck marked | lists marked =>
      rw [inOrder.plain] at marked
      cases marked
  | arity _ parameters' apart =>
      obtain rfl := Option.some.inj (parameters.symm.trans parameters')
      exact absurd inOrder.arity apart
  | discarded _ parameters' dropped =>
      obtain rfl := Option.some.inj (parameters.symm.trans parameters')
      rw [inOrder.kept] at dropped
      cases dropped
  | fact base _ listed => exact .inl ⟨⟨_, base⟩, listed⟩
  | unfolded v defined _ takes body => exact .inr ⟨_, defined, v, takes, body⟩

/-- A base instance that is in order holds only as a fact. -/
theorem Holds.listed {ps : ParameterList} (holds : Holds store facts i)
    (base : store.status? i.iri = some (.base ps)) (inOrder : InOrder false ps i) : facts i := by
  rcases holds.fact_or_unfolded (.inl base) inOrder with ⟨-, listed⟩ | ⟨qs, defined, -⟩
  · exact listed
  · cases base.symm.trans defined

/-- An instance of a definition that is in order holds only by its body. -/
theorem Holds.body {ps : ParameterList} (holds : Holds store facts i)
    (defined : store.status? i.iri = some (.definition ps)) (inOrder : InOrder false ps i) :
    ∃ v : Valuation, (∀ pair ∈ i.arguments.arguments.zip ps,
        pair.2.Takes pair.1.term (v.value pair.2.label)) ∧
      ∀ j ∈ store.bodyOf i.iri, Holds store facts (j.fill v.filling) := by
  rcases holds.fact_or_unfolded (.inr defined) inOrder with ⟨⟨qs, base⟩, -⟩ | ⟨qs, defined', holds⟩
  · cases defined.symm.trans base
  · obtain rfl := Status.definition.inj (Option.some.inj (defined.symm.trans defined'))
    exact holds

variable {supply left : BlankSupply}

theorem pairs_avoided {ps : ParameterList} (defined : store.status? i.iri = some (.definition ps))
    (avoided : i.AvoidedBy supply) (defaults : store.DefaultsAvoided supply) :
    ∀ pair ∈ i.arguments.arguments.zip ps, Substitution.PairAvoided supply pair := by
  rintro ⟨a, p⟩ h
  obtain ⟨ha, hp⟩ := List.of_mem_zip h
  exact ⟨Instance.avoidedBy_iff.mp avoided a.term (List.mem_map_of_mem ha), defaults defined p hp⟩

/-- A step of a list expansion has no blank node of its own. -/
theorem mem_blanks_of_step {expander : ListExpander} {args : ArgumentList}
    (h : .expanded args ∈ expander.steps i.arguments.arguments) {b : String}
    (hb : b ∈ (⟨i.iri, args⟩ : Instance).blanks) : b ∈ i.blanks := by
  obtain ⟨t, ht, hb⟩ := Instance.mem_blanks.mp hb
  obtain ⟨a, ha, rfl⟩ := List.mem_map.mp ht
  obtain ⟨c, hc, hb⟩ := (ListExpansion.comesFrom_steps h ha).blanks hb
  exact Instance.mem_blanks.mpr ⟨c.term, List.mem_map_of_mem hc, hb⟩

theorem avoided_step {expander : ListExpander} {args : ArgumentList} (avoided : i.AvoidedBy supply)
    (h : .expanded args ∈ expander.steps i.arguments.arguments) :
    (⟨i.iri, args⟩ : Instance).AvoidedBy supply :=
  fun b hb => avoided b (mem_blanks_of_step h hb)

/-- The body of an unfolded instance, as a filling of the body in the store. -/
theorem unfolds_of_becomes {ps : ParameterList} {s : Substitution} {bound : BlankSupply}
    {js : List Instance} (closed : store.Closed)
    (defined : store.status? i.iri = some (.definition ps))
    (given : Substitution.ofArguments i.arguments ps supply = .ok (s, bound))
    (applied : s.applyBody (store.bodyOf i.iri) bound = (js, left))
    (avoided : i.AvoidedBy supply) (defaults : store.DefaultsAvoided supply) :
    ∃ w : Valuation, js = (store.bodyOf i.iri).map (·.fill w.filling) ∧
      Substitution.Unfolds i.arguments ps (store.bodyOf i.iri) supply left w :=
  Substitution.exists_unfolds given applied (closed.labels defined) (closed.vars defined)
    (pairs_avoided defined avoided defaults)

theorem Becomes.supply_eq {checks : Bool} {x : ExpansionItem}
    (h : Becomes store checks i supply (.item x) left) : left = supply := by
  cases h <;> rfl

theorem Becomes.avoided {checks : Bool} {place : List Work} (closed : store.Closed)
    (h : Becomes store checks i supply (.work place) left) (avoided : i.AvoidedBy supply)
    (defaults : store.DefaultsAvoided supply) :
    supply.next ≤ left.next ∧ ∀ j, .edge j ∈ place → j.AvoidedBy left := by
  cases h with
  | lists =>
      refine ⟨Nat.le_refl _, fun j listed => ?_⟩
      obtain ⟨args, made, rfl⟩ := edge_mem_listWork.mp listed
      exact avoided_step avoided made
  | discarded => exact ⟨Nat.le_refl _, nofun⟩
  | unfolded defined _ given applied =>
      obtain ⟨w, rfl, unfolds⟩ := unfolds_of_becomes closed defined given applied avoided defaults
      refine ⟨unfolds.grows, fun j listed => ?_⟩
      obtain ⟨j₀, hj, rfl⟩ := List.mem_map.mp (edge_mem_map.mp listed)
      exact unfolds.avoided j₀ hj

theorem Yields.grows {checks : Bool} {work : List Work} {items : List ExpansionItem}
    (closed : store.Closed) (h : Yields store checks work supply items left)
    (avoided : ∀ i, .edge i ∈ work → i.AvoidedBy supply)
    (defaults : store.DefaultsAvoided supply) : supply.next ≤ left.next := by
  induction h with
  | nil => exact Nat.le_refl _
  | failed _ ih => exact ih (fun i h => avoided i (List.mem_cons_of_mem _ h)) defaults
  | item head _ ih =>
      obtain rfl := head.supply_eq
      exact ih (fun i h => avoided i (List.mem_cons_of_mem _ h)) defaults
  | work head _ _ inner tail =>
      obtain ⟨here, place⟩ := head.avoided closed (avoided _ List.mem_cons_self) defaults
      have within := inner place (defaults.grow here)
      have grows := Nat.le_trans here within
      exact Nat.le_trans grows (tail
        (fun i h => (avoided i (List.mem_cons_of_mem _ h)).grow grows) (defaults.grow grows))

theorem Yields.avoided {checks : Bool} {work : List Work} {items : List ExpansionItem}
    (closed : store.Closed) (h : Yields store checks work supply items left)
    (avoided : ∀ i, .edge i ∈ work → i.AvoidedBy supply)
    (defaults : store.DefaultsAvoided supply) : ∀ o, .ok o ∈ items → o.AvoidedBy left := by
  induction h with
  | nil => exact nofun
  | failed _ ih =>
      intro o listed
      rcases List.mem_cons.mp listed with same | listed
      · cases same
      · exact ih (fun i h => avoided i (List.mem_cons_of_mem _ h)) defaults o listed
  | item head tail ih =>
      obtain rfl := head.supply_eq
      have rest := fun i h => avoided i (List.mem_cons_of_mem _ h)
      intro o listed
      rcases List.mem_cons.mp listed with same | listed
      · cases head with
        | fact =>
            rw [Except.ok.inj same]
            exact (avoided _ List.mem_cons_self).grow (tail.grows closed rest defaults)
        | _ => cases same
      · exact ih rest defaults o listed
  | work head within after inner tail =>
      obtain ⟨here, place⟩ := head.avoided closed (avoided _ List.mem_cons_self) defaults
      have grows := Nat.le_trans here (within.grows closed place (defaults.grow here))
      have rest := fun i h => (avoided i (List.mem_cons_of_mem _ h)).grow grows
      intro o listed
      rcases List.mem_append.mp listed with listed | listed
      · exact (inner place (defaults.grow here) o listed).grow
          (after.grows closed rest (defaults.grow grows))
      · exact tail rest (defaults.grow grows) o listed

theorem Becomes.holds_item {item : ExpansionItem}
    (h : Becomes store false i supply (.item item) left)
    (listed : ∀ o, item = .ok o → facts o) : Holds store facts i := by
  cases h with
  | missing unresolved => exact .unresolved unresolved
  | stuck _ marked unknown => exact .stuck marked unknown
  | arity _ parameters plain apart => exact .arity plain parameters apart
  | rejected _ _ _ _ _ checked => cases checked
  | fact base inOrder => exact .fact base inOrder.plain (listed i rfl)

/-- If what takes the place of an instance holds, so does the instance. -/
theorem Becomes.holds_work {place : List Work} (h : Becomes store false i supply (.work place) left)
    (closed : store.Closed) (avoided : i.AvoidedBy supply) (defaults : store.DefaultsAvoided supply)
    (placed : ∀ j, .edge j ∈ place → Holds store facts j) : Holds store facts i := by
  cases h with
  | lists _ marked known =>
      refine .lists marked fun args made => placed _ ?_
      exact edge_mem_listWork.mpr ⟨args, made, rfl⟩
  | discarded _ parameters plain _ dropped => exact .discarded plain parameters dropped
  | unfolded defined inOrder given applied =>
      obtain ⟨w, rfl, unfolds⟩ := unfolds_of_becomes closed defined given applied avoided defaults
      refine .unfolded w defined inOrder.plain unfolds.takes fun j hj => placed _ ?_
      exact edge_mem_map.mpr (List.mem_map_of_mem hj)

/-- An instance holds for the facts that its expansion gives. -/
theorem Yields.holds {work : List Work} {items : List ExpansionItem} (closed : store.Closed)
    (h : Yields store false work supply items left)
    (avoided : ∀ i, .edge i ∈ work → i.AvoidedBy supply)
    (defaults : store.DefaultsAvoided supply) (listed : ∀ o, .ok o ∈ items → facts o) :
    ∀ i, .edge i ∈ work → Holds store facts i := by
  induction h with
  | nil => exact nofun
  | failed _ ih =>
      intro i h
      rcases List.mem_cons.mp h with same | h
      · cases same
      · exact ih (fun i h => avoided i (List.mem_cons_of_mem _ h)) defaults
          (fun o h => listed o (List.mem_cons_of_mem _ h)) i h
  | item head _ ih =>
      obtain rfl := head.supply_eq
      intro i h
      rcases List.mem_cons.mp h with same | h
      · obtain rfl := Work.edge.inj same
        exact head.holds_item fun o made => listed o (made ▸ List.mem_cons_self)
      · exact ih (fun i h => avoided i (List.mem_cons_of_mem _ h)) defaults
          (fun o h => listed o (List.mem_cons_of_mem _ h)) i h
  | work head within _ inner tail =>
      obtain ⟨here, place⟩ := head.avoided closed (avoided _ List.mem_cons_self) defaults
      have grows := Nat.le_trans here (within.grows closed place (defaults.grow here))
      have placed := inner place (defaults.grow here)
        fun o h => listed o (List.mem_append_left _ h)
      intro i h
      rcases List.mem_cons.mp h with same | h
      · obtain rfl := Work.edge.inj same
        exact head.holds_work closed (avoided _ List.mem_cons_self) defaults placed
      · exact tail (fun i h => (avoided i (List.mem_cons_of_mem _ h)).grow grows)
          (defaults.grow grows) (fun o h => listed o (List.mem_append_right _ h)) i h

theorem isDiscarded_relabelling (labels : String → String) (ps : ParameterList) :
    (i.fill (.relabelling labels)).isDiscarded ps = i.isDiscarded ps := by
  simp only [Instance.isDiscarded, Instance.arguments_fill, ArgumentList.terms_mapTerms,
    List.zip_map_left, List.any_map]
  congr 1
  funext pair
  simp

theorem InOrder.relabelling {ps : ParameterList} (inOrder : InOrder false ps i)
    (labels : String → String) : InOrder false ps (i.fill (.relabelling labels)) where
  plain := inOrder.plain
  arity := by simpa using inOrder.arity
  kept := by rw [isDiscarded_relabelling, inOrder.kept]
  fits := nofun

theorem relabelling_of_agrees {labels : String → String} {g : Filling}
    (agrees : Filling.Agrees supply left (.relabelling labels) g) : g = .relabelling g.blank := by
  have value : g.value = Term.var := agrees.value
  rw [Filling.relabelling, ← value]

/-- The labels leave the defaults as they are. -/
def FixesDefaults (store : Store) (labels : String → String) : Prop :=
  ∀ ⦃iri ps⦄, store.status? iri = some (.definition ps) → ∀ p ∈ ps, ∀ d,
    p.default? = some d → d.fill (.relabelling labels) = d

theorem FixesDefaults.agrees {labels labels' : String → String}
    (fixes : FixesDefaults store labels) (defaults : store.DefaultsAvoided supply)
    (agrees : Filling.Agrees supply left (.relabelling labels) (.relabelling labels')) :
    FixesDefaults store labels' := by
  intro iri ps defined p hp d has
  rw [agrees.fill_eq (defaults defined p hp d has), fixes defined p hp d has]

/-- What holds for a relabelled instance is reached from its expansion. -/
theorem holds_place {place : List Work} {labels : String → String} (closed : store.Closed)
    (h : Becomes store false i supply (.work place) left) (avoided : i.AvoidedBy supply)
    (defaults : store.DefaultsAvoided supply) (fixes : FixesDefaults store labels)
    (holds : Holds store facts (i.fill (.relabelling labels))) :
    ∃ labels', Filling.Agrees supply left (.relabelling labels) (.relabelling labels') ∧
      ∀ j, .edge j ∈ place → Holds store facts (j.fill (.relabelling labels')) := by
  cases h with
  | @lists expander resolved marked known =>
      refine ⟨labels, .refl _ _ _, fun j listed => ?_⟩
      obtain ⟨args, made, rfl⟩ := edge_mem_listWork.mp listed
      refine holds.step resolved marked (ArgumentList.canExpand_fill _ known) ?_
      rw [Instance.arguments_fill, ListExpander.steps_fill _ known]
      exact List.mem_map.mpr ⟨_, made, rfl⟩
  | discarded => exact ⟨labels, .refl _ _ _, nofun⟩
  | @unfolded ps s bound left js defined inOrder given applied =>
      obtain ⟨w, rfl, unfolds⟩ := unfolds_of_becomes closed defined given applied avoided defaults
      obtain ⟨v, takes, body⟩ := holds.body defined (inOrder.relabelling labels)
      have can : ∀ pair ∈ i.arguments.arguments.zip ps,
          Substitution.CanTake (.relabelling labels) v pair := by
        rintro ⟨a, p⟩ h
        refine ⟨fun some_ emptied => ?_, fun _ d has _ => ?_, ?_⟩
        · have none := Filling.isNone_relabelling labels a.term
          rw [Term.isNone_iff.mpr emptied] at none
          exact absurd (Term.isNone_iff.mp none.symm) some_
        · exact fixes defined p (List.of_mem_zip h).2 d has
        · exact takes _ (Instance.mem_zip_fill h)
      obtain ⟨g, agrees, reached⟩ := unfolds.reached (.relabelling labels) v can
      have relabels := relabelling_of_agrees agrees
      rw [relabels] at agrees reached
      refine ⟨g.blank, agrees, fun j listed => ?_⟩
      obtain ⟨j₀, hj, rfl⟩ := List.mem_map.mp (edge_mem_map.mp listed)
      rw [reached j₀ hj]
      exact body j₀ hj

theorem Becomes.fact_relabelled {o : Instance} {labels labels' : String → String}
    (h : Becomes store false i supply (.item (.ok o)) supply) (avoided : i.AvoidedBy supply)
    (agrees : Filling.Agrees supply left (.relabelling labels) (.relabelling labels'))
    (holds : Holds store facts (i.fill (.relabelling labels))) :
    facts (o.fill (.relabelling labels')) := by
  cases h with
  | fact base inOrder =>
      rw [agrees.instance_eq avoided]
      exact holds.listed base (inOrder.relabelling labels)

/-- If an instance holds for some facts, its expansion gives such facts, but for the labels of
minted blank nodes. -/
theorem Yields.relabelled {work : List Work} {items : List ExpansionItem} (closed : store.Closed)
    (h : Yields store false work supply items left)
    (avoided : ∀ i, .edge i ∈ work → i.AvoidedBy supply)
    (defaults : store.DefaultsAvoided supply) {labels : String → String}
    (fixes : FixesDefaults store labels)
    (holds : ∀ i, .edge i ∈ work → Holds store facts (i.fill (.relabelling labels))) :
    ∃ labels', Filling.Agrees supply left (.relabelling labels) (.relabelling labels') ∧
      ∀ o, .ok o ∈ items → facts (o.fill (.relabelling labels')) := by
  induction h generalizing labels with
  | nil => exact ⟨labels, .refl _ _ _, nofun⟩
  | failed _ ih =>
      obtain ⟨labels', agrees, found⟩ := ih (fun i h => avoided i (List.mem_cons_of_mem _ h))
        defaults fixes (fun i h => holds i (List.mem_cons_of_mem _ h))
      refine ⟨labels', agrees, fun o listed => ?_⟩
      rcases List.mem_cons.mp listed with same | listed
      · cases same
      · exact found o listed
  | item head _ ih =>
      obtain rfl := head.supply_eq
      obtain ⟨labels', agrees, found⟩ := ih (fun i h => avoided i (List.mem_cons_of_mem _ h))
        defaults fixes (fun i h => holds i (List.mem_cons_of_mem _ h))
      refine ⟨labels', agrees, fun o listed => ?_⟩
      rcases List.mem_cons.mp listed with same | listed
      · obtain rfl := same
        exact head.fact_relabelled (avoided _ List.mem_cons_self) agrees
          (holds _ List.mem_cons_self)
      · exact found o listed
  | work head within after inner tail =>
      obtain ⟨here, place⟩ := head.avoided closed (avoided _ List.mem_cons_self) defaults
      have lasts := within.grows closed place (defaults.grow here)
      have grows := Nat.le_trans here lasts
      have rest := fun i h => (avoided i (List.mem_cons_of_mem _ h)).grow grows
      obtain ⟨labels₁, agrees₁, placed⟩ := holds_place closed head (avoided _ List.mem_cons_self)
        defaults fixes (holds _ List.mem_cons_self)
      have fixes₁ := fixes.agrees defaults agrees₁
      obtain ⟨labels₂, agrees₂, found₂⟩ := inner place (defaults.grow here) fixes₁ placed
      have fixes₂ := fixes₁.agrees (defaults.grow here) agrees₂
      have both := agrees₁.trans agrees₂ here lasts
      obtain ⟨labels₃, agrees₃, found₃⟩ := tail rest (defaults.grow grows) fixes₂ fun i h => by
        rw [both.instance_eq (avoided i (List.mem_cons_of_mem _ h))]
        exact holds i (List.mem_cons_of_mem _ h)
      refine ⟨labels₃, both.trans agrees₃ grows (after.grows closed rest (defaults.grow grows)),
        fun o listed => ?_⟩
      rcases List.mem_append.mp listed with listed | listed
      · rw [agrees₃.instance_eq (within.avoided closed place (defaults.grow here) o listed)]
        exact found₂ o listed
      · exact found₃ o listed

/-- Every instance of the one result is found in the other one, under other labels for the
minted blank nodes. -/
def MapsInto (minted : String → Prop) (items others : List ExpansionItem) : Prop :=
  ∃ labels : String → String, (∀ b, ¬ minted b → labels b = b) ∧
    ∀ o, .ok o ∈ items → .ok (o.fill (.relabelling labels)) ∈ others

/-- Two stores with the same meanings give sets of instances that map into each other. -/
theorem mapsInto_of_holds {other : Store} {supply left supply' left' : BlankSupply}
    {items others : List ExpansionItem} (closed : store.Closed) (closed' : other.Closed)
    (h : Yields store false [.edge i] supply items left)
    (h' : Yields other false [.edge i] supply' others left')
    (avoided : i.AvoidedBy supply) (avoided' : i.AvoidedBy supply')
    (defaults : store.DefaultsAvoided supply) (defaults' : other.DefaultsAvoided supply')
    (same : ∀ facts, Holds other facts i → Holds store facts i) :
    MapsInto (supply.Minted left) items others := by
  have edge (j) (listed : .edge j ∈ [Work.edge i]) : j = i :=
    Work.edge.inj (List.mem_singleton.mp listed)
  have accounts : Holds other (fun o => .ok o ∈ others) i :=
    h'.holds closed' (fun j listed => edge j listed ▸ avoided') defaults' (fun _ listed => listed)
      i List.mem_cons_self
  have fixes : FixesDefaults store id := fun _ _ _ p _ d _ => Filling.fill_relabelling_id d
  obtain ⟨labels, agrees, found⟩ := h.relabelled closed
    (fun j listed => edge j listed ▸ avoided) defaults fixes
    (fun j listed => by
      rw [edge j listed, Instance.fill_relabelling_id]
      exact same _ accounts)
  exact ⟨labels, agrees.blank, found⟩

/-- However far the instance is expanded in the two stores, without checks and without being
stopped, the results map into each other. No label of it or of a default is still to come. -/
def ExpandsAlike (store other : Store) (i : Instance) : Prop :=
  ∀ (before after : ExpansionConfig) (first second : BlankSupply),
    before.checkArguments = false → after.checkArguments = false →
    i.AvoidedBy first → i.AvoidedBy second →
    store.DefaultsAvoided first → other.DefaultsAvoided second →
    .error (.stepLimit before.maxSteps) ∉ (store.expand before i first).1 →
    .error (.stepLimit after.maxSteps) ∉ (other.expand after i second).1 →
    MapsInto (first.Minted (store.expand before i first).2)
        (store.expand before i first).1 (other.expand after i second).1 ∧
      MapsInto (second.Minted (other.expand after i second).2)
        (other.expand after i second).1 (store.expand before i first).1

/-- Two stores in which the same instances hold expand them alike. -/
theorem expandsAlike_of_holds {other : Store} (closed : store.Closed) (closed' : other.Closed)
    (alike : ∀ facts, Holds store facts i ↔ Holds other facts i) : ExpandsAlike store other i := by
  intro before after first second unchecked unchecked' given given' defaults defaults' free free'
  have meaning := yields_of_expand before free
  have meaning' := yields_of_expand after free'
  rw [unchecked] at meaning
  rw [unchecked'] at meaning'
  exact ⟨mapsInto_of_holds closed closed' meaning meaning' given given' defaults defaults'
      fun facts => (alike facts).mpr,
    mapsInto_of_holds closed' closed meaning' meaning given' given defaults' defaults
      fun facts => (alike facts).mp⟩

theorem not_expandsAlike_of_lost {other : Store} {config : ExpansionConfig} {o : Instance}
    (unchecked : config.checkArguments = false) (given : i.AvoidedBy supply)
    (defaults : store.DefaultsAvoided supply) (defaults' : other.DefaultsAvoided supply)
    (before : (store.expand config i supply).1 = [.ok o])
    (after : (other.expand config i supply).1 = []) : ¬ ExpandsAlike store other i := by
  intro alike
  obtain ⟨⟨labels, -, found⟩, -⟩ := alike config config supply supply unchecked unchecked given
    given defaults defaults' (by rw [before]; simp) (by rw [after]; simp)
  have lost := found o (by rw [before]; exact List.mem_cons_self)
  rw [after] at lost
  cases lost

end Expansion

end RdfTemplates
