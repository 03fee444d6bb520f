import RdfTemplates.Proofs.Expansion.Run
import RdfTemplates.Proofs.ListExpansion.Cross
import RdfTemplates.Proofs.ListExpansion.Zips
import Mathlib.Algebra.BigOperators.Ring.List
import Mathlib.Algebra.GroupWithZero.Nat

/-!
# Instances with a wrong number of arguments

Lists are expanded before arguments are counted, and each step of a list expansion
has as many arguments as the instance had. So a wrong number is found again in
every step, nothing comes out, and each step gives an error. Only an instance whose
lists stand for no step at all leaves nothing behind to be counted.
-/

namespace RdfTemplates

/-- The marked lists leave the expander no step: an empty one ends a cross and a zip to the
shortest, and a zip goes through nothing if nothing is marked. -/
def ListExpander.Empties : ListExpander → List Argument → Prop
  | .cross, as => ∃ a ∈ as, a.marked = true ∧ a.term = .list []
  | .zipMin, as => (∀ a ∈ as, a.marked = false) ∨ ∃ a ∈ as, a.marked = true ∧ a.term = .list []
  | .zipMax, as => ∀ a ∈ as, a.marked = true → a.term = .list []

/-- The arguments have an expander that can go on and has no step. -/
def ArgumentList.StandsForNothing (args : ArgumentList) : Prop :=
  ∃ expander ∈ args.expander, args.canExpand = true ∧ expander.Empties args.arguments

namespace ListExpansion

variable {as : List Argument}

theorem elements_eq_nil_iff {a : Argument} : a.elements = [] ↔ a.term = .list [] := by
  unfold Argument.elements
  split
  · rename_i items same
    rw [same, Term.list.injEq]
  · rename_i other
    exact ⟨nofun, fun same => (other [] same).elim⟩

theorem zero_mem_lengths_iff :
    0 ∈ lengths as ↔ ∃ a ∈ as, a.marked = true ∧ a.term = .list [] := by
  simp only [lengths, Set.mem_ofPred_eq, List.length_eq_zero_iff, elements_eq_nil_iff]

theorem markedLengths_eq_nil (bare : ∀ a ∈ as, a.marked = false) : markedLengths as = [] := by
  rw [markedLengths, List.map_eq_nil_iff, List.filter_eq_nil_iff]
  exact fun a ha => by simp [bare a ha]

theorem crossRows_eq_nil_iff : crossRows as = [] ↔ ListExpander.cross.Empties as := by
  rw [← List.length_eq_zero_iff, length_crossRows, List.prod_eq_zero_iff, mem_markedLengths,
    zero_mem_lengths_iff]
  rfl

theorem zipSteps_eq_nil_iff {count : Nat} : zipSteps as count = [] ↔ count = 0 := by
  rw [← List.length_eq_zero_iff, length_zipSteps]

theorem min?_eq_zero_iff :
    (markedLengths as).min?.getD 0 = 0 ↔ ListExpander.zipMin.Empties as := by
  by_cases anyMarked : ∃ a ∈ as, a.marked = true
  · have bare : ¬ ∀ a ∈ as, a.marked = false := by simpa using anyMarked
    have least := isLeast_min? anyMarked
    rw [ListExpander.Empties, ← zero_mem_lengths_iff, or_iff_right bare]
    constructor
    · intro zero
      exact zero ▸ least.1
    · exact fun zero => Nat.le_zero.mp (least.2 zero)
  · have bare : ∀ a ∈ as, a.marked = false := by simpa using anyMarked
    rw [markedLengths_eq_nil bare]
    exact ⟨fun _ => .inl bare, fun _ => rfl⟩

theorem max?_eq_zero_iff :
    (markedLengths as).max?.getD 0 = 0 ↔ ListExpander.zipMax.Empties as := by
  by_cases anyMarked : ∃ a ∈ as, a.marked = true
  · have greatest := isGreatest_max? anyMarked
    constructor
    · intro zero a ha marked
      have below : a.elements.length ≤ 0 := zero ▸ greatest.2 ⟨a, ha, marked, rfl⟩
      exact elements_eq_nil_iff.mp (List.length_eq_zero_iff.mp (Nat.le_zero.mp below))
    · intro empty
      obtain ⟨a, ha, marked, long⟩ := greatest.1
      rw [← long, elements_eq_nil_iff.mpr (empty a ha marked), List.length_nil]
  · have bare : ∀ a ∈ as, a.marked = false := by simpa using anyMarked
    rw [markedLengths_eq_nil bare]
    refine ⟨fun _ a ha marked => ?_, fun _ => rfl⟩
    rw [bare a ha] at marked
    cases marked

end ListExpansion

open ListExpansion in
theorem ListExpander.steps_eq_nil_iff {expander : ListExpander} {as : List Argument} :
    expander.steps as = [] ↔ expander.Empties as := by
  cases expander with
  | cross => rw [steps, List.map_eq_nil_iff, crossRows_eq_nil_iff]
  | zipMin => rw [steps, zipSteps_eq_nil_iff, min?_eq_zero_iff]
  | zipMax => rw [steps, zipSteps_eq_nil_iff, max?_eq_zero_iff]

namespace Expansion

variable {store : Store} {config : ExpansionConfig} {i j : Instance} {ps : ParameterList}
variable {supply left : BlankSupply} {budget : Nat} {rest : List Work}
variable {items : List ExpansionItem}

/-- What comes up for an instance whose number of arguments is wrong: itself, a step of it
with as many arguments, or a step in which a list is used up. -/
inductive Miscounts (i : Instance) : Work → Prop where
  | edge {j : Instance} (iri : j.iri = i.iri) (size : j.arguments.size = i.arguments.size)
      (origin : j = i ∨ j.arguments.expander = none) : Miscounts i (.edge j)
  | usedUp (step : Nat) (positions : List Nat) :
      Miscounts i (.failed (i.exhaustedAt step positions))

/-- What is said about an instance whose number of arguments is wrong. -/
inductive Complains (limit : Nat) (ps : ParameterList) (i : Instance) : ExpansionError → Prop where
  | arity : Complains limit ps i (.arity i.iri ps.length i.arguments.size)
  | stuck : Complains limit ps i (.unresolvedExpander i.text)
  | usedUp (step : Nat) (positions : List Nat) :
      Complains limit ps i (i.exhaustedAt step positions)
  | stopped : Complains limit ps i (.stepLimit limit)

theorem miscounts_of_mem_steps {expander : ListExpander} {w : Work}
    (h : w ∈ (expander.steps i.arguments.arguments).map (listWork i)) : Miscounts i w := by
  obtain ⟨step, made, rfl⟩ := List.mem_map.mp h
  cases step with
  | expanded args =>
      have size := (ListExpansion.forall₂_steps made).length_eq.symm
      exact .edge rfl size (.inr (plain_of_mem_steps made))
  | exhausted step positions => exact .usedUp step positions

section Wrong

variable (known : store.status? i.iri = some (.base ps) ∨
  store.status? i.iri = some (.definition ps))
variable (apart : i.arguments.size ≠ ps.length)
include known apart

/-- One step with a miscounted instance ends in an error, or in more of the same. -/
theorem Becomes.of_miscounts {checks : Bool} {r : Resolution}
    (head : Becomes store checks j supply r left) (miscounts : Miscounts i (.edge j)) :
    (∃ e, r = .item (.error e) ∧ ∀ limit, Complains limit ps i e) ∨
      ∃ place, r = .work place ∧ (∀ w ∈ place, Miscounts i w) ∧
        (place = [] ↔ i.arguments.StandsForNothing) := by
  obtain ⟨iri, size, origin⟩ := miscounts
  have parameters {qs : ParameterList} (given : store.parameters? j.iri = some qs) : qs = ps := by
    rw [iri, Store.parameters_of_status known] at given
    exact (Option.some.inj given).symm
  have wrong {qs : ParameterList} (given : store.parameters? j.iri = some qs)
      (arity : j.arguments.size = qs.length) : False := by
    rw [size, parameters given] at arity
    exact apart arity
  have itself {expander : ListExpander} (marked : j.arguments.expander = some expander) :
      j = i := by
    refine origin.resolve_right fun plain => ?_
    rw [plain] at marked
    cases marked
  cases head with
  | missing unresolved =>
      rw [resolved_iff.mpr ⟨ps, iri ▸ known⟩] at unresolved
      cases unresolved
  | stuck _ marked =>
      obtain rfl := itself marked
      exact .inl ⟨_, rfl, fun _ => .stuck⟩
  | @lists expander _ marked canExpand =>
      obtain rfl := itself marked
      refine .inr ⟨_, rfl, fun w => miscounts_of_mem_steps, ?_⟩
      rw [List.map_eq_nil_iff, ListExpander.steps_eq_nil_iff]
      constructor
      · exact fun empties => ⟨expander, marked, canExpand, empties⟩
      · rintro ⟨other, marked', -, empties⟩
        rwa [← Option.some.inj (marked'.symm.trans marked)]
  | arity _ given =>
      obtain rfl := parameters given
      rw [iri, size]
      exact .inl ⟨_, rfl, fun _ => .arity⟩
  | discarded _ given _ arity => exact (wrong given arity).elim
  | rejected _ given _ arity => exact (wrong given arity).elim
  | fact base inOrder => exact (wrong (Store.parameters_of_base base) inOrder.arity).elim
  | unfolded defined inOrder =>
      exact (wrong (Store.parameters_of_definition defined) inOrder.arity).elim

theorem Runs.complains {work : List Work} (runs : Runs store config budget work supply items left)
    (miscounts : ∀ w ∈ work, Miscounts i w) :
    ∀ x ∈ items, ∃ e, x = .error e ∧ Complains config.maxSteps ps i e := by
  intro x listed
  have step (j : Instance) (before : BlankSupply) (place : List Work) (after : BlankSupply)
      (wrong : Miscounts i (.edge j))
      (head : Becomes store config.checkArguments j before (.work place) after) :
      ∀ w ∈ place, Miscounts i w := by
    rcases head.of_miscounts known apart wrong with ⟨e, same, -⟩ | ⟨place, same, more, -⟩
    · cases same
    · rwa [Resolution.work.inj same]
  rcases runs.origin step miscounts x listed with rfl | ⟨e, failed, rfl⟩ |
    ⟨j, before, after, wrong, head⟩
  · exact ⟨_, rfl, .stopped⟩
  · cases failed with
    | usedUp step positions => exact ⟨_, rfl, .usedUp step positions⟩
  · rcases head.of_miscounts known apart wrong with ⟨e, same, complains⟩ | ⟨place, same, -⟩
    · exact ⟨e, Resolution.item.inj same, complains _⟩
    · cases same

/-- As long as each step leaves something, something is said in the end. -/
theorem Runs.ne_nil {work : List Work} (runs : Runs store config budget work supply items left)
    (something : ¬ i.arguments.StandsForNothing) (miscounts : ∀ w ∈ work, Miscounts i w)
    (waiting : work ≠ []) : items ≠ [] := by
  induction runs with
  | nil => exact absurd rfl waiting
  | failed | stopped | item => exact List.cons_ne_nil _ _
  | work head _ ih =>
      rcases head.of_miscounts known apart (miscounts _ List.mem_cons_self) with
        ⟨e, same, -⟩ | ⟨place, same, more, empty⟩
      · cases same
      · obtain rfl := Resolution.work.inj same
        refine ih (fun w h => ?_) fun none =>
          something (empty.mp (List.append_eq_nil_iff.mp none).1)
        rcases List.mem_append.mp h with new | old
        · exact more w new
        · exact miscounts w (List.mem_cons_of_mem _ old)

omit apart in
theorem Runs.eq_nil (nothing : i.arguments.StandsForNothing)
    (runs : Runs store config (budget + 1) [.edge i] supply items left) : items = [] := by
  obtain ⟨expander, marked, canExpand, empties⟩ := nothing
  have lists : Becomes store config.checkArguments i supply _ supply :=
    .lists (resolved_iff.mpr ⟨ps, known⟩) marked canExpand
  rw [ListExpander.steps_eq_nil_iff.mpr empties, List.map_nil] at lists
  cases runs with
  | item head => cases (head.unique lists).1
  | work head tail =>
      obtain rfl := Resolution.work.inj (head.unique lists).1
      cases tail
      rfl

end Wrong

theorem Runs.ne_nil_of_zero (runs : Runs store config 0 (.edge i :: rest) supply items left) :
    items ≠ [] := by
  cases runs
  exact List.cons_ne_nil _ _

/-- Nothing comes out of the instance, whatever is said about it says what is wrong, and
nothing is said only if its lists stand for nothing. -/
structure NeverSilent (store : Store) (config : ExpansionConfig) (ps : ParameterList)
    (i : Instance) (supply : BlankSupply) : Prop where
  stream : ∀ n, (take store config n (start config i supply)).1 =
    (store.expand config i supply).1.take n
  nothing : ∀ x, .ok x ∉ (store.expand config i supply).1
  errors : ∀ e, .error e ∈ (store.expand config i supply).1 → Complains config.maxSteps ps i e
  told : (∃ e, .error e ∈ (store.expand config i supply).1) ↔
    ¬ (0 < config.maxSteps ∧ i.arguments.StandsForNothing)

/-- An instance with the wrong number of arguments is never passed over in silence, but for lists
that stand for nothing. -/
theorem expand_neverSilent
    (known : store.status? i.iri = some (.base ps) ∨ store.status? i.iri = some (.definition ps))
    (apart : i.arguments.size ≠ ps.length) (config : ExpansionConfig) (supply : BlankSupply) :
    NeverSilent store config ps i supply := by
  have runs := runs_expand store config i supply
  have itself : ∀ w ∈ [Work.edge i], Miscounts i w := by
    intro w h
    rw [List.mem_singleton.mp h]
    exact .edge rfl rfl (.inl rfl)
  have complains := runs.complains known apart itself
  constructor
  case stream => exact take_eq_expand store config i supply
  case nothing =>
    intro x listed
    obtain ⟨e, same, -⟩ := complains _ listed
    cases same
  case errors =>
    intro e listed
    obtain ⟨_, same, complaint⟩ := complains _ listed
    rwa [Except.error.inj same]
  case told =>
    constructor
    · rintro ⟨e, listed⟩ ⟨allowed, nothing⟩
      obtain ⟨budget, limit⟩ := Nat.exists_eq_add_one.mpr allowed
      rw [limit] at runs
      rw [runs.eq_nil known nothing] at listed
      cases listed
    · intro something
      have told : (store.expand config i supply).1 ≠ [] := by
        by_cases nothing : i.arguments.StandsForNothing
        · have none : config.maxSteps = 0 :=
            Nat.eq_zero_of_not_pos fun allowed => something ⟨allowed, nothing⟩
          rw [none] at runs
          exact runs.ne_nil_of_zero
        · exact runs.ne_nil known apart nothing itself (List.cons_ne_nil _ _)
      obtain ⟨x, listed⟩ := List.exists_mem_of_ne_nil _ told
      obtain ⟨e, rfl, -⟩ := complains x listed
      exact ⟨e, listed⟩

/-- Two guests are listed for a template that has a place for a host besides. -/
def seating : Store :=
  (Store.empty .standard).acceptAll [
    .signature ⟨"Seat", [.mandatory "guest" .top, .mandatory "host" .top], true⟩]

/-- A seat for each guest of a list. -/
def seatsFor (guests : List Term) : Instance := ⟨"Seat", ⟨[⟨.list guests, true⟩], some .cross⟩⟩

/-- A seat takes a guest and a host. -/
def seatParameters : ParameterList := [.mandatory "guest" .top, .mandatory "host" .top]

/-- Each guest that is listed gives an error of its own. -/
theorem expand_neverSilent_seating :
    (seating.status? "Seat" = some (.base seatParameters) ∨
      seating.status? "Seat" = some (.definition seatParameters)) ∧
    (seatsFor [.iri "a", .iri "b"]).arguments.size ≠ seatParameters.length ∧
    NeverSilent seating ⟨20, true, false⟩ seatParameters (seatsFor [.iri "a", .iri "b"]) ⟨0⟩ ∧
    (seating.expand ⟨20, true, false⟩ (seatsFor [.iri "a", .iri "b"]) ⟨0⟩).1 =
      [.error (.arity "Seat" 2 1), .error (.arity "Seat" 2 1)] :=
  ⟨.inl rfl, by decide, expand_neverSilent (.inl rfl) (by decide) _ ⟨0⟩, rfl⟩

/-- Without guests nothing is said about the host. -/
theorem not_expand_neverSilent_emptied :
    seating.status? "Seat" = some (.base seatParameters) ∧
    (seatsFor []).arguments.size ≠ seatParameters.length ∧
    ¬ ((∀ x, .ok x ∉ (seating.expand .standard (seatsFor []) ⟨0⟩).1) ∧
      ∃ e, .error e ∈ (seating.expand .standard (seatsFor []) ⟨0⟩).1) := by
  refine ⟨rfl, by decide, ?_⟩
  rintro ⟨-, e, listed⟩
  have nothing : (seating.expand .standard (seatsFor []) ⟨0⟩).1 = [] := rfl
  rw [nothing] at listed
  cases listed

end Expansion

end RdfTemplates
