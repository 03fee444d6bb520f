import RdfTemplates.Proofs.Expansion.Meaning

/-!
# An expansion gives the meaning

The pending work is a list in which an instance is replaced in its place, so a
run goes through the meaning from left to right. With enough steps it gives all
of the meaning and no error of its own, and a run that was not stopped gave the
meaning. The items taken one at a time are the first items of the run, whether
it is stopped or not.
-/

namespace RdfTemplates

namespace Expansion

variable {store : Store} {checks : Bool} {i : Instance} {supply left : BlankSupply}
variable {config : ExpansionConfig}

theorem runOnto_failed (budget : Nat) (e : ExpansionError) (rest : List Work)
    (found : List ExpansionItem) :
    runOnto store config budget (.failed e :: rest) supply found =
      runOnto store config budget rest supply (.error e :: found) := by
  rw [runOnto, runOnto, settleFailed]

theorem runOnto_edge (budget : Nat) (i : Instance) (rest : List Work)
    (found : List ExpansionItem) :
    runOnto store config (budget + 1) (.edge i :: rest) supply found =
      match resolve store config.checkArguments i supply with
      | (.item item, supply) => runOnto store config budget rest supply (item :: found)
      | (.work work, supply) => runOnto store config budget (work ++ rest) supply found := rfl

/-- A meaning is computed with enough steps. -/
theorem Yields.runOnto_eq {work : List Work} {items : List ExpansionItem}
    (h : Yields store checks work supply items left) :
    ∃ steps, ∀ config : ExpansionConfig, config.checkArguments = checks →
      ∀ budget rest found, runOnto store config (budget + steps) (work ++ rest) supply found =
        runOnto store config budget rest left (items.reverse ++ found) := by
  induction h with
  | nil => exact ⟨0, fun config checked budget rest found => rfl⟩
  | failed _ ih =>
      obtain ⟨steps, ih⟩ := ih
      refine ⟨steps, fun config checked budget rest found => ?_⟩
      rw [List.cons_append, runOnto_failed, ih config checked, List.reverse_cons, List.append_assoc]
      rfl
  | item head _ ih =>
      obtain ⟨steps, ih⟩ := ih
      refine ⟨steps + 1, fun config checked budget rest found => ?_⟩
      rw [List.cons_append, ← Nat.add_assoc, runOnto_edge, checked, head.resolve_eq,
        List.reverse_cons, List.append_assoc]
      exact ih config checked budget rest _
  | work head _ _ inner tail =>
      obtain ⟨within, inner⟩ := inner
      obtain ⟨after, tail⟩ := tail
      refine ⟨after + within + 1, fun config checked budget rest found => ?_⟩
      rw [List.cons_append, ← Nat.add_assoc, ← Nat.add_assoc, runOnto_edge, checked,
        head.resolve_eq, List.reverse_append, List.append_assoc]
      dsimp only
      rw [inner config checked, tail config checked]

theorem runOnto_nil (budget : Nat) (found : List ExpansionItem) :
    runOnto store config budget [] supply found = (found, supply) := by
  cases budget with
  | zero => rfl
  | succ budget => rfl

theorem runOnto_exhausted (i : Instance) (rest : List Work) (found : List ExpansionItem) :
    runOnto store config 0 (.edge i :: rest) supply found =
      (.error (.stepLimit config.maxSteps) :: found, supply) := rfl

/-- What a run with a bound on the steps gives, one rule for each case. -/
inductive Runs (store : Store) (config : ExpansionConfig) :
    Nat → List Work → BlankSupply → List ExpansionItem → BlankSupply → Prop where
  | nil (budget : Nat) (supply : BlankSupply) : Runs store config budget [] supply [] supply
  | failed {budget : Nat} {e : ExpansionError} {rest : List Work} {supply left : BlankSupply}
      {items : List ExpansionItem} (tail : Runs store config budget rest supply items left) :
      Runs store config budget (.failed e :: rest) supply (.error e :: items) left
  | stopped (i : Instance) (rest : List Work) (supply : BlankSupply) :
      Runs store config 0 (.edge i :: rest) supply [.error (.stepLimit config.maxSteps)] supply
  | item {budget : Nat} {i : Instance} {rest : List Work} {supply next left : BlankSupply}
      {x : ExpansionItem} {items : List ExpansionItem}
      (head : Becomes store config.checkArguments i supply (.item x) next)
      (tail : Runs store config budget rest next items left) :
      Runs store config (budget + 1) (.edge i :: rest) supply (x :: items) left
  | work {budget : Nat} {i : Instance} {place rest : List Work} {supply next left : BlankSupply}
      {items : List ExpansionItem}
      (head : Becomes store config.checkArguments i supply (.work place) next)
      (tail : Runs store config budget (place ++ rest) next items left) :
      Runs store config (budget + 1) (.edge i :: rest) supply items left

/-- Every run comes to an end. -/
theorem exists_runs (store : Store) (config : ExpansionConfig) (budget : Nat) (work : List Work)
    (supply : BlankSupply) : ∃ items left, Runs store config budget work supply items left := by
  induction budget generalizing work supply with
  | zero =>
      induction work with
      | nil => exact ⟨_, _, .nil 0 supply⟩
      | cons w rest ih =>
          cases w with
          | failed e =>
              obtain ⟨items, left, tail⟩ := ih
              exact ⟨_, _, .failed tail⟩
          | edge i => exact ⟨_, _, .stopped i rest supply⟩
  | succ budget ih =>
      induction work with
      | nil => exact ⟨_, _, .nil (budget + 1) supply⟩
      | cons w rest inner =>
          cases w with
          | failed e =>
              obtain ⟨items, left, tail⟩ := inner
              exact ⟨_, _, .failed tail⟩
          | edge i =>
              have head := becomes_resolve store config.checkArguments i supply
              generalize resolve store config.checkArguments i supply = became at head
              rcases became with ⟨x | place, next⟩
              · obtain ⟨items, left, tail⟩ := ih rest next
                exact ⟨_, _, .item head tail⟩
              · obtain ⟨items, left, tail⟩ := ih (place ++ rest) next
                exact ⟨_, _, .work head tail⟩

namespace Runs

variable {budget : Nat} {work : List Work} {items : List ExpansionItem}

theorem runOnto_eq (runs : Runs store config budget work supply items left)
    (found : List ExpansionItem) :
    runOnto store config budget work supply found = (items.reverse ++ found, left) := by
  induction runs generalizing found with
  | nil => exact runOnto_nil _ found
  | failed _ ih =>
      rw [runOnto_failed, ih]
      simp
  | stopped i rest => exact runOnto_exhausted i rest found
  | item head _ ih =>
      rw [runOnto_edge, head.resolve_eq]
      simp [ih]
  | work head _ ih =>
      rw [runOnto_edge, head.resolve_eq]
      exact ih found

/-- A run that does not stop early gives the meaning. -/
theorem yields (runs : Runs store config budget work supply items left) :
    .error (.stepLimit config.maxSteps) ∈ items ∨
      Yields store config.checkArguments work supply items left := by
  induction runs with
  | nil budget supply => exact .inr (.nil supply)
  | failed _ ih => exact ih.imp (List.mem_cons_of_mem _) .failed
  | stopped => exact .inl List.mem_cons_self
  | item head _ ih => exact ih.imp (List.mem_cons_of_mem _) (.item head)
  | work head _ ih =>
      refine ih.imp id fun meaning => ?_
      obtain ⟨here, there, last, rfl, first, second⟩ := yields_append.mp meaning
      exact .work head first second

/-- Every item is the error of the limit, or comes from work that has what all work of the run
has in common. -/
theorem origin {P : Work → Prop} (runs : Runs store config budget work supply items left)
    (step : ∀ i supply place left, P (.edge i) →
      Becomes store config.checkArguments i supply (.work place) left → ∀ w ∈ place, P w)
    (common : ∀ w ∈ work, P w) : ∀ x ∈ items, x = .error (.stepLimit config.maxSteps) ∨
      (∃ e, P (.failed e) ∧ x = .error e) ∨ ∃ i supply left, P (.edge i) ∧
        Becomes store config.checkArguments i supply (.item x) left := by
  induction runs with
  | nil => exact nofun
  | failed _ ih =>
      intro x listed
      rcases List.mem_cons.mp listed with rfl | later
      · exact .inr (.inl ⟨_, common _ List.mem_cons_self, rfl⟩)
      · exact ih (fun w h => common w (List.mem_cons_of_mem _ h)) x later
  | stopped => exact fun x listed => .inl (List.mem_singleton.mp listed)
  | item head _ ih =>
      intro x listed
      rcases List.mem_cons.mp listed with rfl | later
      · exact .inr (.inr ⟨_, _, _, common _ List.mem_cons_self, head⟩)
      · exact ih (fun w h => common w (List.mem_cons_of_mem _ h)) x later
  | work head _ ih =>
      refine ih fun w h => ?_
      rcases List.mem_append.mp h with new | old
      · exact step _ _ _ _ (common _ List.mem_cons_self) head w new
      · exact common w (List.mem_cons_of_mem _ old)

end Runs

/-- An expansion is a run with all of its steps. -/
theorem runs_expand (store : Store) (config : ExpansionConfig) (i : Instance)
    (supply : BlankSupply) :
    Runs store config config.maxSteps [.edge i] supply (store.expand config i supply).1
      (store.expand config i supply).2 := by
  obtain ⟨items, left, runs⟩ := exists_runs store config config.maxSteps [.edge i] supply
  have expanded : store.expand config i supply = (items, left) := by
    simp [Store.expand, run, start, runs.runOnto_eq]
  rw [expanded]
  exact runs

/-- An expansion that does not reach the limit gives the meaning. -/
theorem yields_of_expand (config : ExpansionConfig) (free : .error (.stepLimit config.maxSteps) ∉
    (store.expand config i supply).1) :
    Yields store config.checkArguments [.edge i] supply (store.expand config i supply).1
      (store.expand config i supply).2 :=
  (runs_expand store config i supply).yields.resolve_left free

theorem takeOnto_failed (n budget : Nat) (e : ExpansionError) (rest : List Work)
    (found : List ExpansionItem) :
    takeOnto store config (n + 1) ⟨.failed e :: rest, budget, supply⟩ found =
      takeOnto store config n ⟨rest, budget, supply⟩ (.error e :: found) := by
  simp [takeOnto, next, advance]

theorem takeOnto_item (n budget : Nat) (rest : List Work) (found : List ExpansionItem)
    {x : ExpansionItem} (head : Becomes store config.checkArguments i supply (.item x) left) :
    takeOnto store config (n + 1) ⟨.edge i :: rest, budget + 1, supply⟩ found =
      takeOnto store config n ⟨rest, budget, left⟩ (x :: found) := by
  simp [takeOnto, next, advance, head.resolve_eq]

theorem next_work (budget : Nat) (rest : List Work) {work : List Work}
    (head : Becomes store config.checkArguments i supply (.work work) left) :
    next store config ⟨.edge i :: rest, budget + 1, supply⟩ =
      next store config ⟨work ++ rest, budget, left⟩ := by
  simp [next, advance, head.resolve_eq]

theorem takeOnto_succ_work (n budget : Nat) (rest : List Work) (found : List ExpansionItem)
    {work : List Work} (head : Becomes store config.checkArguments i supply (.work work) left) :
    takeOnto store config (n + 1) ⟨.edge i :: rest, budget + 1, supply⟩ found =
      takeOnto store config (n + 1) ⟨work ++ rest, budget, left⟩ found := by
  rw [takeOnto, takeOnto, next_work budget rest head]

theorem takeOnto_work (n budget : Nat) (rest : List Work) (found : List ExpansionItem)
    {work : List Work} (head : Becomes store config.checkArguments i supply (.work work) left) :
    (takeOnto store config n ⟨.edge i :: rest, budget + 1, supply⟩ found).1 =
      (takeOnto store config n ⟨work ++ rest, budget, left⟩ found).1 := by
  cases n with
  | zero => rfl
  | succ n => rw [takeOnto_succ_work n budget rest found head]

theorem takeOnto_nil (n budget : Nat) (found : List ExpansionItem) :
    takeOnto store config n ⟨[], budget, supply⟩ found = (found, ⟨[], budget, supply⟩) := by
  cases n with
  | zero => rfl
  | succ n => simp [takeOnto, next, advance]

theorem takeOnto_exhausted (n : Nat) (i : Instance) (rest : List Work)
    (found : List ExpansionItem) :
    takeOnto store config (n + 1) ⟨.edge i :: rest, 0, supply⟩ found =
      (.error (.stepLimit config.maxSteps) :: found, ⟨[], 0, supply⟩) := by
  simp [takeOnto, next, advance, takeOnto_nil]

/-- Taking some items gives the first ones of the run. -/
theorem Runs.takeOnto_eq {budget : Nat} {work : List Work} {items : List ExpansionItem}
    (runs : Runs store config budget work supply items left) (n : Nat)
    (found : List ExpansionItem) :
    (takeOnto store config n ⟨work, budget, supply⟩ found).1 =
      (items.take n).reverse ++ found := by
  induction runs generalizing n found with
  | nil =>
      rw [takeOnto_nil]
      simp
  | failed _ ih =>
      cases n with
      | zero => rfl
      | succ n =>
          rw [takeOnto_failed, ih]
          simp
  | stopped =>
      cases n with
      | zero => rfl
      | succ n =>
          rw [takeOnto_exhausted]
          simp
  | item head _ ih =>
      cases n with
      | zero => rfl
      | succ n =>
          rw [takeOnto_item _ _ _ _ head, ih]
          simp
  | work head _ ih =>
      rw [takeOnto_work _ _ _ _ head]
      exact ih n found

/-- What is taken lazily is a prefix of the whole expansion. -/
theorem take_eq_expand (store : Store) (config : ExpansionConfig) (i : Instance)
    (supply : BlankSupply) (n : Nat) :
    (take store config n (start config i supply)).1 = (store.expand config i supply).1.take n := by
  simp [take, start, (runs_expand store config i supply).takeOnto_eq]

/-- In a complete store every instance has exactly one meaning, which says for two pieces of work
what it says for each, has no step limit in it, and is what the expansion gives with enough steps,
prefix by prefix. -/
theorem expand_eq_meaning {store : Store} (reachable : store.Reachable)
    (complete : store.topologicalOrder.isComplete = true) (checks : Bool) (i : Instance)
    (supply : BlankSupply) :
    ∃ items left, Yields store checks [.edge i] supply items left ∧
      (∀ others last, Yields store checks [.edge i] supply others last →
        others = items ∧ last = left) ∧
      (∀ work rest others last, Yields store checks (work ++ rest) supply others last ↔
        ∃ here there next, others = here ++ there ∧ Yields store checks work supply here next ∧
          Yields store checks rest next there last) ∧
      (∀ limit, .error (.stepLimit limit) ∉ items) ∧
      ∃ steps, ∀ config : ExpansionConfig, config.checkArguments = checks →
        steps ≤ config.maxSteps → store.expand config i supply = (items, left) ∧
          ∀ n, (take store config n (start config i supply)).1 = items.take n := by
  obtain ⟨items, left, meaning⟩ := total_edge reachable.wellFormed complete checks i supply
  refine ⟨items, left, meaning, fun others last other => other.unique meaning,
    fun _ _ _ _ => yields_append, fun limit => stepLimit_not_mem meaning (by simp), ?_⟩
  obtain ⟨steps, run⟩ := meaning.runOnto_eq
  refine ⟨steps, fun config checked enough => ?_⟩
  have expanded : store.expand config i supply = (items, left) := by
    have ended := run config checked (config.maxSteps - steps) [] []
    rw [Nat.sub_add_cancel enough, runOnto_nil, List.append_nil, List.append_nil] at ended
    simp [Store.expand, Expansion.run, start, ended]
  refine ⟨expanded, fun n => ?_⟩
  rw [take_eq_expand, expanded]

/-- A body with an instance that is dropped, one with a list, one of a missing template and
one with a blank node. -/
def listing : Store :=
  (Store.empty .standard).acceptAll [
    .signature ⟨"Item", [.mandatory "entry" .top], true⟩,
    .template (.make "Listing" [⟨⟨"note", .top⟩, ⟨true, false⟩, none⟩] [
      .ofTerms "Item" [.var ⟨"note", .top⟩],
      ⟨"Item", ⟨[⟨.list [.iri "first", .iri "second"], true⟩], some .cross⟩⟩,
      .ofTerms "Annotation" [.var ⟨"note", .top⟩],
      .ofTerms "Item" [.blank "end"]])]

theorem reachable_listing : listing.Reachable := by
  apply Store.reachable_acceptAll
  simp [Declaration.Made]

/-- The entry of the missing note is dropped, and the missing template is an error between the
others. -/
theorem expand_eq_meaning_listing : listing.Reachable ∧
    listing.topologicalOrder.isComplete = true ∧
    ∃ steps, ∀ config : ExpansionConfig, config.checkArguments = true → steps ≤ config.maxSteps →
      listing.expand config (.ofTerms "Listing" [.none]) ⟨0⟩ =
        ([.ok (.ofTerms "Item" [.iri "first"]), .ok (.ofTerms "Item" [.iri "second"]),
          .error (.missingDefinition "Annotation"), .ok (.ofTerms "Item" [.blank "genid0"])],
          ⟨1⟩) := by
  refine ⟨reachable_listing, rfl, ?_⟩
  obtain ⟨items, left, -, unique, -, -, steps, run⟩ :=
    expand_eq_meaning reachable_listing rfl true (.ofTerms "Listing" [.none]) ⟨0⟩
  have computed : listing.expand ⟨20, true, false⟩ (.ofTerms "Listing" [.none]) ⟨0⟩ =
      ([.ok (.ofTerms "Item" [.iri "first"]), .ok (.ofTerms "Item" [.iri "second"]),
        .error (.missingDefinition "Annotation"), .ok (.ofTerms "Item" [.blank "genid0"])],
        ⟨1⟩) := rfl
  have meaning : Yields listing true [.edge (.ofTerms "Listing" [.none])] ⟨0⟩ _ _ :=
    yields_of_expand ⟨20, true, false⟩ (by rw [computed]; simp)
  rw [computed] at meaning
  obtain ⟨rfl, rfl⟩ := unique _ _ meaning
  refine ⟨steps, fun config checked enough => ?_⟩
  exact (run config checked enough).1

end Expansion

end RdfTemplates
