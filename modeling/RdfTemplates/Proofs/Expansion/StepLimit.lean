import RdfTemplates.Proofs.Expansion.Run

/-!
# A limit only cuts an expansion off

Two runs of the same work with different limits take the same steps until the
smaller limit is reached. So the items of the run with the smaller limit come
first in the other one, up to the error that says that the steps were used up, and
that error is the last item. Templates may call themselves: with a limit every
stream of items comes to an end.
-/

namespace RdfTemplates

namespace Expansion

variable {store : Store} {config other : ExpansionConfig} {i : Instance}
variable {supply left last : BlankSupply} {work : List Work}
variable {budget more : Nat} {items others : List ExpansionItem}

/-- The item says that the steps were used up. -/
def isLimit : ExpansionItem → Bool
  | .error (.stepLimit _) => true
  | _ => false

theorem isLimit_eq_false {x : ExpansionItem} (free : ∀ limit, x ≠ .error (.stepLimit limit)) :
    isLimit x = false := by
  unfold isLimit
  split
  case h_1 limit => exact absurd rfl (free limit)
  case h_2 => rfl

theorem Becomes.isLimit_eq {checks : Bool} {x : ExpansionItem}
    (head : Becomes store checks i supply (.item x) left) : isLimit x = false :=
  isLimit_eq_false head.item_ne_stepLimit

/-- What a run gives is all of what another one gives, or the beginning of it and the error of
the limit. -/
inductive Cut (limit : Nat) :
    List ExpansionItem × BlankSupply → List ExpansionItem × BlankSupply → Prop where
  | whole {items : List ExpansionItem} {left : BlankSupply}
      (free : ∀ x ∈ items, isLimit x = false) : Cut limit (items, left) (items, left)
  | short {items others : List ExpansionItem} {left last : BlankSupply}
      (free : ∀ x ∈ items, isLimit x = false) (begins : items <+: others) :
      Cut limit (items ++ [.error (.stepLimit limit)], left) (others, last)

theorem Cut.cons {limit : Nat} {x : ExpansionItem} (free : isLimit x = false)
    (cut : Cut limit (items, left) (others, last)) :
    Cut limit (x :: items, left) (x :: others, last) := by
  cases cut with
  | whole rest => exact .whole (List.forall_mem_cons.mpr ⟨free, rest⟩)
  | short rest begins =>
      exact .short (List.forall_mem_cons.mpr ⟨free, rest⟩) (List.cons_prefix_cons.mpr ⟨rfl, begins⟩)

/-- The two runs go side by side until the one with fewer steps ends. -/
theorem Runs.cut (checked : other.checkArguments = config.checkArguments)
    (runs : Runs store config budget work supply items left)
    (longer : Runs store other more work supply others last) (enough : budget ≤ more)
    (free : ∀ limit, .failed (.stepLimit limit) ∉ work) :
    Cut config.maxSteps (items, left) (others, last) := by
  induction runs generalizing more others last with
  | nil =>
      cases longer
      exact .whole (List.forall_mem_nil _)
  | @failed budget e rest supply left items tail ih =>
      cases longer with
      | failed after =>
          have here : isLimit (.error e) = false := by
            refine isLimit_eq_false fun limit same => free limit ?_
            rw [Except.error.inj same]
            exact List.mem_cons_self
          exact (ih after enough fun limit h => free limit (List.mem_cons_of_mem _ h)).cons here
  | stopped => exact .short (List.forall_mem_nil _) List.nil_prefix
  | item head _ ih =>
      have rest := fun limit h => free limit (List.mem_cons_of_mem _ h)
      cases longer with
      | stopped => exact absurd enough (Nat.not_succ_le_zero _)
      | item head' after =>
          obtain ⟨same, rfl⟩ := (checked ▸ head').unique head
          obtain rfl := Resolution.item.inj same
          exact (ih after (Nat.le_of_succ_le_succ enough) rest).cons head.isLimit_eq
      | work head' => cases ((checked ▸ head').unique head).1
  | work head _ ih =>
      cases longer with
      | stopped => exact absurd enough (Nat.not_succ_le_zero _)
      | item head' => cases ((checked ▸ head').unique head).1
      | work head' after =>
          obtain ⟨same, rfl⟩ := (checked ▸ head').unique head
          obtain rfl := Resolution.work.inj same
          refine ih after (Nat.le_of_succ_le_succ enough) fun limit h => ?_
          rcases List.mem_append.mp h with new | old
          · exact head.stepLimit_not_mem limit new
          · exact free limit (List.mem_cons_of_mem _ old)

theorem next_nil (budget : Nat) : (next store config ⟨[], budget, supply⟩).1 = none := by
  simp [next, advance]

/-- After all items of a run nothing comes any more. -/
theorem Runs.next_eq_none (runs : Runs store config budget work supply items left) {n : Nat}
    (all : items.length ≤ n) (found : List ExpansionItem) :
    (next store config (takeOnto store config n ⟨work, budget, supply⟩ found).2).1 = none := by
  induction runs generalizing n found with
  | nil =>
      rw [takeOnto_nil]
      exact next_nil _
  | failed _ ih =>
      cases n with
      | zero => cases all
      | succ n =>
          rw [takeOnto_failed]
          exact ih (Nat.le_of_succ_le_succ all) _
  | stopped =>
      cases n with
      | zero => cases all
      | succ n =>
          rw [takeOnto_exhausted]
          exact next_nil 0
  | item head _ ih =>
      cases n with
      | zero => cases all
      | succ n =>
          rw [takeOnto_item _ _ _ _ head]
          exact ih (Nat.le_of_succ_le_succ all) _
  | work head _ ih =>
      cases n with
      | zero =>
          rw [takeOnto, next_work _ _ head]
          exact ih all found
      | succ n =>
          rw [takeOnto_succ_work _ _ _ _ head]
          exact ih all found

/-- The configuration with a limit of its own. -/
def limitedTo (config : ExpansionConfig) (limit : Nat) : ExpansionConfig :=
  { config with maxSteps := limit }

/-- The stream with the limit `few` ends, the error of the limit is at most its last item, and
without it the stream is the beginning of the one with the limit `many`. -/
structure CutsOffOnly (store : Store) (config : ExpansionConfig) (i : Instance)
    (supply : BlankSupply) (few many : Nat) : Prop where
  stream : ∀ n, (take store (limitedTo config few) n (start (limitedTo config few) i supply)).1 =
    (store.expand (limitedTo config few) i supply).1.take n
  finite : ∀ n, (store.expand (limitedTo config few) i supply).1.length ≤ n →
    (next store (limitedTo config few)
      (take store (limitedTo config few) n (start (limitedTo config few) i supply)).2).1 = none
  last : ∀ before x after, (store.expand (limitedTo config few) i supply).1 = before ++ x :: after →
    isLimit x = true →
      x = .error (.stepLimit few) ∧ after = [] ∧ ∀ y ∈ before, isLimit y = false
  begins : (store.expand (limitedTo config few) i supply).1.filter (!isLimit ·) <+:
    (store.expand (limitedTo config many) i supply).1
  same : (∀ x ∈ (store.expand (limitedTo config few) i supply).1, isLimit x = false) →
    store.expand (limitedTo config few) i supply = store.expand (limitedTo config many) i supply

namespace Cut

variable {limit : Nat} {result longer : List ExpansionItem × BlankSupply}

/-- An error of the limit stands at the end of what was cut off. -/
theorem ends (cut : Cut limit result longer) {before after : List ExpansionItem}
    {x : ExpansionItem} (split : result.1 = before ++ x :: after) (reached : isLimit x = true) :
    x = .error (.stepLimit limit) ∧ after = [] ∧ ∀ y ∈ before, isLimit y = false := by
  cases cut with
  | whole free =>
      dsimp only at split
      have here := free x (by rw [split]; exact List.mem_append_right _ List.mem_cons_self)
      rw [here] at reached
      cases reached
  | @short items others left last free begins =>
      rcases List.append_eq_append_iff.mp split with ⟨more, rfl, rest⟩ | ⟨more, rfl, rest⟩
      · obtain ⟨rfl, alone⟩ | ⟨_, -, none⟩ := List.cons_eq_append_iff.mp rest
        · obtain ⟨rfl, rfl⟩ := List.cons.inj alone
          exact ⟨rfl, rfl, by simpa using free⟩
        · simp at none
      · obtain ⟨rfl, alone⟩ | ⟨tail, rfl, -⟩ := List.cons_eq_append_iff.mp rest
        · obtain ⟨rfl, rfl⟩ := List.cons.inj alone
          exact ⟨rfl, rfl, by simpa using free⟩
        · rw [free x (List.mem_append_right _ List.mem_cons_self)] at reached
          cases reached

theorem begins (cut : Cut limit result longer) :
    result.1.filter (!isLimit ·) <+: longer.1 := by
  cases cut with
  | whole free =>
      exact ⟨[], by rw [List.append_nil, List.filter_eq_self.mpr fun x h => by simp [free x h]]⟩
  | short free begins =>
      rw [List.filter_append, List.filter_eq_self.mpr fun x h => by simp [free x h]]
      simpa [isLimit] using begins

theorem same (cut : Cut limit result longer) (free : ∀ x ∈ result.1, isLimit x = false) :
    result = longer := by
  cases cut with
  | whole => rfl
  | short =>
      have here := free (.error (.stepLimit limit)) (by simp)
      cases here

end Cut

/-- A lower limit only cuts the expansion off. -/
theorem expand_cutsOffOnly (store : Store) (config : ExpansionConfig) (i : Instance)
    (supply : BlankSupply) {few many : Nat} (fewer : few ≤ many) :
    CutsOffOnly store config i supply few many := by
  have cut : Cut few (store.expand (limitedTo config few) i supply)
      (store.expand (limitedTo config many) i supply) := by
    have checked : (limitedTo config many).checkArguments =
        (limitedTo config few).checkArguments := rfl
    have runs := runs_expand store (limitedTo config few) i supply
    exact runs.cut checked (runs_expand store (limitedTo config many) i supply) fewer (by simp)
  constructor
  case stream => exact take_eq_expand store (limitedTo config few) i supply
  case finite =>
    intro n all
    exact (runs_expand store (limitedTo config few) i supply).next_eq_none all []
  case last => exact fun _ _ _ split reached => cut.ends split reached
  case begins => exact cut.begins
  case same => exact cut.same

/-- A chain gives a link and goes on with itself for ever. -/
def chained : Store :=
  (Store.empty .standard).acceptAll [
    .signature ⟨"Link", [.mandatory "from" .top, .mandatory "to" .top], true⟩,
    .template (.make "Chain" [.mandatory "from" .top] [
      .ofTerms "Link" [.var ⟨"from", .top⟩, .blank "to"], .ofTerms "Chain" [.blank "to"]])]

/-- After three steps one link is there and the limit is reached, after six steps there are two. -/
theorem expand_cutsOffOnly_chained : 3 ≤ 6 ∧
    CutsOffOnly chained .standard (.ofTerms "Chain" [.iri "start"]) ⟨0⟩ 3 6 ∧
    (chained.expand (limitedTo .standard 3) (.ofTerms "Chain" [.iri "start"]) ⟨0⟩).1 =
      [.ok (.ofTerms "Link" [.iri "start", .blank "genid0"]), .error (.stepLimit 3)] ∧
    (chained.expand (limitedTo .standard 6) (.ofTerms "Chain" [.iri "start"]) ⟨0⟩).1 =
      [.ok (.ofTerms "Link" [.iri "start", .blank "genid0"]),
        .ok (.ofTerms "Link" [.blank "genid0", .blank "genid1"]),
        .ok (.ofTerms "Link" [.blank "genid1", .blank "genid2"]), .error (.stepLimit 6)] :=
  ⟨by decide, expand_cutsOffOnly chained .standard _ ⟨0⟩ (by decide), rfl, rfl⟩

end Expansion

end RdfTemplates
