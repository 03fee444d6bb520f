import RdfTemplates.Proofs.Matching.Valuations
import Mathlib.Data.List.Forall2
import Mathlib.Data.List.Perm.Basic

/-!
# What the search finds

A search never takes back an attempt or what it has found. Where it ends with
attempts left it has gone through every pairing of the sources with targets, so
it has found each matching, or the same one in another guise. With exact steps
the matchings that are found are told by valuations: one that holds of a
valuation is found exactly when the valuation takes the sources to targets, each
to one of its own. A search that ends with attempts left is not cut off: a greater
limit would not change it.
-/

namespace RdfTemplates

namespace MatchingSearch

open Substitution

variable {α β : Type} {limit : Nat} {matchPair? : α → β → Substitution → Option Substitution}
  {source : α} {sources : List α} {target : β} {targets others : List β}
  {s next last : Substitution} {p q r : Progress} {v : Valuation}

/-- The search comes to its end with attempts left. -/
def Finishes (limit : Nat) (matchPair? : α → β → Substitution → Option Substitution)
    (sources : List α) (targets : List β) : Prop :=
  (search limit matchPair? sources targets .empty ⟨0, []⟩).attempts < limit

instance (limit : Nat) (matchPair? : α → β → Substitution → Option Substitution)
    (sources : List α) (targets : List β) :
    Decidable (Finishes limit matchPair? sources targets) :=
  inferInstanceAs (Decidable (_ < _))

/-- A search only goes on: attempts are used up and nothing that was found is lost. -/
structure Progress.Le (p q : Progress) : Prop where
  attempts : p.attempts ≤ q.attempts
  found : ∀ s ∈ p.found, s ∈ q.found

/-- The substitution was found, or one that is the same. -/
def Progress.Has (p : Progress) (s : Substitution) : Prop := ∃ t ∈ p.found, t = s ∨ (s == t) = true

theorem Progress.Le.refl (p : Progress) : p.Le p := ⟨Nat.le_refl _, fun _ h => h⟩

theorem Progress.Le.trans (first : p.Le q) (second : q.Le r) : p.Le r :=
  ⟨Nat.le_trans first.attempts second.attempts, fun s h => second.found s (first.found s h)⟩

theorem Progress.Has.mono (has : p.Has s) (grown : p.Le q) : q.Has s := by
  obtain ⟨t, found, same⟩ := has
  exact ⟨t, grown.found t found, same⟩

theorem le_record (s : Substitution) (p : Progress) : p.Le (record s p) := by
  rcases record_cases s p with ⟨-, same⟩ | ⟨-, added⟩
  · rw [same]
    exact .refl p
  · rw [added]
    exact ⟨Nat.le_refl _, fun t h => List.mem_cons_of_mem s h⟩

theorem has_record (s : Substitution) (p : Progress) : (record s p).Has s := by
  rcases record_cases s p with ⟨⟨t, found, same⟩, kept⟩ | ⟨-, added⟩
  · rw [kept]
    exact ⟨t, found, .inr same⟩
  · rw [added]
    exact ⟨s, List.mem_cons_self, .inl rfl⟩

theorem le_foldl {γ : Type} {step : Progress → γ → Progress}
    (le : ∀ (p : Progress) c, p.Le (step p c)) (tries : List γ) (p : Progress) :
    p.Le (tries.foldl step p) := by
  induction tries generalizing p with
  | nil => exact .refl p
  | cons c tries ih => exact (le p c).trans (ih _)

theorem le_attempt {onward : List β → Substitution → Progress → Progress}
    (le : ∀ others s (p : Progress), p.Le (onward others s p)) (s : Substitution) (p : Progress)
    (choice : β × List β) : p.Le (attempt limit matchPair? onward source s p choice) := by
  have counted : p.Le { p with attempts := p.attempts + 1 } := ⟨Nat.le_succ _, fun _ h => h⟩
  rcases attempt_cases onward source s p choice with ⟨-, stopped⟩ | ⟨-, -, failed⟩ |
    ⟨next, -, -, onwards⟩
  · rw [stopped]
    exact .refl p
  · rw [failed]
    exact counted
  · rw [onwards]
    exact counted.trans (le choice.2 next _)

/-- No part of a search goes back. -/
theorem le_search (sources : List α) (targets : List β) (s : Substitution) (p : Progress) :
    p.Le (search limit matchPair? sources targets s p) := by
  induction sources generalizing targets s p with
  | nil => exact le_record s p
  | cons source sources ih =>
      rw [search_cons]
      exact le_foldl (fun p choice => le_attempt ih s p choice) _ p

/-- With attempts left at the end, the pairing was come to on the way. -/
theorem has_of_pairs (pairs : Pairs matchPair? sources targets s last) {p : Progress}
    (within : (search limit matchPair? sources targets s p).attempts < limit) :
    (search limit matchPair? sources targets s p).Has last := by
  induction pairs generalizing p with
  | nil targets s => exact has_record s p
  | @cons source sources target targets others s next last choice head tail ih =>
      obtain ⟨before, after, split⟩ := List.append_of_mem choice
      rw [search_cons, split, List.foldl_append, List.foldl_cons] at within ⊢
      generalize before.foldl _ p = q at within ⊢
      have tries (p : Progress) (choice : β × List β) :
          p.Le (attempt limit matchPair? (search limit matchPair? sources) source s p choice) :=
        le_attempt (le_search sources) s p choice
      have left : q.attempts < limit :=
        Nat.lt_of_le_of_lt ((tries q _).trans (le_foldl tries after _)).attempts within
      have tried : attempt limit matchPair? (search limit matchPair? sources) source s q
          (target, others) = search limit matchPair? sources others next
            { q with attempts := q.attempts + 1 } := attempt_of_some left head
      rw [tried] at within ⊢
      have onwards := le_foldl tries after
      exact (ih (Nat.lt_of_le_of_lt (onwards _).attempts within)).mono (onwards _)

/-- What is found is not found again. -/
theorem pairwise_search (sources : List α) (targets : List β) (s : Substitution) {p : Progress}
    (distinct : p.found.Pairwise fun s t => (s == t) = false) :
    (search limit matchPair? sources targets s p).found.Pairwise fun s t => (s == t) = false := by
  induction sources generalizing targets s p with
  | nil =>
      rw [search]
      rcases record_cases s p with ⟨-, same⟩ | ⟨new, added⟩
      · rwa [same]
      · rw [added]
        exact List.pairwise_cons.mpr ⟨new, distinct⟩
  | cons source sources ih =>
      rw [search_cons]
      refine List.foldlRecOn
        (motive := fun p : Progress => p.found.Pairwise fun s t => (s == t) = false)
        _ _ distinct fun p distinct choice _ => ?_
      rcases attempt_cases (search limit matchPair? sources) source s p choice with
        ⟨-, stopped⟩ | ⟨-, -, failed⟩ | ⟨next, -, -, onwards⟩
      · rwa [stopped]
      · rwa [failed]
      · rw [onwards]
        exact ih choice.2 next distinct

/-- Whatever is found is found once. -/
theorem pairwise_run (sources : List α) (targets : List β) :
    (run limit matchPair? sources targets).Pairwise fun s t => (t == s) = false :=
  List.pairwise_reverse.mpr (pairwise_search sources targets .empty .nil)

theorem perm_of_mem_choices (choice : (target, others) ∈ choices targets) :
    (target :: others).Perm targets := by
  induction targets generalizing target others with
  | nil => cases choice
  | cons b rest ih =>
      rcases List.mem_cons.mp choice with same | choice
      · obtain ⟨rfl, rfl⟩ := Prod.mk.inj same
        exact .refl _
      · obtain ⟨⟨c, left⟩, listed, same⟩ := List.mem_map.mp choice
        obtain ⟨rfl, rfl⟩ := Prod.mk.inj same
        exact (List.Perm.swap b c left).trans ((ih listed).cons b)

/-- Every target is a choice. -/
theorem exists_choice (listed : target ∈ targets) :
    ∃ others, (target, others) ∈ choices targets := by
  induction targets with
  | nil => cases listed
  | cons b rest ih =>
      rcases List.mem_cons.mp listed with rfl | listed
      · exact ⟨rest, List.mem_cons_self⟩
      · obtain ⟨others, choice⟩ := ih listed
        exact ⟨b :: others, List.mem_cons_of_mem _ (List.mem_map.mpr ⟨_, choice, rfl⟩)⟩

section Exact

variable {takes : Valuation → α → β → Prop}
  (exact_ : ∀ a b, Exact (matchPair? a b) fun v => takes v a b)

include exact_

/-- What the pairs bind takes the sources to the targets they were paired with. -/
theorem Pairs.sound (pairs : Pairs matchPair? sources targets s last) (holds : last.HoldsOf v) :
    s.HoldsOf v ∧ ∃ chosen rest, (chosen ++ rest).Perm targets ∧
      List.Forall₂ (takes v) sources chosen := by
  induction pairs with
  | nil targets s => exact ⟨holds, [], targets, .refl _, .nil⟩
  | @cons source sources target targets others s next last choice head tail ih =>
      obtain ⟨middle, chosen, rest, listed, taken⟩ := ih holds
      obtain ⟨start, here⟩ := (exact_ source target).sound head middle
      exact ⟨start, target :: chosen, rest,
        (listed.cons target).trans (perm_of_mem_choices choice), .cons here taken⟩

/-- Where a valuation takes the sources to some of the targets, there are pairs that bind no more
than it. -/
theorem exists_pairs {chosen rest : List β} (taken : List.Forall₂ (takes v) sources chosen)
    (listed : (chosen ++ rest).Perm targets) (holds : s.HoldsOf v) :
    ∃ last, Pairs matchPair? sources targets s last ∧ last.HoldsOf v := by
  induction taken generalizing targets s with
  | nil => exact ⟨s, .nil targets s, holds⟩
  | @cons source target sources chosen here taken ih =>
      obtain ⟨others, choice⟩ := exists_choice (listed.subset List.mem_cons_self)
      have left : (chosen ++ rest).Perm others :=
        (listed.trans (perm_of_mem_choices choice).symm).cons_inv
      obtain ⟨next, head, after⟩ := (exact_ source target).complete holds here
      obtain ⟨last, tail, done⟩ := ih left after
      exact ⟨last, .cons choice head tail, done⟩

theorem Pairs.proper (pairs : Pairs matchPair? sources targets s last) (proper : s.Proper) :
    last.Proper := by
  induction pairs with
  | nil => exact proper
  | cons choice head tail ih => exact ih ((exact_ _ _).proper head proper)

theorem proper_of_mem_run (found : s ∈ run limit matchPair? sources targets) : s.Proper :=
  Pairs.proper exact_ (pairs_of_run found) proper_empty

theorem exists_chosen (found : s ∈ run limit matchPair? sources targets) (holds : s.HoldsOf v) :
    ∃ chosen rest, (chosen ++ rest).Perm targets ∧ List.Forall₂ (takes v) sources chosen :=
  (Pairs.sound exact_ (pairs_of_run found) holds).2

/-- A search that finishes finds a substitution for every such valuation. -/
theorem exists_mem_run (finishes : Finishes limit matchPair? sources targets)
    {chosen rest : List β} (taken : List.Forall₂ (takes v) sources chosen)
    (listed : (chosen ++ rest).Perm targets) :
    ∃ s ∈ run limit matchPair? sources targets, s.HoldsOf v := by
  obtain ⟨last, pairs, holds⟩ := exists_pairs exact_ taken listed (holdsOf_empty v)
  obtain ⟨s, found, same⟩ := has_of_pairs pairs finishes
  refine ⟨s, List.mem_reverse.mpr found, ?_⟩
  rcases same with rfl | same
  · exact holds
  · exact (Pairs.proper exact_ pairs proper_empty).holdsOf_of_same same holds

end Exact

section Sizes

variable {γ : Type} {f : Valuation → α → γ} {g : β → γ}
  (exact_ : ∀ a b, Exact (matchPair? a b) fun v => f v a = g b)

include exact_

/-- If there are as many targets as sources, all of them are met. -/
theorem perm_of_mem_run (sizes : sources.length = targets.length)
    (found : s ∈ run limit matchPair? sources targets) (holds : s.HoldsOf v) :
    (sources.map (f v)).Perm (targets.map g) := by
  obtain ⟨chosen, rest, listed, taken⟩ := exists_chosen exact_ found holds
  have none_left : rest = [] := by
    have all := listed.length_eq
    rw [List.length_append, ← taken.length_eq, sizes] at all
    exact List.length_eq_zero_iff.mp (by omega)
  rw [none_left, List.append_nil] at listed
  have values : sources.map (f v) = chosen.map g := by
    rw [← List.forall₂_eq_eq_eq]
    exact List.forall₂_map_left_iff.mpr (List.forall₂_map_right_iff.mpr taken)
  rw [values]
  exact listed.map g

theorem exists_mem_run_of_perm (finishes : Finishes limit matchPair? sources targets)
    (same : (sources.map (f v)).Perm (targets.map g)) :
    ∃ s ∈ run limit matchPair? sources targets, s.HoldsOf v := by
  have values : List.Forall₂ (fun x b => x = g b) (targets.map g) targets :=
    List.forall₂_map_left_iff.mpr (List.forall₂_same.mpr fun _ _ => rfl)
  obtain ⟨chosen, taken, listed⟩ := List.perm_comp_forall₂ same values
  rw [← List.append_nil chosen] at listed
  exact exists_mem_run exact_ finishes (List.forall₂_map_left_iff.mp taken) listed

end Sizes

variable {more : Nat}

/-- The search does not stop at the limit: it would be the same with any greater one. -/
def Uncut (limit : Nat) (matchPair? : α → β → Substitution → Option Substitution)
    (sources : List α) (targets : List β) : Prop :=
  ∀ more, limit ≤ more → search more matchPair? sources targets .empty ⟨0, []⟩ =
    search limit matchPair? sources targets .empty ⟨0, []⟩

theorem foldl_eq_of_left {γ : Type} {step step' : Progress → γ → Progress} {tries : List γ}
    (le : ∀ (p : Progress) c, p.Le (step p c))
    (same : ∀ (p : Progress) c, (step p c).attempts < limit → step' p c = step p c)
    (left : (tries.foldl step p).attempts < limit) :
    tries.foldl step' p = tries.foldl step p := by
  induction tries generalizing p with
  | nil => rfl
  | cons c tries ih =>
      have before := Nat.lt_of_le_of_lt (le_foldl le tries (step p c)).attempts left
      rw [List.foldl_cons, List.foldl_cons, same p c before]
      exact ih left

/-- By induction on the sources; what is left at the end was left at each attempt. -/
theorem search_eq_of_left (greater : limit ≤ more)
    (left : (search limit matchPair? sources targets s p).attempts < limit) :
    search more matchPair? sources targets s p =
      search limit matchPair? sources targets s p := by
  induction sources generalizing targets s p with
  | nil => rfl
  | cons source sources ih =>
      rw [search_cons, search_cons]
      refine foldl_eq_of_left (le_attempt (le_search sources) s) (fun p choice left => ?_) left
      have here : p.attempts < limit :=
        Nat.lt_of_le_of_lt (le_attempt (le_search sources) s p choice).attempts left
      have there : p.attempts < more := Nat.lt_of_lt_of_le here greater
      cases tried : matchPair? source choice.1 s with
      | none => rw [attempt_of_none here tried, attempt_of_none there tried]
      | some next =>
          rw [attempt_of_some here tried] at left ⊢
          rw [attempt_of_some there tried]
          exact ih left

theorem Finishes.uncut (finishes : Finishes limit matchPair? sources targets) :
    Uncut limit matchPair? sources targets :=
  fun _ greater => search_eq_of_left greater finishes

theorem Uncut.exists_finishes (uncut : Uncut limit matchPair? sources targets) :
    ∃ more, Finishes more matchPair? sources targets ∧
      run more matchPair? sources targets = run limit matchPair? sources targets := by
  let made := (search limit matchPair? sources targets .empty ⟨0, []⟩).attempts
  have same := uncut (max limit (made + 1)) (Nat.le_max_left _ _)
  refine ⟨max limit (made + 1), ?_, by rw [run, run, same]⟩
  rw [Finishes, same]
  exact Nat.lt_of_lt_of_le (Nat.lt_succ_self made) (Nat.le_max_right _ _)

end MatchingSearch

namespace Substitution

open MatchingSearch

variable {ts us : List Term} {body into : List Instance} {s : Substitution} {v : Valuation}

theorem matchTerm?_exact_untyped (t u : Term) :
    Exact (matchTerm? t u) fun v => (t.fill v.filling).untyped = u.untyped :=
  (matchTerm?_exact t u).congr fun _ => (Term.sameUnder_untyped _ _).symm

theorem matchInstance?_exact_untyped (i j : Instance) :
    Exact (matchInstance? i j) fun v => (i.fill v.filling).untyped = j.untyped :=
  (matchInstance?_exact i j).congr fun _ => (Instance.sameUnder_untyped _ _).symm

/-- Terms in any order are searched through if there are as many on both sides. -/
theorem mem_matchUnordered : s ∈ matchUnordered ts us ↔
    ts.length = us.length ∧ s ∈ run searchLimit matchTerm? ts us := by
  unfold matchUnordered
  split
  · rename_i sizes
    simp [eq_of_beq sizes]
  · rename_i sizes
    simp_all

theorem trialOrder_perm (body : List Instance) : (trialOrder body).Perm body := by
  have sorted := (stableSort_perm triedBefore (body.map fun i => (i, i.text))).map Prod.fst
  rw [List.map_map] at sorted
  simpa [trialOrder, Function.comp_def] using sorted

theorem perm_of_mem_matchUnordered (found : s ∈ matchUnordered ts us) (holds : s.HoldsOf v) :
    (ts.map fun t => (t.fill v.filling).untyped).Perm (us.map Term.untyped) := by
  obtain ⟨sizes, found⟩ := mem_matchUnordered.mp found
  exact perm_of_mem_run matchTerm?_exact_untyped sizes found holds

/-- Every way to take the one terms to the others, in whatever order, is found. -/
theorem exists_mem_matchUnordered (finishes : Finishes searchLimit matchTerm? ts us)
    (same : (ts.map fun t => (t.fill v.filling).untyped).Perm (us.map Term.untyped)) :
    ∃ s ∈ matchUnordered ts us, s.HoldsOf v := by
  obtain ⟨s, found, holds⟩ := exists_mem_run_of_perm matchTerm?_exact_untyped finishes same
  exact ⟨s, mem_matchUnordered.mpr ⟨by simpa using same.length_eq, found⟩, holds⟩

theorem perm_of_mem_matchBodies (sizes : body.length = into.length)
    (found : s ∈ matchBodies body into) (holds : s.HoldsOf v) :
    (body.map fun i => (i.fill v.filling).untyped).Perm (into.map Instance.untyped) := by
  have sorted := perm_of_mem_run matchInstance?_exact_untyped
    (by rw [(trialOrder_perm body).length_eq, sizes, (trialOrder_perm into).length_eq])
    (mem_matchBodies.mp found).2 holds
  exact ((trialOrder_perm body).map _).symm.trans (sorted.trans ((trialOrder_perm into).map _))

/-- Every way to take the one body to the other is found. -/
theorem exists_mem_matchBodies (some_ : body ≠ [])
    (finishes : Finishes searchLimit matchInstance? (trialOrder body) (trialOrder into))
    (same : (body.map fun i => (i.fill v.filling).untyped).Perm (into.map Instance.untyped)) :
    ∃ s ∈ matchBodies body into, s.HoldsOf v := by
  have sorted := ((trialOrder_perm body).map fun i => (i.fill v.filling).untyped).trans
    (same.trans ((trialOrder_perm into).map _).symm)
  obtain ⟨s, found, holds⟩ := exists_mem_run_of_perm matchInstance?_exact_untyped finishes sorted
  have sizes : body.length = into.length := by simpa using same.length_eq
  exact ⟨s, mem_matchBodies.mpr ⟨⟨some_, Nat.le_of_eq sizes⟩, found⟩, holds⟩

theorem proper_of_mem_matchUnordered (found : s ∈ matchUnordered ts us) : s.Proper :=
  proper_of_mem_run matchTerm?_exact (mem_matchUnordered.mp found).2

theorem proper_of_mem_matchBodies (found : s ∈ matchBodies body into) : s.Proper :=
  proper_of_mem_run matchInstance?_exact (mem_matchBodies.mp found).2

end Substitution

end RdfTemplates
