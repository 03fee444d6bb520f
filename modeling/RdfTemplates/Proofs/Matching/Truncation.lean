import RdfTemplates.Proofs.Matching.Search
import RdfTemplates.Proofs.Matching.Merging
import RdfTemplates.Proofs.TemplateBody
import Mathlib.Data.List.Infix

/-!
# Searches that are cut off

A search without a limit is a sequence of events: it tries a pair, or it meets a
substitution that matches all pairs. With a limit the search goes through the same
events up to the try that would be one too many, and stops there: it leaves nothing
out before and adds nothing on the way back. So it finds the first ones of what it
would find without the limit.
-/

namespace RdfTemplates

namespace MatchingSearch

/-- What a search does at a time: it tries a pair on what is bound so far, or it comes to the end
of the sources. -/
inductive Event (α β : Type) where
  | tried (source : α) (target : β) (s : Substitution)
  | met (s : Substitution)

def Event.isTry {α β : Type} : Event α β → Bool
  | .tried .. => true
  | .met _ => false

def Event.met? {α β : Type} : Event α β → Option Substitution
  | .tried .. => none
  | .met s => some s

/-- Everything that a search without a limit does, in turn. -/
def events {α β : Type} (matchPair? : α → β → Substitution → Option Substitution) :
    List α → List β → Substitution → List (Event α β)
  | [], _, s => [.met s]
  | source :: sources, targets, s => (choices targets).flatMap fun choice =>
      .tried source choice.1 s ::
        match matchPair? source choice.1 s with
        | some next => events matchPair? sources choice.2 next
        | none => []

/-- The events before the try that is one too many. -/
def upTo {α β : Type} : Nat → List (Event α β) → List (Event α β)
  | _, [] => []
  | limit, .met s :: es => .met s :: upTo limit es
  | 0, .tried .. :: _ => []
  | limit + 1, .tried source target s :: es => .tried source target s :: upTo limit es

def Progress.after {α β : Type} (p : Progress) : Event α β → Progress
  | .tried .. => { p with attempts := p.attempts + 1 }
  | .met s => record s p

/-- What is found without a limit: all that is met, each substitution once. -/
def every {α β : Type} (matchPair? : α → β → Substitution → Option Substitution)
    (sources : List α) (targets : List β) : List Substitution :=
  firsts ((events matchPair? sources targets .empty).filterMap Event.met?)

variable {α β : Type} {limit : Nat} {matchPair? : α → β → Substitution → Option Substitution}
  {sources : List α} {targets : List β} {s : Substitution} {p : Progress}
  {e : Event α β} {es others : List (Event α β)}

def tries (es : List (Event α β)) : Nat := es.countP Event.isTry

@[simp] theorem tries_nil : tries ([] : List (Event α β)) = 0 := rfl

@[simp] theorem tries_tried (source : α) (target : β) (s : Substitution)
    (es : List (Event α β)) : tries (.tried source target s :: es) = tries es + 1 := by
  simp [tries, List.countP_cons, Event.isTry]

@[simp] theorem tries_met (s : Substitution) (es : List (Event α β)) :
    tries (.met s :: es) = tries es := by
  simp [tries, Event.isTry]

theorem upTo_isPrefix (limit : Nat) (es : List (Event α β)) : upTo limit es <+: es := by
  fun_induction upTo limit es with
  | case1 => exact List.prefix_refl _
  | case2 limit s es ih => exact (List.prefix_cons_inj _).mpr ih
  | case3 => exact List.nil_prefix
  | case4 limit source target s es ih => exact (List.prefix_cons_inj _).mpr ih

theorem tries_upTo (limit : Nat) (es : List (Event α β)) :
    tries (upTo limit es) = min limit (tries es) := by
  fun_induction upTo limit es with
  | case1 => simp
  | case2 limit s es ih => simpa using ih
  | case3 => simp
  | case4 limit source target s es ih => simp [ih, Nat.succ_min_succ]

theorem upTo_eq_self (enough : tries es ≤ limit) : upTo limit es = es := by
  fun_induction upTo limit es with
  | case1 => rfl
  | case2 limit s es ih => rw [ih (by simpa using enough)]
  | case3 => simp at enough
  | case4 limit source target s es ih => rw [ih (by simpa using enough)]

/-- Where the first events use up the limit, the others stop before the next try. -/
theorem upTo_append (begins : ∀ e ∈ others.head?, e.isTry = true) :
    upTo limit (es ++ others) = upTo limit es ++ upTo (limit - tries es) others := by
  fun_induction upTo limit es with
  | case1 => simp
  | case2 limit s es ih => simpa [upTo] using ih
  | case3 =>
      cases others with
      | nil => simp [upTo]
      | cons e others =>
          cases e with
          | tried => simp [upTo]
          | met => cases begins _ rfl
  | case4 limit source target s es ih => simpa [upTo] using ih

theorem attempts_record (s : Substitution) (p : Progress) : (record s p).attempts = p.attempts := by
  unfold record
  split <;> rfl

theorem attempts_after (es : List (Event α β)) (p : Progress) :
    (es.foldl Progress.after p).attempts = p.attempts + tries es := by
  induction es generalizing p with
  | nil => rfl
  | cons e es ih =>
      rw [List.foldl_cons, ih]
      cases e with
      | tried => rw [Progress.after, tries_tried, Nat.add_right_comm, Nat.add_assoc]
      | met s => rw [Progress.after, attempts_record, tries_met]

theorem found_after {met : List Substitution} (es : List (Event α β))
    (start : p.found.reverse = firsts met) :
    (es.foldl Progress.after p).found.reverse = firsts (met ++ es.filterMap Event.met?) := by
  induction es generalizing p met with
  | nil => simpa using start
  | cons e es ih =>
      cases e with
      | tried => exact ih start
      | met s =>
          have here : (record s p).found.reverse = firsts (met ++ [s]) := by
            have same : p.found.contains s = (firsts met).contains s := by
              rw [← start, Bool.eq_iff_iff]
              simp
            rw [firsts_append, record, same]
            split
            · exact start
            · rw [List.reverse_cons, start]
          simpa [Progress.after, Event.met?] using ih here

theorem firsts_isPrefix {γ : Type} [BEq γ] {xs ys : List γ} (begins : xs <+: ys) :
    firsts xs <+: firsts ys := by
  obtain ⟨more, rfl⟩ := begins
  induction more using List.reverseRecOn with
  | nil => simp
  | append_singleton more x ih =>
      rw [← List.append_assoc, firsts_append]
      split
      · exact ih
      · exact ih.trans (List.prefix_append _ _)

/-- Steps that go along events of their own, each of them beginning with a try: when there are
no attempts left, neither the steps nor the events go on. -/
theorem foldl_eq_after {γ : Type} {step : Progress → γ → Progress} {does : γ → List (Event α β)}
    (begins : ∀ c, ∃ e es, does c = e :: es ∧ e.isTry = true)
    (each : ∀ c (p : Progress), step p c = (upTo (limit - p.attempts) (does c)).foldl .after p)
    (cs : List γ) (p : Progress) :
    cs.foldl step p = (upTo (limit - p.attempts) (cs.flatMap does)).foldl .after p := by
  induction cs generalizing p with
  | nil => simp [upTo]
  | cons c cs ih =>
      have later : ∀ e ∈ (cs.flatMap does).head?, e.isTry = true := by
        cases cs with
        | nil => nofun
        | cons d cs =>
            obtain ⟨e, es, same, isTry⟩ := begins d
            simpa [same] using isTry
      have spent : limit - (step p c).attempts = limit - p.attempts - tries (does c) := by
        rw [each, attempts_after, tries_upTo]
        omega
      rw [List.foldl_cons, ih, spent, each, List.flatMap_cons, upTo_append later,
        List.foldl_append]

/-- By induction on the sources. -/
theorem search_eq_after (sources : List α) (targets : List β) (s : Substitution) (p : Progress) :
    search limit matchPair? sources targets s p =
      (upTo (limit - p.attempts) (events matchPair? sources targets s)).foldl .after p := by
  induction sources generalizing targets s p with
  | nil => simp [search, events, upTo, Progress.after]
  | cons source sources ih =>
      rw [search_cons, events]
      refine foldl_eq_after (fun choice => ⟨_, _, rfl, rfl⟩) (fun choice p => ?_) _ p
      rcases Nat.lt_or_ge p.attempts limit with left | spent
      · have more : limit - p.attempts = limit - (p.attempts + 1) + 1 := by omega
        rw [more, upTo, List.foldl_cons, Progress.after]
        cases tried : matchPair? source choice.1 s with
        | none =>
            rw [attempt_of_none left tried]
            rfl
        | some next =>
            rw [attempt_of_some left tried]
            exact ih choice.2 next _
      · rw [attempt_of_spent spent, Nat.sub_eq_zero_of_le spent, upTo, List.foldl_nil]

section Whole

variable (limit : Nat) (matchPair? : α → β → Substitution → Option Substitution)
  (sources : List α) (targets : List β)

theorem run_eq_firsts : run limit matchPair? sources targets =
    firsts ((upTo limit (events matchPair? sources targets .empty)).filterMap Event.met?) := by
  have start : (Progress.mk 0 []).found.reverse = firsts [] := rfl
  rw [run, search_eq_after]
  exact found_after _ start

/-- The search does what it would do without the limit, up to the try that would be one too many.
So it finds the first ones of what it would find without the limit. -/
structure Truncates : Prop where
  attempts : (search limit matchPair? sources targets .empty ⟨0, []⟩).attempts ≤ limit
  along : search limit matchPair? sources targets .empty ⟨0, []⟩ =
    (upTo limit (events matchPair? sources targets .empty)).foldl .after ⟨0, []⟩
  begins : run limit matchPair? sources targets <+: every matchPair? sources targets
  limitless : ∃ enough, ∀ more, enough ≤ more →
    run more matchPair? sources targets = every matchPair? sources targets

theorem run_truncates : Truncates limit matchPair? sources targets := by
  have along : search limit matchPair? sources targets .empty ⟨0, []⟩ = _ :=
    search_eq_after sources targets .empty ⟨0, []⟩
  refine ⟨?_, along, ?_, tries (events matchPair? sources targets .empty), fun more enough => ?_⟩
  · rw [along, attempts_after, tries_upTo, Nat.sub_zero, Nat.zero_add]
    exact Nat.min_le_left _ _
  · rw [run_eq_firsts, every]
    exact firsts_isPrefix ((upTo_isPrefix _ _).filterMap _)
  · rw [run_eq_firsts, upTo_eq_self enough, every]

/-- The second way to give two variables one of two IRIs each takes the third and fourth try. -/
example :
    let names : List Term := [.var ⟨"x", .top⟩, .var ⟨"y", .top⟩]
    let cities : List Term := [.iri "Rome", .iri "Oslo"]
    (run 3 Substitution.matchTerm? names cities).length = 1 ∧
      (run 4 Substitution.matchTerm? names cities).length = 2 := ⟨rfl, rfl⟩

theorem exists_finishes_every : ∃ more, Finishes more matchPair? sources targets ∧
    run more matchPair? sources targets = every matchPair? sources targets := by
  let all := tries (events matchPair? sources targets .empty)
  refine ⟨all + 1, ?_, by rw [run_eq_firsts, upTo_eq_self (Nat.le_succ all), every]⟩
  rw [Finishes, search_eq_after, attempts_after, tries_upTo]
  dsimp only
  omega

end Whole

/-- A search that ends below its limit finds what it would find without it. -/
theorem run_of_finishes (finishes : Finishes limit matchPair? sources targets) :
    run limit matchPair? sources targets = every matchPair? sources targets := by
  rw [Finishes, search_eq_after, attempts_after, tries_upTo] at finishes
  rw [run_eq_firsts, upTo_eq_self (by dsimp only at finishes; omega), every]

end MatchingSearch

namespace Substitution

open MatchingSearch

variable {ts us us' : List Term} {s last : Substitution}

theorem length_of_matchTerms? (found : matchTerms? ts us s = some last) :
    ts.length = us.length := by
  induction ts generalizing us s with
  | nil =>
      cases us with
      | nil => rfl
      | cons => cases found
  | cons t ts ih =>
      cases us with
      | nil => cases found
      | cons u us =>
          obtain ⟨next, -, tail⟩ := Option.bind_eq_some_iff.mp found
          rw [List.length_cons, List.length_cons, ih tail]

theorem exists_permuted_of_pairs (pairs : Pairs matchTerm? ts us s last) :
    ∃ chosen rest, (chosen ++ rest).Perm us ∧ matchTerms? ts chosen s = some last := by
  induction pairs with
  | nil us s => exact ⟨[], us, .refl us, rfl⟩
  | @cons t ts u us others s next last choice head _ ih =>
      obtain ⟨chosen, rest, listed, tail⟩ := ih
      exact ⟨u :: chosen, rest, (listed.cons u).trans (perm_of_mem_choices choice),
        Option.bind_eq_some_iff.mpr ⟨next, head, tail⟩⟩

theorem pairs_of_permuted (sorted : us'.Perm us) (found : matchTerms? ts us' s = some last) :
    Pairs matchTerm? ts us s last := by
  induction ts generalizing us us' s with
  | nil =>
      cases us' with
      | nil =>
          obtain rfl := Option.some.inj found
          exact .nil us s
      | cons => cases found
  | cons t ts ih =>
      cases us' with
      | nil => cases found
      | cons u us' =>
          obtain ⟨next, head, tail⟩ := Option.bind_eq_some_iff.mp found
          obtain ⟨others, choice⟩ := exists_choice (sorted.subset List.mem_cons_self)
          have left : us'.Perm others := (sorted.trans (perm_of_mem_choices choice).symm).cons_inv
          exact .cons choice head (ih left tail)

/-- The matchings that `matchUnordered` would find without a limit. -/
def everyUnordered (ts us : List Term) : List Substitution :=
  if ts.length == us.length then every matchTerm? ts us else []

/-- The matchings that `matchBodies` would find without a limit. -/
def everyInBody (body into : List Instance) : List Substitution :=
  if body.isEmpty || into.length < body.length then []
  else every matchInstance? (trialOrder body) (trialOrder into)

/-- The matchings of a list of terms with the permutations of another one, each of them once. -/
structure MatchesPermutations (ts us : List Term) (found : List Substitution) : Prop where
  once : found.Pairwise fun s t => (s == t) = false
  sound : ∀ s ∈ found, ∃ us', us'.Perm us ∧ matchTerms? ts us' .empty = some s
  complete : ∀ us' s, us'.Perm us → matchTerms? ts us' .empty = some s → found.contains s = true

theorem everyUnordered_matchesPermutations (ts us : List Term) :
    MatchesPermutations ts us (everyUnordered ts us) := by
  unfold everyUnordered
  split
  · rename_i sizes
    obtain ⟨more, finishes, same⟩ := exists_finishes_every matchTerm? ts us
    rw [← same]
    refine ⟨pairwise_of_isMap (fun s found => ?_) (pairwise_run ts us), fun s found => ?_,
      fun us' s sorted found => ?_⟩
    · exact (proper_of_mem_run matchTerm?_exact found).isMap
    · obtain ⟨chosen, rest, listed, matched⟩ := exists_permuted_of_pairs (pairs_of_run found)
      have none_left : rest = [] := by
        have all := listed.length_eq
        rw [List.length_append, ← length_of_matchTerms? matched, eq_of_beq sizes] at all
        exact List.length_eq_zero_iff.mp (by omega)
      rw [none_left, List.append_nil] at listed
      exact ⟨chosen, listed, matched⟩
    · have pairs := pairs_of_permuted sorted found
      have isMap := (pairs.proper matchTerm?_exact proper_empty).isMap
      obtain ⟨t, listed, alike⟩ := has_of_pairs pairs finishes
      refine List.contains_iff_exists_mem_beq.mpr ⟨t, List.mem_reverse.mpr listed, ?_⟩
      rcases alike with rfl | alike
      · exact isMap.same_self
      · exact alike
  · rename_i sizes
    refine ⟨.nil, nofun, fun us' s sorted found => absurd ?_ sizes⟩
    rw [length_of_matchTerms? found, sorted.length_eq]
    exact BEq.rfl

/-- The limit of a search only cuts off what it finds: it gives the first matchings, and all of
them if it ends below the limit. Without the limit, a search for matchings of lists finds those
with the permutations of the second list. -/
theorem matchings_onlyCutOff (ts us : List Term) (body into : List Instance) :
    (Truncates searchLimit matchTerm? ts us ∧ matchUnordered ts us <+: everyUnordered ts us ∧
      (Finishes searchLimit matchTerm? ts us → matchUnordered ts us = everyUnordered ts us) ∧
      MatchesPermutations ts us (everyUnordered ts us)) ∧
    Truncates searchLimit matchInstance? (trialOrder body) (trialOrder into) ∧
      matchBodies body into <+: everyInBody body into ∧
      (Finishes searchLimit matchInstance? (trialOrder body) (trialOrder into) →
        matchBodies body into = everyInBody body into) := by
  have lists := run_truncates searchLimit matchTerm? ts us
  have bodies := run_truncates searchLimit matchInstance? (trialOrder body) (trialOrder into)
  refine ⟨⟨lists, ?_, fun finishes => ?_, everyUnordered_matchesPermutations ts us⟩, bodies, ?_,
    fun finishes => ?_⟩
  · unfold matchUnordered everyUnordered
    split
    · exact lists.begins
    · exact List.nil_prefix
  · rw [matchUnordered, everyUnordered, run_of_finishes finishes]
  · unfold matchBodies everyInBody
    split
    · exact List.nil_prefix
    · exact bodies.begins
  · rw [matchBodies, everyInBody, run_of_finishes finishes]

end Substitution

end RdfTemplates
