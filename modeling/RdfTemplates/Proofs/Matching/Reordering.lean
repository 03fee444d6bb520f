import RdfTemplates.Proofs.Matching.Placements
import RdfTemplates.Proofs.WrittenForm.Instances
import Mathlib.Data.Prod.Lex
import Mathlib.Data.String.Basic

/-!
# The order of the bodies

A search does not see the types of variables, in the terms or in what is bound so far.
Before it begins, the instances are put in the order of their templates and written
forms. So where the written forms tell the instances of a body apart, the order in
which the bodies list their instances makes no difference: the same matchings are
found, in the same order, whether the search stops at the limit or not.
-/

namespace RdfTemplates

namespace Term

theorem untyped_untyped (t : Term) : t.untyped.untyped = t.untyped := by
  induction t with
  | iri | literal | none | blank | var => rfl
  | list items ih =>
      rw [untyped_list, untyped_list, List.map_map]
      exact congrArg Term.list (List.map_congr_left ih)

/-- Terms are compared without their types. -/
theorem untyped_beq_untyped (t u : Term) : (t.untyped == u.untyped) = (t == u) := by
  rw [Bool.eq_iff_iff, sameUnder_untyped, sameUnder_untyped, untyped_untyped, untyped_untyped]

/-- Types are not written. -/
theorem text_untyped (t : Term) : t.untyped.text = t.text := by
  induction t with
  | iri | literal | none | blank | var => rfl
  | list items ih =>
      rw [untyped_list, text, text, texts_eq_map, texts_eq_map, List.map_map]
      congr 3
      exact List.map_congr_left ih

end Term

namespace Instance

theorem text_untyped (i : Instance) : i.untyped.text = i.text := by
  have texts : i.untyped.arguments.arguments.map Argument.text =
      i.arguments.arguments.map Argument.text := by
    rw [untyped, ArgumentList.untyped, List.map_map]
    refine List.map_congr_left fun a _ => ?_
    simp [Argument.text, Argument.untyped, Term.text_untyped]
  have tuples : i.untyped.arguments.tupleText = i.arguments.tupleText := by
    rw [ArgumentList.tupleText, ArgumentList.tupleText, texts]
  unfold text
  rw [tuples]
  rfl

end Instance

namespace Substitution

variable {s t next : Substitution}

/-- The substitution with its types forgotten. -/
def untyped (s : Substitution) : Substitution :=
  ⟨s.bindings.map fun binding => (binding.1.untyped, binding.2.untyped)⟩

theorem get?_untyped (s : Substitution) (k : Term) :
    s.untyped.get? k.untyped = (s.get? k).map Term.untyped := by
  obtain ⟨bindings⟩ := s
  change List.lookup _ (bindings.map _) = (bindings.lookup k).map _
  induction bindings with
  | nil => rfl
  | cons binding rest ih =>
      rw [List.map_cons, List.lookup_cons, List.lookup_cons, Term.untyped_beq_untyped, ih]
      split <;> rfl

theorem untyped_same_untyped (s t : Substitution) : (s.untyped == t.untyped) = (s == t) := by
  have sizes : s.untyped.size = s.size ∧ t.untyped.size = t.size := by simp [untyped, size]
  change s.untyped.same t.untyped = s.same t
  rw [same, same, sizes.1, sizes.2, untyped, List.all_map]
  congr 1
  refine List.all_congr rfl fun binding => ?_
  simp only [Function.comp_apply, get?_untyped, Option.any_map, Term.untyped_beq_untyped]

/-- Binding does not look at types. -/
theorem bind?_untyped (s : Substitution) (key value : Term) :
    s.untyped.bind? key.untyped value.untyped = (s.bind? key value).map untyped := by
  unfold bind?
  rw [get?_untyped]
  cases bound : s.get? key with
  | some existing =>
      simp only [Option.map_some, Term.untyped_beq_untyped]
      split <;> rfl
  | none =>
      have unbound : s.untyped.get? key.untyped = none := by rw [get?_untyped, bound]; rfl
      simp only [Option.map_none, insert, contains, bound, unbound]
      rfl

theorem guard_untyped (s : Substitution) (t u : Term) :
    (if t.untyped == u.untyped then some s.untyped else none) =
      (if t == u then some s else none).map untyped := by
  rw [Term.untyped_beq_untyped]
  split <;> rfl

theorem matchTerms?_untyped {ts us : List Term}
    (each : ∀ t ∈ ts, ∀ u (s : Substitution),
      matchTerm? t.untyped u.untyped s.untyped = (matchTerm? t u s).map untyped)
    (s : Substitution) :
    matchTerms? (ts.map Term.untyped) (us.map Term.untyped) s.untyped =
      (matchTerms? ts us s).map untyped := by
  induction ts generalizing us s with
  | nil => cases us <;> rfl
  | cons t ts ih =>
      cases us with
      | nil => rfl
      | cons u us =>
          rw [List.map_cons, List.map_cons, matchTerms?, matchTerms?, each t List.mem_cons_self]
          cases matchTerm? t u s with
          | none => rfl
          | some next => exact ih (fun t ht => each t (List.mem_cons_of_mem _ ht)) next

/-- Nor does matching. -/
theorem matchTerm?_untyped (t u : Term) (s : Substitution) :
    matchTerm? t.untyped u.untyped s.untyped = (matchTerm? t u s).map untyped := by
  induction t generalizing u s with
  | iri i => exact s.guard_untyped (.iri i) u
  | literal l => exact s.guard_untyped (.literal l) u
  | none => exact s.guard_untyped .none u
  | var x => exact s.bind?_untyped (.var x) u
  | blank b =>
      cases u with
      | blank c => exact s.bind?_untyped (.blank b) (.blank c)
      | _ => rfl
  | list items ih =>
      cases u with
      | list us =>
          rw [Term.untyped_list, Term.untyped_list]
          exact matchTerms?_untyped ih s
      | _ => rfl

theorem matchEach?_untyped (as bs : List Argument) (s : Substitution) :
    matchEach? (as.map Argument.untyped) (bs.map Argument.untyped) s.untyped =
      (matchEach? as bs s).map untyped := by
  induction as generalizing bs s with
  | nil => cases bs <;> rfl
  | cons a as ih =>
      cases bs with
      | nil => rfl
      | cons b bs =>
          rw [List.map_cons, List.map_cons, matchEach?, matchEach?]
          change (if a.marked == b.marked then _ else _) = _
          split
          · rw [Argument.untyped, Argument.untyped, matchTerm?_untyped]
            cases matchTerm? a.term b.term s with
            | none => rfl
            | some next => exact ih bs next
          · rfl

theorem matchInstance?_untyped (i j : Instance) (s : Substitution) :
    matchInstance? i.untyped j.untyped s.untyped = (matchInstance? i j s).map untyped := by
  unfold matchInstance? matchArguments?
  change (if i.iri == j.iri then
    if i.arguments.expander == j.arguments.expander then _ else _ else _) = _
  split
  · split
    · exact matchEach?_untyped _ _ s
    · rfl
  · rfl

end Substitution

namespace MatchingSearch

open Substitution

variable {α β α' β' : Type} {f : α → α'} {g : β → β'}
  {matchPair? : α → β → Substitution → Option Substitution}
  {matchPair'? : α' → β' → Substitution → Option Substitution}

theorem choices_map (g : β → β') (targets : List β) :
    choices (targets.map g) = (choices targets).map (Prod.map g (List.map g)) := by
  induction targets with
  | nil => rfl
  | cons b rest ih => simp [choices, ih, Function.comp_def]

def Progress.untyped (p : Progress) : Progress := ⟨p.attempts, p.found.map Substitution.untyped⟩

theorem record_untyped (s : Substitution) (p : Progress) :
    record s.untyped p.untyped = (record s p).untyped := by
  have met : p.untyped.found.contains s.untyped = p.found.contains s := by
    simp [Progress.untyped, List.contains_eq_any_beq, Function.comp_def, untyped_same_untyped]
  unfold record
  rw [met]
  split <;> rfl

/-- By induction on the sources; each attempt goes on with the same things without types. -/
theorem search_untyped (limit : Nat)
    (each : ∀ a b s, matchPair'? (f a) (g b) s.untyped = (matchPair? a b s).map untyped)
    (sources : List α) (targets : List β) (s : Substitution) (p : Progress) :
    search limit matchPair'? (sources.map f) (targets.map g) s.untyped p.untyped =
      (search limit matchPair? sources targets s p).untyped := by
  induction sources generalizing targets s p with
  | nil => exact record_untyped s p
  | cons source sources ih =>
      rw [List.map_cons, search_cons, search_cons, choices_map, List.foldl_map]
      refine List.foldl_hom Progress.untyped fun p choice => ?_
      have tried := each source choice.1 s
      rcases attempt_cases (search limit matchPair? sources) source s p choice with
        ⟨spent, stopped⟩ | ⟨left, failed, counted⟩ | ⟨next, left, matched, onwards⟩
      · rw [stopped]
        exact attempt_of_spent spent
      · rw [failed] at tried
        rw [counted]
        exact attempt_of_none left tried
      · rw [matched] at tried
        rw [onwards, ← ih choice.2 next]
        exact attempt_of_some left tried

/-- Nor does a search, attempt by attempt. -/
theorem run_untyped (limit : Nat)
    (each : ∀ a b s, matchPair'? (f a) (g b) s.untyped = (matchPair? a b s).map untyped)
    (sources : List α) (targets : List β) :
    run limit matchPair'? (sources.map f) (targets.map g) =
      (run limit matchPair? sources targets).map untyped := by
  have same := search_untyped limit each sources targets .empty ⟨0, []⟩
  change (search _ _ _ _ empty.untyped (Progress.untyped ⟨0, []⟩)).found.reverse = _
  rw [same, run, List.map_reverse]
  rfl

end MatchingSearch

namespace Substitution

open MatchingSearch

variable {body body' into into' : List Instance}

/-- Instances are tried by their IRI first and by their text second. -/
theorem triedBefore_iff (i j : Instance × String) : triedBefore i j = true ↔
    toLex (i.1.iri, i.2) ≤ toLex (j.1.iri, j.2) := by
  simp [triedBefore, Prod.Lex.toLex_le_toLex]

theorem triedBefore_antisymm {i j : Instance × String} (there : triedBefore i j = true)
    (back : triedBefore j i = true) : i.1.iri = j.1.iri ∧ i.2 = j.2 := by
  rw [triedBefore_iff] at there back
  exact Prod.mk.inj (toLex_inj.mp (there.antisymm back))

theorem pairwise_trialOrder (body : List Instance) :
    (trialOrder body).Pairwise fun i j => triedBefore (i, i.text) (j, j.text) = true := by
  have written (pair) (h : pair ∈ stableSort triedBefore (body.map fun i => (i, i.text))) :
      pair = (pair.1, pair.1.text) := by
    obtain ⟨i, -, rfl⟩ := List.mem_map.mp (mem_stableSort.mp h)
    rfl
  have sorted := pairwise_stableSort_by triedBefore_iff (body.map fun i => (i, i.text))
  refine List.pairwise_map.mpr (sorted.imp_of_mem fun {i j} hi hj before => ?_)
  rwa [written i hi, written j hj] at before

/-- Instances of one template with the same written form are the same. -/
def ToldApart (body : List Instance) : Prop :=
  ∀ i ∈ body, ∀ j ∈ body, i.iri = j.iri → i.text = j.text → (i == j) = true

theorem toldApart_of_legible (legible : ∀ i ∈ body, i.isLegible = true) : ToldApart body :=
  fun i hi j hj => Instance.beq_of_text (legible i hi) (legible j hj)

/-- If no two instances read alike, the order of trial does not depend on the order they are given
in. -/
theorem untyped_trialOrder (told : ToldApart body) (sorted : body.Perm body') :
    (trialOrder body).map Instance.untyped = (trialOrder body').map Instance.untyped := by
  have inOrder (body : List Instance) : ((trialOrder body).map Instance.untyped).Pairwise
      fun i j => triedBefore (i, i.text) (j, j.text) = true := by
    refine List.pairwise_map.mpr ((pairwise_trialOrder body).imp fun {i j} before => ?_)
    rw [Instance.text_untyped, Instance.text_untyped]
    exact before
  have same : ((trialOrder body).map Instance.untyped).Perm
      ((trialOrder body').map Instance.untyped) :=
    ((trialOrder_perm body).trans (sorted.trans (trialOrder_perm body').symm)).map _
  refine same.eq_of_pairwise (fun i j hi hj there back => ?_) (inOrder body) (inOrder body')
  obtain ⟨i, listed, rfl⟩ := List.mem_map.mp hi
  obtain ⟨j, listed', rfl⟩ := List.mem_map.mp hj
  obtain ⟨iris, texts⟩ := triedBefore_antisymm there back
  rw [Instance.text_untyped, Instance.text_untyped] at texts
  have alike := told i (mem_trialOrder.mp listed) j
    (sorted.mem_iff.mpr (mem_trialOrder.mp listed')) iris texts
  exact (Instance.sameUnder_untyped i j).mp alike

/-- The search for a body depends on its order of trial only. -/
theorem untyped_matchBodies (body into : List Instance) :
    (matchBodies body into).map untyped = if body = [] ∨ into.length < body.length then []
      else run searchLimit matchInstance? ((trialOrder body).map Instance.untyped)
        ((trialOrder into).map Instance.untyped) := by
  rw [run_untyped searchLimit matchInstance?_untyped]
  unfold matchBodies
  simp only [Bool.or_eq_true, List.isEmpty_iff, decide_eq_true_eq]
  split <;> rfl

theorem trialOrder_untyped (body : List Instance) :
    trialOrder (body.map Instance.untyped) = (trialOrder body).map Instance.untyped := by
  have written : (body.map Instance.untyped).map (fun i => (i, i.text)) =
      (body.map fun i => (i, i.text)).map (Prod.map Instance.untyped id) := by
    simp [Function.comp_def, Instance.text_untyped]
  have same (i j : Instance × String) : triedBefore (i.map Instance.untyped id)
      (j.map Instance.untyped id) = triedBefore i j := rfl
  rw [trialOrder, trialOrder, written, stableSort_map same, List.map_map, List.map_map]
  rfl

/-- The types of the variables make no difference to what is found, also when the search stops
at the limit. -/
theorem untyped_matchBodies_congr (sources : (body == body') = true)
    (targets : (into == into') = true) :
    (matchBodies body into).map untyped = (matchBodies body' into').map untyped := by
  have sources := (Instance.sameUnder_untyped.list _ _).mp sources
  have targets := (Instance.sameUnder_untyped.list _ _).mp targets
  have sizes : body.length = body'.length := by simpa using congrArg List.length sources
  have sizes' : into.length = into'.length := by simpa using congrArg List.length targets
  rw [untyped_matchBodies, untyped_matchBodies, ← trialOrder_untyped, ← trialOrder_untyped,
    ← trialOrder_untyped, ← trialOrder_untyped, sources, targets, sizes, sizes']
  simp only [← List.length_eq_zero_iff, sizes]

theorem beq_of_untyped {found found' : List Substitution} (maps : ∀ s ∈ found, s.IsMap)
    (same : found.map untyped = found'.map untyped) : (found == found') = true := by
  induction found generalizing found' with
  | nil =>
      cases found' with
      | nil => rfl
      | cons => cases same
  | cons s found ih =>
      cases found' with
      | nil => cases same
      | cons t found' =>
          obtain ⟨first, rest⟩ := List.cons.inj same
          obtain ⟨here, there⟩ := List.forall_mem_cons.mp maps
          have alike : (s == t) = true := by
            rw [← untyped_same_untyped, ← first, untyped_same_untyped]
            exact here.same_self
          rw [List.cons_beq_cons, alike, ih there rest]
          rfl

/-- Where their written forms tell the instances apart, the matchings of two bodies are found in
the same order whatever order the bodies are listed in. -/
theorem matchBodies_anyOrder (sources : body.Perm body') (targets : into.Perm into')
    (told : ToldApart body) (told' : ToldApart into) :
    (matchBodies body into == matchBodies body' into') = true := by
  refine beq_of_untyped (fun s => isMap_of_mem_matchBodies) ?_
  have empty : body = [] ↔ body' = [] := by
    rw [← List.length_eq_zero_iff, ← List.length_eq_zero_iff, sources.length_eq]
  rw [untyped_matchBodies, untyped_matchBodies, untyped_trialOrder told sources,
    untyped_trialOrder told' targets]
  simp only [empty, sources.length_eq, targets.length_eq]

/-- A walk over two streets, and the streets of a town. -/
def walk : List Instance :=
  let street (a b : String) : Instance := .ofTerms "Street" [.var ⟨a, .top⟩, .var ⟨b, .top⟩]
  [street "first" "second", street "second" "third"]

/-- Three streets, with names in two languages and one that has a comma. -/
def town : List Instance :=
  let street (a b : Literal) : Instance := .ofTerms "Street" [.literal a, .literal b]
  [street (.plain "mill") (.tagged "église" "fr"), street (.tagged "église" "fr") (.plain "gate"),
    street (.tagged "église" "fr") (.plain "well, gate")]

/-- Both walks through the town come out in the same order when all streets are listed backwards. -/
theorem matchBodies_anyOrder_town :
    ToldApart walk ∧ ToldApart town ∧ (matchBodies walk town).length = 2 ∧
    (matchBodies walk town == matchBodies walk.reverse town.reverse) = true := by
  have told : ToldApart walk := toldApart_of_legible (by decide +kernel)
  have told' : ToldApart town := toldApart_of_legible (by decide +kernel)
  exact ⟨told, told', by decide +kernel, matchBodies_anyOrder (List.reverse_perm _).symm
    (List.reverse_perm _).symm told told'⟩

/-- An item of any kind. -/
def anyItem : List Instance := [.ofTerms "Item" [.var ⟨"x", .top⟩]]

/-- A list of two strings, and a list of one string that reads like it. -/
def readAlike : List Instance :=
  let item (words : List String) : Instance :=
    .ofTerms "Item" [.list (words.map fun word => .literal (.plain word))]
  [item ["x", "y"], item ["x\", \"y"]]

/-- The two items are found in the order in which they are given. -/
theorem not_matchBodies_anyOrder_readAlike :
    ¬ ∀ body body' into into' : List Instance, body.Perm body' → into.Perm into' →
      (matchBodies body into == matchBodies body' into') = true := by
  intro anyOrder
  have same := anyOrder anyItem anyItem readAlike readAlike.reverse (.refl _)
    (List.reverse_perm _).symm
  exact absurd same (by decide +kernel)

end Substitution

end RdfTemplates
