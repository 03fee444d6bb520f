import RdfTemplates.Proofs.Matching.Search
import RdfTemplates.Proofs.Matching.Merging

/-!
# Matching bodies

A substitution places a body in another one when it turns each instance of the first
into one of the second, different ones into ones at different positions. A search that
is not cut off finds exactly the substitutions that place the body and bind just its
variables and blank nodes, each of them once. The order in which the search takes the
instances makes no difference, for positions go along with a reordering.
-/

namespace RdfTemplates

section Assigned

variable {α β : Type} {R : α → β → Prop} {xs xs' : List α} {ys ys' : List β}

/-- Each element of the first list has one of its own in the second. -/
def Assigned (R : α → β → Prop) (xs : List α) (ys : List β) : Prop :=
  ∃ chosen rest, (chosen ++ rest).Perm ys ∧ List.Forall₂ R xs chosen

theorem Assigned.perm (assigned : Assigned R xs ys) (sources : xs.Perm xs')
    (targets : ys.Perm ys') : Assigned R xs' ys' := by
  obtain ⟨chosen, rest, listed, taken⟩ := assigned
  obtain ⟨chosen', taken', sorted⟩ := List.perm_comp_forall₂ sources.symm taken
  exact ⟨chosen', rest, ((sorted.append_right rest).trans listed).trans targets, taken'⟩

theorem assigned_iff_exists_place : Assigned R xs ys ↔
    ∃ place : Fin xs.length → Fin ys.length, place.Injective ∧ ∀ i, R xs[i] ys[place i] := by
  classical
  constructor
  · rintro ⟨chosen, rest, listed, taken⟩
    have within : chosen.Subperm ys :=
      (List.sublist_append_left chosen rest).subperm.trans listed.subperm
    have sizes := taken.length_eq
    refine ⟨fun i => within.idxInj (i.cast sizes), fun i j same => ?_, fun i => ?_⟩
    · have positions := Fin.ext_iff.mp (within.idxInj_injective same)
      exact Fin.ext positions
    · have here := within.getElem_idxInj_eq_getElem (i := i.cast sizes)
      rw [Fin.getElem_fin, Fin.getElem_fin, here]
      exact (List.forall₂_iff_get.mp taken).2 i i.isLt (sizes ▸ i.isLt)
  · rintro ⟨place, injective, turns⟩
    have positions : ((List.finRange xs.length).map place).Subperm (List.finRange ys.length) :=
      List.subperm_of_subset ((List.nodup_finRange _).map injective) fun _ _ => List.mem_finRange _
    obtain ⟨l, sorted, sub⟩ := positions
    obtain ⟨rest, listed⟩ := (sub.map fun j => ys[j]).exists_perm_append
    refine ⟨((List.finRange xs.length).map place).map fun j => ys[j], rest, ?_, ?_⟩
    · have all : ((List.finRange ys.length).map fun j => ys[j]) = ys := List.map_getElem_finRange ys
      rw [all] at listed
      exact ((sorted.symm.map _).append_right rest).trans listed.symm
    · rw [List.map_map, List.forall₂_iff_get]
      refine ⟨by simp, fun i h _ => ?_⟩
      simpa using turns ⟨i, h⟩

end Assigned

namespace Substitution

open MatchingSearch

variable {s t last : Substitution} {body into : List Instance} {i j : Instance} {k : Term}
  {limit : Nat}

/-- Every instance is turned into one of the same form at a position of its own. -/
structure Places (s : Substitution) (body into : List Instance)
    (place : Fin body.length → Fin into.length) : Prop where
  injective : place.Injective
  iris : ∀ i, body[i].iri = into[place i].iri
  expanders : ∀ i, body[i].arguments.expander = into[place i].arguments.expander
  marks : ∀ i, body[i].arguments.arguments.map (·.marked) =
    into[place i].arguments.arguments.map (·.marked)
  turns : ∀ i, (s.applyInstance body[i] == into[place i]) = true

/-- The substitution binds the names of the body, blank nodes to blank nodes, and places the body
in the other one. -/
structure Embeds (s : Substitution) (body into : List Instance) : Prop where
  keys : ∀ k, s.contains k = (body.flatMap Instance.names).contains k
  blanks : ∀ b u, s.get? (.blank b) = some u → ∃ c, u = .blank c
  places : ∃ place, s.Places body into place

theorem untyped_mapTerms_congr {f g : Term → Term} (i : Instance)
    (same : ∀ t, (f t).untyped = (g t).untyped) :
    (i.mapTerms f).untyped = (i.mapTerms g).untyped := by
  simp only [Instance.untyped_eq_mapTerms, Instance.mapTerms_mapTerms, same]

theorem Keyed.fill_beq_instance (keyed : s.Keyed) :
    (i.fill s.rewriting.filling == j) = true ↔ (s.applyInstance i == j) = true := by
  rw [Instance.sameUnder_untyped, Instance.sameUnder_untyped, Instance.fill,
    untyped_mapTerms_congr i keyed.untyped_fill, applyInstance]

/-- Turned instances have the template, the expander and the marks that they had. -/
theorem places_of_turns {place : Fin body.length → Fin into.length} (injective : place.Injective)
    (turns : ∀ i, (s.applyInstance body[i] == into[place i]) = true) :
    s.Places body into place := by
  have parts (i) := Bool.and_eq_true_iff.mp (turns i)
  refine ⟨injective, fun i => eq_of_beq (parts i).1,
    fun i => eq_of_beq (Bool.and_eq_true_iff.mp (parts i).2).2, fun i => ?_, turns⟩
  have same := (Argument.sameUnder_untyped.list _ _).mp (Bool.and_eq_true_iff.mp (parts i).2).1
  simpa [applyInstance, Instance.mapTerms, ArgumentList.mapTerms, Argument.untyped,
    Function.comp_def] using congrArg (List.map (·.marked)) same

theorem Embeds.keyed (embeds : s.Embeds body into) : s.Keyed := by
  refine ⟨fun k u bound => ?_, embeds.blanks⟩
  have key : s.contains k = true := by rw [contains, bound]; rfl
  rw [embeds.keys, List.contains_iff_exists_mem_beq] at key
  obtain ⟨name, listed, same⟩ := key
  obtain ⟨i, -, listed⟩ := List.mem_flatMap.mp listed
  obtain ⟨t, -, listed⟩ := List.mem_flatMap.mp listed
  exact Term.isVar_or_isBlank_of_same same (Term.isVar_or_isBlank_of_mem_names listed)

theorem contains_of_pairs {is js : List Instance} (pairs : Pairs matchInstance? is js s last) :
    last.contains k = ((is.flatMap Instance.names).contains k || s.contains k) := by
  induction pairs with
  | nil => rfl
  | cons choice head _ ih =>
      rw [ih, contains_of_matchInstance? head, List.flatMap_cons, List.contains_append,
        Bool.or_left_comm, Bool.or_assoc]

theorem embeds_of_mem_matchBodies (found : s ∈ matchBodies body into) : s.Embeds body into := by
  have proper := proper_of_mem_matchBodies found
  have keyed := proper.keyed
  have searched := (mem_matchBodies.mp found).2
  refine ⟨fun k => ?_, keyed.blanks, ?_⟩
  · rw [contains_of_pairs (pairs_of_run searched), show empty.contains k = false from rfl,
      Bool.or_false]
    exact contains_congr (fun name => by simp only [List.mem_flatMap, mem_trialOrder]) k
  · obtain ⟨chosen, rest, listed, taken⟩ :=
      exists_chosen matchInstance?_exact searched proper.holdsOf_rewriting
    have assigned : Assigned (fun i j => (s.applyInstance i == j) = true) (trialOrder body)
        (trialOrder into) :=
      ⟨chosen, rest, listed, taken.imp fun _ _ => keyed.fill_beq_instance.mp⟩
    obtain ⟨place, injective, turns⟩ := assigned_iff_exists_place.mp
      (assigned.perm (trialOrder_perm body) (trialOrder_perm into))
    exact ⟨place, places_of_turns injective turns⟩

/-- A map that embeds the body is among those found: what is found for the valuation that it
gives rise to has the same keys, and binds them to what the map makes of them. -/
theorem exists_mem_of_embeds (some_ : body ≠ []) (sizes : body.length ≤ into.length)
    (uncut : Uncut searchLimit matchInstance? (trialOrder body) (trialOrder into))
    (isMap : s.IsMap) (embeds : s.Embeds body into) :
    ∃ t ∈ matchBodies body into, (s == t) = true := by
  have keyed := embeds.keyed
  obtain ⟨more, finishes, same⟩ := uncut.exists_finishes
  obtain ⟨place, places⟩ := embeds.places
  have assigned : Assigned (fun i j => (i.fill s.rewriting.filling == j) = true) body into :=
    assigned_iff_exists_place.mpr
      ⟨place, places.injective, fun i => keyed.fill_beq_instance.mpr (places.turns i)⟩
  obtain ⟨chosen, rest, listed, taken⟩ :=
    assigned.perm (trialOrder_perm body).symm (trialOrder_perm into).symm
  obtain ⟨t, searched, holds⟩ := exists_mem_run matchInstance?_exact finishes taken listed
  have found : t ∈ matchBodies body into := mem_matchBodies.mpr ⟨⟨some_, sizes⟩, same ▸ searched⟩
  have keys (k) : s.contains k = t.contains k := by
    rw [embeds.keys, (embeds_of_mem_matchBodies found).keys]
  have alike {k u w : Term} (bound : s.get? k = some u) (there : t.get? k = some w) :
      (u == w) = true := by
    have made := keyed.fill_beq.mp (holds.get? there)
    rwa [apply_of_bound bound] at made
  refine ⟨t, found, (isMap.same_iff (proper_of_mem_matchBodies found).isMap).mpr
    ⟨fun k u bound => ?_, fun k w there => ?_⟩⟩
  · have key : t.contains k = true := by rw [← keys, contains, bound]; rfl
    obtain ⟨w, there⟩ := Option.isSome_iff_exists.mp key
    exact ⟨w, there, alike bound there⟩
  · have key : s.contains k = true := by rw [keys, contains, there]; rfl
    obtain ⟨u, bound⟩ := Option.isSome_iff_exists.mp key
    exact ⟨u, bound, BEq.symm (alike bound there)⟩

theorem Embeds.of_same (isMap : s.IsMap) (isMap' : t.IsMap) (same : (s == t) = true)
    (embeds : t.Embeds body into) : s.Embeds body into := by
  obtain ⟨there, back⟩ := (isMap.same_iff isMap').mp same
  constructor
  case keys =>
    intro k
    rw [← embeds.keys, Bool.eq_iff_iff]
    exact ⟨there.contains, back.contains⟩
  case blanks =>
    intro b u bound
    obtain ⟨w, found, near⟩ := there _ u bound
    obtain ⟨c, rfl⟩ := embeds.blanks b w found
    exact ⟨c, Freshening.beq_blank.mp near⟩
  case places =>
    obtain ⟨place, places⟩ := embeds.places
    refine ⟨place, places_of_turns places.injective fun i => ?_⟩
    rw [Instance.sameUnder_untyped, applyInstance,
      untyped_mapTerms_congr _ (untyped_apply_of_within there back)]
    exact (Instance.sameUnder_untyped _ _).mp (places.turns i)

theorem isMap_of_mem_matchBodies (found : s ∈ matchBodies body into) : s.IsMap :=
  (proper_of_mem_matchBodies found).isMap

theorem pairwise_matchBodies (body into : List Instance) :
    (matchBodies body into).Pairwise fun s t => (s == t) = false := by
  have once : (matchBodies body into).Pairwise fun s t => (t == s) = false := by
    unfold matchBodies
    split
    · exact .nil
    · exact pairwise_run _ _
  exact pairwise_of_isMap (fun s => isMap_of_mem_matchBodies) once

/-- A search for a body that does not stop at the limit finds the maps that embed the body in the
other one, each of them once, and nothing else. -/
theorem matchBodies_exactly (some_ : body ≠ []) (sizes : body.length ≤ into.length)
    (uncut : Uncut searchLimit matchInstance? (trialOrder body) (trialOrder into)) :
    (matchBodies body into).Pairwise (fun s t => (s == t) = false) ∧
    (∀ s ∈ matchBodies body into, s.IsMap) ∧
    ∀ s : Substitution, s.IsMap →
      ((matchBodies body into).contains s = true ↔ s.Embeds body into) := by
  refine ⟨pairwise_matchBodies body into, fun s => isMap_of_mem_matchBodies, fun s isMap => ?_⟩
  rw [List.contains_iff_exists_mem_beq]
  constructor
  · rintro ⟨t, found, same⟩
    exact .of_same isMap (isMap_of_mem_matchBodies found) same (embeds_of_mem_matchBodies found)
  · exact exists_mem_of_embeds some_ sizes uncut isMap

/-- A path of two steps on one way. -/
def twoSteps : List Instance :=
  let step (a b : String) : Instance :=
    .ofTerms "Step" [.var ⟨a, .top⟩, .list [.var ⟨b, .top⟩, .blank "way"]]
  [step "middle" "end", step "start" "middle"]

/-- Three sides, of which two are the same way. -/
def triangle : List Instance :=
  let side (a b way : String) : Instance := .ofTerms "Step" [.iri a, .list [.iri b, .blank way]]
  [side "A" "B" "path", side "B" "C" "path", side "C" "A" "road", .ofTerms "Named" [.blank "path"]]

/-- Takes the two steps along the path. -/
def alongPath : Substitution :=
  ⟨[(.var ⟨"start", .top⟩, .iri "A"), (.var ⟨"middle", .top⟩, .iri "B"),
    (.var ⟨"end", .top⟩, .iri "C"), (.blank "way", .blank "path")]⟩

/-- There is one way to walk two steps, along the path. -/
theorem matchBodies_exactly_triangle :
    twoSteps ≠ [] ∧ twoSteps.length ≤ triangle.length ∧
    Uncut searchLimit matchInstance? (trialOrder twoSteps) (trialOrder triangle) ∧
    alongPath.IsMap ∧ (matchBodies twoSteps triangle).contains alongPath = true ∧
    (matchBodies twoSteps triangle).length = 1 ∧ alongPath.Embeds twoSteps triangle := by
  have uncut : Uncut searchLimit matchInstance? (trialOrder twoSteps) (trialOrder triangle) :=
    Finishes.uncut (by decide +kernel)
  have isMap : alongPath.IsMap := by simp [IsMap, alongPath, Term.untyped]
  have found : (matchBodies twoSteps triangle).contains alongPath = true := by decide +kernel
  obtain ⟨-, -, exactly⟩ := matchBodies_exactly (by simp [twoSteps]) (by decide) uncut
  exact ⟨by simp [twoSteps], by decide, uncut, isMap, found, by decide +kernel,
    (exactly alongPath isMap).mp found⟩

end Substitution

end RdfTemplates
