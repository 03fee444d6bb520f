import RdfTemplates.Proofs.Filling
import Mathlib.Data.List.Induction

/-!
# The body of a made template

Giving types to the variables of a body and leaving out what it has twice makes
no difference to any valuation.
-/

namespace RdfTemplates

section Firsts

variable {α : Type} [BEq α]

theorem firsts_append (xs : List α) (x : α) :
    firsts (xs ++ [x]) = if (firsts xs).contains x then firsts xs else firsts xs ++ [x] := by
  unfold firsts
  rw [List.foldl_append]
  rfl

theorem mem_of_mem_firsts {xs : List α} {x : α} (h : x ∈ firsts xs) : x ∈ xs := by
  induction xs using List.reverseRecOn with
  | nil => exact h
  | append_singleton xs y ih =>
      rw [firsts_append] at h
      split at h
      · exact List.mem_append_left _ (ih h)
      · rcases List.mem_append.mp h with h | h
        · exact List.mem_append_left _ (ih h)
        · exact List.mem_append_right _ h

theorem exists_mem_firsts [EquivBEq α] {xs : List α} {x : α} (h : x ∈ xs) :
    ∃ y ∈ firsts xs, (y == x) = true := by
  induction xs using List.reverseRecOn with
  | nil => cases h
  | append_singleton xs z ih =>
      rw [firsts_append]
      rcases List.mem_append.mp h with h | h
      · obtain ⟨y, hy, same⟩ := ih h
        refine ⟨y, ?_, same⟩
        split
        · exact hy
        · exact List.mem_append_left _ hy
      · obtain rfl := List.mem_singleton.mp h
        split
        · rename_i met
          obtain ⟨y, hy, same⟩ := List.contains_iff_exists_mem_beq.mp met
          exact ⟨y, hy, BEq.symm same⟩
        · exact ⟨x, List.mem_append_right _ (List.mem_singleton.mpr rfl), BEq.rfl⟩

theorem pairwise_firsts [EquivBEq α] (xs : List α) :
    (firsts xs).Pairwise fun x y => (x == y) = false := by
  induction xs using List.reverseRecOn with
  | nil => exact .nil
  | append_singleton xs x ih =>
      rw [firsts_append]
      split
      · exact ih
      · rename_i new
        refine List.pairwise_append.mpr ⟨ih, List.pairwise_singleton _ x, fun y hy z hz => ?_⟩
        obtain rfl := List.mem_singleton.mp hz
        by_contra same
        exact new (List.contains_iff_exists_mem_beq.mpr ⟨y, hy, BEq.symm (by simpa using same)⟩)

theorem mem_firsts [LawfulBEq α] {xs : List α} {x : α} : x ∈ firsts xs ↔ x ∈ xs := by
  constructor
  · exact mem_of_mem_firsts
  · intro h
    obtain ⟨y, hy, same⟩ := exists_mem_firsts h
    obtain rfl := eq_of_beq same
    exact hy

theorem firsts_nodup [LawfulBEq α] (xs : List α) : (firsts xs).Nodup :=
  (pairwise_firsts xs).imp fun apart => by simpa using apart

theorem firsts_of_pairwise [PartialEquivBEq α] {xs : List α}
    (distinct : xs.Pairwise fun x y => (x == y) = false) : firsts xs = xs := by
  induction xs using List.reverseRecOn with
  | nil => rfl
  | append_singleton xs x ih =>
      obtain ⟨before, -, apart⟩ := List.pairwise_append.mp distinct
      have new : xs.contains x = false := by
        rw [Bool.eq_false_iff, Ne, List.contains_iff_exists_mem_beq]
        rintro ⟨y, hy, same⟩
        have differ := apart y hy x List.mem_cons_self
        rw [BEq.symm same] at differ
        cases differ
      rw [firsts_append, ih before, new]
      rfl

end Firsts

/-- Giving types to variables is a filling. -/
def Filling.typing (ps : ParameterList) : Filling :=
  ⟨fun x => match ps.labelled? x.label with
    | some p => p.term
    | none => .var x, id⟩

theorem Term.exists_retype_var (ps : ParameterList) (x : Variable) :
    ∃ y : Variable, (Term.var x).retype ps = .var y ∧ y.label = x.label := by
  cases found : ps.labelled? x.label with
  | none => exact ⟨x, by simp [Term.retype, found], rfl⟩
  | some p =>
      have same : p.label = x.label := by simpa using List.find?_some found
      exact ⟨p.var, by simp [Term.retype, found, Parameter.term], same⟩

theorem Term.retypeAll_eq_map (ps : ParameterList) (ts : List Term) :
    Term.retypeAll ps ts = ts.map (Term.retype ps) := by
  induction ts with
  | nil => rfl
  | cons t ts ih => rw [Term.retypeAll, ih, List.map_cons]

theorem Term.retype_eq_fill (ps : ParameterList) (t : Term) :
    t.retype ps = t.fill (.typing ps) := by
  induction t with
  | iri | literal | none | blank => rfl
  | var x =>
      unfold Term.retype Term.fill Filling.typing
      rfl
  | list items ih => simpa [Term.retype, Term.retypeAll_eq_map] using ih

theorem Term.untyped_retype (ps : ParameterList) (t : Term) :
    (t.retype ps).untyped = t.untyped := by
  induction t with
  | iri | literal | none | blank => rfl
  | var x =>
      obtain ⟨y, retyped, same⟩ := Term.exists_retype_var ps x
      rw [retyped, Term.untyped, Term.untyped, same]
  | list items ih =>
      simpa [Term.retype, Term.untyped, Term.retypeAll_eq_map, Term.untypedAll_eq_map] using ih

theorem Term.retype_retype (ps : ParameterList) (t : Term) :
    (t.retype ps).retype ps = t.retype ps := by
  induction t with
  | iri | literal | none | blank => rfl
  | var x =>
      cases found : ps.labelled? x.label with
      | none => simp [Term.retype, found]
      | some p =>
          have same : p.label = x.label := by simpa using List.find?_some found
          change p.var.label = x.label at same
          simp [Term.retype, found, Parameter.term, same]
  | list items ih => simpa [Term.retype, Term.retypeAll_eq_map] using ih

theorem Filling.typing_label {ps : ParameterList} {x y : Variable}
    (h : x ∈ ((typing ps).value y).vars) : x.label = y.label := by
  obtain ⟨z, retyped, same⟩ := Term.exists_retype_var ps y
  have value : (typing ps).value y = .var z := ((Term.var y).retype_eq_fill ps).symm.trans retyped
  rw [value] at h
  rw [List.mem_singleton.mp h, same]

namespace Template

variable {iri : Iri} {ps : ParameterList} {body : List Instance}

theorem mem_make {j : Instance} (h : j ∈ (make iri ps body).body) :
    ∃ k ∈ body, j = k.fill (.typing ps) := by
  obtain ⟨k, hk, rfl⟩ := List.mem_map.mp (mem_of_mem_firsts h)
  exact ⟨k, hk, Instance.mapTerms_congr k fun t _ => t.retype_eq_fill ps⟩

theorem iri_of_mem_make {j : Instance} (h : j ∈ (make iri ps body).body) :
    ∃ k ∈ body, k.iri = j.iri := by
  obtain ⟨k, hk, rfl⟩ := mem_make h
  exact ⟨k, hk, rfl⟩

theorem label_of_mem_make {j : Instance} (h : j ∈ (make iri ps body).body) {x : Variable}
    (hx : x ∈ j.vars) : ∃ k ∈ body, ∃ y ∈ k.vars, y.label = x.label := by
  obtain ⟨k, hk, rfl⟩ := mem_make h
  obtain ⟨y, hy, hx⟩ := Instance.mem_vars_fill hx
  exact ⟨k, hk, y, hy, (Filling.typing_label hx).symm⟩

theorem retype_same (ps : ParameterList) (i : Instance) :
    (i.mapTerms (Term.retype ps) == i) = true := by
  simp only [Instance.sameUnder_untyped _ _, Instance.untyped, ArgumentList.untyped,
    Instance.mapTerms, ArgumentList.mapTerms, List.map_map]
  congr 2
  refine List.map_congr_left fun a _ => ?_
  simp [Argument.untyped, Term.untyped_retype]

theorem mapTerms_retype_same (ps : ParameterList) (body : List Instance) :
    (body.map (·.mapTerms (Term.retype ps)) == body) = true := by
  rw [Instance.sameUnder_untyped.list _ _, List.map_map]
  exact List.map_congr_left fun i _ => (Instance.sameUnder_untyped _ _).mp (retype_same ps i)

/-- What has no instance twice is only given types. -/
theorem body_make (iri : Iri) (ps : ParameterList)
    (distinct : body.Pairwise fun i j => (i == j) = false) :
    (make iri ps body).body = body.map (·.mapTerms (Term.retype ps)) := by
  refine firsts_of_pairwise ((List.pairwise_map).mpr (distinct.imp fun {i j} apart => ?_))
  rw [BEq.congr_left (retype_same ps i), BEq.congr_right (retype_same ps j)]
  exact apart

theorem retype_of_mem_make {i : Instance} (h : i ∈ (make iri ps body).body) :
    i.mapTerms (Term.retype ps) = i := by
  obtain ⟨k, -, rfl⟩ := List.mem_map.mp (mem_of_mem_firsts h)
  simp only [Instance.mapTerms, ArgumentList.mapTerms, List.map_map]
  congr 2
  refine List.map_congr_left fun a _ => ?_
  simp [Term.retype_retype]

/-- A body of a template made is not changed by making a template of it, in whatever order it is
given. -/
theorem make_of_perm {js : List Instance} (same : js.Perm (make iri ps body).body) :
    make iri ps js = ⟨iri, ps, js⟩ := by
  have distinct : js.Pairwise fun i j => (i == j) = false := by
    refine (same.pairwise_iff fun {i j} apart => ?_).mpr (pairwise_firsts _)
    rwa [BEq.comm]
  have typed : js.map (·.mapTerms (Term.retype ps)) = js :=
    (List.map_congr_left fun i hi => retype_of_mem_make (same.subset hi)).trans (List.map_id js)
  have body := body_make iri ps distinct
  rw [typed] at body
  exact congrArg (Template.mk iri ps) body

/-- A template made is not changed by making it again. -/
theorem make_body_make (iri : Iri) (ps : ParameterList) (body : List Instance) :
    make iri ps (make iri ps body).body = make iri ps body :=
  make_of_perm (.refl _)

/-- An instance of the body given is the same as one of the template made, and back. -/
theorem exists_same_of_mem_make {j : Instance} (h : j ∈ (make iri ps body).body) :
    ∃ k ∈ body, (j == k) = true := by
  obtain ⟨k, hk, rfl⟩ := List.mem_map.mp (mem_of_mem_firsts h)
  exact ⟨k, hk, retype_same ps k⟩

theorem exists_mem_make {k : Instance} (h : k ∈ body) :
    ∃ j ∈ (make iri ps body).body, (j == k) = true := by
  have listed : k.mapTerms (Term.retype ps) ∈ body.map (·.mapTerms (Term.retype ps)) :=
    List.mem_map_of_mem h
  obtain ⟨j, hj, same⟩ := exists_mem_firsts listed
  exact ⟨j, hj, BEq.trans same (retype_same ps k)⟩

theorem fill_make (iri : Iri) (ps : ParameterList) (body : List Instance) (P : Instance → Prop)
    (v : Valuation) :
    (∀ j ∈ (make iri ps body).body, P (j.fill v.filling)) ↔ ∀ j ∈ body, P (j.fill v.filling) := by
  constructor
  · intro all k hk
    obtain ⟨j, hj, same⟩ := exists_mem_make hk
    rw [← Instance.fill_same v same]
    exact all j hj
  · intro all j hj
    obtain ⟨k, hk, same⟩ := exists_same_of_mem_make hj
    rw [Instance.fill_same v same]
    exact all k hk

end Template

end RdfTemplates
