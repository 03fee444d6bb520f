import RdfTemplates.Substitution
import RdfTemplates.Term.Equality

/-!
# What a substitution binds

A substitution is known by what it binds each term to. An insertion changes
this for its key and for no other term.
-/

namespace RdfTemplates

namespace Substitution

/-- Keys that are the same find the same. -/
theorem lookup_congr (bindings : List (Term × Term)) {t u : Term} (h : (t == u) = true) :
    bindings.lookup t = bindings.lookup u := by
  induction bindings with
  | nil => rfl
  | cons binding rest ih =>
      obtain ⟨key, value⟩ := binding
      rw [List.lookup_cons, List.lookup_cons, BEq.congr_left h, ih]

/-- A substitution does not see the types of the variables in a key. -/
theorem get?_congr (s : Substitution) {t u : Term} (h : (t == u) = true) :
    s.get? t = s.get? u :=
  lookup_congr s.bindings h

theorem exists_mem_of_get? {s : Substitution} {k u : Term} (bound : s.get? k = some u) :
    ∃ key, (key, u) ∈ s.bindings ∧ (k == key) = true := by
  obtain ⟨bindings⟩ := s
  change bindings.lookup k = some u at bound
  induction bindings with
  | nil => cases bound
  | cons binding rest ih =>
      obtain ⟨key, value⟩ := binding
      rw [List.lookup_cons] at bound
      split at bound
      · rename_i same
        exact ⟨key, by rw [Option.some.inj bound]; exact List.mem_cons_self, same⟩
      · obtain ⟨key, listed, same⟩ := ih bound
        exact ⟨key, List.mem_cons_of_mem _ listed, same⟩

@[simp] theorem get?_empty (t : Term) : empty.get? t = none := rfl

theorem lookup_replace_of_ne (bindings : List (Term × Term)) {key t : Term} (value : Term)
    (h : (t == key) = false) : (replace key value bindings).lookup t = bindings.lookup t := by
  induction bindings with
  | nil => rfl
  | cons binding rest ih =>
      obtain ⟨k, v⟩ := binding
      rw [replace, List.map_cons, ← replace]
      by_cases same : (key == k) = true
      · have other : (t == k) = false := by rw [← BEq.congr_right same, h]
        simp [same, List.lookup_cons, other, ih]
      · simp [same, List.lookup_cons, ih]

theorem lookup_replace_self (bindings : List (Term × Term)) {key : Term} (value : Term)
    (h : (bindings.lookup key).isSome = true) :
    (replace key value bindings).lookup key = some value := by
  induction bindings with
  | nil => simp at h
  | cons binding rest ih =>
      obtain ⟨k, v⟩ := binding
      rw [replace, List.map_cons, ← replace]
      by_cases same : (key == k) = true
      · simp [same, List.lookup_cons]
      · have h : (rest.lookup key).isSome = true := by simpa [List.lookup_cons, same] using h
        simpa [same, List.lookup_cons] using ih h

/-- A new binding is found under its key, and others under theirs. -/
theorem get?_insert (s : Substitution) (key value t : Term) :
    (s.insert key value).get? t = if t == key then some value else s.get? t := by
  by_cases same : (t == key) = true
  · rw [if_pos same, get?_congr _ same]
    unfold insert contains
    split
    · rename_i bound
      exact lookup_replace_self s.bindings value bound
    · simp [get?]
  · have other : (t == key) = false := by simpa using same
    rw [if_neg same]
    unfold insert
    split
    · exact lookup_replace_of_ne s.bindings value other
    · simp [get?, List.lookup_cons, other]

end Substitution

end RdfTemplates
