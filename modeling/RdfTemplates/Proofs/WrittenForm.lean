import RdfTemplates.Vocabulary
import Mathlib.Data.List.Basic

/-!
# Written forms

The label of a namespace ends at the first colon of a short form, and no other form
begins like one. So what an IRI is written as tells which IRI it is.
-/

namespace RdfTemplates

/-- Nothing follows, or what follows begins with a character at which a word stops. -/
def Ends (stop : Char → Bool) (rest : List Char) : Prop := ∀ c ∈ rest.head?, stop c = true

theorem ends_cons {stop : Char → Bool} {c : Char} {rest : List Char} :
    Ends stop (c :: rest) ↔ stop c = true := by
  simp [Ends]

theorem word_ends {stop : Char → Bool} {word word' rest rest' : List Char}
    (plain : ∀ c ∈ word, stop c = false) (plain' : ∀ c ∈ word', stop c = false)
    (ends : Ends stop rest) (ends' : Ends stop rest') (same : word ++ rest = word' ++ rest') :
    word = word' ∧ rest = rest' := by
  induction word generalizing word' with
  | nil =>
      cases word' with
      | nil => exact ⟨rfl, same⟩
      | cons c word' =>
          obtain rfl : rest = c :: (word' ++ rest') := same
          exact absurd (ends_cons.mp ends) (by simp [plain' c List.mem_cons_self])
  | cons c word ih =>
      cases word' with
      | nil =>
          obtain rfl : c :: (word ++ rest) = rest' := same
          exact absurd (ends_cons.mp ends') (by simp [plain c List.mem_cons_self])
      | cons c' word' =>
          obtain ⟨rfl, tails⟩ := List.cons.inj same
          obtain ⟨rfl, rests⟩ := ih (fun c hc => plain c (List.mem_cons_of_mem _ hc))
            (fun c hc => plain' c (List.mem_cons_of_mem _ hc)) tails
          exact ⟨rfl, rests⟩

/-- Two words that end at the same character end together. -/
theorem word_ends_at {c : Char} {word word' rest rest' : List Char} (plain : c ∉ word)
    (plain' : c ∉ word') (same : word ++ c :: rest = word' ++ c :: rest') :
    word = word' ∧ rest = rest' := by
  have others {word : List Char} (plain : c ∉ word) : ∀ d ∈ word, (d == c) = false :=
    fun d hd => beq_eq_false_iff_ne.mpr fun here => plain (here ▸ hd)
  obtain ⟨words, rests⟩ := word_ends (others plain) (others plain')
    (ends_cons.mpr (beq_self_eq_true c)) (ends_cons.mpr (beq_self_eq_true c)) same
  exact ⟨words, (List.cons.inj rests).2⟩

namespace Iri

theorem toList_of_localName? {space name : String} {iri : Iri}
    (short : localName? space iri = some name) :
    iri.toList = space.toList ++ name.toList := by
  unfold localName? at short
  split at short
  · rename_i starts
    obtain ⟨rest, split⟩ := List.isPrefixOf_iff_prefix.mp starts
    rw [← Option.some.inj short, ← split]
    simp
  · cases short

/-- An IRI is written with the label of a namespace that it begins with, or in full. -/
theorem compact_cases (iri : Iri) :
    (∃ label space name : String, (label, space) ∈ namespaces ∧
        iri.toList = space.toList ++ name.toList ∧
        iri.compact.toList = label.toList ++ ':' :: name.toList) ∨
      iri.compact.toList = '<' :: (iri.toList ++ ['>']) := by
  unfold compact
  split
  · rename_i short found
    obtain ⟨⟨label, space⟩, listed, here⟩ := List.exists_of_findSome?_eq_some found
    obtain ⟨name, starts, rfl⟩ := Option.map_eq_some_iff.mp here
    exact .inl ⟨label, space, name, listed, toList_of_localName? starts, by simp⟩
  · exact .inr (by simp)

theorem label_of_mem_namespaces {label space : String} (listed : (label, space) ∈ namespaces) :
    label.toList ≠ [] ∧ ':' ∉ label.toList ∧ '<' ∉ label.toList := by
  have all : ∀ pair ∈ namespaces,
      pair.1.toList ≠ [] ∧ ':' ∉ pair.1.toList ∧ '<' ∉ pair.1.toList := by decide
  exact all _ listed

theorem space_of_label {label space other : String} (listed : (label, space) ∈ namespaces)
    (listed' : (label, other) ∈ namespaces) : space = other := by
  have all : ∀ pair ∈ namespaces, ∀ pair' ∈ namespaces, pair.1 = pair'.1 → pair.2 = pair'.2 := by
    decide
  exact all _ listed _ listed' rfl

/-- A label in front of a colon is not the beginning of a form in full. -/
theorem short_ne_full {label space : String} {name rest : List Char}
    (listed : (label, space) ∈ namespaces) : label.toList ++ ':' :: name ≠ '<' :: rest := by
  obtain ⟨some_, -, plain⟩ := label_of_mem_namespaces listed
  intro same
  cases chars : label.toList with
  | nil => exact some_ chars
  | cons c cs =>
      rw [chars] at same plain
      exact plain (by rw [(List.cons.inj same).1]; exact List.mem_cons_self)

theorem compact_injective : Function.Injective compact := by
  intro i j same
  have forms : i.compact.toList = j.compact.toList := congrArg String.toList same
  rcases compact_cases i with ⟨label, space, name, listed, here, short⟩ | full <;>
    rcases compact_cases j with ⟨label', space', name', listed', there, short'⟩ | full'
  · rw [short, short'] at forms
    obtain ⟨labels, names⟩ := word_ends_at (label_of_mem_namespaces listed).2.1
      (label_of_mem_namespaces listed').2.1 forms
    obtain rfl := String.toList_injective labels
    obtain rfl := space_of_label listed listed'
    exact String.toList_injective (by rw [here, there, names])
  · rw [short, full'] at forms
    exact absurd forms (short_ne_full listed)
  · rw [full, short'] at forms
    exact absurd forms.symm (short_ne_full listed')
  · rw [full, full'] at forms
    exact String.toList_injective (List.append_cancel_right (List.cons.inj forms).2)

end Iri

end RdfTemplates
