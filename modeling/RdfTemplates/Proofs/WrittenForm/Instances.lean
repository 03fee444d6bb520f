import RdfTemplates.Proofs.Filling
import RdfTemplates.Proofs.WrittenForm

/-!
# The written form of an instance

Nothing is escaped in a written form, so a word that holds a quote, a comma or a
closing bracket may read as more than one. Where no word holds a character that ends
it, a term can be told from what is written at the front of any text, and an instance
from its template and its written form.
-/

namespace RdfTemplates

/-- The characters at which an element of a list stops. -/
def endsItem (c : Char) : Bool := c == ',' || c == ')'

/-- Whether no element of a list stops inside the word. -/
def isUnbroken (word : String) : Bool := word.toList.all fun c => !endsItem c

theorem isUnbroken_iff {word : String} :
    isUnbroken word = true ↔ ∀ c ∈ word.toList, endsItem c = false := by
  simp [isUnbroken]

theorem ne_of_ends {c : Char} {rest others : List Char} (inside : endsItem c = false)
    (ends : Ends endsItem rest) : rest ≠ c :: others := by
  rintro rfl
  simp [ends_cons, inside] at ends

/-- What is written for two elements tells their values apart, whatever is written after them. -/
def TellsApart {α β : Type} (write : α → String) (value : α → β) (a b : α) : Prop :=
  ∀ rest rest', Ends endsItem rest → Ends endsItem rest' →
    (write a).toList ++ rest = (write b).toList ++ rest' → value a = value b ∧ rest = rest'

theorem unbroken_tellsApart {lead word word' : String} (unbroken : isUnbroken word = true)
    (unbroken' : isUnbroken word' = true) : TellsApart (lead ++ ·) id word word' := by
  intro rest rest' ends ends' same
  simp only [String.toList_append, List.append_assoc] at same
  obtain ⟨words, rests⟩ := word_ends (isUnbroken_iff.mp unbroken) (isUnbroken_iff.mp unbroken')
    ends ends' (List.append_cancel_left same)
  exact ⟨String.toList_injective words, rests⟩

namespace Iri

/-- Whether nothing in the written form of the IRI looks like its end. -/
def isLegible (iri : Iri) : Bool :=
  !iri.toList.contains '>' && (iri.compact.toList.head? == some '<' || isUnbroken iri.compact)

theorem isLegible_iff {iri : Iri} : iri.isLegible = true ↔
    '>' ∉ iri.toList ∧ (iri.compact.toList.head? = some '<' ∨ isUnbroken iri.compact = true) := by
  simp [isLegible]

/-- The characters that the written form of an IRI may begin with. -/
def initials : List Char := ['<', 'o', 'r', 'x']

theorem compact_begins (iri : Iri) :
    ∃ c rest, iri.compact.toList = c :: rest ∧ c ∈ initials := by
  rcases compact_cases iri with ⟨label, space, name, listed, -, short⟩ | full
  · have all : ∀ pair ∈ namespaces, ∃ c ∈ initials, pair.1.toList.head? = some c := by
      simp [namespaces, initials]
    obtain ⟨c, known, first⟩ := all _ listed
    obtain ⟨rest, chars⟩ := List.head?_eq_some_iff.mp first
    exact ⟨c, rest ++ ':' :: name.toList, by rw [short, chars]; rfl, known⟩
  · exact ⟨'<', iri.toList ++ ['>'], full, List.mem_cons_self⟩

theorem unbroken_of_short {iri : Iri} {label space : String} {name : List Char}
    (legible : iri.isLegible = true) (listed : (label, space) ∈ namespaces)
    (short : iri.compact.toList = label.toList ++ ':' :: name) :
    ∀ c ∈ iri.compact.toList, endsItem c = false := by
  rcases (isLegible_iff.mp legible).2 with full | unbroken
  · obtain ⟨rest, chars⟩ := List.head?_eq_some_iff.mp full
    exact absurd (short.symm.trans chars) (short_ne_full listed)
  · exact isUnbroken_iff.mp unbroken

theorem tellsApart {i j : Iri} (legible : i.isLegible = true) (legible' : j.isLegible = true) :
    TellsApart compact id i j := by
  intro rest rest' ends ends' same
  rcases compact_cases i with ⟨label, space, name, listed, -, short⟩ | full <;>
    rcases compact_cases j with ⟨label', space', name', listed', -, short'⟩ | full'
  · obtain ⟨words, rests⟩ := word_ends (unbroken_of_short legible listed short)
      (unbroken_of_short legible' listed' short') ends ends' same
    exact ⟨compact_injective (String.toList_injective words), rests⟩
  · rw [short, full', List.append_assoc] at same
    exact absurd same (short_ne_full listed)
  · rw [full, short', List.append_assoc] at same
    exact absurd same.symm (short_ne_full listed')
  · rw [full, full'] at same
    simp only [List.cons_append, List.append_assoc, List.nil_append] at same
    obtain ⟨words, rests⟩ := word_ends_at (isLegible_iff.mp legible).1 (isLegible_iff.mp legible').1
      (List.cons.inj same).2
    exact ⟨String.toList_injective words, rests⟩

end Iri

namespace Literal

/-- Whether nothing in the written form of the literal looks like its end, and a language tag
tells the datatype. -/
def isLegible (l : Literal) : Bool :=
  !l.lexical.toList.contains '"' &&
    match l.language with
    | some tag => isUnbroken tag && l.datatype == Iri.rdfLangString
    | none => l.datatype.isLegible

/-- What is written after the closing quote. -/
def suffix (l : Literal) : String :=
  match l.language with
  | some tag => "@" ++ tag
  | none => if l.datatype == Iri.xsdString then "" else "^^" ++ l.datatype.compact

theorem toList_text (l : Literal) :
    l.text.toList = '"' :: (l.lexical.toList ++ '"' :: l.suffix.toList) := by
  unfold text suffix
  cases l.language with
  | some tag => simp
  | none => dsimp only; split <;> simp

theorem suffix_cases {l : Literal} (legible : l.isLegible = true) :
    (∃ tag, l.language = some tag ∧ l.datatype = Iri.rdfLangString ∧
        isUnbroken tag = true ∧ l.suffix.toList = '@' :: tag.toList) ∨
      (l.language = none ∧ l.datatype = Iri.xsdString ∧ l.suffix.toList = []) ∨
      l.language = none ∧ l.datatype.isLegible = true ∧
        l.suffix.toList = '^' :: '^' :: l.datatype.compact.toList := by
  unfold isLegible at legible
  unfold suffix
  cases tagged : l.language with
  | some tag =>
      simp only [tagged, Bool.and_eq_true, beq_iff_eq] at legible
      exact .inl ⟨tag, rfl, legible.2.2, legible.2.1, by simp⟩
  | none =>
      simp only [tagged, Bool.and_eq_true] at legible
      by_cases string : l.datatype = Iri.xsdString
      · exact .inr (.inl ⟨rfl, string, by simp [string]⟩)
      · exact .inr (.inr ⟨rfl, legible.2, by simp [string]⟩)

theorem suffix_tellsApart {l k : Literal} (legible : l.isLegible = true)
    (legible' : k.isLegible = true) :
    TellsApart suffix (fun l => (l.language, l.datatype)) l k := by
  intro rest rest' ends ends' same
  rcases suffix_cases legible with ⟨tag, tagged, type, unbroken, here⟩ | ⟨bare, type, here⟩ |
      ⟨bare, type, here⟩ <;>
    rcases suffix_cases legible' with ⟨tag', tagged', type', unbroken', here'⟩ |
      ⟨bare', type', here'⟩ | ⟨bare', type', here'⟩ <;>
    rw [here, here'] at same
  · obtain ⟨words, rests⟩ := word_ends (isUnbroken_iff.mp unbroken) (isUnbroken_iff.mp unbroken')
      ends ends' (List.cons.inj same).2
    exact ⟨by simp [tagged, tagged', type, type', String.toList_injective words], rests⟩
  · exact absurd same.symm (ne_of_ends (c := '@') rfl ends')
  · cases same
  · exact absurd same (ne_of_ends (c := '@') rfl ends)
  · exact ⟨by simp [bare, bare', type, type'], same⟩
  · exact absurd same (ne_of_ends (c := '^') rfl ends)
  · cases same
  · exact absurd same.symm (ne_of_ends (c := '^') rfl ends')
  · obtain ⟨types, rests⟩ := Iri.tellsApart type type' rest rest' ends ends'
      (List.cons.inj (List.cons.inj same).2).2
    exact ⟨by simpa [bare, bare'] using types, rests⟩

theorem tellsApart {l k : Literal} (legible : l.isLegible = true) (legible' : k.isLegible = true) :
    TellsApart text id l k := by
  intro rest rest' ends ends' same
  have closed {l : Literal} (legible : l.isLegible = true) : '"' ∉ l.lexical.toList := by
    simp only [isLegible, Bool.and_eq_true] at legible
    simpa using legible.1
  rw [toList_text, toList_text] at same
  simp only [List.cons_append, List.append_assoc] at same
  obtain ⟨words, suffixes⟩ := word_ends_at (closed legible) (closed legible') (List.cons.inj same).2
  obtain ⟨fields, rests⟩ := suffix_tellsApart legible legible' rest rest' ends ends' suffixes
  obtain ⟨languages, types⟩ := Prod.mk.inj fields
  have lexicals : l.lexical = k.lexical := String.toList_injective words
  cases l; cases k
  cases lexicals; cases languages; cases types
  exact ⟨rfl, rests⟩

end Literal

/-- What is written after an element of a list: the other elements and the closing bracket. -/
def following : List String → List Char
  | [] => [')']
  | word :: words => ',' :: ' ' :: (word.toList ++ following words)

theorem toList_intercalate_append (word : String) (words : List String) :
    (", ".intercalate (word :: words)).toList ++ [')'] = word.toList ++ following words := by
  induction words generalizing word with
  | nil => simp [following]
  | cons next words ih =>
      rw [String.intercalate_cons_cons, String.toList_append, List.append_assoc, ih]
      simp [following]

theorem following_cons (word : String) (words : List String) :
    following (word :: words) =
      ',' :: ' ' :: ((", ".intercalate (word :: words)).toList ++ [')']) := by
  rw [toList_intercalate_append, following]

theorem ends_following (words : List String) (rest : List Char) :
    Ends endsItem (following words ++ rest) := by
  cases words <;> exact ends_cons.mpr (by decide)

section

variable {α β : Type} {write : α → String} {value : α → β} {as bs : List α} {rest rest' : List Char}

theorem map_eq_of_following (apart : ∀ a ∈ as, ∀ b ∈ bs, TellsApart write value a b)
    (same : following (as.map write) ++ rest = following (bs.map write) ++ rest') :
    as.map value = bs.map value ∧ rest = rest' := by
  induction as generalizing bs with
  | nil =>
      cases bs with
      | nil => exact ⟨rfl, (List.cons.inj same).2⟩
      | cons b bs => cases same
  | cons a as ih =>
      cases bs with
      | nil => cases same
      | cons b bs =>
          simp only [List.map_cons, following, List.cons_append, List.append_assoc] at same
          obtain ⟨values, others⟩ := apart a List.mem_cons_self b List.mem_cons_self _ _
            (ends_following _ _) (ends_following _ _) (List.cons.inj (List.cons.inj same).2).2
          obtain ⟨all, rests⟩ := ih (fun a ha b hb => apart a (List.mem_cons_of_mem _ ha) b
            (List.mem_cons_of_mem _ hb)) others
          exact ⟨by rw [List.map_cons, List.map_cons, values, all], rests⟩

/-- A list without elements is told as well, as no element begins with the closing bracket. -/
theorem map_eq_of_intercalate (apart : ∀ a ∈ as, ∀ b ∈ bs, TellsApart write value a b)
    (begins : ∀ a, ∃ c rest, (write a).toList = c :: rest ∧ c ≠ ')')
    (same : (", ".intercalate (as.map write)).toList ++ ')' :: rest =
      (", ".intercalate (bs.map write)).toList ++ ')' :: rest') :
    as.map value = bs.map value ∧ rest = rest' := by
  have nonempty (a : α) (as : List α) (rest rest' : List Char) :
      (", ".intercalate ((a :: as).map write)).toList ++ ')' :: rest ≠ ')' :: rest' := by
    obtain ⟨c, tail, chars, other⟩ := begins a
    rw [List.map_cons, List.append_cons, toList_intercalate_append, chars]
    exact fun same => other (List.cons.inj same).1
  cases as with
  | nil =>
      cases bs with
      | nil => exact ⟨rfl, (List.cons.inj same).2⟩
      | cons b bs => exact absurd same.symm (nonempty b bs rest' rest)
  | cons a as =>
      cases bs with
      | nil => exact absurd same (nonempty a as rest rest')
      | cons b bs =>
          refine map_eq_of_following apart ?_
          rw [List.append_cons, List.append_cons _ ')' rest'] at same
          rw [List.map_cons, List.map_cons, following_cons, following_cons]
          exact congrArg (fun chars => ',' :: ' ' :: chars) same

end

namespace Term

theorem untyped_list (items : List Term) :
    (Term.list items).untyped = .list (items.map untyped) := by
  rw [untyped, untypedAll_eq_map]

theorem texts_eq_map (ts : List Term) : texts ts = ts.map text := by
  induction ts with
  | nil => rfl
  | cons t ts ih => rw [texts, ih, List.map_cons]

mutual
/-- Whether no word in the written form of the term holds a character that ends it. -/
def isLegible : Term → Bool
  | .iri i => i.isLegible
  | .literal l => l.isLegible
  | .blank b => isUnbroken b
  | .var x => isUnbroken x.label
  | .list items => areLegible items
  | .none => true
def areLegible : List Term → Bool
  | [] => true
  | t :: ts => t.isLegible && areLegible ts
end

theorem areLegible_iff {ts : List Term} :
    areLegible ts = true ↔ ∀ t ∈ ts, t.isLegible = true := by
  induction ts with
  | nil => simp [areLegible]
  | cons t ts ih => simp [areLegible, ih]

/-- A character at the beginning of a term of this kind. -/
def sign : Term → Char
  | .iri _ => '<'
  | .literal _ => '"'
  | .blank _ => '_'
  | .var _ => '?'
  | .list _ => '('
  | .none => 'n'

/-- The kind of term that begins with the character. -/
def signOf (c : Char) : Char := if c ∈ ['"', '_', '?', '(', 'n'] then c else '<'

theorem text_begins (t : Term) :
    ∃ c rest, t.text.toList = c :: rest ∧ signOf c = t.sign ∧ c ≠ ')' ∧ c ≠ '+' := by
  cases t with
  | iri i =>
      have known : ∀ c ∈ Iri.initials, signOf c = '<' ∧ c ≠ ')' ∧ c ≠ '+' := by
        simp [Iri.initials, signOf]
      obtain ⟨c, rest, chars, listed⟩ := i.compact_begins
      exact ⟨c, rest, chars, known c listed⟩
  | literal l => exact ⟨'"', _, l.toList_text, rfl, by decide⟩
  | blank b => exact ⟨'_', ':' :: b.toList, by simp [text], rfl, by decide⟩
  | var x => exact ⟨'?', x.label.toList, by simp [text], rfl, by decide⟩
  | list items =>
      refine ⟨'(', (", ".intercalate (texts items)).toList ++ [')'], ?_, rfl, by decide⟩
      simp [text]
  | none => exact ⟨'n', ['o', 'n', 'e'], by simp [text], rfl, by decide⟩

theorem sign_eq {t u : Term} {rest rest' : List Char}
    (same : t.text.toList ++ rest = u.text.toList ++ rest') : t.sign = u.sign := by
  obtain ⟨c, tail, here, sign, -⟩ := t.text_begins
  obtain ⟨d, tail', there, sign', -⟩ := u.text_begins
  rw [here, there] at same
  rw [← sign, ← sign', (List.cons.inj same).1]

/-- By induction on the first term: the first character tells its kind, and then its words end
where those of the other term do. -/
theorem tellsApart {t u : Term} (legible : t.isLegible = true) (legible' : u.isLegible = true) :
    TellsApart text untyped t u := by
  induction t generalizing u with
  | iri i =>
      intro rest rest' ends ends' same
      cases u with
      | iri j =>
          obtain ⟨iris, rests⟩ := Iri.tellsApart legible legible' rest rest' ends ends' same
          exact ⟨congrArg (fun i => (Term.iri i).untyped) iris, rests⟩
      | _ => exact absurd (sign_eq same) (by simp [sign])
  | literal l =>
      intro rest rest' ends ends' same
      cases u with
      | literal k =>
          obtain ⟨literals, rests⟩ := Literal.tellsApart legible legible' rest rest' ends ends' same
          exact ⟨congrArg (fun l => (Term.literal l).untyped) literals, rests⟩
      | _ => exact absurd (sign_eq same) (by simp [sign])
  | blank b =>
      intro rest rest' ends ends' same
      cases u with
      | blank c =>
          obtain ⟨labels, rests⟩ := unbroken_tellsApart legible legible' rest rest' ends ends' same
          exact ⟨congrArg (fun b => (Term.blank b).untyped) labels, rests⟩
      | _ => exact absurd (sign_eq same) (by simp [sign])
  | var x =>
      intro rest rest' ends ends' same
      cases u with
      | var y =>
          obtain ⟨labels, rests⟩ := unbroken_tellsApart legible legible' rest rest' ends ends' same
          exact ⟨congrArg (fun label => Term.var ⟨label, .top⟩) labels, rests⟩
      | _ => exact absurd (sign_eq same) (by simp [sign])
  | list items ih =>
      intro rest rest' ends ends' same
      cases u with
      | list others =>
          simp only [text, texts_eq_map, String.toList_append, List.append_assoc] at same
          have begins (t : Term) : ∃ c rest, t.text.toList = c :: rest ∧ c ≠ ')' := by
            obtain ⟨c, rest, chars, -, other, -⟩ := t.text_begins
            exact ⟨c, rest, chars, other⟩
          obtain ⟨terms, rests⟩ := map_eq_of_intercalate (fun t ht u hu => ih t ht
            (areLegible_iff.mp legible t ht) (areLegible_iff.mp legible' u hu)) begins
            (List.append_cancel_left same)
          exact ⟨by rw [untyped_list, untyped_list, terms], rests⟩
      | _ => exact absurd (sign_eq same) (by simp [sign])
  | none =>
      intro rest rest' ends ends' same
      cases u with
      | none => exact ⟨rfl, List.append_cancel_left same⟩
      | _ => exact absurd (sign_eq same) (by simp [sign])

end Term

namespace Argument

theorem text_begins (a : Argument) : ∃ c rest, a.text.toList = c :: rest ∧ c ≠ ')' := by
  obtain ⟨term, marked⟩ := a
  cases marked with
  | true => exact ⟨'+', '+' :: term.text.toList, by simp [text], by decide⟩
  | false =>
      obtain ⟨c, rest, chars, -, other, -⟩ := term.text_begins
      exact ⟨c, rest, chars, other⟩

theorem tellsApart {a b : Argument} (legible : a.term.isLegible = true)
    (legible' : b.term.isLegible = true) : TellsApart text untyped a b := by
  intro rest rest' ends ends' same
  obtain ⟨t, marked⟩ := a
  obtain ⟨u, marked'⟩ := b
  have mark (t u : Term) (rest rest' : List Char) :
      '+' :: '+' :: (t.text.toList ++ rest) ≠ u.text.toList ++ rest' := by
    obtain ⟨c, tail, chars, -, -, other⟩ := u.text_begins
    rw [chars]
    exact fun same => other (List.cons.inj same).1.symm
  have terms := Term.tellsApart legible legible' rest rest' ends ends'
  cases marked <;> cases marked' <;>
    simp only [text, if_true, Bool.false_eq_true, if_false, String.toList_append,
      List.append_assoc] at same
  · obtain ⟨same, rests⟩ := terms same
    exact ⟨congrArg (Argument.mk · false) same, rests⟩
  · exact absurd same.symm (mark u t rest' rest)
  · exact absurd same (mark t u rest rest')
  · obtain ⟨same, rests⟩ := terms (List.append_cancel_left same)
    exact ⟨congrArg (Argument.mk · true) same, rests⟩

end Argument

namespace Instance

/-- Whether no word in the written form of the instance holds a character that ends it. -/
def isLegible (i : Instance) : Bool := i.arguments.arguments.all (·.term.isLegible)

theorem arguments_eq_of_tupleText {as bs : ArgumentList}
    (legible : ∀ a ∈ as.arguments, a.term.isLegible = true)
    (legible' : ∀ b ∈ bs.arguments, b.term.isLegible = true)
    (same : as.tupleText = bs.tupleText) :
    as.arguments.map Argument.untyped = bs.arguments.map Argument.untyped := by
  have chars := congrArg String.toList same
  simp only [ArgumentList.tupleText, String.toList_append, List.append_assoc] at chars
  exact (map_eq_of_intercalate (fun a ha b hb => Argument.tellsApart (legible a ha) (legible' b hb))
    Argument.text_begins (List.append_cancel_left chars)).1

/-- What is written in front of the template. -/
def lead : Option ListExpander → String
  | some e => e.text ++ " | "
  | none => ""

theorem text_eq (i : Instance) :
    i.text = lead i.arguments.expander ++ i.iri.compact ++ i.arguments.tupleText := by
  unfold text
  cases i.arguments.expander with
  | some e => rfl
  | none => simp [lead]

theorem lead_begins (e : ListExpander) :
    ∃ c rest, (lead (some e)).toList = c :: rest ∧ c ∉ Iri.initials := by
  cases e with
  | cross => exact ⟨'c', "ross | ".toList, by decide, by decide⟩
  | zipMin => exact ⟨'z', "ipMin | ".toList, by decide, by decide⟩
  | zipMax => exact ⟨'z', "ipMax | ".toList, by decide, by decide⟩

theorem unled_ne_led {e : ListExpander} {iri : Iri} {rest rest' : String} :
    lead none ++ iri.compact ++ rest ≠ lead (some e) ++ iri.compact ++ rest' := by
  intro same
  obtain ⟨c, tail, here, initial⟩ := iri.compact_begins
  obtain ⟨d, tail', there, other⟩ := lead_begins e
  have chars := congrArg String.toList same
  have unled : lead none = "" := rfl
  simp only [String.toList_append, here, there, unled, String.toList_empty, List.nil_append,
    List.cons_append] at chars
  exact other ((List.cons.inj chars).1 ▸ initial)

theorem lead_eq {e e' : Option ListExpander} {iri : Iri} {rest rest' : String}
    (same : lead e ++ iri.compact ++ rest = lead e' ++ iri.compact ++ rest') : e = e' := by
  cases e with
  | none =>
      cases e' with
      | none => rfl
      | some e' => exact absurd same unled_ne_led
  | some e =>
      cases e' with
      | none => exact absurd same.symm unled_ne_led
      | some e' =>
          have chars := congrArg String.toList same
          cases e <;> cases e' <;> simp [lead, ListExpander.text] at chars ⊢

/-- Of one template, instances without words that end early are told by their written forms. -/
theorem beq_of_text {i j : Instance} (legible : i.isLegible = true) (legible' : j.isLegible = true)
    (iris : i.iri = j.iri) (same : i.text = j.text) : (i == j) = true := by
  rw [text_eq, text_eq, iris] at same
  have expanders := lead_eq same
  rw [expanders, String.append_right_inj] at same
  have arguments := arguments_eq_of_tupleText (List.all_eq_true.mp legible)
    (List.all_eq_true.mp legible') same
  refine (sameUnder_untyped i j).mpr ?_
  rw [untyped, untyped, ArgumentList.untyped, ArgumentList.untyped, iris, expanders, arguments]

end Instance

end RdfTemplates
