import RdfTemplates.Proofs.Query.Pairs
import RdfTemplates.Proofs.Store.Structure
import RdfTemplates.Proofs.WrittenForm

/-!
# Equal templates

The query for equal templates asks for a unifier from the one template to the other and
for one back, independently of each other, and neither has to be one to one. Together
they make the templates renamed copies of each other. The parameters count as variables:
their order, flags, defaults and types make no difference.
-/

namespace RdfTemplates

namespace Tuple

/-- A binding replaces the one before. -/
theorem bind_bind (t : Tuple) (v : Var) (x y : Value) : (t.bind v x).bind v y = t.bind v y := by
  simp [bind, List.filter_filter]

end Tuple

namespace Store

variable {store : Store} {t u : Template}

/-- Two definitions come to be compared in the order of their written form, if their bodies are of
one length. -/
structure Compares (store : Store) (t u : Template) : Prop where
  first : store.Defines t
  second : store.Defines u
  apart : t.iri ≠ u.iri
  ordered : Relation.precedes (.iri t.iri) (.iri u.iri) = true
  sizes : t.body.length = u.body.length

/-- No search that is made for two templates runs out of attempts. Unifiers back are searched for
when there is one on the way there. -/
def SearchesFinish (store : Store) : Prop :=
  ∀ t u, store.Compares t u → t.SearchesFinish u ∧ (t.unifiers u ≠ [] → u.SearchesFinish t)

end Store

namespace Query

variable {store : Store}

/-- The answer for two templates with bodies of one length and a unifier there and one back. -/
def equalAnswer (t u : Template) (length : Nat) (s s' : Substitution) : Tuple :=
  let bound := (Tuple.empty.bind t1 (.iri t.iri)).bind t2 (.iri u.iri)
  let bound := (bound.bind p1 (.parameters t.parameters)).bind p2 (.parameters u.parameters)
  let bound := (bound.bind b1 (.body t.body)).bind b2 (.body u.body)
  let bound := bound.bind (.named "N") (.int length)
  (bound.bind (.named "U1") (.substitution s)).bind (.named "U2") (.substitution s')

theorem different_iff {a b : Iri} : (Value.iri a != Value.iri b) = true ↔ a ≠ b := by
  have test : (Value.iri a == Value.iri b) = (a == b) := rfl
  rw [bne, test]
  simp

theorem finds_equal_steps {x : Tuple} : equal.Finds store .empty x ↔
    ∃ a, (store.status? a).isSome ∧ ∃ b, (store.status? b).isSome ∧
      (Value.iri a != Value.iri b) = true ∧ Relation.precedes (.iri a) (.iri b) = true ∧
      ∃ ps, store.parameters? a = some ps ∧ ∃ qs, store.parameters? b = some qs ∧
      ∃ is, store.body? a = some is ∧ ∃ js, store.body? b = some js ∧
      ∃ n, (Value.body is).length? = some n ∧ (Value.body js).length? = some n ∧
      ∃ p ∈ Substitution.matchUnordered (ps.map Parameter.term) (qs.map Parameter.term),
      ∃ m s, (m ∈ Substitution.matchBodies is js ∧ p.merge? m = some s) ∧
      ∃ p' ∈ Substitution.matchUnordered (qs.map Parameter.term) (ps.map Parameter.term),
      ∃ m' ∈ Substitution.matchBodies js is, ∃ s', p'.merge? m' = some s' ∧
        x = equalAnswer ⟨a, ps, is⟩ ⟨b, qs, js⟩ n s s' := by
  simp [equal, finds_all, FindsEach, finds_template, finds_notEquals, finds_removeSymmetry,
    finds_parameters, finds_body, t1, t2, p1, p2, b1, b2, finds_length, finds_length_at,
    finds_unifiesParametersUnordered, finds_unifiesBody, equalAnswer, Tuple.bind_bind]

theorem finds_equal {x : Tuple} : equal.Finds store .empty x ↔
    ∃ t u, store.Compares t u ∧ ∃ s ∈ t.unifiers u, ∃ s' ∈ u.unifiers t,
      x = equalAnswer t u t.body.length s s' := by
  rw [finds_equal_steps]
  constructor
  · rintro ⟨a, -, b, -, apart, ordered, ps, hps, qs, hqs, is, his, js, hjs, n, hn, hn', p, hp,
      m, s, ⟨hm, hs⟩, p', hp', m', hm', s', hs', rfl⟩
    obtain rfl : is.length = n := by simpa [Value.length?] using hn
    refine ⟨⟨a, ps, is⟩, ⟨b, qs, js⟩, ⟨Store.defines_iff.mpr ⟨hps, his⟩,
      Store.defines_iff.mpr ⟨hqs, hjs⟩, ?_, ordered, ?_⟩,
      s, Template.mem_unifiers.mpr ⟨p, hp, m, hm, hs⟩,
      s', Template.mem_unifiers.mpr ⟨p', hp', m', hm', hs'⟩, rfl⟩
    · exact different_iff.mp apart
    · simpa [Value.length?, eq_comm] using hn'
  · rintro ⟨⟨a, ps, is⟩, ⟨b, qs, js⟩, compares, s, hs, s', hs', rfl⟩
    obtain ⟨p, hp, m, hm, merged⟩ := Template.mem_unifiers.mp hs
    obtain ⟨p', hp', m', hm', merged'⟩ := Template.mem_unifiers.mp hs'
    obtain ⟨hps, his⟩ := Store.defines_iff.mp compares.first
    obtain ⟨hqs, hjs⟩ := Store.defines_iff.mp compares.second
    exact ⟨a, compares.first.isSome_status?, b, compares.second.isSome_status?,
      different_iff.mpr compares.apart, compares.ordered, ps, hps, qs, hqs, is, his, js, hjs,
      is.length, rfl, congrArg some compares.sizes.symm, p, hp, m, s, ⟨hm, merged⟩,
      p', hp', m', hm', s', merged', rfl⟩

theorem get?_equalAnswer (t u : Template) (length : Nat) (s s' : Substitution) :
    (equalAnswer t u length s s').get? t1 = some (.iri t.iri) ∧
      (equalAnswer t u length s s').get? t2 = some (.iri u.iri) := by
  simp [equalAnswer, t1, t2, p1, p2, b1, b2]

end Query

namespace Store

variable {store : Store} {t u : Template}

/-- The pair is listed in the order of written forms, if there are unifiers both ways. -/
theorem findsPair_equal (first : store.Defines t) (second : store.Defines u) :
    store.FindsPair .equal t.iri u.iri ↔
      store.Compares t u ∧ t.unifiers u ≠ [] ∧ u.unifiers t ≠ [] := by
  constructor
  · rintro ⟨x, found, here, there⟩
    obtain ⟨t', u', compares, s, hs, s', hs', rfl⟩ := Query.finds_equal.mp found
    obtain ⟨here', there'⟩ := Query.get?_equalAnswer t' u' t'.body.length s s'
    have one : t'.iri = t.iri := by simpa using here'.symm.trans here
    have other : u'.iri = u.iri := by simpa using there'.symm.trans there
    obtain rfl := compares.first.unique first one
    obtain rfl := compares.second.unique second other
    exact ⟨compares, List.ne_nil_of_mem hs, List.ne_nil_of_mem hs'⟩
  · rintro ⟨compares, some_, some_'⟩
    obtain ⟨s, hs⟩ := List.exists_mem_of_ne_nil _ some_
    obtain ⟨s', hs'⟩ := List.exists_mem_of_ne_nil _ some_'
    obtain ⟨here, there⟩ := Query.get?_equalAnswer t u t.body.length s s'
    exact ⟨_, Query.finds_equal.mpr ⟨t, u, compares, s, hs, s', hs', rfl⟩, here, there⟩

end Store

/-- The templates have bodies that are not empty, and a renaming carries the one to the other. -/
def Template.AreCopies (t u : Template) : Prop :=
  t.body ≠ [] ∧ u.body ≠ [] ∧ ∃ r : Renaming, r.Carries t u

namespace Store

variable {store : Store} {t u : Template}

theorem copies_symm (distinct : Distinct t.body) (distinct' : Distinct u.body) :
    t.AreCopies u ↔ u.AreCopies t := by
  unfold Template.AreCopies
  rw [Template.exists_renaming_iff distinct distinct',
    Template.exists_renaming_iff distinct' distinct]
  tauto

theorem Defines.distinct (reachable : store.Reachable) (defines : store.Defines t) :
    Distinct t.body := by
  obtain ⟨-, -, body⟩ := catalog_eq_some_iff.mp defines
  rw [← show store.bodyOf t.iri = t.body from body]
  exact reachable.tidy.bodies t.iri

/-- Of two templates in order, those are found that are copies. -/
theorem findsPair_iff_copies (reachable : store.Reachable) (finish : store.SearchesFinish)
    (first : store.Defines t) (second : store.Defines u) (apart : t.iri ≠ u.iri)
    (ordered : Relation.precedes (.iri t.iri) (.iri u.iri) = true) :
    store.FindsPair .equal t.iri u.iri ↔ t.AreCopies u := by
  have distinct := first.distinct reachable
  have distinct' := second.distinct reachable
  rw [findsPair_equal first second, Template.AreCopies,
    Template.exists_renaming_iff distinct distinct']
  constructor
  · rintro ⟨compares, there, back⟩
    obtain ⟨s, hs⟩ := List.exists_mem_of_ne_nil _ there
    obtain ⟨s', hs'⟩ := List.exists_mem_of_ne_nil _ back
    exact ⟨Template.body_ne_nil hs, Template.body_ne_nil hs',
      Template.exists_takes hs compares.sizes, Template.exists_takes hs' compares.sizes.symm⟩
  · rintro ⟨some_, some_', ⟨v, there⟩, w, back⟩
    have sizes : t.body.length = u.body.length := by simpa using there.body.length_eq
    have compares : store.Compares t u := ⟨first, second, apart, ordered, sizes⟩
    obtain ⟨onward, backward⟩ := finish t u compares
    have found := Template.unifiers_ne_nil onward some_ there
    exact ⟨compares, found, Template.unifiers_ne_nil (backward found) some_' back⟩

theorem precedes_iff {a b : Iri} :
    Relation.precedes (.iri a) (.iri b) = true ↔ a.compact ≤ b.compact :=
  decide_eq_true_iff

/-- In a reachable store in which the searches come to their end, the templates reported as equal
are the renamed copies with a body, and each two of them are reported once, in one order. Of two
definitions in order the pair is there once or not at all, and the turned one is not. -/
theorem equalTemplates_are_copies (reachable : store.Reachable) (finish : store.SearchesFinish) :
    ∃ pairs, store.equalTemplates = .ok pairs ∧
      ∀ t u, store.Defines t → store.Defines u → t.iri ≠ u.iri →
        (t.AreCopies u → pairs.count (t.iri, u.iri) + pairs.count (u.iri, t.iri) = 1) ∧
        (¬ t.AreCopies u → pairs.count (t.iri, u.iri) + pairs.count (u.iri, t.iri) = 0) := by
  obtain ⟨found, ends⟩ : ∃ found, Query.equal.Ends store found :=
    Query.ends_of_scope? (by decide)
  obtain ⟨pairs, listed, nodup, members⟩ := exists_templatePairs ends fun x finds => by
    obtain ⟨t, u, -, s, -, s', -, rfl⟩ := Query.finds_equal.mp finds
    exact ⟨_, _, Query.get?_equalAnswer t u t.body.length s s'⟩
  refine ⟨pairs, listed, ?_⟩
  have counts {t u : Template} (first : store.Defines t) (second : store.Defines u)
      (apart : t.iri ≠ u.iri) (ordered : Relation.precedes (.iri t.iri) (.iri u.iri) = true) :
      pairs.count (u.iri, t.iri) = 0 ∧
        (t.AreCopies u → pairs.count (t.iri, u.iri) = 1) ∧
        (¬ t.AreCopies u → pairs.count (t.iri, u.iri) = 0) := by
    have told := findsPair_iff_copies reachable finish first second apart ordered
    refine ⟨List.count_eq_zero.mpr fun turned => ?_, fun copies => ?_, fun other => ?_⟩
    · have compares := ((findsPair_equal second first).mp ((members _ _).mp turned)).1
      exact apart (Iri.compact_injective
        (le_antisymm (precedes_iff.mp ordered) (precedes_iff.mp compares.ordered)))
    · exact List.count_eq_one_of_mem nodup ((members _ _).mpr (told.mpr copies))
    · exact List.count_eq_zero.mpr fun here => other (told.mp ((members _ _).mp here))
  intro t u first second apart
  have symm := copies_symm (first.distinct reachable) (second.distinct reachable)
  rcases le_total t.iri.compact u.iri.compact with ordered | ordered
  · obtain ⟨none_, once, never⟩ := counts first second apart (precedes_iff.mpr ordered)
    exact ⟨fun copies => by rw [none_, once copies], fun other => by rw [none_, never other]⟩
  · obtain ⟨none_, once, never⟩ := counts second first apart.symm (precedes_iff.mpr ordered)
    rw [symm]
    exact ⟨fun copies => by rw [none_, once copies], fun other => by rw [none_, never other]⟩

/-- The definitions in a store. -/
def definitions (store : Store) : List Template :=
  store.entryList.filterMap fun e => match e.status with
    | .definition ps => some ⟨e.iri, ps, store.bodyOf e.iri⟩
    | _ => none

theorem WellFormed.mem_definitions (wf : store.WellFormed) (defines : store.Defines t) :
    t ∈ store.definitions := by
  obtain ⟨known, -, body⟩ := catalog_eq_some_iff.mp defines
  refine List.mem_filterMap.mpr ⟨⟨t.iri, .definition t.parameters⟩, wf.mem_entryList.mpr known, ?_⟩
  change some (⟨t.iri, t.parameters, store.bodyOf t.iri⟩ : Template) = some t
  rw [show store.bodyOf t.iri = t.body from body]

instance (t u : Template) : Decidable (t.SearchesFinish u) :=
  decidable_of_iff (_ ∧ _) ⟨fun h => ⟨h.1, h.2⟩, fun h => ⟨h.parameters, h.bodies⟩⟩

theorem WellFormed.searchesFinish (wf : store.WellFormed)
    (all : ∀ t ∈ store.definitions, ∀ u ∈ store.definitions, t.SearchesFinish u) :
    store.SearchesFinish := by
  intro t u compares
  have ht := wf.mem_definitions compares.first
  have hu := wf.mem_definitions compares.second
  exact ⟨all t ht u hu, fun _ => all u hu t ht⟩

/-- Two templates for acquaintances, with the parameters in another order. -/
def acquainted : Store :=
  let person := Parameter.mandatory "person" .top
  let name := Parameter.mandatory "name" .top
  let label := Parameter.mandatory "label" .top
  let friend := Parameter.mandatory "friend" .top
  (empty .standard).acceptAll [
    .template (.make "Knows" [person, name]
      [.ofTerms "Named" [person.term, name.term],
       .ofTerms "Likes" [person.term, .list [.blank "a", name.term]]]),
    .template (.make "Befriends" [label, friend]
      [.ofTerms "Likes" [friend.term, .list [.blank "b", label.term]],
       .ofTerms "Named" [friend.term, label.term]])]

/-- The instances of the two are turned round and their parameters are too, and they are found as
copies. -/
theorem equalTemplates_are_copies_acquainted :
    acquainted.Reachable ∧ acquainted.SearchesFinish ∧
    acquainted.equalTemplates.toOption = some [("Befriends", "Knows")] ∧
    ∃ pairs, acquainted.equalTemplates = .ok pairs ∧
      ∀ t u, acquainted.Defines t → acquainted.Defines u → t.iri ≠ u.iri →
        (t.AreCopies u → pairs.count (t.iri, u.iri) + pairs.count (u.iri, t.iri) = 1) ∧
        (¬ t.AreCopies u → pairs.count (t.iri, u.iri) + pairs.count (u.iri, t.iri) = 0) := by
  have reachable : acquainted.Reachable := by
    refine reachable_acceptAll .standard _ fun d listed => ?_
    simp only [List.mem_cons, List.not_mem_nil, or_false] at listed
    rcases listed with rfl | rfl <;> exact ⟨_, _, _, rfl⟩
  have finish : acquainted.SearchesFinish :=
    reachable.wellFormed.searchesFinish (by decide +kernel)
  exact ⟨reachable, finish, by decide +kernel, equalTemplates_are_copies reachable finish⟩

end Store

end RdfTemplates
