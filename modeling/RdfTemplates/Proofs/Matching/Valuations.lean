import RdfTemplates.Proofs.Matching
import Mathlib.Data.List.Nodup

/-!
# Matchings and valuations

A substitution holds of the valuations that give to each of its keys what the key
is bound to. A matching step is exact when the substitution it leads to holds of
just those valuations of which the one before holds and which take the first side
to the second one. Exact steps one after the other are exact, and so are the
matching of terms, of instances and the merging of two matchings.
-/

namespace RdfTemplates

namespace Substitution

/-- The valuation gives to each key what the key is bound to. -/
def HoldsOf (s : Substitution) (v : Valuation) : Prop :=
  ∀ binding ∈ s.bindings, (binding.1.fill v.filling == binding.2) = true

/-- No two keys are the same term. -/
def IsMap (s : Substitution) : Prop := (s.bindings.map (·.1.untyped)).Nodup

/-- Variables and blank nodes are bound, these to blank nodes, and none of them twice. -/
structure Proper (s : Substitution) : Prop where
  keys : ∀ k u, (k, u) ∈ s.bindings → k.isVar = true ∨ ∃ b c, k = .blank b ∧ u = .blank c
  distinct : (s.bindings.map (·.1.untyped)).Nodup

/-- A step that says of a valuation that it takes something somewhere, and no more. -/
structure Exact (step : Substitution → Option Substitution) (takes : Valuation → Prop) : Prop where
  sound : ∀ {s next v}, step s = some next → next.HoldsOf v → s.HoldsOf v ∧ takes v
  complete : ∀ {s : Substitution} {v}, s.HoldsOf v → takes v →
    ∃ next, step s = some next ∧ next.HoldsOf v
  proper : ∀ {s next : Substitution}, step s = some next → s.Proper → next.Proper

variable {s next : Substitution} {v : Valuation} {key value : Term}

theorem holdsOf_empty (v : Valuation) : empty.HoldsOf v := nofun

theorem proper_empty : empty.Proper := ⟨nofun, List.nodup_nil⟩

theorem bindings_insert (unbound : s.get? key = none) (value : Term) :
    (s.insert key value).bindings = (key, value) :: s.bindings := by
  simp [insert, contains, unbound]

/-- A valuation agrees with a new binding if it takes the key to the value. -/
theorem holdsOf_insert (unbound : s.get? key = none) :
    (s.insert key value).HoldsOf v ↔ (key.fill v.filling == value) = true ∧ s.HoldsOf v := by
  unfold HoldsOf
  rw [bindings_insert unbound, List.forall_mem_cons]

theorem HoldsOf.get? (holds : s.HoldsOf v) (bound : s.get? key = some value) :
    (key.fill v.filling == value) = true := by
  obtain ⟨k, listed, same⟩ := exists_mem_of_get? bound
  rw [Valuation.fill_same v same]
  exact holds _ listed

theorem isSome_get?_of_mem {k u : Term} (listed : (k, u) ∈ s.bindings) :
    (s.get? k).isSome := by
  obtain ⟨bindings⟩ := s
  change (bindings.lookup k).isSome
  induction bindings with
  | nil => cases listed
  | cons binding rest ih =>
      obtain ⟨key, value⟩ := binding
      rw [List.lookup_cons]
      split
      · rfl
      · rcases List.mem_cons.mp listed with same | listed
        · obtain ⟨rfl, rfl⟩ := Prod.mk.inj same
          rename_i other
          rw [BEq.rfl] at other
          cases other
        · exact ih listed

theorem IsMap.get?_of_mem (isMap : s.IsMap) {k u : Term} (listed : (k, u) ∈ s.bindings) :
    s.get? k = some u := by
  obtain ⟨w, bound⟩ := Option.isSome_iff_exists.mp (isSome_get?_of_mem listed)
  obtain ⟨key, here, same⟩ := exists_mem_of_get? bound
  have one := List.inj_on_of_nodup_map isMap listed here ((Term.sameUnder_untyped k key).mp same)
  rw [bound, (Prod.mk.inj one).2]

theorem IsMap.insert (isMap : s.IsMap) (unbound : s.get? key = none) :
    (s.insert key value).IsMap := by
  unfold IsMap
  rw [bindings_insert unbound, List.map_cons, List.nodup_cons]
  refine ⟨fun listed => ?_, isMap⟩
  obtain ⟨⟨k, u⟩, here, same⟩ := List.mem_map.mp listed
  have bound := isSome_get?_of_mem here
  rw [get?_congr s ((Term.sameUnder_untyped k key).mpr same), unbound] at bound
  cases bound

theorem exists_get?_of_same {t : Substitution} {k u : Term} (same : (s == t) = true)
    (listed : (k, u) ∈ s.bindings) : ∃ w, t.get? k = some w ∧ (w == u) = true :=
  (Option.any_eq_true _ _).mp
    (List.all_eq_true.mp (Bool.and_eq_true_iff.mp (show s.same t = true from same)).1 _ listed)

/-- The keys are as many, so none of the other substitution is left out. -/
theorem IsMap.perm_of_same {t : Substitution} (isMap : s.IsMap) (same : (s == t) = true) :
    (t.bindings.map (·.1.untyped)).Perm (s.bindings.map (·.1.untyped)) := by
  refine ((List.subperm_of_subset isMap ?_).perm_of_length_le ?_).symm
  · intro key listed
    obtain ⟨⟨k, u⟩, h, rfl⟩ := List.mem_map.mp listed
    obtain ⟨w, there, -⟩ := exists_get?_of_same same h
    obtain ⟨k', h', alike⟩ := exists_mem_of_get? there
    exact List.mem_map.mpr ⟨_, h', ((Term.sameUnder_untyped k k').mp alike).symm⟩
  · have sizes : s.bindings.length = t.bindings.length :=
      eq_of_beq (Bool.and_eq_true_iff.mp (show s.same t = true from same)).2
    simp [sizes]

theorem IsMap.of_same {t : Substitution} (isMap : s.IsMap) (same : (s == t) = true) : t.IsMap :=
  (isMap.perm_of_same same).nodup_iff.mpr isMap

theorem IsMap.get?_of_same {t : Substitution} {k u : Term} (isMap : s.IsMap)
    (same : (s == t) = true) (bound : t.get? k = some u) :
    ∃ w, s.get? k = some w ∧ (w == u) = true := by
  obtain ⟨key, listed, near⟩ := exists_mem_of_get? bound
  obtain ⟨⟨k', u'⟩, here, alike⟩ := List.mem_map.mp
    ((isMap.perm_of_same same).mem_iff.mp (List.mem_map.mpr ⟨_, listed, rfl⟩))
  have near : (k == k') = true := BEq.trans near
    (BEq.symm ((Term.sameUnder_untyped k' key).mpr alike))
  obtain ⟨w, there, close⟩ := exists_get?_of_same same here
  obtain rfl := Option.some.inj (there.symm.trans ((get?_congr t near).symm.trans bound))
  exact ⟨u', (get?_congr s near).trans (isMap.get?_of_mem here), BEq.symm close⟩

theorem Proper.isMap (proper : s.Proper) : s.IsMap := proper.distinct

theorem Proper.insert (proper : s.Proper) (unbound : s.get? key = none)
    (fits : key.isVar = true ∨ ∃ b c, key = .blank b ∧ value = .blank c) :
    (s.insert key value).Proper := by
  refine ⟨fun k u listed => ?_, proper.isMap.insert unbound⟩
  rw [bindings_insert unbound] at listed
  rcases List.mem_cons.mp listed with same | listed
  · obtain ⟨rfl, rfl⟩ := Prod.mk.inj same
    exact fits
  · exact proper.keys k u listed

namespace Exact

variable {f g : Substitution → Option Substitution} {P Q : Valuation → Prop}

theorem id : Exact some fun _ => True where
  sound found holds := by
    obtain rfl := Option.some.inj found
    exact ⟨holds, trivial⟩
  complete holds _ := ⟨_, rfl, holds⟩
  proper found proper := by
    obtain rfl := Option.some.inj found
    exact proper

theorem fail (never : ∀ v, ¬ P v) : Exact (fun _ => none) P where
  sound := nofun
  complete _ takes := absurd takes (never _)
  proper := nofun

/-- Steps that are exact are exact one after the other. -/
theorem bind (first : Exact f P) (second : Exact g Q) :
    Exact (fun s => (f s).bind g) fun v => P v ∧ Q v where
  sound found holds := by
    obtain ⟨middle, head, tail⟩ := Option.bind_eq_some_iff.mp found
    obtain ⟨before, there⟩ := second.sound tail holds
    obtain ⟨start, here⟩ := first.sound head before
    exact ⟨start, here, there⟩
  complete holds takes := by
    obtain ⟨middle, head, before⟩ := first.complete holds takes.1
    obtain ⟨last, tail, after⟩ := second.complete before takes.2
    exact ⟨last, Option.bind_eq_some_iff.mpr ⟨middle, head, tail⟩, after⟩
  proper found proper := by
    obtain ⟨middle, head, tail⟩ := Option.bind_eq_some_iff.mp found
    exact second.proper tail (first.proper head proper)

theorem guard (exact : Exact f P) (test : Bool) :
    Exact (fun s => if test then f s else none) fun v => test = true ∧ P v := by
  cases test with
  | true => simpa using exact
  | false => exact fail fun _ h => nomatch h.1

theorem congr (exact : Exact f P) (same : ∀ v, Q v ↔ P v) : Exact f Q := by
  obtain rfl : Q = P := funext fun v => propext (same v)
  exact exact

/-- Binding a key is exact: it fails just where the key is bound to something else. -/
theorem bind? (fits : key.isVar = true ∨ ∃ b c, key = .blank b ∧ value = .blank c) :
    Exact (·.bind? key value) fun v => (key.fill v.filling == value) = true where
  sound {s next v} found holds := by
    rcases bind?_cases found with ⟨existing, bound, same, rfl⟩ | ⟨unbound, rfl⟩
    · exact ⟨holds, BEq.trans (holds.get? bound) same⟩
    · exact ((holdsOf_insert unbound).mp holds).symm
  complete {s v} holds takes := by
    unfold Substitution.bind?
    split
    · rename_i existing bound
      have same : (existing == value) = true := BEq.trans (BEq.symm (holds.get? bound)) takes
      exact ⟨s, if_pos same, holds⟩
    · rename_i unbound
      exact ⟨_, rfl, (holdsOf_insert unbound).mpr ⟨takes, holds⟩⟩
  proper {s next} found proper := by
    rcases bind?_cases found with ⟨-, -, -, rfl⟩ | ⟨unbound, rfl⟩
    · exact proper
    · exact proper.insert unbound fits

end Exact

theorem matchTerms?_exact {ts us : List Term}
    (each : ∀ t ∈ ts, ∀ u, Exact (matchTerm? t u) fun v => (t.fill v.filling == u) = true) :
    Exact (matchTerms? ts us) fun v => (ts.map (Term.fill v.filling) == us) = true := by
  induction ts generalizing us with
  | nil =>
      cases us with
      | nil => exact Exact.id.congr fun v => by simp
      | cons => exact .fail fun v => by simp
  | cons t ts ih =>
      cases us with
      | nil => exact .fail fun v => by simp
      | cons u us =>
          have rest : Exact (matchTerms? ts us) _ :=
            ih fun t ht => each t (List.mem_cons_of_mem _ ht)
          exact ((each t List.mem_cons_self u).bind rest).congr fun v => by simp

/-- A term that nothing is put in for. -/
theorem leaf_exact {t u : Term} (fixed : ∀ f, t.fill f = t) :
    Exact (fun s => if t == u then some s else none) fun v => (t.fill v.filling == u) = true :=
  (Exact.id.guard (t == u)).congr fun v => by simp [fixed]

/-- Matching two terms is exact. -/
theorem matchTerm?_exact (t u : Term) :
    Exact (matchTerm? t u) fun v => (t.fill v.filling == u) = true := by
  induction t generalizing u with
  | iri | literal | none => exact leaf_exact fun _ => rfl
  | var x => exact .bind? (.inl rfl)
  | blank b =>
      cases u with
      | blank c => exact .bind? (.inr ⟨b, c, rfl, rfl⟩)
      | _ => exact .fail fun v => nofun
  | list items ih =>
      cases u with
      | list us =>
          exact (matchTerms?_exact ih).congr fun v => by rw [Term.fill_list, beq_list]
      | _ => exact .fail fun v => nofun

theorem matchEach?_exact (as bs : List Argument) : Exact (matchEach? as bs) fun v =>
    ((as.map fun a => { a with term := a.term.fill v.filling }) == bs) = true := by
  induction as generalizing bs with
  | nil =>
      cases bs with
      | nil => exact Exact.id.congr fun v => by simp
      | cons => exact .fail fun v => by simp
  | cons a as ih =>
      cases bs with
      | nil => exact .fail fun v => by simp
      | cons b bs =>
          refine (((matchTerm?_exact a.term b.term).bind (ih bs)).guard
            (a.marked == b.marked)).congr fun v => ?_
          rw [List.map_cons, List.cons_beq_cons, Argument.beq_def]
          simp only [Bool.and_eq_true]
          tauto

/-- Matching two instances is exact. -/
theorem matchInstance?_exact (i j : Instance) :
    Exact (matchInstance? i j) fun v => (i.fill v.filling == j) = true := by
  have arguments : Exact (matchArguments? i.arguments j.arguments) fun v =>
      ((i.fill v.filling).arguments == j.arguments) = true :=
    ((matchEach?_exact i.arguments.arguments j.arguments.arguments).guard
      (i.arguments.expander == j.arguments.expander)).congr fun v => by
        rw [ArgumentList.beq_def, Bool.and_eq_true, and_comm]
        rfl
  exact (arguments.guard (i.iri == j.iri)).congr fun v => by
    rw [Instance.beq_def, Bool.and_eq_true, Instance.iri_fill]

theorem bindEach_exact {bindings : List (Term × Term)}
    (keys : ∀ k u, (k, u) ∈ bindings → k.isVar = true ∨ ∃ b c, k = .blank b ∧ u = .blank c) :
    Exact (fun s => bindings.foldlM (fun merged b => merged.bind? b.1 b.2) s) fun v =>
      ∀ b ∈ bindings, (b.1.fill v.filling == b.2) = true := by
  induction bindings with
  | nil => exact Exact.id.congr fun v => by simp
  | cons b rest ih =>
      have first : Exact (·.bind? b.1 b.2) _ := .bind? (keys _ _ List.mem_cons_self)
      exact (first.bind (ih fun k u h => keys k u (List.mem_cons_of_mem _ h))).congr fun v =>
        List.forall_mem_cons

/-- Merging two substitutions is exact. -/
theorem merge?_exact {t : Substitution} (proper : t.Proper) : Exact (·.merge? t) t.HoldsOf :=
  bindEach_exact proper.keys

/-- A substitution agrees with the valuation that it is. -/
theorem Proper.holdsOf_reading (proper : s.Proper) : s.HoldsOf s.reading := by
  rintro ⟨k, u⟩ listed
  have bound := proper.isMap.get?_of_mem listed
  rcases proper.keys k u listed with isVar | ⟨b, c, rfl, rfl⟩
  · cases k with
    | var x =>
        rw [Term.fill, Valuation.filling_value, value_reading bound]
        exact BEq.rfl
    | _ => cases isVar
  · rw [Term.fill, Valuation.filling_blank, blank_reading bound]
    exact BEq.rfl

/-- Substitutions that bind the same keys to the same terms hold of the same valuations. -/
theorem Proper.holdsOf_of_same {t : Substitution} (proper : s.Proper) (same : (s == t) = true)
    (holds : s.HoldsOf v) : t.HoldsOf v := by
  rintro ⟨k, u⟩ listed
  have bound := (proper.isMap.of_same same).get?_of_mem listed
  obtain ⟨w, there, close⟩ := proper.isMap.get?_of_same same bound
  exact BEq.trans (holds.get? there) close

end Substitution

end RdfTemplates
