import RdfTemplates.Proofs.Matching
import RdfTemplates.Proofs.Places
import RdfTemplates.Proofs.Query.Relations
import Mathlib.Algebra.Order.BigOperators.Group.List
import Mathlib.Algebra.Order.Ring.Nat

/-!
# The unifier of two terms

The unifier takes each of the two terms as a whole to their unified term. If the one is
the unified term already and the other lies inside of it, what lies inside is replaced
as well, and a term comes out that is larger than the unified term. Otherwise both terms
come out as the unified term, and the unifier passes when it is checked.
-/

namespace RdfTemplates

namespace Term

variable {t u : Term} {items : List Term} {p : Term → Bool}

/-- How many terms there are in a term, itself among them. -/
def size (t : Term) : Nat := (t.occurrences 0).length

theorem length_occurrences (t : Term) (depth : Nat) : (t.occurrences depth).length = t.size := by
  have all (ts : List Term) (ih : ∀ t ∈ ts, ∀ m n,
      (t.occurrences m).length = (t.occurrences n).length) (m n : Nat) :
      (occurrencesAll m ts).length = (occurrencesAll n ts).length := by
    induction ts with
    | nil => rfl
    | cons t ts rest =>
        rw [occurrencesAll, occurrencesAll, List.length_append, List.length_append,
          ih t List.mem_cons_self m n, rest fun t ht => ih t (List.mem_cons_of_mem _ ht)]
  have same (m n : Nat) : (t.occurrences m).length = (t.occurrences n).length := by
    induction t generalizing m n with
    | iri | literal | none | blank | var => rfl
    | list items ih => simp [occurrences, all items ih (m + 1) (n + 1)]
  exact same depth 0

theorem size_list (items : List Term) : (list items).size = (items.map size).sum + 1 := by
  have all (depth : Nat) : (occurrencesAll depth items).length = (items.map size).sum := by
    induction items with
    | nil => rfl
    | cons t ts ih =>
        rw [occurrencesAll, List.length_append, length_occurrences, ih, List.map_cons,
          List.sum_cons]
  rw [size, occurrences, List.length_cons, all]

theorem size_lt_list (listed : t ∈ items) : t.size < (list items).size := by
  rw [size_list]
  exact Nat.lt_succ_of_le (List.le_sum_of_mem (List.mem_map_of_mem listed))

theorem size_of_same (same : (t == u) = true) : t.size = u.size := by
  have untyped (t : Term) : t.untyped.size = t.size := by
    induction t with
    | iri | literal | none | blank | var => rfl
    | list items ih =>
        rw [untyped, untypedAll_eq_map, size_list, size_list, List.map_map]
        exact congrArg (List.sum · + 1) (List.map_congr_left ih)
  rw [← untyped t, ← untyped u, (sameUnder_untyped t u).mp same]

/-- Some term inside of a list, however deep, passes the test. -/
def hasInside (p : Term → Bool) (t : Term) : Bool :=
  (t.occurrences 0).any fun (u, level) => decide (0 < level) && p u

theorem mem_occurrences_zero : (u, 0) ∈ t.occurrences 0 ↔ u = t := by
  cases t with
  | list items =>
      simp only [occurrences, List.mem_cons, Prod.mk.injEq, and_true, mem_occurrencesAll]
      refine or_iff_left ?_
      rintro ⟨t, -, here⟩
      obtain ⟨inside, level, -⟩ := mem_occurrences_iff.mp here
      omega
  | iri | literal | none | blank | var => simp [occurrences]

theorem hasInside_list : (list items).hasInside p = true ↔
    ∃ t ∈ items, p t = true ∨ t.hasInside p = true := by
  simp only [hasInside, List.any_eq_true, Bool.and_eq_true, decide_eq_true_eq, Prod.exists]
  constructor
  · rintro ⟨u, level, here, deep, passes⟩
    rcases List.mem_cons.mp here with self | here
    · obtain ⟨-, rfl⟩ := Prod.mk.inj self
      cases deep
    · obtain ⟨t, ht, here⟩ := mem_occurrencesAll.mp here
      obtain ⟨inside, -, here⟩ := mem_occurrences_iff.mp here
      refine ⟨t, ht, ?_⟩
      rcases Nat.eq_zero_or_pos inside with rfl | deep
      · obtain rfl := mem_occurrences_zero.mp here
        exact .inl passes
      · exact .inr ⟨u, inside, here, deep, passes⟩
  · have within {t u : Term} {inside : Nat} (ht : t ∈ items)
        (here : (u, inside) ∈ t.occurrences 0) :
        (u, 1 + inside) ∈ (list items).occurrences 0 := by
      have deeper : (u, 1 + inside) ∈ t.occurrences 1 :=
        mem_occurrences_iff.mpr ⟨inside, rfl, here⟩
      exact List.mem_cons_of_mem _ (mem_occurrencesAll.mpr ⟨t, ht, deeper⟩)
    rintro ⟨t, ht, passes | ⟨u, inside, here, -, passes⟩⟩
    · exact ⟨t, _, within ht (mem_occurrences_zero.mpr rfl), Nat.one_pos, passes⟩
    · exact ⟨u, _, within ht here, by omega, passes⟩

theorem exists_of_hasInside (inside : t.hasInside p = true) :
    ∃ u, p u = true ∧ u.size < t.size := by
  induction t with
  | iri | literal | none | blank | var => cases inside
  | list items ih =>
      obtain ⟨t, ht, passes | inside⟩ := hasInside_list.mp inside
      · exact ⟨t, passes, size_lt_list ht⟩
      · obtain ⟨u, passes, smaller⟩ := ih t ht inside
        exact ⟨u, passes, smaller.trans (size_lt_list ht)⟩

end Term

namespace Substitution

variable {s : Substitution} {t w : Term}

theorem apply_eq_self (unbound : s.get? t = none) (free : t.hasInside s.contains = false) :
    s.apply t = t := by
  induction t with
  | iri | literal | none | blank | var => exact apply_of_unbound unbound rfl
  | list items ih =>
      rw [apply_list_of_unbound unbound]
      refine congrArg Term.list ((List.map_congr_left fun t ht => ?_).trans (List.map_id items))
      have out (passes : s.contains t = true ∨ t.hasInside s.contains = true) : False := by
        rw [Term.hasInside_list.mpr ⟨t, ht, passes⟩] at free
        cases free
      refine ih t ht ?_ (Bool.eq_false_iff.mpr fun inside => out (.inr inside))
      exact Option.not_isSome_iff_eq_none.mp fun bound => out (.inl bound)

theorem size_lt_apply (value : ∀ k u, s.get? k = some u → u = w) (unbound : s.get? t = none)
    (inside : t.hasInside s.contains = true) : w.size < (s.apply t).size := by
  induction t with
  | iri | literal | none | blank | var => cases inside
  | list items ih =>
      rw [apply_list_of_unbound unbound]
      obtain ⟨t, ht, inside⟩ := Term.hasInside_list.mp inside
      refine Nat.lt_of_le_of_lt ?_ (Term.size_lt_list (List.mem_map_of_mem ht))
      cases known : s.get? t with
      | some u => rw [apply_of_bound known, value t u known]
      | none =>
          have deeper : t.hasInside s.contains = true := by
            simpa [contains, known] using inside
          exact (ih t ht known deeper).le

/-- A term that has the value already keeps it if nothing inside is replaced, and only then. -/
theorem apply_beq_of_unbound (value : ∀ k u, s.get? k = some u → u = w)
    (unbound : s.get? t = none) (same : (t == w) = true) :
    (s.apply t == w) = !t.hasInside s.contains := by
  cases inside : t.hasInside s.contains with
  | false => rw [apply_eq_self unbound inside, same]; rfl
  | true =>
      refine Bool.eq_false_iff.mpr fun kept => ?_
      have grown := size_lt_apply value unbound inside
      exact absurd (Term.size_of_same kept) grown.ne'

end Substitution

/-- The first term is the unified term already, and the second lies inside of it. -/
def Term.encloses (unified outer inner : Term) : Bool :=
  outer == unified && outer.hasInside (· == inner)

theorem Term.size_lt_of_encloses {w t u : Term} (encloses : w.encloses t u = true) :
    u.size < t.size := by
  obtain ⟨v, same, smaller⟩ := exists_of_hasInside (Bool.and_eq_true_iff.mp encloses).2
  rwa [size_of_same same] at smaller

namespace Relation

open Substitution

variable {a b w : Term} {s : Substitution}

/-- The unifier binds the terms that are not the unified term, to the unified term. -/
theorem get?_unifierOf (a b w k : Term) : (unifierOf a b w).get? k =
    if (k == a && !(a == w)) || (k == b && !(b == w)) then some w else none := by
  unfold unifierOf
  cases a == w <;> cases b == w <;>
    cases first : k == a <;> cases second : k == b <;> simp [get?_insert, first, second]

theorem apply_beq_of_takes (takes : ∀ k, s.get? k =
      if (k == a && !(a == w)) || (k == b && !(b == w)) then some w else none) :
    (s.apply a == w) = !w.encloses a b := by
  have value (k u) (bound : s.get? k = some u) : u = w := by
    rw [takes] at bound
    exact (Option.some.inj (Option.ite_none_right_eq_some.mp bound).2).symm
  unfold Term.encloses
  cases same : a == w with
  | false =>
      have bound : s.get? a = some w := by rw [takes, same, BEq.rfl]; rfl
      rw [apply_of_bound bound, BEq.rfl]
      rfl
  | true =>
      cases other : b == w with
      | true =>
          have unbound (k) : s.get? k = none := by rw [takes, same, other]; simp
          have free : a.hasInside (· == b) = false := by
            refine Bool.eq_false_iff.mpr fun inside => ?_
            obtain ⟨u, near, smaller⟩ := Term.exists_of_hasInside inside
            have here : (u == a) = true := BEq.trans near (BEq.trans other (BEq.symm same))
            exact absurd (Term.size_of_same here) smaller.ne
          have nothing : a.hasInside s.contains = false := by
            refine Bool.eq_false_iff.mpr fun inside => ?_
            obtain ⟨u, bound, -⟩ := Term.exists_of_hasInside inside
            rw [contains, unbound] at bound
            cases bound
          rw [apply_eq_self (unbound a) nothing, same, free]
          rfl
      | false =>
          have keys : s.contains = (· == b) := funext fun k => by
            rw [contains, takes, same, other]
            cases k == b <;> simp
          have apart : (a == b) = false := by
            rw [BEq.congr_left same, BEq.comm]
            exact other
          have unbound : s.get? a = none := by rw [takes, same, other, apart]; simp
          rw [apply_beq_of_unbound value unbound same, keys]
          rfl

/-- The unifier takes both terms to the unified term, unless one encloses the other. -/
theorem apply_unifierOf (a b w : Term) :
    ((unifierOf a b w).apply a == w) = !w.encloses a b ∧
      ((unifierOf a b w).apply b == w) = !w.encloses b a := by
  refine ⟨apply_beq_of_takes (get?_unifierOf a b w), apply_beq_of_takes fun k => ?_⟩
  rw [get?_unifierOf, Bool.or_comm]

/-- The unifier takes both terms to the same one just where neither encloses the other. -/
theorem apply_unifierOf_beq (a b w : Term) :
    ((unifierOf a b w).apply a == (unifierOf a b w).apply b) =
      !(w.encloses a b || w.encloses b a) := by
  obtain ⟨first, second⟩ := apply_unifierOf a b w
  cases outer : w.encloses a b with
  | true =>
      have inner : w.encloses b a = false := Bool.eq_false_iff.mpr fun inner =>
        absurd (Term.size_lt_of_encloses outer) (Term.size_lt_of_encloses inner).not_gt
      rw [inner] at second
      rw [BEq.congr_right second, first, outer]
      rfl
  | false =>
      rw [outer] at first
      rw [BEq.congr_left first, BEq.comm, second]
      rfl

variable {t : Tuple} {x y unifier : Var} {u v : Term}

theorem run_unifiesTerms_free (store : Store) (first : t.get? x = some (.term u))
    (second : t.get? y = some (.term v)) (free : t.get? unifier = none) :
    (unifiesTerms x y unifier).run store t =
      .ok ((u.unify? v).map fun w => t.bind unifier (.substitution (unifierOf u v w))).toList := by
  simp only [run, runUnifiesTerms, Tuple.term_eq_ok.mpr first, Tuple.term_eq_ok.mpr second,
    Tuple.hasBound, free, Bind.bind, Except.bind, Option.isSome_none, Bool.false_eq_true, if_false]
  cases u.unify? v <;> rfl

theorem run_unifiesTerms_bound (store : Store) (first : t.get? x = some (.term u))
    (second : t.get? y = some (.term v)) (bound : t.get? unifier = some (.substitution s)) :
    (unifiesTerms x y unifier).run store t = .ok (keepIf t (s.apply u == s.apply v)) := by
  simp only [run, runUnifiesTerms, Tuple.term_eq_ok.mpr first, Tuple.term_eq_ok.mpr second,
    Tuple.hasBound, bound, Tuple.substitution_eq_ok.mpr bound]
  rfl

/-- A unifier that is bound takes both terms to the unified term and passes when it is checked,
unless one of the terms encloses the other; then it does neither. -/
theorem unifiesTerms_again (store : Store) (first : t.get? x = some (.term u))
    (second : t.get? y = some (.term v)) (free : t.get? unifier = none) :
    ∃ found, (unifiesTerms x y unifier).run store t = .ok found ∧
      ∀ t' ∈ found, ∃ w s, u.unify? v = some w ∧ t' = t.bind unifier (.substitution s) ∧
        match w.encloses u v || w.encloses v u with
        | false => (s.apply u == w) = true ∧ (s.apply v == w) = true ∧
            (s.apply u == s.apply v) = true ∧
            (unifiesTerms x y unifier).run store t' = .ok [t']
        | true => (s.apply u == s.apply v) = false ∧
            (unifiesTerms x y unifier).run store t' = .ok [] := by
  refine ⟨_, run_unifiesTerms_free store first second free, fun t' here => ?_⟩
  obtain ⟨w, unify, rfl⟩ := Option.map_eq_some_iff.mp (Option.mem_toList.mp here)
  refine ⟨w, _, unify, rfl, ?_⟩
  have kept {z : Var} {value : Value} (known : t.get? z = some value) :
      (t.bind unifier (.substitution (unifierOf u v w))).get? z = some value := by
    rw [Tuple.get?_bind, if_neg]
    · exact known
    · rintro rfl
      rw [free] at known
      cases known
  have again := run_unifiesTerms_bound store (kept first) (kept second)
    (by rw [Tuple.get?_bind, if_pos rfl])
  have same := apply_unifierOf_beq u v w
  rw [again]
  cases nested : w.encloses u v || w.encloses v u with
  | true =>
      rw [nested] at same
      exact ⟨same, by rw [same]; rfl⟩
  | false =>
      obtain ⟨outer, inner⟩ := Bool.or_eq_false_iff.mp nested
      obtain ⟨here, there⟩ := apply_unifierOf u v w
      rw [nested] at same
      rw [outer] at here
      rw [inner] at there
      exact ⟨here, there, same, by rw [same]; rfl⟩

/-- A row of which the second place is not known. -/
def leftRow : Term := .list [.iri "north", .var ⟨"east", .top⟩]

/-- A row of which the first place is not known. -/
def rightRow : Term := .list [.var ⟨"north", .top⟩, .iri "east"]

/-- What the two rows unify to. -/
def wholeRow : Term := .list [.iri "north", .iri "east"]

/-- The rows as the relation is given them. -/
def rows : Tuple :=
  (Tuple.empty.bind (.named "Left") (.term leftRow)).bind (.named "Right") (.term rightRow)

/-- The rows with the unifier that it finds. -/
def unifiedRows : Tuple :=
  rows.bind (.named "U") (.substitution ⟨[(rightRow, wholeRow), (leftRow, wholeRow)]⟩)

/-- Neither row encloses the other, so the relation confirms its unifier. -/
theorem unifiesTerms_again_rows :
    rows.get? (.named "Left") = some (.term leftRow) ∧
    rows.get? (.named "Right") = some (.term rightRow) ∧ rows.get? (.named "U") = none ∧
    wholeRow.encloses leftRow rightRow = false ∧ wholeRow.encloses rightRow leftRow = false ∧
    (unifiesTerms (.named "Left") (.named "Right") (.named "U")).run (.empty .standard)
      rows = .ok [unifiedRows] ∧
    (unifiesTerms (.named "Left") (.named "Right") (.named "U")).run (.empty .standard)
      unifiedRows = .ok [unifiedRows] := by
  have first : rows.get? (.named "Left") = some (.term leftRow) := rfl
  have second : rows.get? (.named "Right") = some (.term rightRow) := rfl
  have free : rows.get? (.named "U") = none := rfl
  have run : (unifiesTerms (.named "Left") (.named "Right") (.named "U")).run
    (.empty .standard) rows = .ok [unifiedRows] := rfl
  have apart : wholeRow.encloses leftRow rightRow = false := by decide
  have apart' : wholeRow.encloses rightRow leftRow = false := by decide
  obtain ⟨found, run', again⟩ := unifiesTerms_again (.empty .standard) first second free
  obtain rfl := Except.ok.inj (run.symm.trans run')
  obtain ⟨w, s, unify, -, passes⟩ := again unifiedRows List.mem_cons_self
  obtain rfl : wholeRow = w := Option.some.inj unify
  rw [apart, apart'] at passes
  exact ⟨first, second, free, apart, apart', run, passes.2.2.2⟩

/-- A list of one variable, and the variable. -/
def wrapped : Tuple :=
  (Tuple.empty.bind (.named "Left") (.term (.list [.var ⟨"x", .top⟩]))).bind (.named "Right")
    (.term (.var ⟨"x", .top⟩))

/-- The variable is taken to the list, and the list to a list of the list. -/
theorem not_unifiesTerms_again_wrapped :
    ¬ ∀ (store : Store) (t : Tuple) (x y unifier : Var) (u v : Term),
      t.get? x = some (.term u) → t.get? y = some (.term v) → t.get? unifier = none →
      ∀ found, (unifiesTerms x y unifier).run store t = .ok found → ∀ t' ∈ found,
        ∀ s, t'.get? unifier = some (.substitution s) → (s.apply u == s.apply v) = true ∧
          (unifiesTerms x y unifier).run store t' = .ok [t'] := by
  intro again
  have same := (again (.empty .standard) wrapped (.named "Left") (.named "Right") (.named "U")
    _ _ rfl rfl rfl _ rfl _ List.mem_cons_self _ rfl).1
  exact absurd same (by decide)

end Relation

end RdfTemplates
