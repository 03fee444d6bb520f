import RdfTemplates.Proofs.Matching.Valuations

/-!
# What a matching binds

Matching one term with another asks for a binding of each variable and blank node of
the first, from left to right, and no others; what it yields is the result of adding
these one after the other. A substitution that takes the first term to the second one
need not bind them all, for it leaves alone what it does not bind. Still it says what
becomes of each, and so does the matching: where there is any such substitution, there
is a matching, and the two agree.
-/

namespace RdfTemplates

namespace Term

/-- The variables and the blank nodes of a term. -/
def names (t : Term) : List Term := t.vars.map .var ++ t.blanks.map .blank

theorem isVar_or_isBlank_of_same {t u : Term} (same : (t == u) = true)
    (name : u.isVar = true ∨ u.isBlank = true) : t.isVar = true ∨ t.isBlank = true := by
  cases t <;> cases u <;> simp_all [sameUnder_untyped _ _, untyped, isVar, isBlank]

mutual
/-- The bindings that turning one term into another asks for, from left to right. -/
def demands? : Term → Term → Option (List (Term × Term))
  | .var x, u => some [(.var x, u)]
  | .blank b, .blank c => some [(.blank b, .blank c)]
  | .list ts, .list us => demandsAll? ts us
  | t, u => if t == u then some [] else Option.none
def demandsAll? : List Term → List Term → Option (List (Term × Term))
  | [], [] => some []
  | t :: ts, u :: us => do
      let first ← demands? t u
      let rest ← demandsAll? ts us
      return first ++ rest
  | _, _ => Option.none
end

variable {t u k : Term} {ts us : List Term} {ds : List (Term × Term)}

theorem mem_names : k ∈ t.names ↔
    (∃ x ∈ t.vars, .var x = k) ∨ ∃ b ∈ t.blanks, .blank b = k := by
  simp [names]

theorem isVar_or_isBlank_of_mem_names (listed : k ∈ t.names) :
    k.isVar = true ∨ k.isBlank = true := by
  rcases mem_names.mp listed with ⟨x, -, rfl⟩ | ⟨b, -, rfl⟩
  · exact .inl rfl
  · exact .inr rfl

theorem mem_names_list : k ∈ (Term.list ts).names ↔ ∃ t ∈ ts, k ∈ t.names := by
  simp only [mem_names, vars, blanks, mem_varsAll, mem_blanksAll]
  constructor
  · rintro (⟨x, ⟨t, ht, hx⟩, same⟩ | ⟨b, ⟨t, ht, hb⟩, same⟩)
    · exact ⟨t, ht, .inl ⟨x, hx, same⟩⟩
    · exact ⟨t, ht, .inr ⟨b, hb, same⟩⟩
  · rintro ⟨t, ht, ⟨x, hx, same⟩ | ⟨b, hb, same⟩⟩
    · exact .inl ⟨x, ⟨t, ht, hx⟩, same⟩
    · exact .inr ⟨b, ⟨t, ht, hb⟩, same⟩

theorem demandsAll?_cons : demandsAll? (t :: ts) (u :: us) =
    (demands? t u).bind fun first => (demandsAll? ts us).map (first ++ ·) := by
  rw [demandsAll?]
  cases demands? t u <;> cases demandsAll? ts us <;> rfl

/-- What two lists of terms ask for is put together from what their terms ask for, each with the
one in its place. -/
theorem exists_parts_of_demandsAll? (found : demandsAll? ts us = some ds) :
    ∃ parts : List ((Term × Term) × List (Term × Term)), parts.map (·.1.1) = ts ∧
      parts.map (·.1.2) = us ∧ parts.flatMap (·.2) = ds ∧
      ∀ part ∈ parts, part.1.1.demands? part.1.2 = some part.2 := by
  induction ts generalizing us ds with
  | nil =>
      cases us with
      | nil => exact ⟨[], rfl, rfl, Option.some.inj found, nofun⟩
      | cons => cases found
  | cons t ts ih =>
      cases us with
      | nil => cases found
      | cons u us =>
          rw [demandsAll?_cons] at found
          obtain ⟨first, head, found⟩ := Option.bind_eq_some_iff.mp found
          obtain ⟨rest, tail, rfl⟩ := Option.map_eq_some_iff.mp found
          obtain ⟨parts, rfl, rfl, rfl, each⟩ := ih tail
          exact ⟨((t, u), first) :: parts, rfl, rfl, rfl, List.forall_mem_cons.mpr ⟨head, each⟩⟩

theorem keys_demandsAll? (each : ∀ t ∈ ts, ∀ {u ds}, t.demands? u = some ds →
      (k ∈ ds.map (·.1) ↔ k ∈ t.names)) (found : demandsAll? ts us = some ds) :
    k ∈ ds.map (·.1) ↔ ∃ t ∈ ts, k ∈ t.names := by
  obtain ⟨parts, rfl, rfl, rfl, demanded⟩ := exists_parts_of_demandsAll? found
  rw [List.map_flatMap, List.mem_flatMap]
  constructor
  · rintro ⟨part, hp, here⟩
    have listed : part.1.1 ∈ parts.map (·.1.1) := List.mem_map_of_mem hp
    exact ⟨part.1.1, listed, (each _ listed (demanded part hp)).mp here⟩
  · rintro ⟨t, listed, here⟩
    obtain ⟨part, hp, rfl⟩ := List.mem_map.mp listed
    exact ⟨part, hp, (each _ listed (demanded part hp)).mpr here⟩

/-- Each variable and each blank node is asked for, and nothing else. -/
theorem keys_demands? (found : t.demands? u = some ds) :
    k ∈ ds.map (·.1) ↔ k ∈ t.names := by
  induction t generalizing u ds with
  | iri | literal | none =>
      have nothing := (Option.ite_none_right_eq_some.mp found).2
      simp [← Option.some.inj nothing, names, vars, blanks]
  | var x => simp [← Option.some.inj found, names, vars, blanks]
  | blank b =>
      cases u with
      | blank c => simp [← Option.some.inj found, names, vars, blanks]
      | _ => cases found
  | list items ih =>
      cases u with
      | list us => exact (keys_demandsAll? (fun t ht => ih t ht) found).trans mem_names_list.symm
      | _ => cases found

theorem mem_demandsAll? {d : Term × Term} (found : demandsAll? ts us = some ds)
    (asked : d ∈ ds) : ∃ t ∈ ts, ∃ u ∈ us, ∃ es, t.demands? u = some es ∧ d ∈ es := by
  obtain ⟨parts, rfl, rfl, rfl, demanded⟩ := exists_parts_of_demandsAll? found
  obtain ⟨part, hp, here⟩ := List.mem_flatMap.mp asked
  exact ⟨part.1.1, List.mem_map_of_mem hp, part.1.2, List.mem_map_of_mem hp, part.2,
    demanded part hp, here⟩

/-- What a key is asked to be bound to has variables of the second term only. -/
theorem vars_of_mem_demands? {d : Term × Term} (found : t.demands? u = some ds)
    (asked : d ∈ ds) : d.2.vars ⊆ u.vars := by
  induction t generalizing u ds with
  | iri | literal | none =>
      obtain rfl := Option.some.inj (Option.ite_none_right_eq_some.mp found).2
      cases asked
  | var x =>
      obtain rfl := Option.some.inj found
      obtain rfl := List.mem_singleton.mp asked
      exact List.Subset.refl _
  | blank b =>
      cases u with
      | blank c =>
          obtain rfl := Option.some.inj found
          obtain rfl := List.mem_singleton.mp asked
          exact List.Subset.refl _
      | _ => cases found
  | list items ih =>
      cases u with
      | list us =>
          obtain ⟨t, ht, u, hu, es, head, here⟩ := mem_demandsAll? found asked
          exact fun x hx => mem_varsAll.mpr ⟨u, hu, ih t ht head here hx⟩
      | _ => cases found

end Term

namespace Argument

/-- What turning some arguments into other ones asks for; the marks have to agree. -/
def demands? : List Argument → List Argument → Option (List (Term × Term))
  | [], [] => some []
  | a :: as, b :: bs =>
      if a.marked == b.marked then
        (a.term.demands? b.term).bind fun first => (demands? as bs).map (first ++ ·)
      else none
  | _, _ => none

/-- Beside the marks only the terms matter. -/
theorem demandsAll?_terms {as bs : List Argument} {ds : List (Term × Term)}
    (found : demands? as bs = some ds) :
    Term.demandsAll? (as.map (·.term)) (bs.map (·.term)) = some ds := by
  induction as generalizing bs ds with
  | nil =>
      cases bs with
      | nil => exact found
      | cons => cases found
  | cons a as ih =>
      cases bs with
      | nil => cases found
      | cons b bs =>
          have found := (Option.ite_none_right_eq_some.mp found).2
          obtain ⟨first, head, found⟩ := Option.bind_eq_some_iff.mp found
          obtain ⟨rest, tail, rfl⟩ := Option.map_eq_some_iff.mp found
          rw [List.map_cons, List.map_cons, Term.demandsAll?_cons, head, ih tail]
          rfl

end Argument

/-- What turning an argument list into another one asks for; the expanders have to agree. -/
def ArgumentList.demands? (args into : ArgumentList) : Option (List (Term × Term)) :=
  if args.expander == into.expander then Argument.demands? args.arguments into.arguments else none

/-- What turning an instance into another one of the same template asks for. -/
def Instance.demands? (i into : Instance) : Option (List (Term × Term)) :=
  if i.iri == into.iri then i.arguments.demands? into.arguments else none

/-- The variables and the blank nodes of an instance. -/
def Instance.names (i : Instance) : List Term := i.arguments.terms.flatMap Term.names

theorem Instance.demandsAll?_terms {i into : Instance} {ds : List (Term × Term)}
    (found : i.demands? into = some ds) :
    Term.demandsAll? i.arguments.terms into.arguments.terms = some ds :=
  Argument.demandsAll?_terms
    (Option.ite_none_right_eq_some.mp (Option.ite_none_right_eq_some.mp found).2).2

theorem Instance.keys_demands? {i into : Instance} {ds : List (Term × Term)} {k : Term}
    (found : i.demands? into = some ds) : k ∈ ds.map (·.1) ↔ k ∈ i.names := by
  rw [Term.keys_demandsAll? (fun _ _ _ _ => Term.keys_demands?) (demandsAll?_terms found), names,
    List.mem_flatMap]

theorem Instance.vars_of_mem_demands? {i into : Instance} {ds : List (Term × Term)}
    {d : Term × Term} (found : i.demands? into = some ds) (asked : d ∈ ds) :
    d.2.vars ⊆ into.vars := by
  obtain ⟨t, -, u, hu, es, demanded, here⟩ :=
    Term.mem_demandsAll? (demandsAll?_terms found) asked
  exact fun x hx => Instance.mem_vars.mpr ⟨u, hu, Term.vars_of_mem_demands? demanded here hx⟩

namespace Substitution

variable {s next : Substitution} {t u k : Term} {ds : List (Term × Term)}

/-- Adds one binding after the other. -/
def bindEach? (s : Substitution) (bindings : List (Term × Term)) : Option Substitution :=
  bindings.foldlM (fun s b => s.bind? b.1 b.2) s

theorem bindEach?_append (s : Substitution) (first rest : List (Term × Term)) :
    s.bindEach? (first ++ rest) = (s.bindEach? first).bind (·.bindEach? rest) :=
  List.foldlM_append

theorem bind_bindEach? (s : Substitution) (first rest : Option (List (Term × Term))) :
    ((first.bind s.bindEach?).bind fun s => rest.bind s.bindEach?) =
      (first.bind fun ds => rest.map (ds ++ ·)).bind s.bindEach? := by
  cases first with
  | none => rfl
  | some ds =>
      cases rest with
      | none => exact Option.bind_fun_none _
      | some es => exact (s.bindEach?_append ds es).symm

theorem matchTerms?_eq {ts us : List Term}
    (each : ∀ t ∈ ts, ∀ u s, matchTerm? t u s = (t.demands? u).bind s.bindEach?) :
    matchTerms? ts us s = (Term.demandsAll? ts us).bind s.bindEach? := by
  induction ts generalizing us s with
  | nil => cases us <;> rfl
  | cons t ts ih =>
      cases us with
      | nil => rfl
      | cons u us =>
          have rest : matchTerms? ts us = fun s => (Term.demandsAll? ts us).bind s.bindEach? :=
            funext fun s => ih fun t ht => each t (List.mem_cons_of_mem _ ht)
          rw [matchTerms?, each t List.mem_cons_self, rest, bind_bindEach?, Term.demandsAll?_cons]

theorem guard_bindEach? (s : Substitution) (test : Bool) :
    (if test then some s else none) = (if test then some [] else none).bind s.bindEach? := by
  cases test <;> rfl

theorem bind?_eq_bindEach? (s : Substitution) (key value : Term) :
    s.bind? key value = s.bindEach? [(key, value)] := by
  simp [bindEach?]

theorem matchTerm?_eq (t u : Term) (s : Substitution) :
    matchTerm? t u s = (t.demands? u).bind s.bindEach? := by
  induction t generalizing u s with
  | iri | literal | none => exact s.guard_bindEach? _
  | var x => exact s.bind?_eq_bindEach? _ _
  | blank b =>
      cases u with
      | blank c => exact s.bind?_eq_bindEach? _ _
      | _ => rfl
  | list items ih =>
      cases u with
      | list us => exact matchTerms?_eq ih
      | _ => rfl

theorem matchEach?_eq (as bs : List Argument) (s : Substitution) :
    matchEach? as bs s = (Argument.demands? as bs).bind s.bindEach? := by
  induction as generalizing bs s with
  | nil => cases bs <;> rfl
  | cons a as ih =>
      cases bs with
      | nil => rfl
      | cons b bs =>
          have rest : matchEach? as bs = fun s => (Argument.demands? as bs).bind s.bindEach? :=
            funext (ih bs)
          rw [matchEach?, Argument.demands?]
          split
          · rw [matchTerm?_eq, rest, bind_bindEach?]
          · rfl

theorem matchArguments?_eq (args into : ArgumentList) (s : Substitution) :
    matchArguments? args into s = (args.demands? into).bind s.bindEach? := by
  unfold matchArguments? ArgumentList.demands?
  split
  · exact matchEach?_eq _ _ s
  · rfl

theorem matchInstance?_eq (i into : Instance) (s : Substitution) :
    matchInstance? i into s = (i.demands? into).bind s.bindEach? := by
  unfold matchInstance? Instance.demands?
  split
  · exact matchArguments?_eq _ _ s
  · rfl

theorem contains_insert (s : Substitution) (key value k : Term) :
    (s.insert key value).contains k = (k == key || s.contains k) := by
  unfold contains
  rw [get?_insert]
  split
  · rename_i same
    rw [same, Bool.true_or]
    rfl
  · rename_i other
    rw [Bool.eq_false_iff.mpr other, Bool.false_or]

theorem contains_of_bind? {key value : Term} (found : s.bind? key value = some next) :
    next.contains k = (k == key || s.contains k) := by
  rcases bind?_cases found with ⟨existing, bound, -, rfl⟩ | ⟨-, rfl⟩
  · by_cases same : (k == key) = true
    · rw [contains, get?_congr next same, bound, same]
      rfl
    · rw [Bool.eq_false_iff.mpr same, Bool.false_or]
  · exact s.contains_insert key value k

theorem contains_of_bindEach? (found : s.bindEach? ds = some next) :
    next.contains k = ((ds.map (·.1)).contains k || s.contains k) := by
  induction ds generalizing s with
  | nil =>
      obtain rfl := Option.some.inj found
      rfl
  | cons d ds ih =>
      obtain ⟨middle, head, tail⟩ := Option.bind_eq_some_iff.mp found
      rw [ih tail, contains_of_bind? head, List.map_cons, List.contains_cons, Bool.or_left_comm,
        Bool.or_assoc]

theorem contains_congr {ts us : List Term} (same : ∀ t, t ∈ ts ↔ t ∈ us) (k : Term) :
    ts.contains k = us.contains k := by
  rw [Bool.eq_iff_iff, List.contains_iff_exists_mem_beq, List.contains_iff_exists_mem_beq]
  simp only [same]

theorem contains_of_matchInstance? {i into : Instance}
    (found : matchInstance? i into s = some next) :
    next.contains k = (i.names.contains k || s.contains k) := by
  rw [matchInstance?_eq] at found
  obtain ⟨ds, asked, found⟩ := Option.bind_eq_some_iff.mp found
  rw [contains_of_bindEach? found, contains_congr fun t => Instance.keys_demands? asked]

theorem contains_of_matchTerm? (found : matchTerm? t u s = some next) :
    next.contains k = (t.names.contains k || s.contains k) := by
  rw [matchTerm?_eq] at found
  obtain ⟨ds, asked, found⟩ := Option.bind_eq_some_iff.mp found
  rw [contains_of_bindEach? found, contains_congr fun t => Term.keys_demands? asked]

theorem get?_of_bind? {key value : Term} (found : s.bind? key value = some next)
    (bound : next.get? k = some u) : s.get? k = some u ∨ u = value := by
  rcases bind?_cases found with ⟨-, -, -, rfl⟩ | ⟨-, rfl⟩
  · exact .inl bound
  · rcases get?_insert_cases bound with ⟨-, same⟩ | old
    · exact .inr same
    · exact .inl old

theorem get?_of_bindEach? (found : s.bindEach? ds = some next) (bound : next.get? k = some u) :
    s.get? k = some u ∨ ∃ d ∈ ds, u = d.2 := by
  induction ds generalizing s with
  | nil =>
      obtain rfl := Option.some.inj found
      exact .inl bound
  | cons d ds ih =>
      obtain ⟨middle, head, tail⟩ := Option.bind_eq_some_iff.mp found
      rcases ih tail with before | ⟨e, he, same⟩
      · rcases get?_of_bind? head before with old | same
        · exact .inl old
        · exact .inr ⟨d, List.mem_cons_self, same⟩
      · exact .inr ⟨e, List.mem_cons_of_mem d he, same⟩

open MatchingSearch in
theorem vars_of_pairs {is js : List Instance} (pairs : Pairs matchInstance? is js s next)
    (bound : next.get? k = some u) : s.get? k = some u ∨ ∃ j ∈ js, u.vars ⊆ j.vars := by
  induction pairs with
  | nil => exact .inl bound
  | cons choice head _ ih =>
      obtain ⟨listed, others⟩ := mem_of_mem_choices choice
      rcases ih bound with before | ⟨j, hj, sub⟩
      · rw [matchInstance?_eq] at head
        obtain ⟨ds, asked, added⟩ := Option.bind_eq_some_iff.mp head
        rcases get?_of_bindEach? added before with old | ⟨d, hd, rfl⟩
        · exact .inl old
        · exact .inr ⟨_, listed, Instance.vars_of_mem_demands? asked hd⟩
      · exact .inr ⟨j, others j hj, sub⟩

/-- What is bound has the variables of an instance of the second body, as they are there. -/
theorem vars_of_mem_matchBodies {body into : List Instance} (found : s ∈ matchBodies body into)
    (bound : s.get? k = some u) : ∃ j ∈ into, u.vars ⊆ j.vars := by
  have pairs := MatchingSearch.pairs_of_run (mem_matchBodies.mp found).2
  rcases vars_of_pairs pairs bound with old | ⟨j, hj, sub⟩
  · cases old
  · exact ⟨j, mem_trialOrder.mp hj, sub⟩

/-- Only variables and blank nodes are bound, and blank nodes to blank nodes. -/
structure Keyed (s : Substitution) : Prop where
  keys : ∀ k u, s.get? k = some u → k.isVar = true ∨ k.isBlank = true
  blanks : ∀ b u, s.get? (.blank b) = some u → ∃ c, u = .blank c

/-- What the substitution makes of variables and blank nodes, bound or not. -/
def rewriting (s : Substitution) : Valuation where
  value label := s.apply (.var ⟨label, .top⟩)
  blank b := match s.apply (.blank b) with
    | .blank c => c
    | _ => b

theorem Proper.keyed (proper : s.Proper) : s.Keyed where
  keys k u bound := by
    obtain ⟨key, listed, same⟩ := exists_mem_of_get? bound
    rcases proper.keys key u listed with isVar | ⟨b, c, rfl, rfl⟩
    · exact Term.isVar_or_isBlank_of_same same (.inl isVar)
    · exact Term.isVar_or_isBlank_of_same same (.inr rfl)
  blanks b u bound := by
    obtain ⟨key, listed, same⟩ := exists_mem_of_get? bound
    rcases proper.keys key u listed with isVar | ⟨_, c, -, rfl⟩
    · cases key with
      | var => cases same
      | _ => cases isVar
    · exact ⟨c, rfl⟩

theorem Keyed.exists_binds (keyed : s.Keyed) : ∃ labels, s.Binds labels := by
  refine ⟨s.bindings.flatMap fun b => b.2.vars.map (·.label), keyed.keys, keyed.blanks, ?_⟩
  intro k u bound x hx
  obtain ⟨key, listed, -⟩ := exists_mem_of_get? bound
  exact List.mem_flatMap.mpr ⟨_, listed, List.mem_map_of_mem hx⟩

theorem untyped_apply_var (s : Substitution) {x y : Variable} (same : x.label = y.label) :
    (s.apply (.var x)).untyped = (s.apply (.var y)).untyped := by
  cases found : s.get? (.var x) with
  | some u => rw [apply_of_bound found, apply_of_bound (s.get?_var same ▸ found)]
  | none =>
      rw [apply_of_unbound found rfl, apply_of_unbound (s.get?_var same ▸ found) rfl,
        Term.untyped, Term.untyped, same]

theorem Keyed.apply_blank (keyed : s.Keyed) (b : String) :
    s.apply (.blank b) = .blank (s.rewriting.blank b) := by
  cases found : s.get? (.blank b) with
  | some u =>
      obtain ⟨c, rfl⟩ := keyed.blanks b u found
      simp [rewriting, apply_of_bound found]
  | none => simp [rewriting, apply_of_unbound found rfl]

/-- Filled in by what becomes of its names, a term is what the substitution makes of it. -/
theorem Keyed.untyped_fill (keyed : s.Keyed) (t : Term) :
    (t.fill s.rewriting.filling).untyped = (s.apply t).untyped := by
  obtain ⟨labels, binds⟩ := keyed.exists_binds
  induction t with
  | iri | literal | none =>
      rw [apply_leaf binds rfl rfl rfl]
      rfl
  | var x => exact s.untyped_apply_var rfl
  | blank b => rw [keyed.apply_blank, Term.fill, Valuation.filling_blank]
  | list items ih =>
      rw [Term.fill_list, apply_list binds, applyAll_eq_map]
      simpa [Term.untyped, Term.untypedAll_eq_map] using ih

theorem Keyed.fill_beq (keyed : s.Keyed) {t u : Term} :
    (t.fill s.rewriting.filling == u) = true ↔ (s.apply t == u) = true := by
  rw [Term.sameUnder_untyped, Term.sameUnder_untyped, keyed.untyped_fill]

theorem Proper.holdsOf_rewriting (proper : s.Proper) : s.HoldsOf s.rewriting := by
  rintro ⟨k, u⟩ listed
  refine proper.keyed.fill_beq.mpr ?_
  rw [apply_of_bound (proper.isMap.get?_of_mem listed)]
  exact BEq.rfl

/-- A matching turns the first term into the second and binds its variables and blank nodes and
no others. Any substitution that turns the one into the other, whether it binds all of these or
not, does to each of them what the matching does, so that there is a matching. -/
theorem matchTerm?_principal (t u : Term) :
    (∀ s, matchTerm? t u .empty = some s →
      (s.apply t == u) = true ∧ ∀ k, s.contains k = t.names.contains k) ∧
    ∀ r : Substitution, r.Keyed → (r.apply t == u) = true →
      ∃ s, matchTerm? t u .empty = some s ∧ ∀ k ∈ t.names, (s.apply k == r.apply k) = true := by
  constructor
  · intro s found
    have proper := (matchTerm?_exact t u).proper found proper_empty
    have turns := ((matchTerm?_exact t u).sound found proper.holdsOf_rewriting).2
    refine ⟨proper.keyed.fill_beq.mp turns, fun k => ?_⟩
    rw [contains_of_matchTerm? found]
    exact Bool.or_false _
  · intro r keyed turns
    obtain ⟨s, found, holds⟩ :=
      (matchTerm?_exact t u).complete (holdsOf_empty r.rewriting) (keyed.fill_beq.mpr turns)
    refine ⟨s, found, fun k listed => ?_⟩
    have bound : s.contains k = true := by
      rw [contains_of_matchTerm? found, List.contains_iff_exists_mem_beq.mpr ⟨k, listed, BEq.rfl⟩,
        Bool.true_or]
    obtain ⟨v, bound⟩ := Option.isSome_iff_exists.mp bound
    rw [apply_of_bound bound]
    exact BEq.symm (keyed.fill_beq.mp (holds.get? bound))

/-- Takes the variable on the left to the one on the right. -/
def renamesFirst : Substitution := ⟨[(.var ⟨"left", .top⟩, .var ⟨"right", .top⟩)]⟩

/-- A list with one variable around the other, which has a blank node beside it. -/
def both (left right : String) : Term :=
  .list [.var ⟨left, .top⟩, .list [.blank "kept", .var ⟨right, .top⟩], .var ⟨left, .top⟩]

/-- Its one key is a variable. -/
theorem keyed_renamesFirst : renamesFirst.Keyed := by
  constructor
  · intro k u bound
    obtain ⟨key, listed, same⟩ := exists_mem_of_get? bound
    obtain rfl := (Prod.mk.inj (List.mem_singleton.mp listed)).1
    exact Term.isVar_or_isBlank_of_same same (.inl rfl)
  · exact fun b u bound => nomatch bound

/-- Two variables can be taken to one, and one cannot be taken to two. -/
theorem matchTerm?_principal_both :
    renamesFirst.Keyed ∧
    (renamesFirst.apply (both "left" "right") == both "right" "right") = true ∧
    (∃ s, matchTerm? (both "left" "right") (both "right" "right") .empty = some s ∧
      (∀ k ∈ (both "left" "right").names, (s.apply k == renamesFirst.apply k) = true) ∧
      ∀ k, s.contains k = (both "left" "right").names.contains k) ∧
    matchTerm? (both "left" "left") (both "left" "right") .empty = none := by
  have ⟨sound, complete⟩ := matchTerm?_principal (both "left" "right") (both "right" "right")
  have turns : (renamesFirst.apply (both "left" "right") == both "right" "right") = true := rfl
  obtain ⟨s, found, agrees⟩ := complete renamesFirst keyed_renamesFirst turns
  exact ⟨keyed_renamesFirst, turns, ⟨s, found, agrees, (sound s found).2⟩, rfl⟩

end Substitution

end RdfTemplates
