import RdfTemplates.MatchingSearch
import RdfTemplates.Proofs.Freshening
import RdfTemplates.Proofs.Ordering

/-!
# What a matching binds

A matching grows by bindings of variables and of blank nodes, these to blank
nodes, and keeps the ones it has. The first side of what was matched, with the
bindings put in, is the second side, however the matching grows afterwards. So
a matching that the search found takes every source to one of the targets.
-/

namespace RdfTemplates

namespace Substitution

/-- Variables and blank nodes are bound, these to blank nodes, and the variables of what they
are bound to have some of the labels. -/
structure Binds (s : Substitution) (labels : List String) : Prop where
  keys : ∀ k u, s.get? k = some u → k.isVar = true ∨ k.isBlank = true
  blanks : ∀ b u, s.get? (.blank b) = some u → ∃ c, u = .blank c
  vars : ∀ k u, s.get? k = some u → ∀ x ∈ u.vars, x.label ∈ labels

/-- All bindings are still there. -/
def Extends (s next : Substitution) : Prop := ∀ k u, s.get? k = some u → next.get? k = some u

/-- A matching has grown so that it accounts for something, and will do so when it grows on. -/
structure Grows (s next : Substitution) (labels blanks : List String)
    (accounts : Substitution → Prop) : Prop where
  binds : next.Binds labels
  kept : s.Extends next
  bound : ∀ b ∈ blanks, (next.get? (.blank b)).isSome
  accounts : ∀ last, next.Extends last → last.Binds labels → accounts last

variable {s next last : Substitution} {labels : List String}

theorem Extends.refl (s : Substitution) : s.Extends s := fun _ _ h => h

theorem Extends.trans (first : s.Extends next) (second : next.Extends last) : s.Extends last :=
  fun k u h => second k u (first k u h)

theorem Extends.isSome (grown : s.Extends next) {k : Term} (bound : (s.get? k).isSome) :
    (next.get? k).isSome := by
  obtain ⟨u, bound⟩ := Option.isSome_iff_exists.mp bound
  rw [grown k u bound]
  rfl

theorem binds_empty (labels : List String) : empty.Binds labels :=
  ⟨nofun, nofun, nofun⟩

theorem Grows.refl (binds : s.Binds labels) {accounts : Substitution → Prop}
    (always : ∀ last, last.Binds labels → accounts last) : s.Grows s labels [] accounts :=
  ⟨binds, .refl s, nofun, fun last _ => always last⟩

/-- One matching after the other binds what both of them bind. -/
theorem Grows.trans {blanks others : List String} {P Q R : Substitution → Prop}
    (first : s.Grows next labels blanks P) (second : next.Grows last labels others Q)
    (both : ∀ s, P s → Q s → R s) : s.Grows last labels (blanks ++ others) R where
  binds := second.binds
  kept := first.kept.trans second.kept
  bound b hb := by
    rcases List.mem_append.mp hb with hb | hb
    · exact second.kept.isSome (first.bound b hb)
    · exact second.bound b hb
  accounts final grown binds :=
    both final (first.accounts final (second.kept.trans grown) binds)
      (second.accounts final grown binds)

theorem Grows.imp {blanks : List String} {P Q : Substitution → Prop}
    (grows : s.Grows next labels blanks P) (weaker : ∀ s, P s → Q s) :
    s.Grows next labels blanks Q :=
  ⟨grows.binds, grows.kept, grows.bound,
    fun last grown binds => weaker last (grows.accounts last grown binds)⟩

/-- What is bound is taken to its binding as a whole. -/
theorem apply_of_bound {t u : Term} (bound : s.get? t = some u) : s.apply t = u := by
  unfold apply
  rw [bound]

theorem get?_leaf (binds : s.Binds labels) {t : Term} (notVar : t.isVar = false)
    (notBlank : t.isBlank = false) : s.get? t = none := by
  by_contra bound
  obtain ⟨u, bound⟩ := Option.ne_none_iff_exists'.mp bound
  rcases binds.keys t u bound with h | h
  · rw [notVar] at h
    cases h
  · rw [notBlank] at h
    cases h

theorem apply_of_unbound {t : Term} (unbound : s.get? t = none) (notList : t.isList = false) :
    s.apply t = t := by
  unfold apply
  rw [unbound]
  cases t with
  | list items => cases notList
  | _ => rfl

theorem apply_leaf (binds : s.Binds labels) {t : Term} (notVar : t.isVar = false)
    (notBlank : t.isBlank = false) (notList : t.isList = false) : s.apply t = t :=
  apply_of_unbound (get?_leaf binds notVar notBlank) notList

theorem applyAll_eq_map (s : Substitution) (ts : List Term) : s.applyAll ts = ts.map s.apply := by
  induction ts with
  | nil => rfl
  | cons t ts ih => rw [applyAll, ih, List.map_cons]

theorem apply_list_of_unbound {items : List Term} (unbound : s.get? (.list items) = none) :
    s.apply (.list items) = .list (items.map s.apply) := by
  rw [apply, unbound, ← applyAll_eq_map]

/-- A list is substituted element by element. -/
theorem apply_list (binds : s.Binds labels) (ts : List Term) :
    s.apply (.list ts) = .list (s.applyAll ts) := by
  rw [apply, get?_leaf binds rfl rfl]

/-- Where all variables are bound, what is bound is filled in. -/
theorem apply_eq_fill (binds : s.Binds labels) (t : Term)
    (bound : ∀ x ∈ t.vars, (s.get? (.var x)).isSome) : s.apply t = t.fill s.reading.filling := by
  induction t with
  | iri | literal | none => exact apply_leaf binds rfl rfl rfl
  | var x =>
      obtain ⟨u, bound⟩ := Option.isSome_iff_exists.mp (bound x (by simp [Term.vars]))
      rw [apply_of_bound bound]
      exact (value_reading bound).symm
  | blank b =>
      cases found : s.get? (.blank b) with
      | none =>
          have same : s.reading.blank b = b := by simp [reading, found]
          rw [apply_of_unbound found rfl, Term.fill, Valuation.filling_blank, same]
      | some u =>
          obtain ⟨c, rfl⟩ := binds.blanks b u found
          rw [apply_of_bound found, Term.fill, Valuation.filling_blank, blank_reading found]
  | list items ih =>
      rw [apply_list binds, applyAll_eq_map, Term.fill_list]
      refine congrArg Term.list (List.map_congr_left fun t ht => ih t ht fun x hx => bound x ?_)
      exact Term.mem_varsAll.mpr ⟨t, ht, hx⟩

theorem beq_list (ts us : List Term) : (Term.list ts == .list us) = (ts == us) := by
  have all : Term.sameAll ts us = (ts == us) := by
    induction ts generalizing us with
    | nil => cases us <;> rfl
    | cons t ts ih =>
        cases us with
        | nil => rfl
        | cons u us =>
            rw [Term.sameAll, ih, List.cons_beq_cons]
            rfl
  exact all

/-- A binding is there already, or it is new. -/
theorem bind?_cases {key value : Term} (found : s.bind? key value = some next) :
    (∃ existing, s.get? key = some existing ∧ (existing == value) = true ∧ next = s) ∨
      (s.get? key = none ∧ next = s.insert key value) := by
  unfold bind? at found
  split at found
  · rename_i existing bound
    split at found
    · rename_i same
      exact .inl ⟨existing, bound, same, (Option.some.inj found).symm⟩
    · cases found
  · rename_i unbound
    exact .inr ⟨unbound, (Option.some.inj found).symm⟩

/-- What is bound after an insertion was inserted or was bound before. -/
theorem get?_insert_cases {key value k u : Term} (bound : (s.insert key value).get? k = some u) :
    ((k == key) = true ∧ u = value) ∨ s.get? k = some u := by
  rw [get?_insert] at bound
  split at bound
  · rename_i same
    exact .inl ⟨same, (Option.some.inj bound).symm⟩
  · exact .inr bound

/-- A new binding accounts for its key. -/
theorem bind?_grows {key value : Term} (binds : s.Binds labels)
    (fits : key.isVar = true ∨ ∃ b c, key = .blank b ∧ value = .blank c)
    (vars : ∀ x ∈ value.vars, x.label ∈ labels) (found : s.bind? key value = some next) :
    s.Grows next labels key.blanks fun last => (last.apply key == value) = true := by
  have self {b : String} (hb : b ∈ key.blanks) : Term.blank b = key := by
    rcases fits with isVar | ⟨c, -, rfl, -⟩
    · cases key with
      | var => cases hb
      | _ => cases isVar
    · rw [List.mem_singleton.mp hb]
  rcases bind?_cases found with ⟨existing, bound, same, rfl⟩ | ⟨unbound, rfl⟩
  · refine ⟨binds, .refl next, fun b hb => by rw [self hb, bound]; rfl, fun last grown _ => ?_⟩
    rwa [apply_of_bound (grown key existing bound)]
  · have here : (s.insert key value).get? key = some value := by
      rw [get?_insert, if_pos BEq.rfl]
    refine ⟨⟨fun k u bound => ?_, fun b u bound => ?_, fun k u bound => ?_⟩, fun k u bound => ?_,
      fun b hb => by rw [self hb, here]; rfl, fun last grown _ => ?_⟩
    · rcases get?_insert_cases bound with ⟨same, -⟩ | old
      · rcases fits with isVar | ⟨b, c, rfl, -⟩
        · cases key with
          | var x => cases k <;> simp_all [Term.sameUnder_untyped _ _, Term.untyped, Term.isVar]
          | _ => cases isVar
        · rw [Freshening.beq_blank.mp same]
          exact .inr rfl
      · exact binds.keys k u old
    · rcases get?_insert_cases bound with ⟨same, rfl⟩ | old
      · rcases fits with isVar | ⟨d, c, -, rfl⟩
        · cases key with
          | var x => simp [Term.sameUnder_untyped _ _, Term.untyped] at same
          | _ => cases isVar
        · exact ⟨c, rfl⟩
      · exact binds.blanks b u old
    · rcases get?_insert_cases bound with ⟨-, rfl⟩ | old
      · exact vars
      · exact binds.vars k u old
    · rw [get?_insert, if_neg, bound]
      intro same
      rw [get?_congr s same, unbound] at bound
      cases bound
    · rw [apply_of_bound (grown key value here)]
      exact BEq.rfl

theorem matchTerms?_grows {ts us : List Term} (binds : s.Binds labels)
    (each : ∀ t ∈ ts, ∀ (u : Term) (s next : Substitution), s.Binds labels →
      (∀ x ∈ u.vars, x.label ∈ labels) → matchTerm? t u s = some next →
      s.Grows next labels t.blanks fun last => (last.apply t == u) = true)
    (vars : ∀ u ∈ us, ∀ x ∈ u.vars, x.label ∈ labels) (found : matchTerms? ts us s = some next) :
    s.Grows next labels (Term.blanksAll ts) fun last => (last.applyAll ts == us) = true := by
  induction ts generalizing us s with
  | nil =>
      cases us with
      | nil =>
          obtain rfl := Option.some.inj found
          exact .refl binds fun _ _ => rfl
      | cons => cases found
  | cons t ts ih =>
      cases us with
      | nil => cases found
      | cons u us =>
          rw [matchTerms?] at found
          obtain ⟨middle, head, tail⟩ := Option.bind_eq_some_iff.mp found
          have first := each t List.mem_cons_self u s middle binds (vars u List.mem_cons_self) head
          have rest := ih first.binds (fun v hv => each v (List.mem_cons_of_mem t hv))
            (fun v hv => vars v (List.mem_cons_of_mem u hv)) tail
          exact first.trans rest fun last here there => by
            rw [applyAll]
            simp [here, there]

theorem leaf_grows {t u : Term} (binds : s.Binds labels)
    (isLeaf : t.isVar = false ∧ t.isBlank = false ∧ t.isList = false)
    (found : (if t == u then some s else none) = some next) :
    s.Grows next labels t.blanks fun last => (last.apply t == u) = true := by
  split at found
  · rename_i same
    obtain rfl := Option.some.inj found
    have bare : t.blanks = [] := by
      cases t with
      | blank => cases isLeaf.2.1
      | list => cases isLeaf.2.2
      | _ => rfl
    rw [bare]
    exact .refl binds fun last binds => by
      rwa [apply_leaf binds isLeaf.1 isLeaf.2.1 isLeaf.2.2]
  · cases found

/-- A matching extends the substitution, binds the blank nodes of the term, and takes it to the
other one. -/
theorem matchTerm?_grows (t u : Term) (binds : s.Binds labels)
    (vars : ∀ x ∈ u.vars, x.label ∈ labels) (found : matchTerm? t u s = some next) :
    s.Grows next labels t.blanks fun last => (last.apply t == u) = true := by
  induction t generalizing u s next with
  | iri | literal | none => exact leaf_grows binds ⟨rfl, rfl, rfl⟩ found
  | var x => exact bind?_grows binds (.inl rfl) vars found
  | blank b =>
      cases u with
      | blank c => exact bind?_grows binds (.inr ⟨b, c, rfl, rfl⟩) vars found
      | _ => cases found
  | list items ih =>
      cases u with
      | list us =>
          have inside (v) (hv : v ∈ us) (x) (hx : x ∈ v.vars) : x.label ∈ labels :=
            vars x (Term.mem_varsAll.mpr ⟨v, hv, hx⟩)
          have grows := matchTerms?_grows binds
            (fun t ht u _ _ binds vars found => ih t ht u binds vars found) inside found
          refine ⟨grows.binds, grows.kept, grows.bound, fun last grown binds => ?_⟩
          rw [apply_list binds, beq_list]
          exact grows.accounts last grown binds
      | _ => cases found

theorem matchEach?_grows {as bs : List Argument} (binds : s.Binds labels)
    (vars : ∀ b ∈ bs, ∀ x ∈ b.term.vars, x.label ∈ labels)
    (found : matchEach? as bs s = some next) :
    s.Grows next labels (as.flatMap (·.term.blanks)) fun last =>
      ((as.map fun a => { a with term := last.apply a.term }) == bs) = true := by
  induction as generalizing bs s with
  | nil =>
      cases bs with
      | nil =>
          obtain rfl := Option.some.inj found
          exact .refl binds fun _ _ => rfl
      | cons => cases found
  | cons a as ih =>
      cases bs with
      | nil => cases found
      | cons b bs =>
          rw [matchEach?] at found
          split at found
          · rename_i marks
            obtain ⟨middle, head, tail⟩ := Option.bind_eq_some_iff.mp found
            have first := matchTerm?_grows a.term b.term binds (vars b List.mem_cons_self) head
            have rest := ih first.binds (fun c hc => vars c (List.mem_cons_of_mem b hc)) tail
            exact first.trans rest fun last here there => by
              have same : (({ a with term := last.apply a.term } : Argument) == b) = true := by
                cases a
                cases b
                exact Bool.and_eq_true_iff.mpr ⟨here, marks⟩
              rw [List.map_cons, List.cons_beq_cons, same, there]
              rfl
          · cases found

/-- The same of instances, argument by argument. -/
theorem matchInstance?_grows {i j : Instance} (binds : s.Binds labels)
    (vars : ∀ x ∈ j.vars, x.label ∈ labels) (found : matchInstance? i j s = some next) :
    s.Grows next labels i.blanks fun last => (last.applyInstance i == j) = true := by
  unfold matchInstance? matchArguments? at found
  split at found
  · rename_i iris
    split at found
    · rename_i expanders
      have each (b) (hb : b ∈ j.arguments.arguments) (x) (hx : x ∈ b.term.vars) :
          x.label ∈ labels :=
        vars x (Instance.mem_vars.mpr ⟨b.term, List.mem_map_of_mem hb, hx⟩)
      have grows := matchEach?_grows binds each found
      have blanks : i.blanks = i.arguments.arguments.flatMap (·.term.blanks) := by
        simp [Instance.blanks, ArgumentList.terms, List.flatMap_map]
      rw [blanks]
      exact grows.imp fun last same => by
        obtain ⟨iri, arguments, expander⟩ := i
        obtain ⟨iri', arguments', expander'⟩ := j
        exact Bool.and_eq_true_iff.mpr ⟨iris, Bool.and_eq_true_iff.mpr ⟨same, expanders⟩⟩
    · cases found
  · cases found

end Substitution

namespace MatchingSearch

variable {α β : Type} {limit : Nat} {matchPair? : α → β → Substitution → Option Substitution}

/-- Each source is paired with a target, one after the other. -/
inductive Pairs (matchPair? : α → β → Substitution → Option Substitution) :
    List α → List β → Substitution → Substitution → Prop where
  | nil (targets : List β) (s : Substitution) : Pairs matchPair? [] targets s s
  | cons {source : α} {sources : List α} {target : β} {targets others : List β}
      {s next last : Substitution} (choice : (target, others) ∈ choices targets)
      (head : matchPair? source target s = some next)
      (tail : Pairs matchPair? sources others next last) :
      Pairs matchPair? (source :: sources) targets s last

theorem mem_of_mem_choices {targets others : List β} {target : β}
    (h : (target, others) ∈ choices targets) :
    target ∈ targets ∧ ∀ other ∈ others, other ∈ targets := by
  induction targets generalizing target others with
  | nil => cases h
  | cons b rest ih =>
      rcases List.mem_cons.mp h with same | h
      · obtain ⟨rfl, rfl⟩ := Prod.mk.inj same
        exact ⟨List.mem_cons_self, fun other h => List.mem_cons_of_mem _ h⟩
      · obtain ⟨⟨c, left⟩, hc, same⟩ := List.mem_map.mp h
        obtain ⟨rfl, rfl⟩ := Prod.mk.inj same
        obtain ⟨listed, kept⟩ := ih hc
        refine ⟨List.mem_cons_of_mem b listed, fun other h => ?_⟩
        rcases List.mem_cons.mp h with rfl | h
        · exact List.mem_cons_self
        · exact List.mem_cons_of_mem b (kept other h)

/-- What is found again is not recorded again. -/
theorem record_cases (s : Substitution) (p : Progress) :
    (∃ t ∈ p.found, (s == t) = true) ∧ record s p = p ∨
      (∀ t ∈ p.found, (s == t) = false) ∧ record s p = { p with found := s :: p.found } := by
  unfold record
  split
  · rename_i met
    exact .inl ⟨List.contains_iff_exists_mem_beq.mp met, rfl⟩
  · rename_i new
    refine .inr ⟨fun t listed => Bool.eq_false_iff.mpr fun same => ?_, rfl⟩
    exact new (List.contains_iff_exists_mem_beq.mpr ⟨t, listed, same⟩)

/-- One attempt, with what follows it. -/
def attempt (limit : Nat) (matchPair? : α → β → Substitution → Option Substitution)
    (onward : List β → Substitution → Progress → Progress) (source : α) (s : Substitution)
    (p : Progress) (choice : β × List β) : Progress :=
  if limit ≤ p.attempts then p
  else
    let p := { p with attempts := p.attempts + 1 }
    match matchPair? source choice.1 s with
    | some s => onward choice.2 s p
    | none => p

/-- A search tries the first source with every target and goes on with the others. -/
theorem search_cons {source : α} {sources : List α} {targets : List β} {s : Substitution}
    (p : Progress) : search limit matchPair? (source :: sources) targets s p =
    (choices targets).foldl
      (attempt limit matchPair? (search limit matchPair? sources) source s) p := rfl

section Attempt

variable {onward : List β → Substitution → Progress → Progress} {source : α}
  {s next : Substitution} {p : Progress} {choice : β × List β}

theorem attempt_of_spent (spent : limit ≤ p.attempts) :
    attempt limit matchPair? onward source s p choice = p := if_pos spent

theorem attempt_of_none (left : p.attempts < limit) (failed : matchPair? source choice.1 s = none) :
    attempt limit matchPair? onward source s p choice =
      { p with attempts := p.attempts + 1 } := by
  rw [attempt, if_neg (Nat.not_le.mpr left), failed]

theorem attempt_of_some (left : p.attempts < limit)
    (matched : matchPair? source choice.1 s = some next) :
    attempt limit matchPair? onward source s p choice =
      onward choice.2 next { p with attempts := p.attempts + 1 } := by
  rw [attempt, if_neg (Nat.not_le.mpr left), matched]

/-- An attempt is not made any more, fails, or goes on with the rest. -/
theorem attempt_cases (onward : List β → Substitution → Progress → Progress) (source : α)
    (s : Substitution) (p : Progress) (choice : β × List β) :
    limit ≤ p.attempts ∧ attempt limit matchPair? onward source s p choice = p ∨
      (p.attempts < limit ∧ matchPair? source choice.1 s = none ∧
        attempt limit matchPair? onward source s p choice =
          { p with attempts := p.attempts + 1 }) ∨
      ∃ next, p.attempts < limit ∧ matchPair? source choice.1 s = some next ∧
        attempt limit matchPair? onward source s p choice =
          onward choice.2 next { p with attempts := p.attempts + 1 } := by
  rcases Nat.lt_or_ge p.attempts limit with left | spent
  · cases tried : matchPair? source choice.1 s with
    | none => exact .inr (.inl ⟨left, rfl, attempt_of_none left tried⟩)
    | some next => exact .inr (.inr ⟨next, left, rfl, attempt_of_some left tried⟩)
  · exact .inl ⟨spent, attempt_of_spent spent⟩

end Attempt

/-- What a sequence of tries finds, one of them finds. -/
theorem found_of_foldl {γ : Type} {try_ : Progress → γ → Progress} {tries : List γ}
    {found : Substitution → Prop} {last : Substitution} {p : Progress}
    (each : ∀ c ∈ tries, ∀ p : Progress, last ∈ (try_ p c).found → last ∈ p.found ∨ found last)
    (h : last ∈ (tries.foldl try_ p).found) : last ∈ p.found ∨ found last := by
  induction tries generalizing p with
  | nil => exact .inl h
  | cons c tries ih =>
      rcases ih (fun d hd => each d (List.mem_cons_of_mem c hd)) h with old | new
      · exact each c List.mem_cons_self p old
      · exact .inr new

/-- Whatever a search finds comes from pairing each source with a target of its own. -/
theorem pairs_of_search {sources : List α} {targets : List β} {s last : Substitution}
    {p : Progress} (found : last ∈ (search limit matchPair? sources targets s p).found) :
    last ∈ p.found ∨ Pairs matchPair? sources targets s last := by
  induction sources generalizing targets s p with
  | nil =>
      rw [search] at found
      rcases record_cases s p with ⟨-, same⟩ | ⟨-, added⟩
      · rw [same] at found
        exact .inl found
      · rw [added] at found
        rcases List.mem_cons.mp found with rfl | old
        · exact .inr (.nil targets last)
        · exact .inl old
  | cons source sources ih =>
      rw [search_cons] at found
      refine found_of_foldl (fun c choice p h => ?_) found
      rcases attempt_cases (search limit matchPair? sources) source s p c with
        ⟨-, stopped⟩ | ⟨-, -, failed⟩ | ⟨next, -, head, onwards⟩
      · rw [stopped] at h
        exact .inl h
      · rw [failed] at h
        exact .inl h
      · rw [onwards] at h
        exact (ih h).imp_right (.cons choice head)

theorem pairs_of_run {sources : List α} {targets : List β} {s : Substitution}
    (found : s ∈ run limit matchPair? sources targets) :
    Pairs matchPair? sources targets .empty s := by
  rcases pairs_of_search (List.mem_reverse.mp found) with old | pairs
  · cases old
  · exact pairs

end MatchingSearch

namespace Substitution

open MatchingSearch

theorem pairs_grows {is js : List Instance} {s next : Substitution} {labels : List String}
    (binds : s.Binds labels) (vars : ∀ j ∈ js, ∀ x ∈ j.vars, x.label ∈ labels)
    (pairs : Pairs matchInstance? is js s next) :
    s.Grows next labels (is.flatMap Instance.blanks) fun last =>
      ∀ i ∈ is, ∃ j ∈ js, (last.applyInstance i == j) = true := by
  induction pairs with
  | nil => exact .refl binds fun _ _ => nofun
  | cons choice head _ ih =>
      obtain ⟨listed, kept⟩ := mem_of_mem_choices choice
      have first := matchInstance?_grows binds (vars _ listed) head
      have rest := ih first.binds fun j hj => vars j (kept j hj)
      exact first.trans rest fun last here there i hi => by
        rcases List.mem_cons.mp hi with rfl | hi
        · exact ⟨_, listed, here⟩
        · obtain ⟨j, hj, same⟩ := there i hi
          exact ⟨j, kept j hj, same⟩

theorem mem_trialOrder {body : List Instance} {i : Instance} : i ∈ trialOrder body ↔ i ∈ body := by
  simp [trialOrder, mem_stableSort]

/-- Bodies are searched through in the order of trial, where there are enough targets. -/
theorem mem_matchBodies {body into : List Instance} {s : Substitution} :
    s ∈ matchBodies body into ↔
      (body ≠ [] ∧ body.length ≤ into.length) ∧
        s ∈ run searchLimit matchInstance? (trialOrder body) (trialOrder into) := by
  unfold matchBodies
  split
  · rename_i none_
    simp only [Bool.or_eq_true, List.isEmpty_iff, decide_eq_true_eq] at none_
    refine ⟨nofun, fun h => ?_⟩
    rcases none_ with empty | short
    · exact absurd empty h.1.1
    · exact absurd h.1.2 (Nat.not_le.mpr short)
  · rename_i some_
    simp only [Bool.or_eq_true, List.isEmpty_iff, decide_eq_true_eq, not_or, Nat.not_lt] at some_
    exact ⟨fun h => ⟨some_, h⟩, fun h => h.2⟩

/-- A matching takes the one body into the other. -/
theorem matched_of_mem_matchBodies {body into : List Instance} {s : Substitution}
    {labels : List String} (vars : ∀ j ∈ into, ∀ x ∈ j.vars, x.label ∈ labels)
    (found : s ∈ matchBodies body into) :
    s.Binds labels ∧ (∀ i ∈ body, ∀ b ∈ i.blanks, (s.get? (.blank b)).isSome) ∧
      ∀ i ∈ body, ∃ j ∈ into, (s.applyInstance i == j) = true := by
  have pairs := pairs_of_run (mem_matchBodies.mp found).2
  have grows := pairs_grows (binds_empty labels) (fun j hj => vars j (mem_trialOrder.mp hj)) pairs
  refine ⟨grows.binds, fun i hi b hb => ?_, fun i hi => ?_⟩
  · exact grows.bound b (List.mem_flatMap.mpr ⟨i, mem_trialOrder.mpr hi, hb⟩)
  · obtain ⟨j, hj, same⟩ := grows.accounts s (.refl s) grows.binds i (mem_trialOrder.mpr hi)
    exact ⟨j, mem_trialOrder.mp hj, same⟩

end Substitution

end RdfTemplates
