import RdfTemplates.Proofs.Expansion.Models

/-!
# Where the blank nodes of a run come from

A body is never passed on with the blank nodes written in it: new ones stand in
their places, one for each label of the body, whenever an instance is looked
into. A blank node as default is a new one as well. So the blank nodes of the
results are those of the instance that was expanded and new ones, and the
instances of a run share no new one, since they use up one supply. A default that
is a list is put in place of `none` as it is written, with the blank nodes in it.
-/

namespace RdfTemplates

namespace BlankSupply

/-- A label that was there at the start, or was handed out since. -/
def Traced (old : String → Prop) (start now : BlankSupply) (b : String) : Prop :=
  old b ∨ start.Minted now b

variable {old : String → Prop} {start now later : BlankSupply} {b : String}

theorem Traced.grow (traced : Traced old start now b) (grows : now.next ≤ later.next) :
    Traced old start later b :=
  traced.imp id fun minted => minted.left grows

theorem traced_label (since : start.next ≤ now.next) :
    Traced old start ⟨now.next + 1⟩ (label now.next) :=
  .inr (now.minted_label.right since)

end BlankSupply

def Instance.Traced (old : String → Prop) (start now : BlankSupply) (i : Instance) : Prop :=
  ∀ b ∈ i.blanks, BlankSupply.Traced old start now b

namespace Substitution

variable {old : String → Prop} {start : BlankSupply}

/-- A default put in place of the argument is no list with a blank node inside. -/
def TakesBare (pair : Argument × Parameter) : Prop :=
  pair.1.term = .none → ∀ d ∈ pair.2.default?, d.isList = true → d.blanks = []

/-- The blank nodes inside a list that is put in place of the argument were there at the start. -/
def TakesOld (old : String → Prop) (pair : Argument × Parameter) : Prop :=
  pair.1.term = .none → ∀ d ∈ pair.2.default?, d.isList = true → ∀ b ∈ d.blanks, old b

theorem TakesBare.takesOld {pair : Argument × Parameter} (bare : TakesBare pair) :
    TakesOld old pair := by
  intro given d has list b hb
  rw [bare given d has list] at hb
  cases hb

theorem traced_received {p : Parameter} {a : Argument} {supply : BlankSupply}
    (takes : TakesOld old (a, p)) (since : start.next ≤ supply.next)
    (argument : ∀ b ∈ a.term.blanks, BlankSupply.Traced old start supply b) :
    ∀ b ∈ (received p a.term supply).1.blanks,
      BlankSupply.Traced old start (received p a.term supply).2 b := by
  unfold received
  split
  · intro b hb
    rw [List.mem_singleton.mp hb]
    exact BlankSupply.traced_label since
  · rename_i d apart given has
    intro b hb
    cases d with
    | list items => exact .inl (takes given _ has rfl b hb)
    | blank c => exact absurd rfl (apart c)
    | _ => cases hb
  · exact argument

namespace Freshening

/-- The blank nodes of what is bound were there at the start or are new. -/
structure Traced (old : String → Prop) (start : BlankSupply) (state : Freshening) : Prop where
  since : start.next ≤ state.supply.next
  values : ∀ k u, state.bindings.get? k = some u →
    ∀ b ∈ u.blanks, BlankSupply.Traced old start state.supply b

/-- What was made on the way from one state to another has these labels. -/
structure Makes (old : String → Prop) (start : BlankSupply) (state next : Freshening)
    (labels : List String) : Prop where
  grows : state.supply.next ≤ next.supply.next
  traced : next.Traced old start
  labels : ∀ b ∈ labels, BlankSupply.Traced old start next.supply b

variable {state next last : Freshening} {pair : Argument × Parameter}

theorem Makes.nil (traced : state.Traced old start) : state.Makes old start state [] :=
  ⟨Nat.le_refl _, traced, nofun⟩

theorem Makes.append {bs cs : List String} (first : state.Makes old start next bs)
    (second : next.Makes old start last cs) : state.Makes old start last (bs ++ cs) := by
  refine ⟨Nat.le_trans first.grows second.grows, second.traced, fun b hb => ?_⟩
  rcases List.mem_append.mp hb with here | there
  · exact (first.labels b here).grow second.grows
  · exact second.labels b there

theorem makes_bound (traced : state.Traced old start) {t u : Term}
    (bound : state.bindings.get? t = some u) :
    state.Makes old start (freshen t state).2 (freshen t state).1.blanks := by
  rw [freshen_bound bound]
  exact ⟨Nat.le_refl _, traced, traced.values t u bound⟩

theorem makes_mintFor (traced : state.Traced old start) (b : String) :
    state.Makes old start (state.mintFor b) [BlankSupply.label state.supply.next] where
  grows := Nat.le_succ _
  traced := by
    refine ⟨Nat.le_succ_of_le traced.since, fun k u bound c hc => ?_⟩
    rcases get?_mintFor bound with ⟨-, rfl⟩ | before
    · rw [List.mem_singleton.mp hc]
      exact BlankSupply.traced_label traced.since
    · exact (traced.values k u before c hc).grow (Nat.le_succ _)
  labels := by
    intro c hc
    rw [List.mem_singleton.mp hc]
    exact BlankSupply.traced_label traced.since

theorem makes_freshenAll {ts : List Term} (each : ∀ t ∈ ts, ∀ state : Freshening,
      state.Traced old start →
      state.Makes old start (freshen t state).2 (freshen t state).1.blanks)
    (traced : state.Traced old start) :
    state.Makes old start (freshenAll ts state).2 (Term.blanksAll (freshenAll ts state).1) := by
  induction ts generalizing state with
  | nil => exact .nil traced
  | cons t ts ih =>
      have first := each t List.mem_cons_self state traced
      exact first.append (ih (fun u hu => each u (List.mem_cons_of_mem t hu)) first.traced)

/-- A blank node without a binding is not passed on, so the term itself may have any. -/
theorem makes_freshen (t : Term) (traced : state.Traced old start) :
    state.Makes old start (freshen t state).2 (freshen t state).1.blanks := by
  induction t generalizing state with
  | blank b =>
      cases known : state.bindings.get? (.blank b) with
      | some u => exact makes_bound traced known
      | none =>
          rw [freshen_blank known]
          exact makes_mintFor traced b
  | list items ih =>
      cases known : state.bindings.get? (.list items) with
      | some u => exact makes_bound traced known
      | none =>
          rw [freshen, known]
          exact makes_freshenAll (fun t ht _ traced => ih t ht traced) traced
  | iri | literal | none | var =>
      cases known : state.bindings.get? _ with
      | some u => exact makes_bound traced known
      | none =>
          rw [freshen_unbound rfl rfl known]
          exact .nil traced

theorem makes_freshenArguments (as : List Argument) (traced : state.Traced old start) :
    state.Makes old start (freshenArguments as state).2
      ((freshenArguments as state).1.flatMap (·.term.blanks)) := by
  induction as generalizing state with
  | nil => exact .nil traced
  | cons a as ih =>
      have first := makes_freshen a.term traced
      exact first.append (ih first.traced)

theorem makes_freshenBody (body : List Instance) (traced : state.Traced old start) :
    state.Makes old start (freshenBody body state).2
      ((freshenBody body state).1.flatMap Instance.blanks) := by
  induction body generalizing state with
  | nil => exact .nil traced
  | cons i body ih =>
      have first := makes_freshenArguments i.arguments.arguments traced
      have made := first.append (ih first.traced)
      have blanks (args : List Argument) : args.flatMap (·.term.blanks) =
          Instance.blanks ⟨i.iri, ⟨args, i.arguments.expander⟩⟩ :=
        (List.flatMap_map ..).symm
      rwa [blanks] at made

theorem Traced.give (traced : state.Traced old start) (takes : TakesOld old pair)
    (argument : ∀ b ∈ pair.1.term.blanks, BlankSupply.Traced old start state.supply b) :
    (state.give pair).Traced old start where
  since := Nat.le_trans traced.since (received_grows _ _ _)
  values := by
    intro k u bound b hb
    rcases get?_give bound with ⟨-, -, -, rfl⟩ | before
    · exact traced_received takes traced.since argument b hb
    · exact (traced.values k u before b hb).grow (received_grows _ _ _)

theorem Traced.give_all {pairs : List (Argument × Parameter)} (traced : state.Traced old start)
    (takes : ∀ pair ∈ pairs, TakesOld old pair) (arguments : ∀ pair ∈ pairs,
      ∀ b ∈ pair.1.term.blanks, BlankSupply.Traced old start state.supply b) :
    (pairs.foldl Freshening.give state).Traced old start := by
  induction pairs generalizing state with
  | nil => exact traced
  | cons pair pairs ih =>
      refine ih (traced.give (takes pair List.mem_cons_self) (arguments pair List.mem_cons_self))
        (fun other h => takes other (List.mem_cons_of_mem pair h)) fun other h b hb => ?_
      exact (arguments other (List.mem_cons_of_mem pair h) b hb).grow (received_grows _ _ _)

end Freshening

theorem traced_empty {supply : BlankSupply} (since : start.next ≤ supply.next) :
    (⟨empty, supply⟩ : Freshening).Traced old start :=
  ⟨since, nofun⟩

theorem traced_applyBody {args : ArgumentList} {ps : ParameterList} {body js : List Instance}
    {s : Substitution} {supply bound left : BlankSupply}
    (ok : ofArguments args ps supply = .ok (s, bound))
    (applied : s.applyBody body bound = (js, left)) (since : start.next ≤ supply.next)
    (takes : ∀ pair ∈ args.arguments.zip ps, TakesOld old pair)
    (arguments : ∀ a ∈ args.arguments, ∀ b ∈ a.term.blanks, BlankSupply.Traced old start supply b) :
    supply.next ≤ left.next ∧ ∀ j ∈ js, j.Traced old start left := by
  obtain ⟨-, rfl, rfl⟩ := eq_given_of_ok ok
  have given : (given args ps supply).Traced old start :=
    (traced_empty since).give_all takes fun pair h => arguments pair.1 (List.of_mem_zip h).1
  have made := Freshening.makes_freshenBody body given
  obtain ⟨rfl, rfl⟩ := Prod.mk.inj applied.symm
  have grows := Nat.le_trans (Freshening.grows_give_all _ ⟨empty, supply⟩) made.grows
  exact ⟨grows, fun j hj b hb => made.labels b (List.mem_flatMap.mpr ⟨j, hj, hb⟩)⟩

end Substitution

namespace Expansion

variable {store : Store} {checks : Bool} {i j : Instance} {old : String → Prop}
variable {start supply left : BlankSupply}

/-- The instances that come up while an instance is expanded. -/
inductive ComesUp (store : Store) (checks : Bool) (i : Instance) : Instance → Prop where
  | self : ComesUp store checks i i
  | next {j k : Instance} {place : List Work} {supply left : BlankSupply}
      (before : ComesUp store checks i j)
      (head : Becomes store checks j supply (.work place) left) (listed : .edge k ∈ place) :
      ComesUp store checks i k

/-- If it is looked into, the instance takes no default that is a list with a blank node inside. -/
def TakesBare (store : Store) (checks : Bool) (i : Instance) : Prop :=
  ∀ ps, store.status? i.iri = some (.definition ps) → InOrder checks ps i →
    ∀ pair ∈ i.arguments.arguments.zip ps, Substitution.TakesBare pair

def TakesBareDefaults (store : Store) (checks : Bool) (i : Instance) : Prop :=
  ∀ j, ComesUp store checks i j → TakesBare store checks j

theorem takesBareDefaults_of_store (bare : ∀ iri ps, store.status? iri = some (.definition ps) →
      ∀ p ∈ ps, ∀ d ∈ p.default?, d.isList = true → d.blanks = []) :
    TakesBareDefaults store checks i :=
  fun _ _ ps defined _ _ pair _ => bare _ ps defined _ (List.of_mem_zip pair).2

/-- If it is looked into, the blank nodes inside a list that it takes as a default are old. -/
def TakesOld (store : Store) (checks : Bool) (old : String → Prop) (i : Instance) : Prop :=
  ∀ ps, store.status? i.iri = some (.definition ps) → InOrder checks ps i →
    ∀ pair ∈ i.arguments.arguments.zip ps, Substitution.TakesOld old pair

theorem TakesBare.takesOld (bare : TakesBare store checks i) : TakesOld store checks old i :=
  fun ps defined inOrder pair h => (bare ps defined inOrder pair h).takesOld

theorem Becomes.traced {place : List Work}
    (head : Becomes store checks i supply (.work place) left) (since : start.next ≤ supply.next)
    (takes : TakesOld store checks old i) (traced : i.Traced old start supply) :
    supply.next ≤ left.next ∧ ∀ j, .edge j ∈ place → j.Traced old start left := by
  cases head with
  | lists =>
      refine ⟨Nat.le_refl _, fun j listed b hb => ?_⟩
      obtain ⟨args, made, rfl⟩ := edge_mem_listWork.mp listed
      exact traced b (mem_blanks_of_step made hb)
  | discarded => exact ⟨Nat.le_refl _, nofun⟩
  | unfolded defined inOrder given applied =>
      have arguments (a) (ha : a ∈ i.arguments.arguments) (b) (hb : b ∈ a.term.blanks) :=
        traced b (Instance.mem_blanks.mpr ⟨a.term, List.mem_map_of_mem ha, hb⟩)
      obtain ⟨grows, body⟩ := Substitution.traced_applyBody given applied since
        (takes _ defined inOrder) arguments
      exact ⟨grows, fun j listed => body j (edge_mem_map.mp listed)⟩

/-- The supply only grows along a run, so what is traced stays traced while it waits. What takes the
place of an instance comes up after it, with the supply that it left. -/
theorem Runs.traced {config : ExpansionConfig} {budget : Nat} {work : List Work}
    {items : List ExpansionItem} (runs : Runs store config budget work supply items left)
    (bare : TakesBareDefaults store config.checkArguments i) (since : start.next ≤ supply.next)
    (pending : ∀ j, .edge j ∈ work →
      ComesUp store config.checkArguments i j ∧ j.Traced old start supply) :
    supply.next ≤ left.next ∧ ∀ o, .ok o ∈ items → o.Traced old start left := by
  induction runs with
  | nil => exact ⟨Nat.le_refl _, nofun⟩
  | failed _ ih =>
      obtain ⟨grows, results⟩ := ih since fun j h => pending j (List.mem_cons_of_mem _ h)
      exact ⟨grows, fun o listed => results o ((List.mem_cons.mp listed).resolve_left nofun)⟩
  | stopped => exact ⟨Nat.le_refl _, fun o listed => nomatch List.mem_singleton.mp listed⟩
  | item head _ ih =>
      obtain rfl := head.supply_eq
      obtain ⟨grows, results⟩ := ih since fun j h => pending j (List.mem_cons_of_mem _ h)
      refine ⟨grows, fun o listed => ?_⟩
      rcases List.mem_cons.mp listed with rfl | later
      · cases head with
        | fact => exact fun b hb => ((pending _ List.mem_cons_self).2 b hb).grow grows
      · exact results o later
  | work head _ ih =>
      obtain ⟨up, traced⟩ := pending _ List.mem_cons_self
      obtain ⟨grows, place⟩ := head.traced since (bare _ up).takesOld traced
      have ⟨more, results⟩ := ih (Nat.le_trans since grows) fun j listed => by
        rcases List.mem_append.mp listed with new | rest
        · exact ⟨.next up head new, place j new⟩
        · obtain ⟨up, traced⟩ := pending j (List.mem_cons_of_mem _ rest)
          exact ⟨up, fun b hb => (traced b hb).grow grows⟩
      exact ⟨Nat.le_trans grows more, results⟩

end Expansion

namespace Store

variable {store : Store} {config : ExpansionConfig} {supply : BlankSupply}

def outputs (items : List ExpansionItem) : List Instance := items.filterMap Except.toOption

/-- The instances of a run, each with the instances it is expanded to. -/
def expandApart (store : Store) (config : ExpansionConfig) : List Instance → BlankSupply →
    List (Instance × List Instance)
  | [], _ => []
  | i :: rest, supply =>
      let (items, supply) := store.expand config i supply
      (i, outputs items) :: expandApart store config rest supply

theorem instances_expandAll (store : Store) (config : ExpansionConfig) (is : List Instance)
    (supply : BlankSupply) : (store.expandAll config is supply).1.instances =
      (store.expandApart config is supply).flatMap (·.2) := by
  change outputs (store.expandEach config is supply).1 = _
  induction is generalizing supply with
  | nil => rfl
  | cons i is ih =>
      rw [expandApart, List.flatMap_cons, ← ih, expandEach]
      exact List.filterMap_append

theorem inputs_expandApart (store : Store) (config : ExpansionConfig) (is : List Instance)
    (supply : BlankSupply) : (store.expandApart config is supply).map (·.1) = is := by
  induction is generalizing supply with
  | nil => rfl
  | cons i is ih => exact congrArg (i :: ·) (ih _)

theorem traced_expand {i : Instance}
    (bare : Expansion.TakesBareDefaults store config.checkArguments i) (supply : BlankSupply) :
    supply.next ≤ (store.expand config i supply).2.next ∧
      ∀ o ∈ outputs (store.expand config i supply).1,
        o.Traced (· ∈ i.blanks) supply (store.expand config i supply).2 := by
  have pending : ∀ j, .edge j ∈ [Work.edge i] →
      Expansion.ComesUp store config.checkArguments i j ∧
        j.Traced (· ∈ i.blanks) supply supply := by
    intro j listed
    obtain rfl := Work.edge.inj (List.mem_singleton.mp listed)
    exact ⟨.self, fun b hb => .inl hb⟩
  obtain ⟨grows, results⟩ :=
    (Expansion.runs_expand store config i supply).traced bare (Nat.le_refl _) pending
  refine ⟨grows, fun o listed => ?_⟩
  obtain ⟨x, hx, same⟩ := List.mem_filterMap.mp listed
  cases x with
  | ok j =>
      rw [← Option.some.inj same]
      exact results j hx
  | error => cases same

variable {is : List Instance}

theorem traced_expandApart
    (bare : ∀ i ∈ is, Expansion.TakesBareDefaults store config.checkArguments i)
    (supply : BlankSupply) :
    supply.next ≤ (store.expandAll config is supply).2.next ∧
      ∀ r ∈ store.expandApart config is supply, ∀ o ∈ r.2,
        o.Traced (· ∈ r.1.blanks) supply (store.expandAll config is supply).2 := by
  induction is generalizing supply with
  | nil => exact ⟨Nat.le_refl _, nofun⟩
  | cons i is ih =>
      obtain ⟨here, first⟩ := traced_expand (bare i List.mem_cons_self) supply
      obtain ⟨rest, later⟩ := ih (fun j h => bare j (List.mem_cons_of_mem i h))
        (store.expand config i supply).2
      refine ⟨Nat.le_trans here rest, fun r listed o ho b hb => ?_⟩
      rcases List.mem_cons.mp listed with rfl | listed
      · exact (first o ho b hb).grow rest
      · exact (later r listed o ho b hb).imp id fun minted => minted.right here

/-- The results of different instances have no label in common that could have been minted. A label
that could have been minted was in no argument. -/
theorem separate_expandApart
    (bare : ∀ i ∈ is, Expansion.TakesBareDefaults store config.checkArguments i)
    (passed : ∀ i ∈ is, ∀ b ∈ i.blanks, BlankSupply.isStemmed b = false) (supply : BlankSupply) :
    (store.expandApart config is supply).Pairwise fun r r' =>
      ∀ b, BlankSupply.isStemmed b = true →
        ∀ o ∈ r.2, b ∈ o.blanks → ∀ o' ∈ r'.2, b ∉ o'.blanks := by
  induction is generalizing supply with
  | nil => exact .nil
  | cons i is ih =>
      have rest := fun j h => bare j (List.mem_cons_of_mem i h)
      have others := fun j h => passed j (List.mem_cons_of_mem i h)
      refine .cons (fun r listed b stemmed o ho hb o' ho' hb' => ?_) (ih rest others _)
      have given (j) (hj : j ∈ i :: is) : b ∉ j.blanks := by
        intro hb
        rw [passed j hj b hb] at stemmed
        cases stemmed
      have member : r.1 ∈ is := by
        rw [← inputs_expandApart store config is (store.expand config i supply).2]
        exact List.mem_map_of_mem listed
      have before := ((traced_expand (bare i List.mem_cons_self) supply).2 o ho b hb).resolve_left
        (given i List.mem_cons_self)
      have after := ((traced_expandApart rest _).2 r listed o' ho' b hb').resolve_left
        (given r.1 (List.mem_cons_of_mem i member))
      exact before.avoids.not_minted after

/-- A blank node is written in the body of a definition or in a default. -/
def Writes (store : Store) (b : String) : Prop :=
  ∃ iri ps, store.status? iri = some (.definition ps) ∧
    ((∃ j ∈ store.bodyOf iri, b ∈ j.blanks) ∨ ∃ p ∈ ps, ∃ d ∈ p.default?, b ∈ d.blanks)

/-- What holds of all written blank nodes, by definition and place. -/
theorem forall_writes_iff {P : String → Prop} : (∀ b, store.Writes b → P b) ↔
    ∀ iri ps, store.status? iri = some (.definition ps) →
      (∀ j ∈ store.bodyOf iri, ∀ b ∈ j.blanks, P b) ∧
        ∀ p ∈ ps, ∀ d ∈ p.default?, ∀ b ∈ d.blanks, P b := by
  constructor
  · exact fun all iri ps defined =>
      ⟨fun j hj b hb => all b ⟨iri, ps, defined, .inl ⟨j, hj, hb⟩⟩,
        fun p hp d hd b hb => all b ⟨iri, ps, defined, .inr ⟨p, hp, d, hd, hb⟩⟩⟩
  · rintro each b ⟨iri, ps, defined, ⟨j, hj, hb⟩ | ⟨p, hp, d, hd, hb⟩⟩
    · exact (each iri ps defined).1 j hj b hb
    · exact (each iri ps defined).2 p hp d hd b hb

/-- The blank nodes of a run are those of its instances and new ones that no two of its instances
share. Whatever comes up in place of an instance on the way has the blank nodes of that instance
and those that this one step mints. -/
structure Hygienic (store : Store) (config : ExpansionConfig) (is : List Instance)
    (supply : BlankSupply) : Prop where
  inputs : (store.expandApart config is supply).map (·.1) = is
  whole : (store.expandAll config is supply).1.instances =
    (store.expandApart config is supply).flatMap (·.2)
  origin : ∀ r ∈ store.expandApart config is supply, ∀ o ∈ r.2, ∀ b ∈ o.blanks,
    b ∈ r.1.blanks ∨ supply.Minted (store.expandAll config is supply).2 b
  separate : (store.expandApart config is supply).Pairwise fun r r' =>
    ∀ b, supply.Minted (store.expandAll config is supply).2 b →
      ∀ o ∈ r.2, b ∈ o.blanks → ∀ o' ∈ r'.2, b ∉ o'.blanks
  unwritten : ∀ r ∈ store.expandApart config is supply, ∀ o ∈ r.2, ∀ b ∈ o.blanks,
    store.Writes b → b ∈ r.1.blanks
  steps : ∀ i ∈ is, ∀ j, Expansion.ComesUp store config.checkArguments i j →
    ∀ before place after,
      Expansion.Becomes store config.checkArguments j before (.work place) after →
        ∀ k, .edge k ∈ place → ∀ b ∈ k.blanks, b ∈ j.blanks ∨ before.Minted after b

/-- If only bare defaults are taken and no label that is written or passed begins like a minted one,
a run shares no blank nodes between its instances. -/
theorem expandAll_hygienic (written : ∀ b, store.Writes b → BlankSupply.isStemmed b = false)
    (passed : ∀ i ∈ is, ∀ b ∈ i.blanks, BlankSupply.isStemmed b = false)
    (bare : ∀ i ∈ is, Expansion.TakesBareDefaults store config.checkArguments i)
    (supply : BlankSupply) : store.Hygienic config is supply where
  inputs := inputs_expandApart store config is supply
  whole := instances_expandAll store config is supply
  origin := (traced_expandApart bare supply).2
  separate := by
    refine (separate_expandApart bare passed supply).imp fun apart b minted => apart b ?_
    by_contra other
    exact (supply.avoids_of_not_stemmed (Bool.not_eq_true _ ▸ other)).not_minted minted
  unwritten := by
    intro r listed o ho b hb writes
    refine ((traced_expandApart bare supply).2 r listed o ho b hb).resolve_right ?_
    exact (supply.avoids_of_not_stemmed (written b writes)).not_minted
  steps := by
    intro i hi j up before place after head k listed
    have own : j.Traced (· ∈ j.blanks) before before := fun b hb => .inl hb
    exact (head.traced (Nat.le_refl _) (bare i hi j up).takesOld own).2 k listed

/-- A note that is `none` takes the default, and the body has a blank node of its own. -/
def noting (default : Term) : Store :=
  (empty .standard).acceptAll
    [.signature ⟨"Item", [.mandatory "entry" .top], true⟩,
     .template (.make "Entry" [⟨⟨"note", .top⟩, ⟨true, false⟩, some default⟩]
       [.ofTerms "Item" [.var ⟨"note", .top⟩], .ofTerms "Item" [.blank "end"]])]

/-- An entry for each of the notes. -/
def entriesFor (notes : List Term) : List Instance := notes.map fun t => .ofTerms "Entry" [t]

/-- The default gets a new blank node, as the end of each list does. -/
theorem expandAll_hygienic_noting :
    (∀ b, (noting (.blank "note")).Writes b → BlankSupply.isStemmed b = false) ∧
    (∀ i ∈ entriesFor [.none, .blank "here"], ∀ b ∈ i.blanks, BlankSupply.isStemmed b = false) ∧
    (∀ i ∈ entriesFor [.none, .blank "here"],
      Expansion.TakesBareDefaults (noting (.blank "note")) true i) ∧
    (noting (.blank "note")).Hygienic ⟨20, true, false⟩ (entriesFor [.none, .blank "here"])
      ⟨0⟩ ∧
    ((noting (.blank "note")).expandAll ⟨20, true, false⟩ (entriesFor [.none, .blank "here"])
      ⟨0⟩).1.instances =
      [.ofTerms "Item" [.blank "genid0"], .ofTerms "Item" [.blank "genid1"],
        .ofTerms "Item" [.blank "here"], .ofTerms "Item" [.blank "genid2"]] := by
  have written : ∀ b, (noting (.blank "note")).Writes b → BlankSupply.isStemmed b = false :=
    forall_writes_iff.mpr (by decide)
  have passed : ∀ i ∈ entriesFor [.none, .blank "here"], ∀ b ∈ i.blanks,
      BlankSupply.isStemmed b = false := by decide
  have bare (i) (_ : i ∈ entriesFor [.none, .blank "here"]) :
      Expansion.TakesBareDefaults (noting (.blank "note")) true i :=
    Expansion.takesBareDefaults_of_store (by decide)
  exact ⟨written, passed, bare, expandAll_hygienic written passed bare ⟨0⟩, rfl⟩

/-- The blank node of a default that is a list comes out once for each `none`. -/
theorem not_expandAll_hygienic_listed :
    (∀ b, (noting (.list [.blank "note"])).Writes b → BlankSupply.isStemmed b = false) ∧
    (∀ i ∈ entriesFor [.none, .none], i.blanks = []) ∧
    (noting (.list [.blank "note"])).expandApart ⟨20, true, false⟩ (entriesFor [.none, .none])
      ⟨0⟩ =
      [(.ofTerms "Entry" [.none],
        [.ofTerms "Item" [.list [.blank "note"]], .ofTerms "Item" [.blank "genid0"]]),
       (.ofTerms "Entry" [.none],
        [.ofTerms "Item" [.list [.blank "note"]], .ofTerms "Item" [.blank "genid1"]])] ∧
    ¬ (noting (.list [.blank "note"])).Hygienic ⟨20, true, false⟩ (entriesFor [.none, .none])
      ⟨0⟩ := by
  refine ⟨forall_writes_iff.mpr (by decide), by decide, rfl, fun hygienic => ?_⟩
  rcases hygienic.origin _ List.mem_cons_self _ List.mem_cons_self "note" (by decide) with
    given | minted
  · cases given
  · exact (BlankSupply.avoids_of_not_stemmed _ (by decide)).not_minted minted

end Store

end RdfTemplates
