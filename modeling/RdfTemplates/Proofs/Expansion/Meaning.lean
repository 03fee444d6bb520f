import RdfTemplates.Proofs.Store.DependencyOrder
import RdfTemplates.Proofs.Store.Reachability

/-!
# The meaning of an instance

What an instance yields is told by recursion on what becomes of it, without
pending work and without a bound on the steps. An instance gives its one error,
or nothing, or itself, or what the instances in its place give one after the
other, each with the blank nodes that the earlier ones left. In a store whose
templates can all be sorted every instance has exactly one such meaning.
-/

namespace RdfTemplates

namespace Expansion

/-- The arguments of an instance can be given to the parameters of its template. -/
structure InOrder (checks : Bool) (ps : ParameterList) (i : Instance) : Prop where
  plain : i.arguments.expander = none
  arity : i.arguments.size = ps.length
  kept : i.isDiscarded ps = false
  fits : checks = true → i.checkArguments ps = none

/-- What an instance is replaced by, one rule for each case. -/
inductive Becomes (store : Store) (checks : Bool) (i : Instance) (supply : BlankSupply) :
    Resolution → BlankSupply → Prop where
  | missing (unresolved : store.isResolved i.iri = false) :
      Becomes store checks i supply (.item (.error (.missingDefinition i.iri))) supply
  | stuck {expander : ListExpander} (resolved : store.isResolved i.iri = true)
      (marked : i.arguments.expander = some expander) (unknown : i.arguments.canExpand = false) :
      Becomes store checks i supply (.item (.error (.unresolvedExpander i.text))) supply
  | lists {expander : ListExpander} (resolved : store.isResolved i.iri = true)
      (marked : i.arguments.expander = some expander) (known : i.arguments.canExpand = true) :
      Becomes store checks i supply
        (.work ((expander.steps i.arguments.arguments).map (listWork i))) supply
  | arity {ps : ParameterList} (resolved : store.isResolved i.iri = true)
      (parameters : store.parameters? i.iri = some ps) (plain : i.arguments.expander = none)
      (apart : i.arguments.size ≠ ps.length) :
      Becomes store checks i supply
        (.item (.error (.arity i.iri ps.length i.arguments.size))) supply
  | discarded {ps : ParameterList} (resolved : store.isResolved i.iri = true)
      (parameters : store.parameters? i.iri = some ps) (plain : i.arguments.expander = none)
      (arity : i.arguments.size = ps.length) (dropped : i.isDiscarded ps = true) :
      Becomes store checks i supply (.work []) supply
  | rejected {ps : ParameterList} {e : ExpansionError} (resolved : store.isResolved i.iri = true)
      (parameters : store.parameters? i.iri = some ps) (plain : i.arguments.expander = none)
      (arity : i.arguments.size = ps.length) (kept : i.isDiscarded ps = false)
      (checked : checks = true) (wrong : i.checkArguments ps = some e) :
      Becomes store checks i supply (.item (.error e)) supply
  | fact {ps : ParameterList} (base : store.status? i.iri = some (.base ps))
      (inOrder : InOrder checks ps i) : Becomes store checks i supply (.item (.ok i)) supply
  | unfolded {ps : ParameterList} {s : Substitution} {bound left : BlankSupply}
      {body : List Instance} (defined : store.status? i.iri = some (.definition ps))
      (inOrder : InOrder checks ps i)
      (given : Substitution.ofArguments i.arguments ps supply = .ok (s, bound))
      (applied : s.applyBody (store.bodyOf i.iri) bound = (body, left)) :
      Becomes store checks i supply (.work (body.map .edge)) left

/-- What a list of instances and errors yields, one after the other. -/
inductive Yields (store : Store) (checks : Bool) :
    List Work → BlankSupply → List ExpansionItem → BlankSupply → Prop where
  | nil (supply : BlankSupply) : Yields store checks [] supply [] supply
  | failed {e : ExpansionError} {rest : List Work} {supply left : BlankSupply}
      {items : List ExpansionItem} (tail : Yields store checks rest supply items left) :
      Yields store checks (.failed e :: rest) supply (.error e :: items) left
  | item {i : Instance} {rest : List Work} {supply next left : BlankSupply} {x : ExpansionItem}
      {items : List ExpansionItem} (head : Becomes store checks i supply (.item x) next)
      (tail : Yields store checks rest next items left) :
      Yields store checks (.edge i :: rest) supply (x :: items) left
  | work {i : Instance} {place rest : List Work} {supply first next left : BlankSupply}
      {items others : List ExpansionItem}
      (head : Becomes store checks i supply (.work place) first)
      (inner : Yields store checks place first items next)
      (tail : Yields store checks rest next others left) :
      Yields store checks (.edge i :: rest) supply (items ++ others) left

variable {store : Store} {checks : Bool} {i : Instance} {supply left : BlankSupply}

theorem edge_mem_listWork {j : Instance} {steps : List ExpansionStep} :
    .edge j ∈ steps.map (listWork i) ↔ ∃ args, .expanded args ∈ steps ∧ j = ⟨i.iri, args⟩ := by
  constructor
  · intro listed
    obtain ⟨step, made, same⟩ := List.mem_map.mp listed
    cases step with
    | expanded args => exact ⟨args, made, (Work.edge.inj same).symm⟩
    | exhausted => cases same
  · rintro ⟨args, made, rfl⟩
    exact List.mem_map_of_mem made

theorem edge_mem_map {j : Instance} {body : List Instance} :
    .edge j ∈ body.map Work.edge ↔ j ∈ body :=
  List.mem_map_of_injective fun _ _ => Work.edge.inj

theorem resolved_iff {iri : Iri} : store.isResolved iri = true ↔
    ∃ ps, store.status? iri = some (.base ps) ∨ store.status? iri = some (.definition ps) := by
  unfold Store.isResolved
  cases store.status? iri with
  | none => simp
  | some status => cases status <;> simp [Status.isResolved, Status.isBase, Status.isDefinition]

theorem resolve_unresolved (unresolved : store.isResolved i.iri = false) :
    resolve store checks i supply = (.item (.error (.missingDefinition i.iri)), supply) := by
  have none : (store.status? i.iri).filter Status.isResolved = none := by
    unfold Store.isResolved at unresolved
    cases known : store.status? i.iri with
    | none => rfl
    | some status => simpa [Option.filter, known] using unresolved
  simp [resolve, none]

theorem resolve_resolved {ps : ParameterList}
    (known : store.status? i.iri = some (.base ps) ∨ store.status? i.iri = some (.definition ps)) :
    resolve store checks i supply =
      match i.arguments.expander with
      | some expander => (resolveLists i expander, supply)
      | none =>
          if i.arguments.size != ps.length then
            (.item (.error (.arity i.iri ps.length i.arguments.size)), supply)
          else if i.isDiscarded ps then (.work [], supply)
          else match if checks then i.checkArguments ps else none with
            | some e => (.item (.error e), supply)
            | none =>
                if store.isBase i.iri then (.item (.ok i), supply)
                else unfold store ps i supply := by
  rcases known with known | known
  · have found : (store.status? i.iri).filter Status.isResolved = some (.base ps) := by
      rw [known]
      rfl
    have isBase : store.isBase i.iri = true := by simp [Store.isBase, known, Status.isBase]
    rw [resolve, found, isBase]
    rfl
  · have found : (store.status? i.iri).filter Status.isResolved = some (.definition ps) := by
      rw [known]
      rfl
    have isBase : store.isBase i.iri = false := by simp [Store.isBase, known, Status.isBase]
    rw [resolve, found, isBase]
    rfl

theorem ofArguments_eq {args : ArgumentList} {ps : ParameterList} (arity : args.size = ps.length) :
    Substitution.ofArguments args ps supply =
      .ok (Substitution.bindParameters (args.arguments.zip ps) .empty supply) := by
  simp [Substitution.ofArguments, arity]

theorem InOrder.passed {ps : ParameterList} (inOrder : InOrder checks ps i) :
    (if checks then i.checkArguments ps else none) = none := by
  cases checks with
  | true => exact inOrder.fits rfl
  | false => rfl

theorem status_of_parameters {iri : Iri} {ps : ParameterList}
    (resolved : store.isResolved iri = true) (parameters : store.parameters? iri = some ps) :
    store.status? iri = some (.base ps) ∨ store.status? iri = some (.definition ps) := by
  obtain ⟨qs, known⟩ := resolved_iff.mp resolved
  obtain rfl := Option.some.inj ((Store.parameters_of_status known).symm.trans parameters)
  exact known

theorem Becomes.resolve_eq {r : Resolution} (h : Becomes store checks i supply r left) :
    resolve store checks i supply = (r, left) := by
  cases h with
  | missing unresolved => exact resolve_unresolved unresolved
  | stuck resolved marked unknown =>
      obtain ⟨ps, known⟩ := resolved_iff.mp resolved
      simp [resolve_resolved known, marked, resolveLists, unknown]
  | lists resolved marked lists =>
      obtain ⟨ps, known⟩ := resolved_iff.mp resolved
      simp [resolve_resolved known, marked, resolveLists, lists]
  | arity resolved parameters plain apart =>
      simp [resolve_resolved (status_of_parameters resolved parameters), plain, apart]
  | discarded resolved parameters plain arity dropped =>
      simp [resolve_resolved (status_of_parameters resolved parameters), plain, arity, dropped]
  | rejected resolved parameters plain arity kept checked wrong =>
      simp [resolve_resolved (status_of_parameters resolved parameters), plain, arity, kept,
        checked, wrong]
  | fact base inOrder =>
      have isBase : store.isBase i.iri = true := by simp [Store.isBase, base, Status.isBase]
      simp [resolve_resolved (.inl base), inOrder.plain, inOrder.arity, inOrder.kept,
        inOrder.passed, isBase]
  | unfolded defined inOrder given applied =>
      have isBase : store.isBase i.iri = false := by simp [Store.isBase, defined, Status.isBase]
      simp [resolve_resolved (.inr defined), inOrder.plain, inOrder.arity, inOrder.kept,
        inOrder.passed, isBase, unfold, given, applied]

theorem becomes_resolve (store : Store) (checks : Bool) (i : Instance) (supply : BlankSupply) :
    Becomes store checks i supply (resolve store checks i supply).1
      (resolve store checks i supply).2 := by
  suffices h : ∃ r left, Becomes store checks i supply r left by
    obtain ⟨r, left, becomes⟩ := h
    rw [becomes.resolve_eq]
    exact becomes
  cases resolved : store.isResolved i.iri with
  | false => exact ⟨_, _, .missing resolved⟩
  | true =>
      cases marked : i.arguments.expander with
      | some expander =>
          cases known : i.arguments.canExpand with
          | false => exact ⟨_, _, .stuck resolved marked known⟩
          | true => exact ⟨_, _, .lists resolved marked known⟩
      | none =>
          obtain ⟨ps, status⟩ := resolved_iff.mp resolved
          have parameters := Store.parameters_of_status status
          by_cases arity : i.arguments.size = ps.length
          · cases kept : i.isDiscarded ps with
            | true => exact ⟨_, _, .discarded resolved parameters marked arity kept⟩
            | false =>
                by_cases wrong : checks = true ∧ (i.checkArguments ps).isSome
                · obtain ⟨checked, wrong⟩ := wrong
                  obtain ⟨e, wrong⟩ := Option.isSome_iff_exists.mp wrong
                  exact ⟨_, _, .rejected resolved parameters marked arity kept checked wrong⟩
                · have inOrder : InOrder checks ps i :=
                    ⟨marked, arity, kept, fun checked => by simpa [checked] using wrong⟩
                  rcases status with base | defined
                  · exact ⟨_, _, .fact base inOrder⟩
                  · exact ⟨_, _, .unfolded defined inOrder (ofArguments_eq arity) rfl⟩
          · exact ⟨_, _, .arity resolved parameters marked arity⟩

theorem Becomes.unique {r r' : Resolution} {left' : BlankSupply}
    (h : Becomes store checks i supply r left) (h' : Becomes store checks i supply r' left') :
    r = r' ∧ left = left' := by
  have same := h.resolve_eq.symm.trans h'.resolve_eq
  exact Prod.mk.inj same

theorem Yields.unique {work : List Work} {items others : List ExpansionItem} {left' : BlankSupply}
    (h : Yields store checks work supply items left)
    (h' : Yields store checks work supply others left') : items = others ∧ left = left' := by
  induction h generalizing others left' with
  | nil =>
      cases h'
      exact ⟨rfl, rfl⟩
  | failed _ ih =>
      cases h' with
      | failed tail =>
          obtain ⟨rfl, rfl⟩ := ih tail
          exact ⟨rfl, rfl⟩
  | item head _ ih =>
      cases h' with
      | item head' tail =>
          obtain ⟨same, rfl⟩ := head.unique head'
          obtain rfl := Resolution.item.inj same
          obtain ⟨rfl, rfl⟩ := ih tail
          exact ⟨rfl, rfl⟩
      | work head' => cases (head.unique head').1
  | work head _ _ inner tail =>
      cases h' with
      | item head' => cases (head.unique head').1
      | work head' inner' tail' =>
          obtain ⟨same, rfl⟩ := head.unique head'
          obtain rfl := Resolution.work.inj same
          obtain ⟨rfl, rfl⟩ := inner inner'
          obtain ⟨rfl, rfl⟩ := tail tail'
          exact ⟨rfl, rfl⟩

/-- Each part of the work yields what it would yield alone, whatever the others yield. -/
theorem yields_append {work rest : List Work} {items : List ExpansionItem} :
    Yields store checks (work ++ rest) supply items left ↔
      ∃ here there next, items = here ++ there ∧ Yields store checks work supply here next ∧
        Yields store checks rest next there left := by
  constructor
  · intro h
    induction work generalizing supply items with
    | nil => exact ⟨[], items, supply, rfl, .nil supply, h⟩
    | cons w work ih =>
        cases h with
        | failed tail =>
            obtain ⟨here, there, next, rfl, first, second⟩ := ih tail
            exact ⟨_, there, next, rfl, .failed first, second⟩
        | item head tail =>
            obtain ⟨here, there, next, rfl, first, second⟩ := ih tail
            exact ⟨_, there, next, rfl, .item head first, second⟩
        | work head inner tail =>
            obtain ⟨here, there, next, rfl, first, second⟩ := ih tail
            exact ⟨_, there, next, by rw [List.append_assoc], .work head inner first, second⟩
  · rintro ⟨here, there, next, rfl, first, second⟩
    induction first with
    | nil => exact second
    | failed _ ih => exact .failed (ih second)
    | item head _ ih => exact .item head (ih second)
    | work head inner _ _ ih =>
        rw [List.append_assoc]
        exact .work head inner (ih second)

theorem iris_freshenBody (body : List Instance) (state : Substitution.Freshening) :
    (Substitution.freshenBody body state).1.map (·.iri) = body.map (·.iri) := by
  induction body generalizing state with
  | nil => rfl
  | cons i body ih => simp [Substitution.freshenBody, ih]

theorem iri_of_mem_applyBody {s : Substitution} {body applied : List Instance}
    (h : s.applyBody body supply = (applied, left)) {j : Instance} (listed : j ∈ applied) :
    ∃ k ∈ body, k.iri = j.iri := by
  have iris := iris_freshenBody body ⟨s, supply⟩
  have same : (Substitution.freshenBody body ⟨s, supply⟩).1 = applied := congrArg Prod.fst h
  rw [same] at iris
  exact List.mem_map.mp (iris ▸ List.mem_map_of_mem listed)

theorem plain_of_mem_steps {expander : ListExpander} {arguments : List Argument}
    {args : ArgumentList} (h : .expanded args ∈ expander.steps arguments) :
    args.expander = none := by
  have zips (count : Nat) (h : .expanded args ∈ ListExpansion.zipSteps arguments count) :
      args.expander = none := by
    obtain ⟨step, -, made⟩ := List.mem_map.mp h
    unfold ListExpansion.zipStep at made
    split at made
    · rw [← ExpansionStep.expanded.inj made]
    · cases made
  cases expander with
  | cross =>
      obtain ⟨row, -, made⟩ := List.mem_map.mp h
      rw [← ExpansionStep.expanded.inj made]
  | zipMin => exact zips _ h
  | zipMax => exact zips _ h

def Total (store : Store) (checks : Bool) (work : List Work) : Prop :=
  ∀ supply, ∃ items left, Yields store checks work supply items left

theorem total_failed (e : ExpansionError) : Total store checks [.failed e] :=
  fun supply => ⟨_, _, .failed (.nil supply)⟩

theorem total_of_each {work : List Work} (each : ∀ w ∈ work, Total store checks [w]) :
    Total store checks work := by
  induction work with
  | nil => exact fun supply => ⟨[], supply, .nil supply⟩
  | cons w work ih =>
      intro supply
      obtain ⟨here, next, first⟩ := each w List.mem_cons_self supply
      obtain ⟨there, left, second⟩ := ih (fun v h => each v (List.mem_cons_of_mem w h)) next
      exact ⟨_, _, yields_append.mpr ⟨here, there, next, rfl, first, second⟩⟩

theorem total_of_place (place : ∀ supply work left,
    Becomes store checks i supply (.work work) left → Total store checks work) :
    Total store checks [.edge i] := by
  intro supply
  have head := becomes_resolve store checks i supply
  cases r : (resolve store checks i supply).1 with
  | item x =>
      rw [r] at head
      exact ⟨_, _, .item head (.nil _)⟩
  | work work =>
      rw [r] at head
      obtain ⟨items, left, inner⟩ := place _ _ _ head _
      exact ⟨_, _, .work head inner (.nil left)⟩

/-- Callees have a lower rank, and lists are expanded once at each rank. -/
theorem total_edge (wf : store.WellFormed) (complete : store.topologicalOrder.isComplete = true)
    (checks : Bool) (i : Instance) : Total store checks [.edge i] := by
  induction rank : store.rank i.iri using Nat.strongRecOn generalizing i with
  | ind n ih =>
    have plain (j : Instance) (same : j.iri = i.iri) (bare : j.arguments.expander = none) :
        Total store checks [.edge j] := by
      apply total_of_place
      intro supply work left becomes
      cases becomes with
      | lists _ marked _ => exact absurd (bare.symm.trans marked) nofun
      | discarded => exact total_of_each nofun
      | unfolded defined _ _ applied =>
          apply total_of_each
          intro w listed
          obtain ⟨k, here, rfl⟩ := List.mem_map.mp listed
          obtain ⟨callee, used, callee_iri⟩ := iri_of_mem_applyBody applied here
          have known : (store.status? j.iri).isSome := by
            rw [defined]
            rfl
          have lower := wf.rank_lt (Store.mem_sorted_of_complete complete known) used
          rw [callee_iri, same, rank] at lower
          exact ih _ lower k rfl
    cases marked : i.arguments.expander with
    | none => exact plain i rfl marked
    | some expander =>
        apply total_of_place
        intro supply work left becomes
        cases becomes with
        | lists =>
            apply total_of_each
            intro w listed
            obtain ⟨step, made, rfl⟩ := List.mem_map.mp listed
            cases step with
            | expanded args => exact plain ⟨i.iri, args⟩ rfl (plain_of_mem_steps made)
            | exhausted step positions => exact total_failed _
        | discarded _ _ bare => exact absurd (bare.symm.trans marked) nofun
        | unfolded _ inOrder => exact absurd (inOrder.plain.symm.trans marked) nofun

theorem checkArguments_eq_some {ps : ParameterList} {e : ExpansionError}
    (h : i.checkArguments ps = some e) :
    ∃ t p position, (t, p) ∈ i.arguments.terms.zip ps ∧
      Instance.checkArgument i.iri position t p = some e := by
  obtain ⟨⟨⟨t, p⟩, position⟩, listed, wrong⟩ := List.exists_of_findSome?_eq_some h
  exact ⟨t, p, position, List.fst_mem_of_mem_zipIdx listed, wrong⟩

theorem checkArgument_eq_some {iri : Iri} {position : Nat} {t : Term} {p : Parameter}
    {e : ExpansionError} (h : Instance.checkArgument iri position t p = some e) :
    e = .blankForNonBlank iri position t.text ∨
      e = .incompatibleType iri position t.text t.intrinsicType p.type := by
  unfold Instance.checkArgument at h
  split at h
  · cases h
  · split at h
    · exact .inl (Option.some.inj h).symm
    · split at h
      · cases h
      · exact .inr (Option.some.inj h).symm

/-- The error of the limit is not made of an instance. -/
theorem Becomes.item_ne_stepLimit {x : ExpansionItem}
    (h : Becomes store checks i supply (.item x) left) (limit : Nat) :
    x ≠ .error (.stepLimit limit) := by
  rintro rfl
  cases h with
  | rejected _ _ _ _ _ _ wrong =>
      obtain ⟨t, p, position, -, wrong⟩ := checkArguments_eq_some wrong
      rcases checkArgument_eq_some wrong with same | same <;> cases same

theorem Becomes.stepLimit_not_mem {place : List Work}
    (h : Becomes store checks i supply (.work place) left) (limit : Nat) :
    .failed (.stepLimit limit) ∉ place := by
  intro listed
  cases h with
  | lists =>
      obtain ⟨step, -, made⟩ := List.mem_map.mp listed
      cases step with
      | expanded => cases made
      | exhausted => cases made
  | discarded => cases listed
  | unfolded =>
      obtain ⟨k, -, made⟩ := List.mem_map.mp listed
      cases made

theorem stepLimit_not_mem {work : List Work} {items : List ExpansionItem}
    (h : Yields store checks work supply items left) {limit : Nat}
    (free : .failed (.stepLimit limit) ∉ work) : .error (.stepLimit limit) ∉ items := by
  induction h with
  | nil => exact nofun
  | failed _ ih =>
      rw [List.mem_cons, not_or] at free ⊢
      exact ⟨fun same => free.1 (by rw [Except.error.inj same]), ih free.2⟩
  | item head _ ih =>
      rw [List.mem_cons, not_or] at free ⊢
      exact ⟨(head.item_ne_stepLimit limit).symm, ih free.2⟩
  | work head _ _ inner tail =>
      rw [List.mem_cons, not_or] at free
      rw [List.mem_append, not_or]
      exact ⟨inner (head.stepLimit_not_mem limit), tail free.2⟩

end Expansion

end RdfTemplates
