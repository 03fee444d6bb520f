import RdfTemplates.Proofs.Expansion.Bodies
import RdfTemplates.Proofs.Store.Cycles

/-!
# A store expanded into a new one keeps what it declares

Every entry of the source is met once, and when it is met nothing is declared for
its IRI in the new store, so no addition is refused. What is on a cycle or leads
into one is taken over with the body that it has. Nothing is removed on the way,
so the calls of the new store are numbered in the order in which they came.
-/

namespace RdfTemplates

/-- The numbers were given one after the other and none was released. -/
structure Numbered.Packed {α : Type} (c : Numbered α) : Prop where
  sound : c.Sound
  unreleased : c.released = []
  latestFirst : c.items.Pairwise fun a b => b.1 < a.1

namespace Numbered

variable {α : Type} {c : Numbered α}

theorem packed_empty : (empty : Numbered α).Packed := ⟨sound_empty, rfl, .nil⟩

/-- Without released numbers the next number is the count. -/
theorem Packed.add_eq (packed : c.Packed) (a : α) :
    c.add a = ⟨(c.items.length, a) :: c.items, []⟩ := by
  unfold Numbered.add
  rw [packed.unreleased]

theorem Packed.add (packed : c.Packed) (a : α) : (c.add a).Packed := by
  have added := packed.add_eq a
  refine ⟨packed.sound.add a, by rw [added], ?_⟩
  rw [added]
  refine List.pairwise_cons.mpr ⟨fun item used => ?_, packed.latestFirst⟩
  have listed : item.1 ∈ c.numbers ++ c.released :=
    List.mem_append_left _ (List.mem_map_of_mem used)
  simpa [packed.unreleased] using packed.sound.below item.1 listed

theorem Packed.foldl_add (packed : c.Packed) (xs : List α) : (xs.foldl Numbered.add c).Packed := by
  induction xs generalizing c with
  | nil => exact packed
  | cons a xs ih => exact ih (packed.add a)

end Numbered

namespace Store

/-- A definition that is new keeps the numbers packed, so its body stays in the order it is given
in. -/
theorem define_of_packed {store : Store} (wf : store.WellFormed) (packed : store.calls.Packed)
    (t : Template) (free : ∀ ps, store.status? t.iri ≠ some (.definition ps)) :
    (store.define t).calls.Packed ∧ (store.define t).bodyOf t.iri = t.body := by
  have ascending : (store.calls.upcoming t.body.length).Pairwise (· < ·) := by
    rw [wf.calls.pairwise_upcoming_iff, packed.unreleased, List.take_nil]
    exact .nil
  refine ⟨?_, wf.bodyOf_define_of_ascending free ascending⟩
  rw [define, calls_foldl_addCall, calls_setStatus]
  exact packed.foldl_add _

/-- What has been taken over is declared as in the source, and nothing else is declared. -/
structure Copies (source target : Store) (done : List Iri) : Prop where
  wellFormed : target.WellFormed
  packed : target.calls.Packed
  declared : ∀ iri ∈ done, ∀ status : Status, status.isUndefined = false →
    (target.status? iri = some status ↔ source.status? iri = some status)
  fresh : ∀ iri, iri ∉ done → target.status? iri = none ∨ target.status? iri = some .undefined
  quiet : target.messages = []

section Entries

variable {source target : Store} {config : ExpansionConfig} {accept : Instance → Bool}
variable {p : BodyExpansion.Progress} {iri other : Iri} {status : Status} {done cyclic : List Iri}
variable {body : List Instance}

/-- Copying an entry takes over its status and body, and says at most one thing. -/
theorem copyEntry_eq (known : source.status? iri = some status)
    (fresh : target.status? iri = none ∨ target.status? iri = some .undefined) :
    source.copyEntry cyclic (target, p) iri =
      (target.takeOver iri status (source.bodyOf iri),
        { p with messages := p.messages ++ (cycleMessage? cyclic ⟨iri, status⟩).toList }) := by
  have found := entry?_of_status known
  unfold copyEntry
  simp only [found, getTemplate, known]
  cases status with
  | definition ps => exact congrArg (·, _) (addTemplate_of_fresh fresh)
  | undefined | signature | base => exact congrArg (·, _) (copyDeclaration_eq fresh rfl _)

/-- What is kept is declared as before. -/
theorem Kept.declared_iff {next : Store} (kept : target.Kept next iri)
    (declared : status.isUndefined = false) :
    next.status? iri = some status ↔ target.status? iri = some status := by
  rcases kept.status with same | ⟨none, undefined⟩
  · rw [same]
  · rw [none, undefined]
    constructor
    · rintro ⟨⟩
      cases declared
    · nofun

theorem kept_takeOver (target : Store) (apart : other ≠ iri) (status : Status)
    (body : List Instance) : target.Kept (target.takeOver iri status body) other := by
  cases status with
  | undefined => exact .refl target other
  | signature ps => exact target.kept_setStatus apart (.signature ps)
  | base ps => exact target.kept_setStatus apart (.base ps)
  | definition ps => exact target.kept_define (.make iri ps body) apart

/-- Copying an entry keeps all others. -/
theorem kept_copyEntry (source : Store) (cyclic : List Iri)
    (state : Store × BodyExpansion.Progress) (apart : other ≠ iri) :
    state.1.Kept (source.copyEntry cyclic state iri).1 other := by
  unfold copyEntry
  dsimp only
  split
  · exact .refl state.1 other
  · rename_i e found
    obtain rfl : e.iri = iri := entry?_iri found
    split
    · rename_i t defined
      obtain ⟨same, -, -⟩ := getTemplate_eq_ok defined
      exact state.1.kept_addTemplate t (same ▸ apart)
    · exact state.1.kept_copyDeclaration e apart

namespace Copies

theorem empty (source : Store) (config : StoreConfig) : source.Copies (empty config) [] where
  wellFormed := wellFormed_empty config
  packed := Numbered.packed_empty
  declared := nofun
  fresh _ _ := .inl rfl
  quiet := rfl

/-- What has not been taken over yet is free to be defined. -/
theorem free (copies : source.Copies target done) (new : iri ∉ done) (ps : ParameterList) :
    target.status? iri ≠ some (.definition ps) := by
  rcases copies.fresh iri new with none | undefined
  · simp [none]
  · simp [undefined]

theorem wellFormed_takeOver (copies : source.Copies target done) (new : iri ∉ done)
    (status : Status) (body : List Instance) : (target.takeOver iri status body).WellFormed := by
  have wf := copies.wellFormed
  have uncalling := wf.not_caller iri (copies.free new)
  cases status with
  | undefined => exact wf
  | signature ps => exact wf.setStatus iri (.signature ps) (.inr uncalling)
  | base ps => exact wf.setStatus iri (.base ps) (.inr uncalling)
  | definition ps => exact wf.define (.make iri ps body)

theorem packed_takeOver (copies : source.Copies target done) (new : iri ∉ done) (status : Status)
    (body : List Instance) : (target.takeOver iri status body).calls.Packed := by
  cases status with
  | undefined => exact copies.packed
  | signature ps | base ps =>
      rw [takeOver, calls_setStatus]
      exact copies.packed
  | definition ps =>
      exact (define_of_packed copies.wellFormed copies.packed (.make iri ps body)
        (copies.free new)).1

/-- A body is taken over as the template makes it. -/
theorem bodyOf_takeOver (copies : source.Copies target done) (new : iri ∉ done)
    (ps : ParameterList) (body : List Instance) :
    (target.takeOver iri (.definition ps) body).bodyOf iri = (Template.make iri ps body).body :=
  (define_of_packed copies.wellFormed copies.packed (.make iri ps body) (copies.free new)).2

theorem quiet_takeOver (copies : source.Copies target done) (status : Status)
    (body : List Instance) : (target.takeOver iri status body).messages = [] := by
  have quiet := copies.quiet
  have silent (next : Store) (same : next.aside = target.aside) : next.messages = [] := by
    rw [← quiet]
    exact congrArg (·.2.2.1) same
  cases status with
  | undefined => exact quiet
  | signature | base => exact silent _ (aside_setStatus target iri _)
  | definition ps => exact silent _ (aside_define target _)

/-- The status is taken over, and those before it are not touched. -/
theorem declared_takeOver (copies : source.Copies target done) (new : iri ∉ done)
    (known : source.status? iri = some status) (body : List Instance) {declared : Status}
    (defined : declared.isUndefined = false) :
    (target.takeOver iri status body).status? iri = some declared ↔
      source.status? iri = some declared := by
  have set (status : Status) : (target.setStatus iri status).status? iri = some status := by
    rw [status?_setStatus, if_pos rfl]
  rw [known]
  cases status with
  | undefined =>
      constructor
      · intro declares
        rcases copies.fresh iri new with fresh | fresh
        · rw [takeOver, fresh] at declares
          cases declares
        · rwa [takeOver, fresh] at declares
      · rintro ⟨⟩
        cases defined
  | signature ps | base ps => rw [takeOver, set]
  | definition ps =>
      have here : (target.define (.make iri ps body)).status? iri = some (.definition ps) := by
        rw [status?_define]
        exact if_pos rfl
      rw [takeOver, here]

/-- Taking over one more entry, with any body, still makes a copy of the declarations. -/
theorem takeOver (copies : source.Copies target done) (new : iri ∉ done)
    (known : source.status? iri = some status) (body : List Instance) :
    source.Copies (target.takeOver iri status body) (done ++ [iri]) where
  wellFormed := copies.wellFormed_takeOver new status body
  packed := copies.packed_takeOver new status body
  declared other h declared defined := by
    rcases List.mem_append.mp h with h | h
    · have apart : other ≠ iri := fun same => new (same ▸ h)
      exact ((target.kept_takeOver apart status body).declared_iff defined).trans
        (copies.declared other h declared defined)
    · obtain rfl := List.mem_singleton.mp h
      exact copies.declared_takeOver new known body defined
  fresh other missed := by
    rw [List.mem_append, not_or, List.mem_singleton] at missed
    rcases (target.kept_takeOver missed.2 status body).status with same | ⟨-, undefined⟩
    · rw [same]
      exact copies.fresh other missed.1
    · exact .inr undefined
  quiet := copies.quiet_takeOver status body

/-- Whatever bodies the entries are taken over with, the declarations are copied. -/
theorem foldl {step : Store × BodyExpansion.Progress → Iri → Store × BodyExpansion.Progress}
    (takes : ∀ (target : Store) (p : BodyExpansion.Progress) (iri : Iri) (status : Status),
      source.status? iri = some status →
      (target.status? iri = none ∨ target.status? iri = some .undefined) →
      ∃ body, (step (target, p) iri).1 = target.takeOver iri status body)
    {iris : List Iri} {state : Store × BodyExpansion.Progress}
    (copies : source.Copies state.1 done) (distinct : (done ++ iris).Nodup)
    (known : ∀ iri ∈ iris, (source.status? iri).isSome) :
    source.Copies (iris.foldl step state).1 (done ++ iris) := by
  induction iris generalizing done state with
  | nil => simpa using copies
  | cons iri iris ih =>
      obtain ⟨target, p⟩ := state
      have split : done ++ iri :: iris = (done ++ [iri]) ++ iris := by simp
      have new : iri ∉ done := fun h =>
        (List.nodup_append.mp distinct).2.2 iri h iri List.mem_cons_self rfl
      obtain ⟨status, here⟩ := Option.isSome_iff_exists.mp (known iri List.mem_cons_self)
      obtain ⟨body, taken⟩ := takes target p iri status here (copies.fresh iri new)
      have next : source.Copies (step (target, p) iri).1 (done ++ [iri]) :=
        taken ▸ copies.takeOver new here body
      rw [split] at distinct ⊢
      exact ih next distinct fun other h => known other (List.mem_cons_of_mem iri h)

/-- Expanding entries one after the other takes over each of them. -/
theorem foldl_expandEntry {iris : List Iri} {state : Store × BodyExpansion.Progress}
    (copies : source.Copies state.1 done) (distinct : (done ++ iris).Nodup)
    (known : ∀ iri ∈ iris, (source.status? iri).isSome) :
    source.Copies (iris.foldl (source.expandEntry config accept) state).1 (done ++ iris) :=
  copies.foldl (fun _ _ _ _ here fresh => ⟨_, congrArg Prod.fst (expandEntry_eq here fresh)⟩)
    distinct known

/-- Copying entries one after the other takes over each of them. -/
theorem foldl_copyEntry {iris : List Iri} {state : Store × BodyExpansion.Progress}
    (copies : source.Copies state.1 done) (distinct : (done ++ iris).Nodup)
    (known : ∀ iri ∈ iris, (source.status? iri).isSome) :
    source.Copies (iris.foldl (source.copyEntry cyclic) state).1 (done ++ iris) :=
  copies.foldl (fun _ _ _ _ here fresh => ⟨_, congrArg Prod.fst (copyEntry_eq here fresh)⟩)
    distinct known

/-- A definition has the body that it was taken over with, for what comes later leaves it alone. -/
theorem bodyOf_foldl {step : Store × BodyExpansion.Progress → Iri → Store × BodyExpansion.Progress}
    (takes : ∀ (target : Store) (p : BodyExpansion.Progress) (iri : Iri) (status : Status),
      source.status? iri = some status →
      (target.status? iri = none ∨ target.status? iri = some .undefined) →
      ∃ body, (step (target, p) iri).1 = target.takeOver iri status body)
    (kept : ∀ (state : Store × BodyExpansion.Progress) (iri other : Iri), other ≠ iri →
      state.1.Kept (step state iri).1 other)
    {before after : List Iri} {state : Store × BodyExpansion.Progress}
    (copies : source.Copies state.1 done) (distinct : (done ++ (before ++ iri :: after)).Nodup)
    (known : ∀ other ∈ before ++ iri :: after, (source.status? other).isSome) :
    source.Copies (before.foldl step state).1 (done ++ before) ∧ iri ∉ done ++ before ∧
      ((before ++ iri :: after).foldl step state).1.bodyOf iri =
        (step (before.foldl step state) iri).1.bodyOf iri := by
  rw [← List.append_assoc] at distinct
  obtain ⟨earlier, later, apart⟩ := List.nodup_append.mp distinct
  refine ⟨copies.foldl takes earlier fun other h => known other (List.mem_append_left _ h),
    fun h => apart iri h iri List.mem_cons_self rfl, ?_⟩
  rw [List.foldl_append, List.foldl_cons]
  exact (kept_foldl (fun state other => kept state other iri) after _
    (List.nodup_cons.mp later).1).bodies

/-- The body of an entry is what it was expanded to when its turn came, against the entries before
it. -/
theorem bodyOf_foldl_expandEntry {before after : List Iri}
    {state : Store × BodyExpansion.Progress} (copies : source.Copies state.1 done)
    (distinct : (done ++ (before ++ iri :: after)).Nodup)
    (known : ∀ other ∈ before ++ iri :: after, (source.status? other).isSome)
    {ps : ParameterList} (defined : source.status? iri = some (.definition ps)) :
    ∃ (target : Store) (p : BodyExpansion.Progress), source.Copies target (done ++ before) ∧
      ((before ++ iri :: after).foldl (source.expandEntry config accept) state).1.bodyOf iri =
        (Template.make iri ps (BodyExpansion.run ⟨iri, ps, target, accept, config.maxSteps⟩
          (source.bodyOf iri) p).1).body := by
  obtain ⟨reached, new, same⟩ := copies.bodyOf_foldl
    (fun _ _ _ _ here fresh => ⟨_, congrArg Prod.fst (expandEntry_eq here fresh)⟩)
    (fun state _ _ apart => source.kept_expandEntry config accept state apart) distinct known
  generalize before.foldl (source.expandEntry config accept) state = state at reached same
  obtain ⟨target, p⟩ := state
  refine ⟨target, p, reached, ?_⟩
  rw [same, expandEntry_eq defined (reached.fresh iri new)]
  exact reached.bodyOf_takeOver new ps _

/-- The body of a copied entry is the one in the source. -/
theorem bodyOf_foldl_copyEntry {iris : List Iri} {state : Store × BodyExpansion.Progress}
    (copies : source.Copies state.1 done) (distinct : (done ++ iris).Nodup)
    (known : ∀ iri ∈ iris, (source.status? iri).isSome) (h : iri ∈ iris) {ps : ParameterList}
    (defined : source.status? iri = some (.definition ps)) :
    (iris.foldl (source.copyEntry cyclic) state).1.bodyOf iri =
      (Template.make iri ps (source.bodyOf iri)).body := by
  obtain ⟨before, after, rfl⟩ := List.append_of_mem h
  obtain ⟨reached, new, same⟩ := copies.bodyOf_foldl
    (fun _ _ _ _ here fresh => ⟨_, congrArg Prod.fst (copyEntry_eq here fresh)⟩)
    (fun state _ _ apart => source.kept_copyEntry cyclic state apart) distinct known
  generalize before.foldl (source.copyEntry cyclic) state = state at reached same
  obtain ⟨target, p⟩ := state
  rw [same, copyEntry_eq defined (reached.fresh iri new)]
  exact reached.bodyOf_takeOver new ps _

end Copies

end Entries

end Store

/-- The text has this character at its beginning. -/
def Begins (c : Char) (text : String) : Prop := text.toList.head? = some c

theorem Begins.append {c : Char} {text : String} (begins : Begins c text) (more : String) :
    Begins c (text ++ more) := by
  unfold Begins at *
  simp [begins]

/-- The character that the text of an error begins with. Notices about cycles begin with a T. -/
def ExpansionError.initial : ExpansionError → Char
  | .missingDefinition _ => 'm'
  | .unresolvedExpander _ | .substitution _ => 'c'
  | .arity .. => 'w'
  | .incompatibleType .. => 'a'
  | .blankForNonBlank .. => 'b'
  | .exhausted .. => 'z'
  | .stepLimit _ => 'e'

theorem ExpansionError.begins_text (e : ExpansionError) : Begins e.initial e.text := by
  cases e <;> (repeat apply Begins.append) <;> rfl

/-- The message is about something else than a template. -/
def Message.IsAside (m : Message) : Prop := ¬ Begins 'T' m.text

/-- What begins with another character than the notices is none of them. -/
theorem Message.isAside_of_begins {severity : Severity} {text : String} {c : Char}
    (begins : Begins c text) (apart : c ≠ 'T') : (Message.mk severity text).IsAside := by
  intro named
  exact apart (Option.some.inj (begins.symm.trans named))

/-- No error of an expansion reads like a notice about a cycle. -/
theorem ExpansionError.isAside (e : ExpansionError) : e.message.IsAside :=
  Message.isAside_of_begins e.begins_text (by cases e <;> simp [initial])

namespace BodyExpansion

/-- Nothing but asides was added to what was said before. -/
def Adds (p p' : Progress) : Prop :=
  ∃ more, p'.messages = p.messages ++ more ∧ ∀ m ∈ more, m.IsAside

theorem Adds.of_eq {p p' : Progress} (same : p'.messages = p.messages) : Adds p p' :=
  ⟨[], by simp [same], nofun⟩

/-- What is added along the way is added in the end. -/
theorem Adds.trans {p p' p'' : Progress} (first : Adds p p') (second : Adds p' p'') :
    Adds p p'' := by
  obtain ⟨more, said, asides⟩ := first
  obtain ⟨more', said', asides'⟩ := second
  refine ⟨more ++ more', by rw [said', said, List.append_assoc], fun m h => ?_⟩
  exact (List.mem_append.mp h).elim (asides m) (asides' m)

theorem Adds.push {p p' : Progress} {m : Message} (said : p'.messages = p.messages.push m)
    (aside : m.IsAside) : Adds p p' :=
  ⟨[m], said, fun n h => by rwa [List.mem_singleton.mp h]⟩

theorem Adds.pushError (p : Progress) (e : ExpansionError) : Adds p (pushError p e) := by
  unfold BodyExpansion.pushError Messages.pushUnique
  split
  · exact .of_eq rfl
  · exact .push rfl e.isAside

theorem Adds.mem {p p' : Progress} (adds : Adds p p') {m : Message} (h : m ∈ p.messages) :
    m ∈ p'.messages := by
  obtain ⟨more, said, -⟩ := adds
  rw [said]
  exact List.mem_append_left _ h

theorem adds_stepLists (i : Instance) (expander : ListExpander) (p : Progress) :
    Adds p (stepLists i expander p).2 := by
  unfold stepLists
  split
  · refine ⟨_, rfl, fun m h => ?_⟩
    obtain ⟨step, -, made⟩ := List.mem_filterMap.mp h
    cases step with
    | expanded => cases made
    | exhausted step positions =>
        rw [← Option.some.inj made]
        exact (i.exhaustedAt step positions).isAside
  · exact .of_eq rfl

/-- One step adds messages that are aside. -/
theorem adds_step (e : BodyExpansion) (i : Instance) (p : Progress) : Adds p (e.step i p).2 := by
  cases stepped : e.step i p with
  | mk step p' =>
      cases comesTo_of_step stepped with
      | unknown h => exact .pushError p _
      | arity plain parameters h => exact .pushError p _
      | @lists expander _ _ marked known listed => exact listed ▸ adds_stepLists i expander p
      | _ => exact .of_eq rfl

/-- The message about a body that needs more steps than are allowed. -/
def limitMessage (caller : Iri) (maxSteps : Nat) : Message :=
  .error ("Expansion of " ++ caller ++ " stopped after " ++ toString maxSteps ++ " steps")

theorem isAside_limitMessage (caller : Iri) (maxSteps : Nat) :
    (limitMessage caller maxSteps).IsAside := by
  refine Message.isAside_of_begins (c := 'E') ?_ (by decide)
  repeat apply Begins.append
  rfl

/-- So does a whole run, the message about its limit included. -/
theorem adds_runOnto (e : BodyExpansion) (budget : Nat) (pending : List Instance) (p : Progress)
    (found : List Instance) : Adds p (e.runOnto budget pending p found).2 := by
  induction budget generalizing pending p found with
  | zero =>
      cases pending with
      | nil => exact .of_eq rfl
      | cons i rest => exact .push rfl (isAside_limitMessage e.caller e.maxSteps)
  | succ budget ih =>
      cases pending with
      | nil => exact .of_eq rfl
      | cons i rest =>
          have first := e.adds_step i p
          rw [runOnto]
          split
          · rename_i stepped
            rw [stepped] at first
            exact first.trans (ih rest _ (i :: found))
          · rename_i body _ stepped
            rw [stepped] at first
            exact first.trans (ih (body ++ rest) _ found)

theorem adds_run (e : BodyExpansion) (body : List Instance) (p : Progress) :
    Adds p (e.run body p).2 := e.adds_runOnto e.maxSteps body p []

end BodyExpansion

namespace Store

open BodyExpansion

section Said

variable {source target : Store} {config : ExpansionConfig} {accept : Instance → Bool}
variable {iri : Iri}

theorem adds_expandEntry (source : Store) (config : ExpansionConfig) (accept : Instance → Bool)
    (state : Store × Progress) (iri : Iri) :
    Adds state.2 (source.expandEntry config accept state iri).2 := by
  unfold expandEntry
  dsimp only
  split
  · exact adds_run _ _ state.2
  · exact .of_eq rfl
  · exact .of_eq rfl

theorem adds_foldl_expandEntry (source : Store) (config : ExpansionConfig)
    (accept : Instance → Bool) (iris : List Iri) (state : Store × Progress) :
    Adds state.2 (iris.foldl (source.expandEntry config accept) state).2 := by
  induction iris generalizing state with
  | nil => exact .of_eq rfl
  | cons iri iris ih => exact (source.adds_expandEntry config accept state iri).trans (ih _)

/-- The message about a template that is on a cycle. -/
def cycleError (iri : Iri) : Message :=
  .error ("Template " ++ iri ++ " is part of a dependency cycle and is not expanded")

/-- The message about a template that is above a cycle. -/
def cycleWarning (iri : Iri) : Message :=
  .warning ("Template " ++ iri ++ " depends on a dependency cycle and is not expanded")

/-- What is said about a definition that is taken over as it is. -/
def cycleNotice (cyclic : List Iri) (iri : Iri) : Message :=
  if cyclic.contains iri then cycleError iri else cycleWarning iri

theorem not_isAside_cycleError (iri : Iri) : ¬ (cycleError iri).IsAside :=
  not_not.mpr (Begins.append (Begins.append (show Begins 'T' "Template " from rfl) iri) _)

theorem not_isAside_cycleWarning (iri : Iri) : ¬ (cycleWarning iri).IsAside :=
  not_not.mpr (Begins.append (Begins.append (show Begins 'T' "Template " from rfl) iri) _)

/-- A definition that is copied is named, as one on a cycle or one above it. -/
theorem messages_copyEntry {cyclic : List Iri} (state : Store × Progress)
    (defined : source.isDefinition iri = true) :
    (source.copyEntry cyclic state iri).2.messages =
      state.2.messages ++ [cycleNotice cyclic iri] := by
  obtain ⟨ps, known⟩ := isDefinition_iff.mp defined
  have notice : cycleMessage? cyclic ⟨iri, .definition ps⟩ = some (cycleNotice cyclic iri) := by
    unfold cycleMessage? cycleNotice
    split
    · rfl
    · rfl
  simp only [copyEntry, entry?_of_status known, getTemplate, known, notice]
  rfl

/-- The copied definitions are named in their order. -/
theorem messages_foldl_copyEntry {cyclic iris : List Iri} (state : Store × Progress)
    (defined : ∀ iri ∈ iris, source.isDefinition iri = true) :
    (iris.foldl (source.copyEntry cyclic) state).2.messages =
      state.2.messages ++ iris.map (cycleNotice cyclic) := by
  induction iris generalizing state with
  | nil => simp
  | cons iri iris ih =>
      rw [List.foldl_cons, ih _ fun other h => defined other (List.mem_cons_of_mem iri h),
        messages_copyEntry state (defined iri List.mem_cons_self), List.append_assoc]
      rfl

end Said

section Whole

variable {source : Store} {iri : Iri}

/-- The new store with the sorted entries. -/
def expandSorted (source : Store) (config : ExpansionConfig) (accept : Instance → Bool)
    (supply : BlankSupply) : Store × Progress :=
  source.topologicalOrder.sorted.foldl (source.expandEntry config accept)
    (empty source.config, ⟨[], supply⟩)

/-- The templates that are said to be on a cycle. -/
def namedCyclic (source : Store) : List Iri :=
  if source.topologicalOrder.unsorted.isEmpty then [] else source.cyclicTemplates

/-- The new store with all entries. -/
def expandThenCopy (source : Store) (config : ExpansionConfig) (accept : Instance → Bool)
    (supply : BlankSupply) : Store × Progress :=
  source.topologicalOrder.unsorted.foldl (source.copyEntry source.namedCyclic)
    (source.expandSorted config accept supply)

/-- Expanding all bodies is expanding those that are sorted and copying those that are not. -/
theorem expandBodies_eq (config : ExpansionConfig) (accept : Instance → Bool)
    (supply : BlankSupply) : (source.expandBodies config accept supply).1 =
    ⟨(source.expandThenCopy config accept supply).1.takeMessages.2,
      (source.expandThenCopy config accept supply).1.messages ++
        (source.expandThenCopy config accept supply).2.messages⟩ := rfl

/-- The templates named in the messages are the cyclic ones, for without unsorted entries there is
no cycle. -/
theorem WellFormed.contains_namedCyclic (wf : source.WellFormed) :
    source.namedCyclic.contains iri = true ↔ source.Cyclic iri := by
  unfold namedCyclic
  split
  · rename_i none
    refine iff_of_false (by simp) fun cyclic => ?_
    have listed := wf.mem_unsorted_iff.mpr cyclic.meetsCycle
    rw [List.isEmpty_iff.mp none] at listed
    cases listed
  · rw [List.contains_iff_mem, wf.mem_cyclicTemplates]

theorem isSome_of_mem_unsorted (h : iri ∈ source.topologicalOrder.unsorted) :
    (source.status? iri).isSome := (mem_unsorted.mp h).1

variable (config : ExpansionConfig) (accept : Instance → Bool) (supply : BlankSupply)

/-- The sorted entries have been taken over first. -/
theorem copies_expandSorted (wf : source.WellFormed) :
    source.Copies (source.expandSorted config accept supply).1 source.topologicalOrder.sorted := by
  have start : source.Copies (Store.empty source.config, (⟨[], supply⟩ : Progress)).1 [] :=
    .empty source source.config
  exact start.foldl_expandEntry wf.sorted_nodup fun _ => wf.mem_sorted

/-- In the end all entries have been taken over. -/
theorem copies_expandThenCopy (wf : source.WellFormed) :
    source.Copies (source.expandThenCopy config accept supply).1
      (source.topologicalOrder.sorted ++ source.topologicalOrder.unsorted) :=
  (copies_expandSorted config accept supply wf).foldl_copyEntry wf.order_nodup
    fun _ => isSome_of_mem_unsorted

/-- The new store declares just what the source declares. -/
theorem declared_expandBodies (wf : source.WellFormed) {status : Status}
    (declared : status.isUndefined = false) :
    (source.expandBodies config accept supply).1.store.status? iri = some status ↔
      source.status? iri = some status := by
  have copies := copies_expandThenCopy config accept supply wf
  by_cases here : iri ∈ source.topologicalOrder.sorted ++ source.topologicalOrder.unsorted
  · exact copies.declared iri here status declared
  · have absent : source.status? iri = none := by
      by_contra known
      exact here (wf.order_perm.mem_iff.mpr
        (mem_entryList_iris.mpr (Option.isSome_iff_ne_none.mpr known)))
    rw [absent]
    refine iff_of_false (fun known => ?_) nofun
    rcases copies.fresh iri here with none | undefined
    · cases none.symm.trans known
    · rw [← Option.some.inj (undefined.symm.trans known)] at declared
      cases declared

/-- What is not sorted is copied with its body. -/
theorem bodyOf_expandBodies_of_unsorted (wf : source.WellFormed)
    (unsorted : iri ∈ source.topologicalOrder.unsorted) {ps : ParameterList}
    (defined : source.status? iri = some (.definition ps)) :
    (source.expandBodies config accept supply).1.store.bodyOf iri =
      (Template.make iri ps (source.bodyOf iri)).body :=
  (copies_expandSorted config accept supply wf).bodyOf_foldl_copyEntry wf.order_nodup
    (fun _ => isSome_of_mem_unsorted) unsorted defined

variable {config accept supply} in
/-- Expanding bodies says nothing that reads like a notice about a cycle. -/
theorem isAside_expandSorted {m : Message}
    (h : m ∈ (source.expandSorted config accept supply).2.messages) : m.IsAside := by
  obtain ⟨asides, said, only⟩ := source.adds_foldl_expandEntry config accept
    source.topologicalOrder.sorted (Store.empty source.config, ⟨[], supply⟩)
  rw [expandSorted, said] at h
  exact only m h

/-- After what is said about the bodies there is one notice for each template not expanded. -/
theorem messages_expandBodies (wf : source.WellFormed) :
    (source.expandBodies config accept supply).1.messages =
      (source.expandSorted config accept supply).2.messages ++
        source.topologicalOrder.unsorted.map (cycleNotice source.namedCyclic) := by
  have noticed : (source.expandThenCopy config accept supply).2.messages =
      (source.expandSorted config accept supply).2.messages ++
        source.topologicalOrder.unsorted.map (cycleNotice source.namedCyclic) :=
    messages_foldl_copyEntry _ fun _ h => (wf.mem_unsorted_iff.mp h).isDefinition
  have quiet := (copies_expandThenCopy config accept supply wf).quiet
  rw [expandBodies_eq]
  dsimp only
  rw [quiet, noticed]
  rfl

end Whole

theorem cycleError_inj {iri other : Iri} : cycleError iri = cycleError other ↔ iri = other := by
  refine ⟨fun same => ?_, congrArg cycleError⟩
  have texts := congrArg (fun m => m.text.toList) same
  simpa [cycleError, Message.error, String.toList_inj] using texts

theorem cycleWarning_inj {iri other : Iri} :
    cycleWarning iri = cycleWarning other ↔ iri = other := by
  refine ⟨fun same => ?_, congrArg cycleWarning⟩
  have texts := congrArg (fun m => m.text.toList) same
  simpa [cycleWarning, Message.warning, String.toList_inj] using texts

theorem cycleError_ne_cycleWarning (iri other : Iri) : cycleError iri ≠ cycleWarning other := by
  intro same
  cases congrArg Message.severity same

/-- The notice about a template is the error of the cyclic ones. -/
theorem cycleNotice_eq_cycleError {cyclic : List Iri} {iri other : Iri} :
    cycleNotice cyclic other = cycleError iri ↔ other = iri ∧ cyclic.contains other = true := by
  unfold cycleNotice
  split
  · rename_i listed
    rw [cycleError_inj, and_iff_left listed]
  · rename_i missed
    exact iff_of_false (cycleError_ne_cycleWarning iri other).symm fun h => missed h.2

/-- The notice about a template is the warning of those that are not cyclic themselves. -/
theorem cycleNotice_eq_cycleWarning {cyclic : List Iri} {iri other : Iri} :
    cycleNotice cyclic other = cycleWarning iri ↔
      other = iri ∧ ¬ cyclic.contains other = true := by
  unfold cycleNotice
  split
  · rename_i listed
    exact iff_of_false (cycleError_ne_cycleWarning other iri) fun h => h.2 listed
  · rename_i missed
    rw [cycleWarning_inj, and_iff_left missed]

/-- No two templates are named by the same notice. -/
theorem cycleNotice_injective (cyclic : List Iri) : Function.Injective (cycleNotice cyclic) := by
  intro iri other same
  by_cases listed : cyclic.contains other = true
  · have error : cycleNotice cyclic other = cycleError other := if_pos listed
    exact (cycleNotice_eq_cycleError.mp (same.trans error)).1
  · have warning : cycleNotice cyclic other = cycleWarning other := if_neg listed
    exact (cycleNotice_eq_cycleWarning.mp (same.trans warning)).1

section Notices

variable {source : Store} (config : ExpansionConfig) (accept : Instance → Bool)
variable (supply : BlankSupply)

/-- What begins like the notices is one of them. -/
theorem mem_messages_expandBodies (wf : source.WellFormed) {m : Message} (named : ¬ m.IsAside) :
    m ∈ (source.expandBodies config accept supply).1.messages ↔
      ∃ iri, source.MeetsCycle iri ∧ cycleNotice source.namedCyclic iri = m := by
  rw [messages_expandBodies config accept supply wf, List.mem_append,
    or_iff_right fun h => named (isAside_expandSorted h), List.mem_map]
  exact exists_congr fun iri => and_congr_left fun _ => wf.mem_unsorted_iff

/-- No notice is given twice. -/
theorem count_messages_expandBodies (wf : source.WellFormed) {m : Message}
    (named : ¬ m.IsAside) :
    List.count m (source.expandBodies config accept supply).1.messages ≤ 1 := by
  have distinct : (source.topologicalOrder.unsorted.map (cycleNotice source.namedCyclic)).Nodup :=
    (List.nodup_append.mp wf.order_nodup).2.1.map (cycleNotice_injective _)
  rw [messages_expandBodies config accept supply wf, List.count_append,
    List.count_eq_zero.mpr fun h => named (isAside_expandSorted h), Nat.zero_add]
  exact List.nodup_iff_count_le_one.mp distinct m

end Notices

/-- The new store declares what the source declares, with the bodies on cycles and above them,
and every template that is not expanded is named once with the reason. -/
structure KeepsDeclarations (source : Store) (result : StoreExpansion) : Prop where
  declared : ∀ (iri : Iri) (status : Status), status.isUndefined = false →
    (result.store.status? iri = some status ↔ source.status? iri = some status)
  bodies : ∀ iri, source.MeetsCycle iri →
    (result.store.bodyOf iri == source.bodyOf iri) = true ∧
      result.store.getTemplate iri = source.getTemplate iri
  errors : ∀ iri, cycleError iri ∈ result.messages ↔ source.Cyclic iri
  warnings : ∀ iri, cycleWarning iri ∈ result.messages ↔
    source.isDefinition iri = true ∧ ¬ source.Cyclic iri ∧ source.MeetsCycle iri
  once : ∀ iri, List.count (cycleError iri) result.messages ≤ 1 ∧
    List.count (cycleWarning iri) result.messages ≤ 1

/-- Expanding the bodies of a reachable store keeps its declarations. -/
theorem expandBodies_keepsDeclarations {source : Store} (reachable : source.Reachable)
    (config : ExpansionConfig) (accept : Instance → Bool) (supply : BlankSupply) :
    source.KeepsDeclarations (source.expandBodies config accept supply).1 := by
  have wf := reachable.wellFormed
  constructor
  case declared => exact fun iri status declared =>
    declared_expandBodies config accept supply wf declared
  case bodies =>
    intro iri meets
    obtain ⟨ps, defined⟩ := isDefinition_iff.mp meets.isDefinition
    have body := bodyOf_expandBodies_of_unsorted config accept supply wf
      (wf.mem_unsorted_iff.mpr meets) defined
    have again : (source.expandBodies config accept supply).1.store.status? iri =
        some (.definition ps) := (declared_expandBodies config accept supply wf rfl).mpr defined
    constructor
    · rw [body, Template.body_make iri ps (reachable.tidy.bodies iri)]
      exact Template.mapTerms_retype_same ps _
    · simp only [getTemplate, again, defined, body, Template.make_body_make]
  case errors =>
    intro iri
    rw [mem_messages_expandBodies config accept supply wf (not_isAside_cycleError iri)]
    constructor
    · rintro ⟨other, -, same⟩
      obtain ⟨rfl, listed⟩ := cycleNotice_eq_cycleError.mp same
      exact wf.contains_namedCyclic.mp listed
    · intro cyclic
      exact ⟨iri, cyclic.meetsCycle,
        cycleNotice_eq_cycleError.mpr ⟨rfl, wf.contains_namedCyclic.mpr cyclic⟩⟩
  case warnings =>
    intro iri
    rw [mem_messages_expandBodies config accept supply wf (not_isAside_cycleWarning iri)]
    constructor
    · rintro ⟨other, meets, same⟩
      obtain ⟨rfl, missed⟩ := cycleNotice_eq_cycleWarning.mp same
      exact ⟨meets.isDefinition, fun cyclic => missed (wf.contains_namedCyclic.mpr cyclic), meets⟩
    · rintro ⟨-, apart, meets⟩
      refine ⟨iri, meets, cycleNotice_eq_cycleWarning.mpr ⟨rfl, fun listed => ?_⟩⟩
      exact apart (wf.contains_namedCyclic.mp listed)
  case once =>
    exact fun iri =>
      ⟨count_messages_expandBodies config accept supply wf (not_isAside_cycleError iri),
        count_messages_expandBodies config accept supply wf (not_isAside_cycleWarning iri)⟩

/-- The case that has itself is named as an error. -/
theorem expandBodies_keepsDeclarations_cased : cased.Reachable ∧
    cased.KeepsDeclarations (cased.expandBodies ⟨100, true, false⟩ (fun _ => true) ⟨0⟩).1 ∧
    cased.Cyclic "Case" ∧ cased.Instantiates "Van" "Case" ∧
    cycleError "Case" ∈ (cased.expandBodies ⟨100, true, false⟩ (fun _ => true) ⟨0⟩).1.messages := by
  have reachable := reachable_cased
  have kept := expandBodies_keepsDeclarations reachable ⟨100, true, false⟩ (fun _ => true) ⟨0⟩
  have itself : cased.Cyclic "Case" :=
    .single (reachable.wellFormed.mem_callees.mp (by decide +kernel))
  have van : cased.Instantiates "Van" "Case" :=
    reachable.wellFormed.mem_callees.mp (by decide +kernel)
  exact ⟨reachable, kept, itself, van, (kept.errors "Case").mpr itself⟩

end Store

end RdfTemplates
