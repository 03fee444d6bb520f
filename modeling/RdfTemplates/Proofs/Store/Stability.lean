import RdfTemplates.Proofs.Store.Catalog

/-!
# Declarations that stay

What is instantiated is checked against the declaration that is there at the
time. It stays good, since an addition replaces a declaration only by one of the
same shape and of a kind that tells more, and an addition that is refused leaves
a message and nothing else. What happens to other IRIs does not matter.
-/

namespace RdfTemplates

namespace Store

/-- The ways in which something is added to a store. -/
inductive Addition where
  | base (iri : Iri) (ps : ParameterList)
  | signature (s : Signature)
  | template (t : Template)
  | declaration (d : Declaration)

def Addition.apply (store : Store) : Addition → Store × Bool
  | .base iri ps => store.addBase iri ps
  | .signature s => store.addSignature s
  | .template t => store.addTemplate t
  | .declaration d => store.accept d

/-- A step after which the IRI is still declared if it was: whatever is done to a store but
the removal of that IRI. -/
inductive Sparing (iri : Iri) : Store → Store → Prop where
  | addition (store : Store) (a : Addition) : Sparing iri store (a.apply store).1
  | removal (store : Store) (other : Iri) (apart : iri ≠ other) :
      Sparing iri store (store.remove other).1
  | edit (store : Store) (other : Iri) (out into : List Instance) :
      Sparing iri store (store.editBody other out into).1
  | library (store other : Store) : Sparing iri store (store.registerLibrary other)
  | notes (store : Store) (failed : List Iri) (messages : Messages) :
      Sparing iri store { store with failed, messages }

/-- Any number of steps that spare the IRI. -/
def Spares (iri : Iri) : Store → Store → Prop := Relation.ReflTransGen (Sparing iri)

end Store

inductive DeclarationKind where
  | undefined
  | signature
  | base
  | definition
deriving DecidableEq

def Status.kind : Status → DeclarationKind
  | .undefined => .undefined
  | .signature _ => .signature
  | .base _ => .base
  | .definition _ => .definition

/-- A kind stays, what is not declared can be declared in any way, and what has a signature can
become a base template or a definition. -/
inductive DeclarationKind.Becomes : DeclarationKind → DeclarationKind → Prop where
  | same (kind : DeclarationKind) : Becomes kind kind
  | declared (kind : DeclarationKind) : Becomes .undefined kind
  | base : Becomes .signature .base
  | definition : Becomes .signature .definition

theorem DeclarationKind.Becomes.trans {first second third : DeclarationKind}
    (before : first.Becomes second) (after : second.Becomes third) : first.Becomes third := by
  cases before with
  | same => exact after
  | declared => exact .declared third
  | base =>
      cases after
      exact .base
  | definition =>
      cases after
      exact .definition

namespace ParameterList

theorem sameShape_iff {ps qs : ParameterList} :
    ps.sameShape qs = true ↔ ps.map (·.flags) = qs.map (·.flags) := beq_iff_eq

theorem sameShape_refl (ps : ParameterList) : ps.sameShape ps = true := sameShape_iff.mpr rfl

theorem sameShape_trans {ps qs rs : ParameterList} (first : ps.sameShape qs = true)
    (second : qs.sameShape rs = true) : ps.sameShape rs = true :=
  sameShape_iff.mpr ((sameShape_iff.mp first).trans (sameShape_iff.mp second))

theorem length_of_sameShape {ps qs : ParameterList} (same : ps.sameShape qs = true) :
    ps.length = qs.length := by
  simpa using congrArg List.length (sameShape_iff.mp same)

/-- Lists of the same shape have the same flags at every position, and the same positions. -/
theorem flags_of_sameShape {ps qs : ParameterList} (same : ps.sameShape qs = true) (n : Nat) :
    ps[n]?.map (·.flags) = qs[n]?.map (·.flags) := by
  simpa using congrArg (·[n]?) (sameShape_iff.mp same)

end ParameterList

/-- A declaration gives way to another one of the same shape that tells at least as much. -/
structure Status.Refines (before after : Status) : Prop where
  kind : before.kind.Becomes after.kind
  shape : ∀ ps, before.parameters? = some ps →
    ∃ qs, after.parameters? = some qs ∧ ps.sameShape qs = true

namespace Status.Refines

variable {ps qs : ParameterList}

/-- A status that stays is no worse. -/
theorem refl (status : Status) : status.Refines status :=
  ⟨.same status.kind, fun ps h => ⟨ps, h, ps.sameShape_refl⟩⟩

/-- Refinements add up. -/
theorem trans {first second third : Status} (before : first.Refines second)
    (after : second.Refines third) : first.Refines third := by
  refine ⟨before.kind.trans after.kind, fun ps h => ?_⟩
  obtain ⟨qs, known, same⟩ := before.shape ps h
  obtain ⟨rs, last, alike⟩ := after.shape qs known
  exact ⟨rs, last, ParameterList.sameShape_trans same alike⟩

theorem of_undefined (after : Status) : Status.undefined.Refines after := ⟨.declared _, nofun⟩

/-- Both are declared with parameters, and these have the same shape. -/
theorem of_sameShape {before after : Status} (kind : before.kind.Becomes after.kind)
    (old : before.parameters? = some ps) (new : after.parameters? = some qs)
    (same : ps.sameShape qs = true) : before.Refines after := by
  refine ⟨kind, fun rs h => ⟨qs, new, ?_⟩⟩
  rw [old] at h
  rwa [← Option.some.inj h]

theorem declared {before after : Status} (refines : before.Refines after)
    (declared : before.isUndefined = false) : after.isUndefined = false := by
  have kind := refines.kind
  cases before with
  | undefined => cases declared
  | signature | base | definition =>
      cases after with
      | undefined => cases kind
      | signature | base | definition => rfl

end Status.Refines

namespace Store

variable {store next : Store} {iri : Iri} {status : Status}

/-- Nothing is changed but for one more message. -/
def Refuses (store : Store) (result : Store × Bool) : Prop :=
  result.2 = false ∧ ∃ m, result.1 = { store with messages := store.messages ++ [m] }

/-- What is known about an IRI is kept or refined. -/
def Keeps (store next : Store) (iri : Iri) : Prop :=
  ∀ status, store.status? iri = some status →
    ∃ after, next.status? iri = some after ∧ status.Refines after

theorem Keeps.refl (store : Store) (iri : Iri) : store.Keeps store iri :=
  fun status known => ⟨status, known, .refl status⟩

theorem keeps_of_status? (same : next.status? iri = store.status? iri) :
    store.Keeps next iri :=
  fun status known => ⟨status, same.trans known, .refl status⟩

theorem refuses_refuse (store : Store) (iri : Iri) (reason : String) :
    store.Refuses (store.refuse iri reason) := ⟨rfl, _, rfl⟩

theorem refuses_say (store : Store) (m : Message) : store.Refuses (store.say m, false) :=
  ⟨rfl, m, rfl⟩

theorem Refuses.keeps {result : Store × Bool} (refused : store.Refuses result) (iri : Iri) :
    store.Keeps result.1 iri := by
  obtain ⟨-, m, said⟩ := refused
  exact keeps_of_status? (by rw [said]; rfl)

/-- A status may be set to a refinement of the one before. -/
theorem keeps_setStatus {target : Iri} {after : Status}
    (refines : ∀ before, store.status? target = some before → before.Refines after) (iri : Iri) :
    store.Keeps (store.setStatus target after) iri := by
  intro before known
  by_cases here : target = iri
  · subst here
    exact ⟨after, by rw [status?_setStatus, if_pos rfl], refines before known⟩
  · exact ⟨before, by rw [status?_setStatus, if_neg here, known], .refl before⟩

/-- A definition may follow what it refines. -/
theorem keeps_define {t : Template}
    (refines : ∀ before, store.status? t.iri = some before →
      before.Refines (.definition t.parameters)) (iri : Iri) :
    store.Keeps (store.define t) iri := by
  intro before known
  by_cases here : t.iri = iri
  · subst here
    exact ⟨_, by rw [status?_define, if_pos rfl], refines before known⟩
  · exact ⟨before, by rw [status?_define, if_neg here, known, Option.some_or], .refl before⟩

/-- A base is refused, or it refines what was there. -/
theorem addBase_keeps (store : Store) (target : Iri) (ps : ParameterList) :
    store.Refuses (store.addBase target ps) ∨
      (store.addBase target ps).2 = true ∧ ∀ iri, store.Keeps (store.addBase target ps).1 iri := by
  unfold addBase
  split
  case h_1 => exact .inl (store.refuses_refuse _ _)
  case h_2 existing known =>
      split
      · rename_i same
        refine .inr ⟨rfl, keeps_setStatus fun before h => ?_⟩
        obtain rfl := Option.some.inj (known.symm.trans h)
        exact .of_sameShape .base rfl rfl same
      · exact .inl (store.refuses_refuse _ _)
  case h_3 existing known =>
      split
      · rename_i same
        refine .inr ⟨rfl, keeps_setStatus fun before h => ?_⟩
        obtain rfl := Option.some.inj (known.symm.trans h)
        exact .of_sameShape (.same .base) rfl rfl same
      · exact .inl (store.refuses_refuse _ _)
  case h_4 known =>
      refine .inr ⟨rfl, keeps_setStatus fun before h => ?_⟩
      obtain rfl := Option.some.inj (known.symm.trans h)
      exact .of_undefined _
  case h_5 unknown =>
      refine .inr ⟨rfl, keeps_setStatus fun before h => ?_⟩
      rw [unknown] at h
      cases h

theorem addSignature_keeps (store : Store) (s : Signature) :
    store.Refuses (store.addSignature s) ∨
      (store.addSignature s).2 = true ∧ ∀ iri, store.Keeps (store.addSignature s).1 iri := by
  rcases store.addSignature_cases s with ⟨-, same⟩ | ⟨-, refused⟩ | ⟨-, fresh, added⟩
  · rw [same]
    exact store.addBase_keeps s.iri s.parameters
  · rw [refused]
    exact .inl (store.refuses_say _)
  · rw [added]
    refine .inr ⟨rfl, keeps_setStatus fun before h => ?_⟩
    rcases fresh with fresh | fresh
    · rw [fresh] at h
      cases h
    · obtain rfl := Option.some.inj (fresh.symm.trans h)
      exact .of_undefined _

/-- A template is refused, or it refines what was there. -/
theorem addTemplate_keeps (store : Store) (t : Template) :
    store.Refuses (store.addTemplate t) ∨
      (store.addTemplate t).2 = true ∧ ∀ iri, store.Keeps (store.addTemplate t).1 iri := by
  unfold addTemplate
  split
  case h_1 => exact .inl (store.refuses_refuse _ _)
  case h_2 => exact .inl (store.refuses_refuse _ _)
  case h_3 existing known =>
      split
      · rename_i same
        refine .inr ⟨rfl, keeps_define fun before h => ?_⟩
        obtain rfl := Option.some.inj (known.symm.trans h)
        exact .of_sameShape .definition rfl rfl same
      · exact .inl (store.refuses_refuse _ _)
  case h_4 known =>
      refine .inr ⟨rfl, keeps_define fun before h => ?_⟩
      obtain rfl := Option.some.inj (known.symm.trans h)
      exact .of_undefined _
  case h_5 unknown =>
      refine .inr ⟨rfl, keeps_define fun before h => ?_⟩
      rw [unknown] at h
      cases h

theorem Addition.keeps (store : Store) (a : Addition) :
    store.Refuses (a.apply store) ∨
      (a.apply store).2 = true ∧ ∀ iri, store.Keeps (a.apply store).1 iri := by
  match a with
  | .base target ps => exact store.addBase_keeps target ps
  | .signature s => exact store.addSignature_keeps s
  | .template t => exact store.addTemplate_keeps t
  | .declaration (.signature s) => exact store.addSignature_keeps s
  | .declaration (.template t) => exact store.addTemplate_keeps t

/-- No addition takes back what is declared. -/
theorem Addition.keeps_all (store : Store) (a : Addition) (iri : Iri) :
    store.Keeps (a.apply store).1 iri := by
  rcases a.keeps store with refused | ⟨-, kept⟩
  · exact refused.keeps iri
  · exact kept iri

/-- An addition that fails has been refused. -/
theorem Addition.refuses (store : Store) (a : Addition) (failed : (a.apply store).2 = false) :
    store.Refuses (a.apply store) := by
  rcases a.keeps store with refused | ⟨made, -⟩
  · exact refused
  · rw [made] at failed
    cases failed

theorem Addition.wellFormed (wf : store.WellFormed) (a : Addition) :
    (a.apply store).1.WellFormed := by
  match a with
  | .base target ps => exact wf.addBase target ps
  | .signature s => exact wf.addSignature s
  | .template t => exact wf.addTemplate t
  | .declaration (.signature s) => exact wf.addSignature s
  | .declaration (.template t) => exact wf.addTemplate t

/-- What is declared about an IRI is kept or refined. An entry without a declaration may go: it
is pruned with the last call of it. -/
def KeepsDeclared (store next : Store) (iri : Iri) : Prop :=
  ∀ status, status.isUndefined = false → store.status? iri = some status →
    ∃ after, next.status? iri = some after ∧ status.Refines after

theorem Keeps.declared (keeps : store.Keeps next iri) : store.KeepsDeclared next iri :=
  fun status _ known => keeps status known

theorem keepsDeclared_of_status?
    (kept : ∀ status : Status, status.isUndefined = false →
      (next.status? iri = some status ↔ store.status? iri = some status)) :
    store.KeepsDeclared next iri :=
  fun status declared known => ⟨status, (kept status declared).mpr known, .refl status⟩

/-- Removing another template leaves what is declared. -/
theorem WellFormed.keepsDeclared_remove (wf : store.WellFormed) {other : Iri}
    (apart : iri ≠ other) : store.KeepsDeclared (store.remove other).1 iri := by
  by_cases known : store.contains other = true
  · rw [remove_of_contains known]
    refine keepsDeclared_of_status? fun status declared => ?_
    rw [(wf.cleared other).status?_prune_declared declared, wf.status?_cleared apart]
  · rw [remove_of_not_contains known]
    exact (Keeps.refl store iri).declared

/-- A step that spares the IRI leaves what is declared about it. -/
theorem Sparing.keepsDeclared (step : Sparing iri store next) (wf : store.WellFormed) :
    store.KeepsDeclared next iri := by
  cases step with
  | addition a => exact (a.keeps_all store iri).declared
  | removal other apart => exact wf.keepsDeclared_remove apart
  | edit other out into =>
      exact keepsDeclared_of_status? fun _ declared => status?_editBody wf declared other out into
  | library other => exact (keeps_of_status? rfl).declared
  | notes failed messages => exact (keeps_of_status? rfl).declared

theorem Sparing.wellFormed (step : Sparing iri store next) (wf : store.WellFormed) :
    next.WellFormed := by
  cases step with
  | addition a => exact a.wellFormed wf
  | removal other apart => exact wf.remove other
  | edit other out into => exact wf.editBody other out into
  | library other => exact wf.congr rfl rfl
  | notes failed messages => exact wf.congr rfl rfl

theorem Spares.wellFormed (run : Spares iri store next) (wf : store.WellFormed) :
    next.WellFormed := by
  induction run with
  | refl => exact wf
  | tail _ step ih => exact step.wellFormed ih

/-- A run that spares the IRI leaves what is declared about it. -/
theorem Spares.keepsDeclared (run : Spares iri store next) (wf : store.WellFormed) :
    store.KeepsDeclared next iri := by
  induction run with
  | refl => exact (Keeps.refl store iri).declared
  | tail earlier step ih =>
      intro status declared known
      obtain ⟨middle, here, first⟩ := ih status declared known
      obtain ⟨after, last, second⟩ :=
        step.keepsDeclared (Spares.wellFormed earlier wf) middle (first.declared declared) here
      exact ⟨after, last, first.trans second⟩

/-- The kind of an IRI. One without an entry is as undefined as one that is only instantiated. -/
def kind (store : Store) (iri : Iri) : DeclarationKind :=
  ((store.status? iri).map Status.kind).getD .undefined

theorem kind_of_status? (known : store.status? iri = some status) :
    store.kind iri = status.kind := by
  rw [kind, known]
  rfl

/-- A kind becomes no less. -/
theorem KeepsDeclared.kind (keeps : store.KeepsDeclared next iri) :
    (store.kind iri).Becomes (next.kind iri) := by
  have undeclared (same : store.kind iri = .undefined) :
      (store.kind iri).Becomes (next.kind iri) := by
    rw [same]
    exact .declared _
  cases known : store.status? iri with
  | none =>
      apply undeclared
      rw [Store.kind, known]
      rfl
  | some status =>
      cases free : status.isUndefined with
      | true =>
          apply undeclared
          rw [kind_of_status? known]
          cases status with
          | undefined => rfl
          | signature | base | definition => cases free
      | false =>
          obtain ⟨after, last, refines⟩ := keeps status free known
          rw [kind_of_status? known, kind_of_status? last]
          exact refines.kind

/-- Parameters keep their number and their flags. -/
theorem KeepsDeclared.shape (keeps : store.KeepsDeclared next iri) {ps : ParameterList}
    (known : store.parameters? iri = some ps) :
    ∃ qs, next.parameters? iri = some qs ∧ ps.sameShape qs = true := by
  obtain ⟨status, here, has⟩ := Option.bind_eq_some_iff.mp known
  have declared : status.isUndefined = false := by
    cases status with
    | undefined => cases has
    | signature | base | definition => rfl
  obtain ⟨after, last, refines⟩ := keeps status declared here
  obtain ⟨qs, new, same⟩ := refines.shape ps has
  exact ⟨qs, Option.bind_eq_some_iff.mpr ⟨after, last, new⟩, same⟩

/-- Between any two moments of a run from the store that does not remove the IRI, what is
declared about it keeps its shape and is not taken back, and an addition that is refused
changes nothing but for one more message. -/
structure Stable (store : Store) (iri : Iri) : Prop where
  shapes : ∀ middle last, Spares iri store middle → Spares iri middle last →
    ∀ ps, middle.parameters? iri = some ps → ∃ qs, last.parameters? iri = some qs ∧
      qs.length = ps.length ∧ ∀ n : Nat, qs[n]?.map (·.flags) = ps[n]?.map (·.flags)
  kinds : ∀ middle last, Spares iri store middle → Spares iri middle last →
    (middle.kind iri).Becomes (last.kind iri)
  entries : ∀ middle, Spares iri store middle → ∀ a : Addition,
    (middle.status? iri).isSome → ((a.apply middle).1.status? iri).isSome
  refusals : ∀ middle, Spares iri store middle → ∀ a : Addition, (a.apply middle).2 = false →
    ∃ m, (a.apply middle).1 = { middle with messages := middle.messages ++ [m] }

/-- What a reachable store has declared about an IRI is stable for as long as the IRI is spared. -/
theorem stable_of_reachable (reachable : store.Reachable) (iri : Iri) : store.Stable iri := by
  have wf := reachable.wellFormed
  constructor
  case shapes =>
    intro middle last before after ps known
    obtain ⟨qs, new, same⟩ := (after.keepsDeclared (before.wellFormed wf)).shape known
    exact ⟨qs, new, (ParameterList.length_of_sameShape same).symm,
      fun n => (ParameterList.flags_of_sameShape same n).symm⟩
  case kinds =>
    intro middle last before after
    exact (after.keepsDeclared (before.wellFormed wf)).kind
  case entries =>
    intro middle _ a known
    obtain ⟨status, here⟩ := Option.isSome_iff_exists.mp known
    obtain ⟨after, last, -⟩ := a.keeps_all middle iri status here
    exact Option.isSome_iff_exists.mpr ⟨after, last⟩
  case refusals =>
    intro middle _ a failed
    exact (a.refuses middle failed).2

/-- A store with a signature that no definition follows yet. -/
def promised : Store :=
  ((empty .standard).addSignature ⟨"Book", [.mandatory "title" .top], false⟩).1

/-- The promised book is not defined without a title, and a base that calls the title a name is
taken. -/
theorem stable_of_reachable_book : promised.Reachable ∧ promised.Stable "Book" ∧
    ((Addition.template (.make "Book" [] [])).apply promised).2 = false ∧
    ((Addition.signature ⟨"Book", [.mandatory "name" .top], true⟩).apply promised).2 = true :=
  have reachable : promised.Reachable := ⟨.standard, (Change.signature _ _).evolves⟩
  ⟨reachable, stable_of_reachable reachable "Book", by decide +kernel, by decide +kernel⟩

end Store

end RdfTemplates
