import RdfTemplates.Proofs.Store.Structure
import Mathlib.Logic.Function.Basic

/-!
# A store as a catalog

What is declared about an IRI is its kind with its parameters, and its body. An
operation on a store changes the declaration of one IRI. The declarations of all
other IRIs stay, with the order of their bodies. What a store says besides is told
by its declarations: an entry without a declaration is there for the bodies that
instantiate it.
-/

namespace RdfTemplates

def Signature.status (s : Signature) : Status :=
  if s.isBase then .base s.parameters else .signature s.parameters

namespace Store

structure CatalogEntry where
  status : Status
  body : List Instance

/-- The declarations of a store by their IRIs. -/
def catalog (store : Store) (iri : Iri) : Option CatalogEntry :=
  ((store.status? iri).filter (!·.isUndefined)).map (⟨·, store.bodyOf iri⟩)

/-- The body of a definition has an instance of the other template. -/
def Instantiates (store : Store) (caller callee : Iri) : Prop :=
  ∃ ps body, store.catalog caller = some ⟨.definition ps, body⟩ ∧ ∃ i ∈ body, i.iri = callee

variable {store : Store} {iri other : Iri} {status : Status}

theorem catalog_eq_some_iff {e : CatalogEntry} :
    store.catalog iri = some e ↔ store.status? iri = some e.status ∧
      e.status.isUndefined = false ∧ store.bodyOf iri = e.body := by
  obtain ⟨status, body⟩ := e
  simp only [catalog, Option.map_eq_some_iff, Option.filter_eq_some_iff, CatalogEntry.mk.injEq,
    Bool.not_eq_true']
  constructor
  · rintro ⟨_, ⟨known, declared⟩, rfl, same⟩
    exact ⟨known, declared, same⟩
  · rintro ⟨known, declared, same⟩
    exact ⟨status, ⟨known, declared⟩, rfl, same⟩

theorem catalog_eq_none_iff :
    store.catalog iri = none ↔ ∀ status, store.status? iri = some status → status = .undefined := by
  unfold catalog
  rw [Option.map_eq_none_iff, Option.filter_eq_none_iff]
  refine forall_congr' fun status => imp_congr_right fun _ => ?_
  cases status <;> simp [Status.isUndefined]

theorem isSome_catalog : (store.catalog iri).isSome = store.contains iri := by
  unfold catalog contains
  rw [Option.isSome_map]
  cases store.status? iri with
  | none => rfl
  | some status => cases status <;> rfl

theorem catalog_of_status (known : store.status? iri = some status)
    (declared : status.isUndefined = false) :
    store.catalog iri = some ⟨status, store.bodyOf iri⟩ :=
  catalog_eq_some_iff.mpr ⟨known, declared, rfl⟩

theorem catalog_congr {next : Store}
    (kept : ∀ status : Status, status.isUndefined = false →
      (next.status? iri = some status ↔ store.status? iri = some status))
    (body : next.bodyOf iri = store.bodyOf iri) : next.catalog iri = store.catalog iri := by
  apply Option.ext
  intro e
  rw [catalog_eq_some_iff, catalog_eq_some_iff, body]
  constructor
  · rintro ⟨known, declared, same⟩
    exact ⟨(kept e.status declared).mp known, declared, same⟩
  · rintro ⟨known, declared, same⟩
    exact ⟨(kept e.status declared).mpr known, declared, same⟩

theorem catalog_setStatus (store : Store) (iri : Iri) (declared : status.isUndefined = false) :
    (store.setStatus iri status).catalog =
      Function.update store.catalog iri (some ⟨status, store.bodyOf iri⟩) := by
  funext other
  by_cases here : other = iri
  · subst here
    rw [Function.update_self, ← bodyOf_setStatus store other status]
    exact catalog_of_status (by rw [status?_setStatus, if_pos rfl]) declared
  · rw [Function.update_of_ne here]
    refine catalog_congr (fun _ _ => ?_) (bodyOf_setStatus store iri status other)
    rw [status?_setStatus, if_neg (Ne.symm here)]

theorem WellFormed.catalog_addBase (wf : store.WellFormed) (iri : Iri) (ps : ParameterList) :
    (store.addBase iri ps).1.catalog = if (store.addBase iri ps).2 then
      Function.update store.catalog iri (some ⟨.base ps, []⟩) else store.catalog := by
  rcases store.addBase_cases iri ps with ⟨reason, refused⟩ | ⟨free, added⟩
  · rw [refused]
    rfl
  · rw [added, ← wf.bodyOf_eq_nil free]
    exact store.catalog_setStatus iri rfl

theorem WellFormed.catalog_addSignature (wf : store.WellFormed) (s : Signature) :
    (store.addSignature s).1.catalog = if (store.addSignature s).2 then
      Function.update store.catalog s.iri (some ⟨s.status, []⟩) else store.catalog := by
  rcases store.addSignature_cases s with ⟨base, same⟩ | ⟨-, refused⟩ | ⟨other, fresh, added⟩
  · rw [same, wf.catalog_addBase, Signature.status, if_pos base]
  · rw [refused]
    rfl
  · have free : ∀ ps, store.status? s.iri ≠ some (.definition ps) := by
      intro ps
      rcases fresh with fresh | fresh <;> simp [fresh]
    have declares : s.status = .signature s.parameters := by simp [Signature.status, other]
    rw [added, declares, ← wf.bodyOf_eq_nil free]
    exact store.catalog_setStatus s.iri rfl

/-- The body of a new definition is listed in an order that depends on what was removed before.
Beside it at most undefined entries are new, which no declaration is. -/
theorem WellFormed.catalog_addTemplate (wf : store.WellFormed) (t : Template) :
    ∃ body : List Instance, body.Perm t.body ∧
      (store.addTemplate t).1.catalog = if (store.addTemplate t).2 then
        Function.update store.catalog t.iri (some ⟨.definition t.parameters, body⟩)
        else store.catalog := by
  rcases store.addTemplate_cases t with ⟨reason, refused⟩ | ⟨free, added⟩
  · refine ⟨t.body, .refl _, ?_⟩
    rw [refused]
    rfl
  · refine ⟨_, wf.bodyOf_define_perm t free, ?_⟩
    rw [added, if_pos rfl]
    funext iri
    by_cases here : iri = t.iri
    · subst here
      rw [Function.update_self]
      exact catalog_of_status (by rw [status?_define, if_pos rfl]) rfl
    · rw [Function.update_of_ne here]
      refine catalog_congr (fun status declared => ?_) (bodyOf_define_of_ne here store)
      rw [status?_define, if_neg (Ne.symm here)]
      cases store.status? iri with
      | some known => rfl
      | none =>
          rw [Option.none_or]
          split
          · constructor
            · rintro ⟨⟩
              cases declared
            · nofun
          · rfl

theorem WellFormed.status?_removeEntry (wf : store.WellFormed) (apart : other ≠ iri) :
    (store.removeEntry iri).status? other = store.status? other := by
  apply Option.ext
  intro status
  have listed : ∀ item ∈ store.entries.items.filter (·.2.iri == iri),
      item ∈ store.entries.items := fun item h => (List.mem_filter.mp h).1
  refine (wf.status?_dropEntries listed).trans ?_
  rw [status?_eq_some_iff wf.iris]
  refine exists_congr fun n => and_iff_left fun gone => ?_
  exact apart (by simpa using (List.mem_filter.mp gone).2)

theorem WellFormed.status?_removeEntry_self (wf : store.WellFormed) (iri : Iri) :
    (store.removeEntry iri).status? iri = none := by
  rw [Option.eq_none_iff_forall_ne_some]
  intro status known
  have listed : ∀ item ∈ store.entries.items.filter (·.2.iri == iri),
      item ∈ store.entries.items := fun item h => (List.mem_filter.mp h).1
  obtain ⟨n, here, kept⟩ := (wf.status?_dropEntries listed).mp known
  exact kept (List.mem_filter.mpr ⟨here, by simp⟩)

theorem WellFormed.status?_cleared (wf : store.WellFormed) (apart : other ≠ iri) :
    (store.cleared iri).status? other = store.status? other := by
  rcases store.cleared_cases iri with ⟨-, removed⟩ | undefined
  · rw [removed]
    exact (wf.silenced iri).status?_removeEntry apart
  · rw [undefined, status?_setStatus, if_neg (Ne.symm apart)]
    rfl

theorem WellFormed.status?_cleared_self (wf : store.WellFormed)
    (known : (store.cleared iri).status? iri = some status) : status = .undefined := by
  rcases store.cleared_cases iri with ⟨-, removed⟩ | undefined
  · rw [removed, (wf.silenced iri).status?_removeEntry_self] at known
    cases known
  · rw [undefined, status?_setStatus, if_pos rfl] at known
    exact (Option.some.inj known).symm

theorem WellFormed.catalog_remove (wf : store.WellFormed) (iri : Iri) :
    (store.remove iri).1.catalog = Function.update store.catalog iri none := by
  by_cases known : store.contains iri = true
  · funext other
    by_cases here : other = iri
    · subst here
      rw [Function.update_self, remove_of_contains known, catalog_eq_none_iff]
      intro status pruned
      exact wf.status?_cleared_self ((wf.cleared other).status?_prune.mp pruned).1
    · rw [Function.update_of_ne here]
      refine catalog_congr (fun status declared => ?_) (wf.bodyOf_remove_of_ne here)
      rw [remove_of_contains known, (wf.cleared iri).status?_prune_declared declared,
        wf.status?_cleared here]
  · have absent : store.catalog iri = none := by
      rw [← Option.not_isSome_iff_eq_none, isSome_catalog]
      exact known
    rw [remove_of_not_contains known, ← absent, Function.update_eq_self]

theorem snd_remove (store : Store) (iri : Iri) :
    (store.remove iri).2 = (store.catalog iri).isSome := by
  rw [isSome_catalog]
  by_cases known : store.contains iri = true
  · rw [remove_of_contains known, known]
  · rw [remove_of_not_contains known, Bool.eq_false_iff.mpr known]

theorem isDefinition_iff_catalog : store.isDefinition iri = true ↔
    ∃ ps, store.catalog iri = some ⟨.definition ps, store.bodyOf iri⟩ := by
  rw [isDefinition_iff]
  refine exists_congr fun ps => ⟨fun known => catalog_of_status known rfl, fun listed => ?_⟩
  exact (catalog_eq_some_iff.mp listed).1

theorem WellFormed.catalog_editBody (wf : store.WellFormed) {ps : ParameterList}
    (known : store.status? iri = some (.definition ps)) (out into : List Instance) :
    (store.editBody iri out into).1.catalog = Function.update store.catalog iri
      (some ⟨.definition ps, (store.editBody iri out into).1.bodyOf iri⟩) := by
  funext other
  by_cases here : other = iri
  · subst here
    rw [Function.update_self]
    exact catalog_of_status ((status?_editBody wf rfl other out into).mpr known) rfl
  · rw [Function.update_of_ne here]
    exact catalog_congr (fun status declared => status?_editBody wf declared iri out into)
      (wf.bodyOf_editBody_of_ne here out into)

theorem instantiates_iff_bodyOf {caller callee : Iri} :
    store.Instantiates caller callee ↔
      store.isDefinition caller = true ∧ ∃ i ∈ store.bodyOf caller, i.iri = callee := by
  rw [isDefinition_iff_catalog]
  constructor
  · rintro ⟨ps, body, listed, calls⟩
    obtain ⟨-, -, rfl⟩ := catalog_eq_some_iff.mp listed
    exact ⟨⟨ps, listed⟩, calls⟩
  · rintro ⟨⟨ps, listed⟩, calls⟩
    exact ⟨ps, _, listed, calls⟩

theorem WellFormed.instantiates_iff (wf : store.WellFormed) {caller callee : Iri} :
    store.Instantiates caller callee ↔
      ∃ call ∈ store.calls.items, call.2.caller = caller ∧ call.2.callee = callee := by
  constructor
  · rintro ⟨ps, body, listed, i, hi, rfl⟩
    obtain ⟨-, -, rfl⟩ := catalog_eq_some_iff.mp listed
    obtain ⟨n, used⟩ := mem_bodyOf.mp hi
    exact ⟨_, used, rfl, rfl⟩
  · rintro ⟨⟨n, c⟩, used, rfl, rfl⟩
    obtain ⟨ps, defined⟩ := isDefinition_iff_catalog.mp (wf.callers _ used)
    exact ⟨ps, _, defined, c.target, mem_bodyOf.mpr ⟨n, used⟩, rfl⟩

theorem WellFormed.mem_dependents (wf : store.WellFormed) {caller callee : Iri} :
    caller ∈ store.dependents callee ↔ store.Instantiates caller callee := by
  rw [dependents, mem_firsts, List.mem_map, wf.instantiates_iff]
  constructor
  · rintro ⟨call, listed, rfl⟩
    obtain ⟨used, leads⟩ := mem_callsTo.mp listed
    exact ⟨call, used, rfl, leads⟩
  · rintro ⟨call, used, rfl, leads⟩
    exact ⟨call, mem_callsTo.mpr ⟨used, leads⟩, rfl⟩

/-- An entry without a declaration is there as long as some body instantiates it. -/
theorem Reachable.isSome_entry?_iff (reachable : store.Reachable)
    (undeclared : store.catalog iri = none) :
    (store.entry? iri).isSome ↔ ∃ caller, store.Instantiates caller iri := by
  have wf := reachable.wellFormed
  have same : (store.entry? iri).isSome = (store.status? iri).isSome := by simp [status?]
  rw [same]
  constructor
  · intro known
    obtain ⟨status, here⟩ := Option.isSome_iff_exists.mp known
    obtain rfl := catalog_eq_none_iff.mp undeclared status here
    obtain ⟨call, used, leads⟩ := reachable.tidy.called iri here
    exact ⟨call.2.caller, wf.instantiates_iff.mpr ⟨call, used, rfl, leads⟩⟩
  · rintro ⟨caller, instantiates⟩
    obtain ⟨call, used, -, rfl⟩ := wf.instantiates_iff.mp instantiates
    exact wf.callees call used

/-- The operations change the catalog of the store in one place, and what is asked about the
store is told by its catalog. -/
structure Catalogued (store : Store) : Prop where
  iris : store.iris.Nodup ∧ ∀ iri, iri ∈ store.iris ↔ (store.catalog iri).isSome
  bodiless : ∀ iri e, store.catalog iri = some e → e.status.isDefinition = false → e.body = []
  addBase : ∀ iri ps, (store.addBase iri ps).1.catalog = if (store.addBase iri ps).2 then
    Function.update store.catalog iri (some ⟨.base ps, []⟩) else store.catalog
  addSignature : ∀ s, (store.addSignature s).1.catalog = if (store.addSignature s).2 then
    Function.update store.catalog s.iri (some ⟨s.status, []⟩) else store.catalog
  addTemplate : ∀ t, ∃ body : List Instance, body.Perm t.body ∧
    (store.addTemplate t).1.catalog = if (store.addTemplate t).2 then
      Function.update store.catalog t.iri (some ⟨.definition t.parameters, body⟩)
      else store.catalog
  remove : ∀ iri, (store.remove iri).2 = (store.catalog iri).isSome ∧
    (store.remove iri).1.catalog = Function.update store.catalog iri none
  editBody : ∀ iri ps body, store.catalog iri = some ⟨.definition ps, body⟩ → ∀ out into,
    (store.editBody iri out into).2 = true ∧ ∃ edited, Distinct edited ∧
      (∀ i, edited.contains i = ((body.contains i && !out.contains i) || into.contains i)) ∧
      (store.editBody iri out into).1.catalog =
        Function.update store.catalog iri (some ⟨.definition ps, edited⟩)
  editBody_other : ∀ iri, (∀ ps body, store.catalog iri ≠ some ⟨.definition ps, body⟩) →
    ∀ out into, store.editBody iri out into = (store, false)
  undeclared : ∀ iri, store.catalog iri = none →
    ((store.entry? iri).isSome ↔ ∃ caller, store.Instantiates caller iri)
  dependencies : ∀ iri ps body, store.catalog iri = some ⟨.definition ps, body⟩ →
    ∃ callees, store.dependencies iri = .ok callees ∧ callees.Nodup ∧
      ∀ callee, callee ∈ callees ↔ ∃ i ∈ body, i.iri = callee
  dependencies_other : ∀ iri, (∀ ps body, store.catalog iri ≠ some ⟨.definition ps, body⟩) →
    store.dependencies iri = .error (.missingTemplate iri)
  dependents : ∀ callee, (store.dependents callee).Nodup ∧
    ∀ caller, caller ∈ store.dependents callee ↔ store.Instantiates caller callee
  missing : store.missing.Nodup ∧ ∀ iri, iri ∈ store.missing ↔
    store.status? iri = some .undefined ∨ ∃ ps, store.status? iri = some (.signature ps)

theorem not_isDefinition_of_catalog
    (other : ∀ ps body, store.catalog iri ≠ some ⟨.definition ps, body⟩) :
    ¬ store.isDefinition iri = true := by
  intro defined
  obtain ⟨ps, listed⟩ := isDefinition_iff_catalog.mp defined
  exact other ps _ listed

/-- A reachable store is told by its catalog. -/
theorem catalogued_of_reachable (reachable : store.Reachable) : store.Catalogued := by
  have wf := reachable.wellFormed
  constructor
  case iris =>
    refine ⟨wf.listed_nodup (!·.isUndefined), fun iri => ?_⟩
    have listed : iri ∈ store.iris ↔ ∃ status, store.status? iri = some status ∧
        (!status.isUndefined) = true := wf.mem_listed (p := (!·.isUndefined))
    rw [isSome_catalog, listed, contains, Option.any_eq_true]
  case bodiless =>
    intro iri e listed other
    obtain ⟨known, -, same⟩ := catalog_eq_some_iff.mp listed
    rw [← same]
    refine wf.bodyOf_eq_nil fun ps defined => ?_
    rw [known] at defined
    rw [Option.some.inj defined] at other
    cases other
  case addBase => exact wf.catalog_addBase
  case addSignature => exact wf.catalog_addSignature
  case addTemplate => exact wf.catalog_addTemplate
  case remove => exact fun iri => ⟨store.snd_remove iri, wf.catalog_remove iri⟩
  case editBody =>
    intro iri ps body listed out into
    obtain ⟨known, -, rfl⟩ := catalog_eq_some_iff.mp listed
    have defined := isDefinition_iff.mpr ⟨ps, known⟩
    refine ⟨by rw [editBody_of_definition defined], _,
      distinct_editBody (reachable.tidy.bodies iri) out into,
      wf.contains_editBody defined out into, wf.catalog_editBody known out into⟩
  case editBody_other =>
    intro iri other out into
    exact editBody_of_not_definition (not_isDefinition_of_catalog other) out into
  case undeclared => exact fun iri => reachable.isSome_entry?_iff
  case dependencies =>
    intro iri ps body listed
    obtain ⟨known, -, rfl⟩ := catalog_eq_some_iff.mp listed
    refine ⟨_, if_pos (isDefinition_iff.mpr ⟨ps, known⟩), firsts_nodup _, fun callee => ?_⟩
    rw [mem_firsts, List.mem_map]
  case dependencies_other =>
    intro iri other
    exact if_neg (not_isDefinition_of_catalog other)
  case dependents => exact fun callee => ⟨firsts_nodup _, fun caller => wf.mem_dependents⟩
  case missing => exact ⟨wf.listed_nodup Status.isMissing, fun iri => wf.mem_missing⟩

/-- Without the shelf, what only the shelf lists is no longer missing. -/
theorem catalogued_of_reachable_shelf : stocked.Reachable ∧ stocked.Catalogued ∧
    stocked.iris = ["Shelf", "Book"] ∧ stocked.missing = ["Note", "Title", "Map"] ∧
    stocked.dependents "Map" = ["Shelf"] ∧
    stocked.dependencies "Shelf" = .ok ["Shelf", "Map", "Note"] ∧
    (stocked.remove "Shelf").1.iris = ["Book"] ∧ (stocked.remove "Shelf").1.missing = ["Title"] :=
  ⟨leadsTo_stocked.reachable, catalogued_of_reachable leadsTo_stocked.reachable, by decide +kernel,
    by decide +kernel, by decide +kernel, by decide +kernel, by decide +kernel, by decide +kernel⟩

end Store

end RdfTemplates
