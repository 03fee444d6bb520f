import RdfTemplates.Proofs.Matching.Principal
import RdfTemplates.Proofs.Refactoring.Acyclicity
import RdfTemplates.Proofs.Store.Catalog

/-!
# The types of the variables in bodies

A template is made with the types of its parameters given to the variables of its
body, and what is read back from a library is made again. The instance that a
refactoring puts in has variables of the changed body only, as they are there. An
edit takes the instances as they are given. So it is the one operation that can
leave a variable without the type that is declared for it: the bodies stay typed
exactly if the instances that are really put in are typed. An instance that
differs from one of the body in types only is not put in.
-/

namespace RdfTemplates

/-- A variable labelled like a parameter has the type of the first such parameter. -/
def Instance.TypedBy (ps : ParameterList) (i : Instance) : Prop :=
  ∀ x ∈ i.vars, ∀ p ∈ ps.labelled? x.label, x.type = p.type

instance (ps : ParameterList) (i : Instance) : Decidable (i.TypedBy ps) := by
  unfold Instance.TypedBy
  infer_instance

theorem Filling.typing_type {ps : ParameterList} {x y : Variable}
    (h : x ∈ ((typing ps).value y).vars) : ∀ p ∈ ps.labelled? x.label, x.type = p.type := by
  intro p declared
  rw [typing_label h] at declared
  unfold typing at h
  dsimp only at h
  rw [declared] at h
  rw [List.mem_singleton.mp h]
  rfl

theorem Template.typedBy_of_mem_make {iri : Iri} {ps : ParameterList} {body : List Instance}
    {j : Instance} (h : j ∈ (make iri ps body).body) : j.TypedBy ps := by
  obtain ⟨k, -, rfl⟩ := mem_make h
  intro x hx
  obtain ⟨y, -, here⟩ := Instance.mem_vars_fill hx
  exact Filling.typing_type here

/-- What takes the place of the matched instances has the variables of the changed body. -/
theorem Refactoring.Done.typedBy_call {store other : Store} {used changed : Template}
    {s : Substitution} (done : Done store other used changed s) :
    (call used s).TypedBy changed.parameters := by
  intro x hx
  obtain ⟨p, -, u, bound, here⟩ := done.mem_vars_call hx
  obtain ⟨j, hj, sub⟩ := Substitution.vars_of_mem_matchBodies done.found bound
  rw [← done.changedBody] at hj
  exact Template.typedBy_of_mem_make hj x (sub here)

namespace Store

/-- The variables in the bodies of definitions have the types that are declared for them. -/
def BodiesTyped (store : Store) : Prop :=
  ∀ iri ps body, store.status? iri = some (.definition ps) → store.body? iri = some body →
    ∀ i ∈ body, i.TypedBy ps

variable {store other : Store} {iri : Iri} {ps : ParameterList}

theorem bodiesTyped_iff : store.BodiesTyped ↔ ∀ iri ps body,
    store.catalog iri = some ⟨.definition ps, body⟩ → ∀ i ∈ body, i.TypedBy ps := by
  have body {iri : Iri} {ps : ParameterList} (known : store.status? iri = some (.definition ps)) :
      store.body? iri = some (store.bodyOf iri) := if_pos (isDefinition_iff.mpr ⟨ps, known⟩)
  constructor
  · intro typed iri ps _ listed
    obtain ⟨known, -, rfl⟩ := catalog_eq_some_iff.mp listed
    exact typed iri ps _ known (body known)
  · intro typed iri ps js known found
    obtain rfl := Option.some.inj ((body known).symm.trans found)
    exact typed iri ps _ (catalog_of_status known rfl)

theorem bodiesTyped_empty (config : StoreConfig) : (empty config).BodiesTyped := nofun

namespace BodiesTyped

/-- What is declared about one IRI is exchanged. -/
theorem update (typed : store.BodiesTyped) {e : Option CatalogEntry}
    (exchanged : other.catalog = Function.update store.catalog iri e)
    (new : ∀ ps body, e = some ⟨.definition ps, body⟩ → ∀ i ∈ body, i.TypedBy ps) :
    other.BodiesTyped := by
  rw [bodiesTyped_iff] at typed ⊢
  intro there ps body listed
  rw [exchanged] at listed
  by_cases here : there = iri
  · subst here
    rw [Function.update_self] at listed
    exact new ps body listed
  · rw [Function.update_of_ne here] at listed
    exact typed there ps body listed

theorem updateIf (typed : store.BodiesTyped) {added : Bool} {e : CatalogEntry}
    (exchanged : other.catalog =
      if added then Function.update store.catalog iri (some e) else store.catalog)
    (new : ∀ ps, e.status = .definition ps → ∀ i ∈ e.body, i.TypedBy ps) :
    other.BodiesTyped := by
  cases added with
  | true =>
      refine typed.update exchanged fun ps body same => ?_
      obtain rfl := Option.some.inj same
      exact new ps rfl
  | false =>
      rw [bodiesTyped_iff] at typed ⊢
      rwa [exchanged]

theorem addBase (typed : store.BodiesTyped) (wf : store.WellFormed) (iri : Iri)
    (ps : ParameterList) : (store.addBase iri ps).1.BodiesTyped :=
  typed.updateIf (wf.catalog_addBase iri ps) fun _ _ => nofun

theorem accept (typed : store.BodiesTyped) (wf : store.WellFormed) {d : Declaration}
    (made : d.Made) : (store.accept d).1.BodiesTyped := by
  cases d with
  | signature s => exact typed.updateIf (wf.catalog_addSignature s) fun _ _ => nofun
  | template t =>
      obtain ⟨iri, ps, given, rfl⟩ := made
      obtain ⟨body, same, added⟩ := wf.catalog_addTemplate (.make iri ps given)
      refine typed.updateIf added fun qs declared i hi => ?_
      obtain rfl := Status.definition.inj declared
      exact Template.typedBy_of_mem_make (same.subset hi)

theorem remove (typed : store.BodiesTyped) (wf : store.WellFormed) (iri : Iri) :
    (store.remove iri).1.BodiesTyped :=
  typed.update (wf.catalog_remove iri) nofun

/-- The types are kept exactly if the instances that are put in have them. -/
theorem editBody_iff (typed : store.BodiesTyped) (wf : store.WellFormed)
    (known : store.status? iri = some (.definition ps)) (out into : List Instance) :
    (store.editBody iri out into).1.BodiesTyped ↔
      ∀ i ∈ store.putIn iri out into, i.TypedBy ps := by
  have defined := isDefinition_iff.mpr ⟨ps, known⟩
  have edited := wf.catalog_editBody known out into
  constructor
  · intro after i hi
    refine bodiesTyped_iff.mp after iri ps _ ?_ i
      ((wf.mem_bodyOf_editBody_self defined out into).mpr (.inr hi))
    rw [edited, Function.update_self]
  · intro given
    refine typed.update edited fun qs body same i hi => ?_
    obtain ⟨declared, rfl⟩ := CatalogEntry.mk.inj (Option.some.inj same)
    obtain rfl := Status.definition.inj declared
    rcases (wf.mem_bodyOf_editBody_self defined out into).mp hi with ⟨old, -⟩ | new
    · exact bodiesTyped_iff.mp typed iri ps _ (catalog_of_status known rfl) i old
    · exact given i new

theorem editBody (typed : store.BodiesTyped) (wf : store.WellFormed) (iri : Iri)
    {out into : List Instance} (given : ∀ ps, store.status? iri = some (.definition ps) →
      ∀ i ∈ store.putIn iri out into, i.TypedBy ps) :
    (store.editBody iri out into).1.BodiesTyped := by
  by_cases defined : store.isDefinition iri = true
  · obtain ⟨ps, known⟩ := isDefinition_iff.mp defined
    exact (typed.editBody_iff wf known out into).mpr (given ps known)
  · rwa [editBody_of_not_definition defined]

theorem refactor (typed : store.BodiesTyped) (wf : store.WellFormed) (used changed : Iri) :
    (store.refactor used changed).2.BodiesTyped := by
  rcases refactored : store.refactor used changed with ⟨e | s, other⟩
  · rwa [Refactoring.store_of_error refactored]
  · obtain ⟨t, u, -, -, -, -, done⟩ := Refactoring.done_of_refactor refactored
    have edited : (store.editBody u.iri (Refactoring.matched t s)
        [Refactoring.call t s]).1.BodiesTyped := by
      refine (typed.editBody_iff wf done.changes _ _).mpr fun i hi => ?_
      have put := (List.mem_filter.mp (mem_of_mem_firsts hi)).1
      rw [List.mem_singleton.mp put]
      exact done.typedBy_call
    rwa [done.edited] at edited

end BodiesTyped

/-- What a store is taken to by operations, where an edit of a body puts in instances with the
types that are declared for it. A reader works on the store by such operations itself. -/
inductive LeadsTypedTo : Store → Store → Prop where
  | start (store : Store) : LeadsTypedTo store store
  | addBase {store other : Store} (earlier : LeadsTypedTo store other) (iri : Iri)
      (ps : ParameterList) : LeadsTypedTo store (other.addBase iri ps).1
  | accept {store other : Store} (earlier : LeadsTypedTo store other) {d : Declaration}
      (made : d.Made) : LeadsTypedTo store (other.accept d).1
  | remove {store other : Store} (earlier : LeadsTypedTo store other) (iri : Iri) :
      LeadsTypedTo store (other.remove iri).1
  | editBody {store other : Store} (earlier : LeadsTypedTo store other) (iri : Iri)
      (out into : List Instance) (given : ∀ ps, other.status? iri = some (.definition ps) →
        ∀ i ∈ other.putIn iri out into, i.TypedBy ps) :
      LeadsTypedTo store (other.editBody iri out into).1
  | refactor {store other : Store} (earlier : LeadsTypedTo store other) (used changed : Iri) :
      LeadsTypedTo store (other.refactor used changed).2
  | registerLibrary {store other : Store} (earlier : LeadsTypedTo store other)
      (library : Store) : LeadsTypedTo store (other.registerLibrary library)
  | takeMessages {store other : Store} (earlier : LeadsTypedTo store other) :
      LeadsTypedTo store other.takeMessages.2
  | fetchMissing {σ : Type} {store other : Store} (earlier : LeadsTypedTo store other)
      (reader : Reader σ) (memory : σ)
      (asked : ∀ iri store memory, LeadsTypedTo store (reader iri store memory).2.1) :
      LeadsTypedTo store (other.fetchMissing reader memory).store
  | fetchOnly {σ : Type} {store other : Store} (earlier : LeadsTypedTo store other)
      (iris : List Iri) (reader : Reader σ) (memory : σ)
      (asked : ∀ iri store memory, LeadsTypedTo store (reader iri store memory).2.1) :
      LeadsTypedTo store (other.fetchOnly iris reader memory).store

theorem LeadsTypedTo.acceptAll (leads : LeadsTypedTo store other) {ds : List Declaration}
    (made : ∀ d ∈ ds, d.Made) : LeadsTypedTo store (other.acceptAll ds) := by
  induction ds generalizing other with
  | nil => exact leads
  | cons d ds ih =>
      have first := leads.accept (made d List.mem_cons_self)
      exact ih first fun e h => made e (List.mem_cons_of_mem d h)

/-- The bodies are typed, and stay so with what the library offers. -/
structure WellTyped (store : Store) : Prop where
  wellFormed : store.WellFormed
  libraryMade : store.LibraryMade
  bodies : store.BodiesTyped

namespace WellTyped

theorem evolve (typed : store.WellTyped) (evolves : Evolves store other)
    (bodies : other.BodiesTyped) : other.WellTyped :=
  ⟨evolves.wellFormed typed.wellFormed, evolves.libraryMade typed.libraryMade, bodies⟩

theorem accept (typed : store.WellTyped) {d : Declaration} (made : d.Made) :
    (store.accept d).1.WellTyped :=
  typed.evolve (Change.accept store made).evolves (typed.bodies.accept typed.wellFormed made)

theorem notes (typed : store.WellTyped) (failed : List Iri) (messages : Messages) :
    { store with failed, messages }.WellTyped :=
  typed.evolve (Change.notes store failed messages).evolves typed.bodies

theorem keptByFetching {σ : Type} {reader : Reader σ}
    (asked : ∀ iri store memory, store.WellTyped → (reader iri store memory).2.1.WellTyped) :
    KeptByFetching WellTyped reader where
  accept _ d typed offered := typed.accept (typed.libraryMade d offered)
  notes _ failed messages typed := typed.notes failed messages
  ask := asked

end WellTyped

theorem LeadsTypedTo.wellTyped (leads : LeadsTypedTo store other) (typed : store.WellTyped) :
    other.WellTyped := by
  induction leads with
  | start => exact typed
  | addBase _ iri ps ih =>
      exact (ih typed).evolve (Change.base _ iri ps).evolves
        ((ih typed).bodies.addBase (ih typed).wellFormed iri ps)
  | accept _ made ih => exact (ih typed).accept made
  | remove _ iri ih =>
      exact (ih typed).evolve (Change.removal _ iri).evolves
        ((ih typed).bodies.remove (ih typed).wellFormed iri)
  | editBody _ iri out into given ih =>
      exact (ih typed).evolve (Change.edit _ iri out into).evolves
        ((ih typed).bodies.editBody (ih typed).wellFormed iri given)
  | refactor _ used changed ih =>
      exact (ih typed).evolve (evolves_refactor _ used changed)
        ((ih typed).bodies.refactor (ih typed).wellFormed used changed)
  | registerLibrary _ library ih =>
      exact (ih typed).evolve (Change.library _ library).evolves (ih typed).bodies
  | takeMessages _ ih => exact (ih typed).notes _ []
  | fetchMissing _ reader memory _ ih asked =>
      exact (WellTyped.keptByFetching asked).fetchMissing (ih typed) memory
  | fetchOnly _ iris reader memory _ ih asked =>
      exact (WellTyped.keptByFetching asked).fetchOnly (ih typed) iris memory

/-- The variables in bodies have their declared types as long as edits put in nothing else, and an
edit keeps them exactly if what it puts in has them. -/
theorem bodiesTyped_of_leadsTypedTo {config : StoreConfig} {store : Store}
    (leads : LeadsTypedTo (empty config) store) :
    store.BodiesTyped ∧ ∀ iri ps, store.status? iri = some (.definition ps) → ∀ out into,
      ((store.editBody iri out into).1.BodiesTyped ↔
        ∀ i ∈ store.putIn iri out into, i.TypedBy ps) := by
  have start : (empty config).WellTyped :=
    ⟨wellFormed_empty config, by simp [LibraryMade, empty], bodiesTyped_empty config⟩
  have typed := leads.wellTyped start
  refine ⟨typed.bodies, ?_⟩
  intro iri ps known out into
  exact typed.bodies.editBody_iff typed.wellFormed known out into

/-- A tree is written down with where it stands. It is watered and bears fruit, its place comes
to be told by another template, what the fruit is gets fetched, and that template is removed. -/
def garden : Store :=
  (empty .standard).acceptAll [
    .signature ⟨"Fact", [.mandatory "subject" .anyIri, .mandatory "object" .anyIri], true⟩,
    .template (.make "Stands" [.mandatory "thing" .anyIri, .mandatory "place" .anyIri] [
      .ofTerms "Fact" [.var ⟨"thing", .top⟩, .var ⟨"place", .top⟩]]),
    .template (.make "Tree" [.mandatory "name" .anyIri] [
      .ofTerms "Fact" [.var ⟨"name", .top⟩, .iri "orchard"]])]

/-- Knows what a fruit is and fails for everything else. -/
def nursery : Reader Unit := fun iri store _ =>
  if iri = "Fruit" then
    (.ok (), (store.accept (.template (.make "Fruit" [.mandatory "of" .anyIri] [
      .ofTerms "Fact" [.var ⟨"of", .top⟩, .iri "ripe"]]))).1, ())
  else (.error (.notFound iri), store, ())

/-- What is put in for a tree, with a variable of the type. -/
def tended (type : TermType) : List Instance :=
  [.ofTerms "Fact" [.var ⟨"name", type⟩, .iri "watered"], .ofTerms "Fruit" [.var ⟨"name", type⟩]]

/-- The garden after all of that. -/
def orchard : Store :=
  ((((garden.editBody "Tree" [] (tended .anyIri)).1.refactor "Stands" "Tree").2.fetchMissing
    nursery ()).store.remove "Stands").1

theorem leadsTypedTo_orchard : LeadsTypedTo (empty .standard) orchard := by
  have asked : ∀ iri store memory, LeadsTypedTo store (nursery iri store memory).2.1 := by
    intro iri store memory
    unfold nursery
    split
    · exact .accept (.start store) ⟨_, _, _, rfl⟩
    · exact .start store
  have planted : LeadsTypedTo (empty .standard) garden := by
    refine .acceptAll (.start _) ?_
    simp [Declaration.Made]
  have watered : LeadsTypedTo (empty .standard) (garden.editBody "Tree" [] (tended .anyIri)).1 := by
    refine .editBody planted "Tree" [] (tended .anyIri) fun ps known => ?_
    obtain rfl := Status.definition.inj (Option.some.inj known)
    decide +kernel
  exact .remove (.fetchMissing (.refactor watered "Stands" "Tree") nursery () asked) "Stands"

/-- In the orchard all variables are typed. Taking them to the top type would not keep that. -/
theorem bodiesTyped_of_leadsTypedTo_orchard :
    LeadsTypedTo (empty .standard) orchard ∧ orchard.BodiesTyped ∧
    (orchard.bodyOf "Tree").map (·.text) =
      ["<Stands>(?name, <orchard>)", "<Fact>(?name, <watered>)", "<Fruit>(?name)"] ∧
    ((orchard.bodyOf "Tree" ++ orchard.bodyOf "Fruit").flatMap Instance.vars).map (·.type) =
      [.anyIri, .anyIri, .anyIri, .anyIri] ∧
    ¬ (orchard.editBody "Tree" (tended .anyIri) (tended .top)).1.BodiesTyped := by
  obtain ⟨typed, kept⟩ := bodiesTyped_of_leadsTypedTo leadsTypedTo_orchard
  refine ⟨leadsTypedTo_orchard, typed, by decide +kernel, by decide +kernel, ?_⟩
  rw [kept "Tree" [.mandatory "name" .anyIri] rfl]
  decide +kernel

/-- A list of trees has no body at first and is given one with its names expanded. -/
def grove : Store :=
  (empty .standard).acceptAll [
    .signature ⟨"Fact", [.mandatory "subject" .top], true⟩,
    .template (.make "Trees" [.mandatory "names" (.list .anyIri)] [])]

def eachTree : Instance := ⟨"Fact", [⟨.var ⟨"names", .top⟩, true⟩], some .cross⟩

/-- In the body the variable is no list, and in the template that is read back it is one. -/
theorem not_bodiesTyped_grove :
    (grove.editBody "Trees" [] [eachTree]).1.Reachable ∧
    ¬ (grove.editBody "Trees" [] [eachTree]).1.BodiesTyped ∧
    ((grove.editBody "Trees" [] [eachTree]).1.bodyOf "Trees").flatMap Instance.vars =
      [⟨"names", .top⟩] ∧
    ((grove.editBody "Trees" [] [eachTree]).1.getTemplate "Trees").map
      (·.body.flatMap Instance.vars) = .ok [⟨"names", .list .anyIri⟩] := by
  have start : grove.Reachable := by
    apply reachable_acceptAll
    simp [Declaration.Made]
  refine ⟨start.evolves (Change.edit grove _ _ _).evolves, fun typed => ?_, rfl, rfl⟩
  have wrong := typed "Trees" [.mandatory "names" (.list .anyIri)] _ rfl rfl
  revert wrong
  decide +kernel

end Store

end RdfTemplates
