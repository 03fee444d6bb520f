import RdfTemplates.Proofs.Store.Catalog

/-!
# The index of predicates

A template is listed under a predicate as long as its body has a triple with that
predicate. A use is noted with the call that makes it. When a body loses calls the
uses of that template are forgotten together, for another call may still make the
same use, and those of what is left of the body are noted anew. The uses of every
other template stay.
-/

namespace RdfTemplates

/-- The instance is a triple with the predicate. -/
def Instance.HasPredicate (i : Instance) (predicate : Iri) : Prop :=
  i.iri = Iri.triple ∧ i.arguments.term? 1 = some (.iri predicate)

/-- The predicate of a triple is its second argument, if that is an IRI. -/
theorem Instance.triplePredicate?_eq_iri {i : Instance} {predicate : Iri} :
    i.triplePredicate? = some (.iri predicate) ↔ i.HasPredicate predicate := by
  rw [triplePredicate?, HasPredicate, Option.ite_none_right_eq_some, isTriple, beq_iff_eq]

namespace Store

variable {store other : Store} {iri caller template predicate : Iri} {i : Instance}
  {uses : List (Iri × Iri)}

/-- A use is noted once, and only of a triple. -/
theorem noteUse_cases (uses : List (Iri × Iri)) (caller : Iri) (i : Instance) :
    (∃ predicate, i.HasPredicate predicate ∧
      noteUse uses caller i =
        if uses.contains (predicate, caller) then uses else (predicate, caller) :: uses) ∨
      (∀ predicate, ¬ i.HasPredicate predicate) ∧ noteUse uses caller i = uses := by
  unfold noteUse
  split
  · rename_i predicate found
    exact .inl ⟨predicate, Instance.triplePredicate?_eq_iri.mp found, rfl⟩
  · rename_i none
    exact .inr ⟨fun predicate has => none predicate (Instance.triplePredicate?_eq_iri.mpr has), rfl⟩

/-- What is noted is the use of the predicate by the caller. -/
theorem mem_noteUse : (predicate, template) ∈ noteUse uses caller i ↔
    (template = caller ∧ i.HasPredicate predicate) ∨ (predicate, template) ∈ uses := by
  rcases noteUse_cases uses caller i with ⟨found, has, noted⟩ | ⟨none, same⟩
  · have only : i.HasPredicate predicate ↔ predicate = found := by
      constructor
      · intro other
        exact Term.iri.inj (Option.some.inj (other.2.symm.trans has.2))
      · rintro rfl
        exact has
    rw [noted, only]
    split
    · rename_i old
      constructor
      · exact .inr
      · rintro (⟨rfl, rfl⟩ | old)
        · simpa using old
        · exact old
    · rw [List.mem_cons, Prod.mk.injEq, and_comm]
  · rw [same]
    constructor
    · exact .inr
    · rintro (⟨-, has⟩ | old)
      · exact absurd has (none predicate)
      · exact old

theorem nodup_noteUse (nodup : uses.Nodup) (caller : Iri) (i : Instance) :
    (noteUse uses caller i).Nodup := by
  rcases noteUse_cases uses caller i with ⟨predicate, -, noted⟩ | ⟨-, same⟩
  · rw [noted]
    split
    · exact nodup
    · rename_i new
      exact List.nodup_cons.mpr ⟨by simpa using new, nodup⟩
  · rwa [same]

theorem mem_foldl_noteUse {body : List Instance} :
    (predicate, template) ∈ body.foldl (noteUse · caller ·) uses ↔
      (template = caller ∧ ∃ i ∈ body, i.HasPredicate predicate) ∨
        (predicate, template) ∈ uses := by
  induction body generalizing uses with
  | nil => simp
  | cons i body ih =>
      rw [List.foldl_cons, ih, mem_noteUse, List.exists_mem_cons_iff, and_or_left, or_assoc,
        or_left_comm]

theorem nodup_foldl_noteUse (nodup : uses.Nodup) (caller : Iri) (body : List Instance) :
    (body.foldl (noteUse · caller ·) uses).Nodup := by
  induction body generalizing uses with
  | nil => exact nodup
  | cons i body ih => exact ih (nodup_noteUse nodup caller i)

/-- What a template uses is forgotten, and nothing else. -/
theorem mem_forgetUses : (predicate, template) ∈ forgetUses uses iri ↔
    (predicate, template) ∈ uses ∧ template ≠ iri := by
  rw [forgetUses, List.mem_filter, bne_iff_ne]

theorem nodup_forgetUses (nodup : uses.Nodup) (iri : Iri) : (forgetUses uses iri).Nodup :=
  nodup.filter _

/-- No use is noted twice, and the uses noted of the templates concerned are those in their
bodies. -/
structure Indexed (store : Store) (concerned : Iri → Prop) : Prop where
  once : store.predicateUses.Nodup
  noted : ∀ template, concerned template → ∀ predicate,
    (predicate, template) ∈ store.predicateUses ↔
      ∃ i ∈ store.bodyOf template, i.HasPredicate predicate

theorem uses_ensure (store : Store) (iri : Iri) :
    (store.ensure iri).predicateUses = store.predicateUses := by
  unfold ensure
  split <;> rfl

/-- A call notes the predicate that it uses. -/
theorem uses_addCall (store : Store) (caller : Iri) (i : Instance) :
    (store.addCall caller i).predicateUses = noteUse store.predicateUses caller i := by
  rw [addCall, uses_ensure]

/-- The store with the uses of a template noted from its body. -/
def renoted (store : Store) (iri : Iri) : Store :=
  let uses := forgetUses store.predicateUses iri
  { store with predicateUses := (store.bodyOf iri).foldl (noteUse · iri ·) uses }

namespace Indexed

variable {concerned : Iri → Prop}

theorem empty (config : StoreConfig) : (empty config).Indexed concerned where
  once := List.nodup_nil
  noted := by
    intro template _ predicate
    constructor
    · nofun
    · rintro ⟨i, hi, -⟩
      cases hi

theorem congr (indexed : store.Indexed concerned)
    (uses : other.predicateUses = store.predicateUses) (calls : other.calls = store.calls) :
    other.Indexed concerned where
  once := uses ▸ indexed.once
  noted := by
    intro template here predicate
    have body : other.bodyOf template = store.bodyOf template :=
      bodyOf_congr (by rw [callsFrom, callsFrom, calls])
    rw [uses, body]
    exact indexed.noted template here predicate

theorem setStatus (indexed : store.Indexed concerned) (iri : Iri) (status : Status) :
    (store.setStatus iri status).Indexed concerned :=
  indexed.congr (store.uses_ensure iri) (store.calls_setStatus iri status)

/-- A new call comes with the note of its use. -/
theorem addCall (indexed : store.Indexed concerned) (caller : Iri) (i : Instance) :
    (store.addCall caller i).Indexed concerned where
  once := by
    rw [uses_addCall]
    exact nodup_noteUse indexed.once caller i
  noted := by
    intro template here predicate
    rw [uses_addCall, mem_noteUse, indexed.noted template here predicate]
    constructor
    · rintro (⟨rfl, has⟩ | ⟨j, hj, has⟩)
      · exact ⟨i, mem_bodyOf_addCall.mpr (.inl ⟨rfl, rfl⟩), has⟩
      · exact ⟨j, mem_bodyOf_addCall.mpr (.inr hj), has⟩
    · rintro ⟨j, hj, has⟩
      rcases mem_bodyOf_addCall.mp hj with ⟨rfl, rfl⟩ | old
      · exact .inl ⟨rfl, has⟩
      · exact .inr ⟨j, old, has⟩

theorem addMissingCall (indexed : store.Indexed concerned) (caller : Iri) (i : Instance) :
    (store.addMissingCall caller i).Indexed concerned := by
  rcases store.addMissingCall_cases caller i with ⟨-, same⟩ | ⟨-, added⟩
  · rwa [same]
  · rw [added]
    exact indexed.addCall caller i

theorem foldl {op : Store → Instance → Store}
    (keeps : ∀ {store : Store}, store.Indexed concerned → ∀ i, (op store i).Indexed concerned)
    (body : List Instance) (indexed : store.Indexed concerned) :
    (body.foldl op store).Indexed concerned := by
  induction body generalizing store with
  | nil => exact indexed
  | cons i body ih => exact ih (keeps indexed i)

theorem addBase (indexed : store.Indexed concerned) (iri : Iri) (ps : ParameterList) :
    (store.addBase iri ps).1.Indexed concerned := by
  rcases store.addBase_cases iri ps with ⟨reason, refused⟩ | ⟨-, added⟩
  · rw [refused]
    exact indexed.congr rfl rfl
  · rw [added]
    exact indexed.setStatus iri _

theorem addSignature (indexed : store.Indexed concerned) (s : Signature) :
    (store.addSignature s).1.Indexed concerned := by
  rcases store.addSignature_cases s with ⟨-, same⟩ | ⟨-, refused⟩ | ⟨-, -, added⟩
  · rw [same]
    exact indexed.addBase s.iri s.parameters
  · rw [refused]
    exact indexed.congr rfl rfl
  · rw [added]
    exact indexed.setStatus s.iri _

/-- A new template notes what its body uses, and a refused one does not. -/
theorem addTemplate (indexed : store.Indexed concerned) (t : Template) :
    (store.addTemplate t).1.Indexed concerned := by
  rcases store.addTemplate_cases t with ⟨reason, refused⟩ | ⟨-, added⟩
  · rw [refused]
    exact indexed.congr rfl rfl
  · rw [added]
    exact foldl (fun earlier i => earlier.addCall t.iri i) t.body (indexed.setStatus t.iri _)

/-- A template that loses calls may keep uses without a call. All others stay as they are. -/
theorem dropCalls (indexed : store.Indexed concerned) (wf : store.WellFormed)
    {doomed : List (Nat × Call)} (used : doomed.Sublist (store.callsFrom iri)) :
    (store.dropCalls doomed store.predicateUses).Indexed
      fun template => concerned template ∧ template ≠ iri where
  once := indexed.once
  noted := by
    rintro template ⟨here, apart⟩ predicate
    have calls := wf.callsFrom_dropCalls_of_ne used store.predicateUses apart
    rw [bodyOf_congr calls]
    exact indexed.noted template here predicate

/-- What is noted anew from the body makes up for what was forgotten. -/
theorem renoted (indexed : store.Indexed fun template => concerned template ∧ template ≠ iri) :
    (store.renoted iri).Indexed concerned where
  once := nodup_foldl_noteUse (nodup_forgetUses indexed.once iri) iri _
  noted := by
    intro template here predicate
    refine mem_foldl_noteUse.trans ?_
    rw [mem_forgetUses]
    by_cases same : template = iri
    · subst same
      constructor
      · rintro (⟨-, has⟩ | ⟨-, apart⟩)
        · exact has
        · exact absurd rfl apart
      · exact fun has => .inl ⟨rfl, has⟩
    · rw [indexed.noted template ⟨here, same⟩ predicate]
      constructor
      · rintro (⟨eq, -⟩ | ⟨has, -⟩)
        · exact absurd eq same
        · exact has
      · exact fun has => .inr ⟨has, same⟩

/-- The uses of the edited body are noted afresh, as its calls are gone through again. -/
theorem editBody (indexed : store.Indexed concerned) (wf : store.WellFormed) (iri : Iri)
    (out into : List Instance) : (store.editBody iri out into).1.Indexed concerned := by
  by_cases defined : store.isDefinition iri = true
  · have sub : (store.taken iri out).Sublist (store.callsFrom iri) := List.filter_sublist
    have put := foldl (fun earlier i => earlier.addMissingCall iri i) into
      (indexed.dropCalls wf sub)
    rw [editBody_of_definition defined]
    exact put.renoted.congr rfl rfl
  · rw [editBody_of_not_definition defined]
    exact indexed

/-- A template that is cleared has no body that could be noted. -/
theorem cleared (indexed : store.Indexed concerned) (wf : store.WellFormed) (iri : Iri) :
    (store.cleared iri).Indexed concerned := by
  have silent : (store.dropCalls (store.callsFrom iri) store.predicateUses).bodyOf iri = [] := by
    rw [List.eq_nil_iff_forall_not_mem]
    intro i hi
    obtain ⟨n, left⟩ := mem_bodyOf.mp hi
    obtain ⟨used, kept⟩ := (wf.mem_dropCalls (callsFrom_sublist store iri) _).mp left
    exact kept (mem_callsFrom.mpr ⟨used, rfl⟩)
  have renoted := (indexed.dropCalls wf (.refl (store.callsFrom iri))).renoted
  rw [Store.renoted, silent] at renoted
  refine renoted.congr ?_ (store.calls_cleared iri)
  rcases store.cleared_cases iri with ⟨-, removed⟩ | undefined
  · rw [removed]
    rfl
  · rw [undefined]
    exact uses_ensure (store.silenced iri) iri

/-- With its calls a template loses its uses. -/
theorem remove (indexed : store.Indexed concerned) (wf : store.WellFormed) (iri : Iri) :
    (store.remove iri).1.Indexed concerned := by
  by_cases known : store.contains iri = true
  · rw [remove_of_contains known]
    exact (indexed.cleared wf iri).congr rfl rfl
  · rw [remove_of_not_contains known]
    exact indexed

end Indexed

/-- Every change keeps the uses in step with the calls. -/
theorem Change.indexed {concerned : Iri → Prop} (change : Change store other)
    (wf : store.WellFormed) (indexed : store.Indexed concerned) : other.Indexed concerned := by
  cases change with
  | base iri ps => exact indexed.addBase iri ps
  | signature s => exact indexed.addSignature s
  | template iri ps body => exact indexed.addTemplate _
  | removal iri => exact indexed.remove wf iri
  | edit iri out into => exact indexed.editBody wf iri out into
  | library library => exact indexed.congr rfl rfl
  | notes failed messages => exact indexed.congr rfl rfl

theorem Reachable.indexed (reachable : store.Reachable) : store.Indexed fun _ => True := by
  obtain ⟨config, evolves⟩ := reachable
  induction evolves with
  | refl => exact .empty config
  | tail earlier change ih => exact change.indexed (Reachable.wellFormed ⟨config, earlier⟩) ih

/-- What is listed under a predicate are the definitions whose body has a triple with it. -/
structure ListsUses (store : Store) : Prop where
  once : ∀ predicate, (store.templatesUsing predicate).Nodup
  exactly : ∀ predicate template, template ∈ store.templatesUsing predicate ↔
    ∃ body, store.body? template = some body ∧ ∃ i ∈ body, i.HasPredicate predicate

theorem mem_templatesUsing :
    template ∈ store.templatesUsing predicate ↔ (predicate, template) ∈ store.predicateUses := by
  simp [templatesUsing]

theorem nodup_templatesUsing (once : store.predicateUses.Nodup) (predicate : Iri) :
    (store.templatesUsing predicate).Nodup := by
  refine List.Nodup.map_on ?_ (once.filter _)
  rintro ⟨p, template⟩ here ⟨q, other⟩ there rfl
  have left : p = predicate := by simpa using (List.mem_filter.mp here).2
  have right : q = predicate := by simpa using (List.mem_filter.mp there).2
  rw [left, right]

/-- A body is asked for by its template or taken as it is. -/
theorem WellFormed.exists_body?_iff (wf : store.WellFormed) {P : Instance → Prop} :
    (∃ body, store.body? template = some body ∧ ∃ i ∈ body, P i) ↔
      ∃ i ∈ store.bodyOf template, P i := by
  constructor
  · rintro ⟨body, found, i, hi, holds⟩
    obtain ⟨-, same⟩ := Option.ite_none_right_eq_some.mp found
    obtain rfl := Option.some.inj same
    exact ⟨i, hi, holds⟩
  · rintro ⟨i, hi, holds⟩
    have defined := isDefinition_iff.mpr (wf.definition_of_mem_bodyOf hi)
    exact ⟨store.bodyOf template, if_pos defined, i, hi, holds⟩

/-- Whatever is done to an empty store, fetching included, its index of predicates lists the
definitions that use them. -/
theorem listsUses_of_leadsTo {config : StoreConfig} (leads : LeadsTo (empty config) store) :
    store.ListsUses where
  once := nodup_templatesUsing leads.reachable.indexed.once
  exactly := by
    intro predicate template
    rw [mem_templatesUsing, leads.reachable.wellFormed.exists_body?_iff]
    exact leads.reachable.indexed.noted template trivial predicate

/-- The triple of a seller and what it sells. -/
def sells (seller : Iri) (goods : Iri) : Instance :=
  .ofTerms Iri.triple [.iri seller, .iri "sells", .iri goods]

/-- The triple of a place and another one that is near. -/
def near (place : Iri) (other : Iri) : Instance :=
  .ofTerms Iri.triple [.iri place, .iri "near", .iri other]

/-- Gives a stall that sells maps and fails for everything else. -/
def stallkeeper : Reader Unit := fun iri store _ =>
  if iri = "Stall" then (.ok (), (store.addTemplate (.make iri [] [sells "stall" "map"])).1, ())
  else (.error (.notFound iri), store, ())

/-- A shop sells books and maps near a park, and names a stall that is not known yet. -/
def fair : Store :=
  ((empty .standard).addTemplate (.make "Shop" [] [sells "shop" "book", sells "shop" "map",
    near "shop" "park", .ofTerms "Stall" []])).1

/-- The stall of the fair has been fetched. -/
def market : Store := (fair.fetchMissing stallkeeper ()).store

/-- The shop gives up its books and moves from the park to a well. -/
def movedMarket : Store :=
  (market.editBody "Shop" [sells "shop" "book", near "shop" "park"] [near "shop" "well"]).1

theorem leadsTo_movedMarket : LeadsTo (empty .standard) movedMarket := by
  have asked : ∀ iri store memory, LeadsTo store (stallkeeper iri store memory).2.1 := by
    intro iri store memory
    unfold stallkeeper
    split
    · exact .addTemplate (.start store) iri [] _
    · exact .start store
  have added : LeadsTo (empty .standard) fair := .addTemplate (.start _) "Shop" [] _
  exact .editBody (.fetchMissing added stallkeeper () asked) "Shop" _ _

/-- What is sold is listed in another order once the shop has changed, and without the stall once
that is removed. -/
theorem listsUses_of_leadsTo_market :
    LeadsTo (empty .standard) movedMarket ∧ movedMarket.ListsUses ∧
    market.templatesUsing "sells" = ["Stall", "Shop"] ∧
    movedMarket.templatesUsing "sells" = ["Shop", "Stall"] ∧
    movedMarket.templatesUsing "near" = ["Shop"] ∧
    LeadsTo (empty .standard) (movedMarket.remove "Stall").1 ∧
    (movedMarket.remove "Stall").1.ListsUses ∧
    (movedMarket.remove "Stall").1.templatesUsing "sells" = ["Shop"] := by
  have removed := leadsTo_movedMarket.remove "Stall"
  exact ⟨leadsTo_movedMarket, listsUses_of_leadsTo leadsTo_movedMarket, by decide +kernel,
    by decide +kernel, by decide +kernel, removed, listsUses_of_leadsTo removed,
    by decide +kernel⟩

end Store

end RdfTemplates
