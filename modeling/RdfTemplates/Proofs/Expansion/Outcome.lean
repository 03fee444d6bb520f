import RdfTemplates.Proofs.Expansion.Models
import RdfTemplates.Proofs.Expansion.Run

/-!
# What an expansion gives out

Whatever an expansion starts from, the instances it gives out are instances of base
templates that nothing is left to be done about: they have no expander, their
arguments are as many as asked for and have passed the tests. No variable comes up
on the way if bodies use the parameters only and defaults have none.
-/

namespace RdfTemplates

namespace Term

theorem areGround_iff {ts : List Term} : areGround ts = true ↔ ∀ t ∈ ts, t.isGround = true := by
  induction ts with
  | nil => simp [areGround]
  | cons t ts ih => simp [areGround, ih]

theorem isGround_iff {t : Term} : t.isGround = true ↔ ∀ x, x ∉ t.vars := by
  induction t with
  | iri | literal | blank | none => simp [isGround, vars]
  | var y => simp [isGround, vars]
  | list items ih =>
      rw [isGround, areGround_iff, vars]
      constructor
      · intro ground x hx
        obtain ⟨t, ht, hx⟩ := mem_varsAll.mp hx
        exact (ih t ht).mp (ground t ht) x hx
      · intro ground t ht
        exact (ih t ht).mpr fun x hx => ground x (mem_varsAll.mpr ⟨t, ht, hx⟩)

end Term

namespace Instance

variable {i : Instance}

def isGround (i : Instance) : Bool := i.arguments.terms.all Term.isGround

theorem isGround_iff : i.isGround = true ↔ ∀ x, x ∉ i.vars := by
  rw [isGround, List.all_eq_true]
  constructor
  · intro ground x hx
    obtain ⟨t, ht, hx⟩ := mem_vars.mp hx
    exact Term.isGround_iff.mp (ground t ht) x hx
  · intro ground t ht
    exact Term.isGround_iff.mpr fun x hx => ground x (mem_vars.mpr ⟨t, ht, hx⟩)

theorem isGround_step (ground : i.isGround = true) {expander : ListExpander} {args : ArgumentList}
    (step : .expanded args ∈ expander.steps i.arguments.arguments) :
    (Instance.mk i.iri args).isGround = true := by
  rw [isGround_iff] at ground ⊢
  intro x hx
  obtain ⟨t, ht, hx⟩ := mem_vars.mp hx
  obtain ⟨b, hb, rfl⟩ := List.mem_map.mp ht
  obtain ⟨a, ha, hx⟩ := (ListExpansion.comesFrom_steps step hb).vars hx
  exact ground x (mem_vars.mpr ⟨a.term, List.mem_map_of_mem ha, hx⟩)

end Instance

/-- In every definition the variables of the body are parameters and the defaults are ground. -/
structure Store.Grounded (store : Store) : Prop where
  vars : ∀ ⦃iri ps⦄, store.status? iri = some (.definition ps) → ∀ j ∈ store.bodyOf iri,
    ∀ x ∈ j.vars, x.label ∈ ps.map (·.label)
  defaults : ∀ ⦃iri ps⦄, store.status? iri = some (.definition ps) → ∀ p ∈ ps,
    ∀ d ∈ p.default?, d.isGround = true

instance (store : Store) : Decidable store.Grounded :=
  decidable_of_iff
    (∀ iri ps, store.status? iri = some (.definition ps) →
      (∀ j ∈ store.bodyOf iri, ∀ x ∈ j.vars, x.label ∈ ps.map (·.label)) ∧
      ∀ p ∈ ps, ∀ d ∈ p.default?, d.isGround = true) <| by
    constructor
    · intro each
      exact ⟨fun _ _ defined => (each _ _ defined).1, fun _ _ defined => (each _ _ defined).2⟩
    · exact fun grounded _ _ defined => ⟨grounded.vars defined, grounded.defaults defined⟩

namespace Expansion

variable {store : Store} {checks : Bool} {i j : Instance} {supply left : BlankSupply}

theorem isGround_body (grounded : store.Grounded) (ground : i.isGround = true)
    {ps : ParameterList} {s : Substitution} {bound : BlankSupply} {body : List Instance}
    (defined : store.status? i.iri = some (.definition ps))
    (ok : Substitution.ofArguments i.arguments ps supply = .ok (s, bound))
    (applied : s.applyBody (store.bodyOf i.iri) bound = (body, left)) (h : j ∈ body) :
    j.isGround = true := by
  obtain ⟨w, rfl, taken⟩ := Substitution.exists_filled_vars ok applied (grounded.vars defined)
  obtain ⟨k, hk, rfl⟩ := List.mem_map.mp h
  refine Instance.isGround_iff.mpr fun x hx => ?_
  obtain ⟨y, hy, hx⟩ := Instance.mem_vars_fill hx
  obtain ⟨⟨a, p⟩, pair, takes⟩ := taken k hk y hy
  obtain ⟨ha, hp⟩ := List.of_mem_zip pair
  rw [Valuation.filling_value] at hx
  rcases Parameter.takes_cases takes with same | ⟨d, has, same | ⟨-, c, same⟩⟩
  · rw [same] at hx
    exact Instance.isGround_iff.mp ground x (Instance.mem_vars.mpr ⟨_, List.mem_map_of_mem ha, hx⟩)
  · rw [same] at hx
    exact Term.isGround_iff.mp (grounded.defaults defined p hp d has) x hx
  · rw [same] at hx
    cases hx

theorem Becomes.isGround {place : List Work}
    (head : Becomes store checks i supply (.work place) left) (grounded : store.Grounded)
    (ground : i.isGround = true) (h : .edge j ∈ place) : j.isGround = true := by
  cases head with
  | lists _ _ _ =>
      obtain ⟨args, made, rfl⟩ := edge_mem_listWork.mp h
      exact Instance.isGround_step ground made
  | discarded => cases h
  | unfolded defined _ ok applied =>
      exact isGround_body grounded ground defined ok applied (edge_mem_map.mp h)

/-- An instance of a base template whose arguments passed all tests. -/
structure Finished (store : Store) (checks : Bool) (i : Instance) (ps : ParameterList) :
    Prop where
  base : store.status? i.iri = some (.base ps)
  plain : i.arguments.expander = none
  arity : i.arguments.size = ps.length
  kept : ∀ t p, (t, p) ∈ i.arguments.terms.zip ps → t.isNone = true → p.acceptsNone = true
  typed : checks = true → ∀ t p, (t, p) ∈ i.arguments.terms.zip ps → t.isNone = false →
    t.intrinsicType.isCompatible TypeTree.standard p.type = true
  nonBlank : checks = true → ∀ t p, (t, p) ∈ i.arguments.terms.zip ps → p.isNonBlank = true →
    t.isBlank = false

theorem checkArgument_eq_none {iri : Iri} {position : Nat} {t : Term} {p : Parameter}
    (fits : Instance.checkArgument iri position t p = none) :
    (t.isNone = false → t.intrinsicType.isCompatible TypeTree.standard p.type = true) ∧
      (p.isNonBlank = true → t.isBlank = false) := by
  unfold Instance.checkArgument at fits
  cases empty : t.isNone with
  | true =>
      rw [Term.isNone_iff.mp empty]
      exact ⟨nofun, fun _ => rfl⟩
  | false =>
      rw [empty, if_neg Bool.false_ne_true] at fits
      split at fits
      · cases fits
      · rename_i blank
        split at fits
        · rename_i compatible
          refine ⟨fun _ => compatible, fun strict => ?_⟩
          simpa [strict] using blank
        · cases fits

theorem checkArgument_of_checkArguments {ps : ParameterList} (fits : i.checkArguments ps = none)
    {t : Term} {p : Parameter} (h : (t, p) ∈ i.arguments.terms.zip ps) :
    ∃ position, Instance.checkArgument i.iri position t p = none := by
  obtain ⟨position, here⟩ := List.mem_iff_getElem?.mp h
  exact ⟨position, List.findSome?_eq_none_iff.mp fits ((t, p), position)
    (List.mem_zipIdx_iff_getElem?.mpr here)⟩

theorem InOrder.finished {ps : ParameterList} (inOrder : InOrder checks ps i)
    (base : store.status? i.iri = some (.base ps)) : Finished store checks i ps where
  base := base
  plain := inOrder.plain
  arity := inOrder.arity
  kept := by
    intro t p pair empty
    have kept := List.any_eq_false.mp inOrder.kept _ pair
    simpa [empty] using kept
  typed := by
    intro checked t p pair
    obtain ⟨position, fits⟩ := checkArgument_of_checkArguments (inOrder.fits checked) pair
    exact (checkArgument_eq_none fits).1
  nonBlank := by
    intro checked t p pair
    obtain ⟨position, fits⟩ := checkArgument_of_checkArguments (inOrder.fits checked) pair
    exact (checkArgument_eq_none fits).2

/-- An expansion gives out finished instances, and ground ones for a ground instance. Errors on the
way say nothing, so only instances have to be ground. -/
theorem expand_finished (store : Store) (config : ExpansionConfig) (i : Instance)
    (supply : BlankSupply) :
    (∀ n, (take store config n (start config i supply)).1 =
      (store.expand config i supply).1.take n) ∧
    ∀ x, .ok x ∈ (store.expand config i supply).1 →
      (∃ ps, Finished store config.checkArguments x ps) ∧
      (store.Grounded → i.isGround = true → x.isGround = true) := by
  refine ⟨take_eq_expand store config i supply, fun x listed => ?_⟩
  let common (w : Work) : Prop :=
    ∀ j, w = .edge j → store.Grounded → i.isGround = true → j.isGround = true
  have step (j : Instance) (before : BlankSupply) (place : List Work) (after : BlankSupply)
      (held : common (.edge j))
      (head : Becomes store config.checkArguments j before (.work place) after) :
      ∀ w ∈ place, common w := by
    rintro _ h k rfl grounded ground
    exact head.isGround grounded (held j rfl grounded ground) h
  have first : ∀ w ∈ [Work.edge i], common w := by
    intro w h j same grounded ground
    rw [List.mem_singleton.mp h] at same
    rwa [← Work.edge.inj same]
  rcases (runs_expand store config i supply).origin step first _ listed with
    same | ⟨e, -, same⟩ | ⟨j, before, after, held, head⟩
  · cases same
  · cases same
  · cases head with
    | fact base inOrder => exact ⟨⟨_, inOrder.finished base⟩, held x rfl⟩

/-- Guests come from a list and from a default, with a dish or without. -/
def party : Store :=
  (Store.empty .standard).acceptAll [
    .signature ⟨"Guest", [⟨⟨"name", .basic Iri.xsdString⟩, ⟨false, true⟩, none⟩,
      ⟨⟨"dish", .top⟩, ⟨true, false⟩, none⟩], true⟩,
    .template (.make "Party" [.mandatory "names" (.list (.basic Iri.xsdString)),
        ⟨⟨"dish", .top⟩, ⟨true, false⟩, none⟩,
        ⟨⟨"host", .basic Iri.xsdString⟩, ⟨true, false⟩, some (.literal (.plain "host"))⟩] [
      ⟨"Guest", ⟨[⟨.var ⟨"names", .top⟩, true⟩, ⟨.var ⟨"dish", .top⟩, false⟩], some .cross⟩⟩,
      .ofTerms "Guest" [.var ⟨"host", .top⟩, .list [.blank "tea", .var ⟨"dish", .top⟩]]])]

/-- A party for two, without a dish and with the host that is the default. -/
def invitation : Instance :=
  .ofTerms "Party" [.list [.literal (.plain "first"), .literal (.plain "second")], .none, .none]

/-- All guests of the party are ground and fit the declared types. -/
theorem expand_finished_party : party.Reachable ∧ party.Grounded ∧ invitation.isGround = true ∧
    (party.expand ⟨20, true, false⟩ invitation ⟨0⟩).1 = [
      .ok (.ofTerms "Guest" [.literal (.plain "first"), .none]),
      .ok (.ofTerms "Guest" [.literal (.plain "second"), .none]),
      .ok (.ofTerms "Guest" [.literal (.plain "host"), .list [.blank "genid0", .none]])] ∧
    ∀ x, .ok x ∈ (party.expand ⟨20, true, false⟩ invitation ⟨0⟩).1 →
      (∃ ps, Finished party true x ps) ∧ x.isGround = true := by
  have reachable : party.Reachable := by
    apply Store.reachable_acceptAll
    simp [Declaration.Made]
  have grounded : party.Grounded := by decide +kernel
  have ground : invitation.isGround = true := by decide +kernel
  refine ⟨reachable, grounded, ground, rfl, fun x listed => ?_⟩
  obtain ⟨finished, fine⟩ := (expand_finished party ⟨20, true, false⟩ invitation ⟨0⟩).2 x listed
  exact ⟨finished, fine grounded ground⟩

end Expansion

end RdfTemplates
