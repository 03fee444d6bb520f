import RdfTemplates.Proofs.Expansion.Relabelled

/-!
# Checks that only filter

An argument that does not fit costs its instance and everything below it, and the
blank nodes that would have been minted there. Everything else comes out as without
checks, with other numbers for the blank nodes minted later. A label written in the
instance or in a default may be none that is yet to be minted: the number that a check
saves can make it one that is minted, which is then taken for the node written there.
-/

namespace RdfTemplates

namespace Expansion

variable {store : Store} {i : Instance} {supply left : BlankSupply}

/-- An argument was found not to fit its parameter. -/
def IsRejection (x : ExpansionItem) : Prop :=
  (∃ iri position argument, x = .error (.blankForNonBlank iri position argument)) ∨
    ∃ iri position argument found expected,
      x = .error (.incompatibleType iri position argument found expected)

theorem isRejection_of_checkArguments {ps : ParameterList} {e : ExpansionError}
    (wrong : i.checkArguments ps = some e) : IsRejection (.error e) := by
  obtain ⟨t, p, position, -, here⟩ := checkArguments_eq_some wrong
  rcases checkArgument_eq_some here with rfl | rfl
  · exact .inl ⟨_, _, _, rfl⟩
  · exact .inr ⟨_, _, _, _, _, rfl⟩

theorem Becomes.unchecked {r : Resolution} (h : Becomes store true i supply r left)
    (passed : ∀ x, r = .item x → ¬ IsRejection x) : Becomes store false i supply r left := by
  cases h with
  | missing unresolved => exact .missing unresolved
  | stuck resolved marked unknown => exact .stuck resolved marked unknown
  | lists resolved marked known => exact .lists resolved marked known
  | arity resolved parameters plain apart => exact .arity resolved parameters plain apart
  | discarded resolved parameters plain arity dropped =>
      exact .discarded resolved parameters plain arity dropped
  | rejected _ _ _ _ _ _ wrong =>
      exact absurd (isRejection_of_checkArguments wrong) (passed _ rfl)
  | fact base inOrder => exact .fact base inOrder.loosen
  | unfolded defined inOrder given applied =>
      exact .unfolded defined inOrder.loosen given applied

/-- Checks that find nothing wrong change nothing. -/
theorem Yields.unchecked {work : List Work} {items : List ExpansionItem}
    (h : Yields store true work supply items left) (passed : ∀ x ∈ items, ¬ IsRejection x) :
    Yields store false work supply items left := by
  induction h with
  | nil supply => exact .nil supply
  | failed _ ih => exact .failed (ih fun x h => passed x (List.mem_cons_of_mem _ h))
  | item head _ ih =>
      obtain ⟨here, rest⟩ := List.forall_mem_cons.mp passed
      refine .item (head.unchecked fun x same => ?_) (ih rest)
      exact Resolution.item.inj same ▸ here
  | work head _ _ inner tail =>
      obtain ⟨here, rest⟩ := List.forall_mem_append.mp passed
      exact .work (head.unchecked nofun) (inner here) (tail rest)

/-- The instances are found in the others, in their order, with other labels for the minted blank
nodes, different ones for different ones. -/
def FoundRenamed (minted minted' : String → Prop) (is js : List Instance) : Prop :=
  ∃ labels : String → String, (∀ b, ¬ minted b → labels b = b) ∧
    (∀ b, minted b → minted' (labels b)) ∧ Set.InjOn labels {b | minted b} ∧
    (is.map (·.fill (.relabelling labels))).Sublist js

variable {store : Store} {i : Instance} {first second left left' : BlankSupply}
variable {items others : List ExpansionItem}

/-- Checks take out instances and everything below them and change nothing else. -/
structure OnlyFilters (store : Store) (on off : ExpansionConfig) (i : Instance)
    (first second : BlankSupply) : Prop where
  same : second = first → (∀ x ∈ (store.expand on i first).1, ¬ IsRejection x) →
    store.expand off i second = store.expand on i first ∧
      ∀ n, (take store off n (start off i second)).1 = (take store on n (start on i first)).1
  renamed : i.AvoidedBy first → store.DefaultsAvoided first →
    FoundRenamed (first.Minted (store.expand on i first).2)
      (second.Minted (store.expand off i second).2)
      (Store.outputs (store.expand on i first).1) (Store.outputs (store.expand off i second).1)

/-- Where the given blank nodes are not minted again, the checked instances are found among the
others under the labels of the other run. -/
theorem foundRenamed_of_yields (avoided : i.AvoidedBy first)
    (defaults : store.DefaultsAvoided first) (h : Yields store true [.edge i] first items left)
    (h' : Yields store false [.edge i] second others left') :
    FoundRenamed (first.Minted left) (second.Minted left') (Store.outputs items)
      (Store.outputs others) := by
  have settled : Settled store first.Avoids first :=
    ⟨fun _ _ defined p hp d has => defaults defined p hp d has, fun _ => id⟩
  obtain ⟨labels, last, results, along⟩ := exists_goesAlong_self settled avoided h'
  obtain ⟨rfl, rfl⟩ := along.yields.unique h
  obtain ⟨renamed, minted, other⟩ : ∃ renamed : String → String,
      (∀ b, first.Minted last b → renamed b = labels b) ∧
        ∀ b, ¬ first.Minted last b → renamed b = b := by
    classical
    exact ⟨fun b => if first.Minted last b then labels b else b, fun b here => if_pos here,
      fun b other => if_neg other⟩
  refine ⟨renamed, other, ?_, ?_, ?_⟩
  · intro b here
    rw [minted b here]
    exact along.carries.minted b here
  · intro b hereB c hereC same
    rw [minted b hereB, minted c hereC] at same
    exact along.carries.injective hereB hereC same
  · have same : (Store.outputs results).map (·.fill (.relabelling renamed)) =
        (Store.outputs results).map (·.fill (.relabelling labels)) := by
      refine List.map_congr_left fun o listed => Instance.fill_congr o (fun _ _ => rfl) ?_
      intro b hb
      rcases along.traced o listed b hb with before | since
      · exact (other b before.not_minted).trans (along.kept b before).symm
      · exact minted b since
    rw [same]
    exact along.passes

/-- Two expansions of an instance that do not reach their limits, one with checks and one without,
differ by what the checks filter out. -/
theorem expand_onlyFilters (on off : ExpansionConfig) (checked : on.checkArguments = true)
    (unchecked : off.checkArguments = false) (i : Instance) (first second : BlankSupply)
    (free : .error (.stepLimit on.maxSteps) ∉ (store.expand on i first).1)
    (free' : .error (.stepLimit off.maxSteps) ∉ (store.expand off i second).1) :
    OnlyFilters store on off i first second := by
  have meaning := yields_of_expand on free
  have meaning' := yields_of_expand off free'
  rw [checked] at meaning
  rw [unchecked] at meaning'
  constructor
  case same =>
    rintro rfl passed
    obtain ⟨items, left⟩ := (meaning.unchecked passed).unique meaning'
    have whole : store.expand off i second = store.expand on i second :=
      Prod.ext items.symm left.symm
    refine ⟨whole, fun n => ?_⟩
    rw [take_eq_expand, take_eq_expand, whole]
  case renamed => exact fun given defaults => foundRenamed_of_yields given defaults meaning meaning'

/-- An entry is signed, which takes an author that is no blank node, and noted, which takes any. -/
def signing : Store :=
  (Store.empty .standard).acceptAll [
    .signature ⟨"Item", [.mandatory "entry" .top], true⟩,
    .template (.make "Signed" [⟨⟨"author", .top⟩, ⟨false, true⟩, none⟩] [
      .ofTerms "Item" [.blank "signature"], .ofTerms "Item" [.var ⟨"author", .top⟩]]),
    .template (.make "Noted" [.mandatory "author" .top] [
      .ofTerms "Item" [.blank "note"], .ofTerms "Item" [.var ⟨"author", .top⟩]]),
    .template (.make "Entry" [.mandatory "author" .top] [
      .ofTerms "Signed" [.var ⟨"author", .top⟩], .ofTerms "Noted" [.var ⟨"author", .top⟩]])]

/-- An author without a name may not sign, so the first entry and its blank node are missing with
checks. A named one makes no difference. -/
theorem expand_onlyFilters_signing :
    (∀ t ∈ [Term.blank "a", .iri "a"],
      .error (.stepLimit 20) ∉ (signing.expand ⟨20, true, false⟩ (.ofTerms "Entry" [t]) ⟨0⟩).1 ∧
      .error (.stepLimit 20) ∉ (signing.expand ⟨20, false, false⟩ (.ofTerms "Entry" [t]) ⟨0⟩).1 ∧
      OnlyFilters signing ⟨20, true, false⟩ ⟨20, false, false⟩ (.ofTerms "Entry" [t]) ⟨0⟩ ⟨0⟩) ∧
    (Instance.ofTerms "Entry" [.blank "a"]).AvoidedBy ⟨0⟩ ∧ signing.DefaultsAvoided ⟨0⟩ ∧
    signing.expand ⟨20, true, false⟩ (.ofTerms "Entry" [.blank "a"]) ⟨0⟩ =
      ([.error (.blankForNonBlank "Signed" 0 "_:a"), .ok (.ofTerms "Item" [.blank "genid0"]),
        .ok (.ofTerms "Item" [.blank "a"])], ⟨1⟩) ∧
    signing.expand ⟨20, false, false⟩ (.ofTerms "Entry" [.blank "a"]) ⟨0⟩ =
      ([.ok (.ofTerms "Item" [.blank "genid0"]), .ok (.ofTerms "Item" [.blank "a"]),
        .ok (.ofTerms "Item" [.blank "genid1"]), .ok (.ofTerms "Item" [.blank "a"])], ⟨2⟩) ∧
    signing.expand ⟨20, true, false⟩ (.ofTerms "Entry" [.iri "a"]) ⟨0⟩ =
      signing.expand ⟨20, false, false⟩ (.ofTerms "Entry" [.iri "a"]) ⟨0⟩ := by
  have rejected : signing.expand ⟨20, true, false⟩ (.ofTerms "Entry" [.blank "a"]) ⟨0⟩ =
      ([.error (.blankForNonBlank "Signed" 0 "_:a"), .ok (.ofTerms "Item" [.blank "genid0"]),
        .ok (.ofTerms "Item" [.blank "a"])], ⟨1⟩) := rfl
  have entered (t) (ht : t ∈ [Term.blank "a", .iri "a"]) :
      signing.expand ⟨20, false, false⟩ (.ofTerms "Entry" [t]) ⟨0⟩ =
        ([.ok (.ofTerms "Item" [.blank "genid0"]), .ok (.ofTerms "Item" [t]),
          .ok (.ofTerms "Item" [.blank "genid1"]), .ok (.ofTerms "Item" [t])], ⟨2⟩) := by
    rcases List.mem_cons.mp ht with rfl | ht
    · rfl
    · obtain rfl := List.mem_singleton.mp ht
      rfl
  have named : signing.expand ⟨20, true, false⟩ (.ofTerms "Entry" [.iri "a"]) ⟨0⟩ =
      signing.expand ⟨20, false, false⟩ (.ofTerms "Entry" [.iri "a"]) ⟨0⟩ := rfl
  have free' (t) (ht : t ∈ [Term.blank "a", .iri "a"]) : .error (.stepLimit 20) ∉
      (signing.expand ⟨20, false, false⟩ (.ofTerms "Entry" [t]) ⟨0⟩).1 := by
    rw [entered t ht]
    simp
  have free (t) (ht : t ∈ [Term.blank "a", .iri "a"]) : .error (.stepLimit 20) ∉
      (signing.expand ⟨20, true, false⟩ (.ofTerms "Entry" [t]) ⟨0⟩).1 := by
    rcases List.mem_cons.mp ht with rfl | same
    · rw [rejected]
      simp
    · obtain rfl := List.mem_singleton.mp same
      rw [named]
      exact free' _ ht
  have given : ∀ b ∈ (Instance.ofTerms "Entry" [.blank "a"]).blanks,
      BlankSupply.isStemmed b = false := by decide
  have written : ∀ iri ps, signing.status? iri = some (.definition ps) → ∀ p ∈ ps,
      ∀ d ∈ p.default?, ∀ b ∈ d.blanks, BlankSupply.isStemmed b = false := by decide
  refine ⟨fun t ht => ⟨free t ht, free' t ht, ?_⟩,
    fun b hb => BlankSupply.avoids_of_not_stemmed _ (given b hb),
    fun _ _ defined p hp d has b hb =>
      BlankSupply.avoids_of_not_stemmed _ (written _ _ defined p hp d has b hb),
    rejected, entered _ List.mem_cons_self, named⟩
  exact expand_onlyFilters ⟨20, true, false⟩ ⟨20, false, false⟩ rfl rfl _ _ _ (free t ht)
    (free' t ht)

/-- A guarded thing may be no blank node, a paired one is given a new blank node beside it. -/
def pairing : Store :=
  (Store.empty .standard).acceptAll [
    .signature ⟨"Pair", [.mandatory "first" .top, .mandatory "second" .top], true⟩,
    .signature ⟨"Other", [.mandatory "only" .top], true⟩,
    .template (.make "Guarded" [⟨⟨"x", .top⟩, ⟨false, true⟩, none⟩] [
      .ofTerms "Other" [.blank "b"]]),
    .template (.make "Paired" [.mandatory "x" .top] [
      .ofTerms "Pair" [.var ⟨"x", .top⟩, .blank "c"]]),
    .template (.make "Both" [.mandatory "x" .top] [
      .ofTerms "Guarded" [.var ⟨"x", .top⟩], .ofTerms "Paired" [.var ⟨"x", .top⟩]])]

/-- With checks the new blank node of the pair gets the label that the given one has. Without them
the guarded thing takes that label first. One label cannot be taken to both of the two that the pair
has then. -/
theorem not_expand_onlyFilters_pairing :
    pairing.expand ⟨20, true, false⟩ (.ofTerms "Both" [.blank "genid0"]) ⟨0⟩ =
      ([.error (.blankForNonBlank "Guarded" 0 "_:genid0"),
        .ok (.ofTerms "Pair" [.blank "genid0", .blank "genid0"])], ⟨1⟩) ∧
    pairing.expand ⟨20, false, false⟩ (.ofTerms "Both" [.blank "genid0"]) ⟨0⟩ =
      ([.ok (.ofTerms "Other" [.blank "genid0"]),
        .ok (.ofTerms "Pair" [.blank "genid0", .blank "genid1"])], ⟨2⟩) ∧
    ¬ FoundRenamed (BlankSupply.Minted ⟨0⟩ ⟨1⟩) (BlankSupply.Minted ⟨0⟩ ⟨2⟩)
      (Store.outputs (pairing.expand ⟨20, true, false⟩
        (.ofTerms "Both" [.blank "genid0"]) ⟨0⟩).1)
      (Store.outputs (pairing.expand ⟨20, false, false⟩
        (.ofTerms "Both" [.blank "genid0"]) ⟨0⟩).1) := by
  have checked : pairing.expand ⟨20, true, false⟩ (.ofTerms "Both" [.blank "genid0"]) ⟨0⟩ =
      ([.error (.blankForNonBlank "Guarded" 0 "_:genid0"),
        .ok (.ofTerms "Pair" [.blank "genid0", .blank "genid0"])], ⟨1⟩) := rfl
  have unchecked : pairing.expand ⟨20, false, false⟩ (.ofTerms "Both" [.blank "genid0"]) ⟨0⟩ =
      ([.ok (.ofTerms "Other" [.blank "genid0"]),
        .ok (.ofTerms "Pair" [.blank "genid0", .blank "genid1"])], ⟨2⟩) := rfl
  refine ⟨checked, unchecked, ?_⟩
  rw [checked, unchecked]
  rintro ⟨labels, -, -, -, found⟩
  have pair : Instance.ofTerms "Pair" [.blank (labels "genid0"), .blank (labels "genid0")] ∈
      [Instance.ofTerms "Other" [.blank "genid0"],
        .ofTerms "Pair" [.blank "genid0", .blank "genid1"]] := found.subset List.mem_cons_self
  have both : labels "genid0" = "genid0" ∧ labels "genid0" = "genid1" := by
    simpa [Instance.ofTerms, ArgumentList.ofTerms, Argument.plain] using pair
  exact absurd (both.1.symm.trans both.2) (by decide)

end Expansion

end RdfTemplates
