import RdfTemplates.Proofs.Types
import Mathlib.Data.List.Chain

/-!
# Registering types

A tree of types starts empty or with the standard types, and every call that registers a
type leaves it grown: the new type was not there before, and its supertype was. So a walk
from a type to its direct supertype, from there to the next one and on, meets no type
twice and comes to the top type. What a walk from another type meets is not changed by a
type that is new, for nothing has it as its supertype.
-/

namespace RdfTemplates

namespace TypeTree

/-- The tree after an attempt to register a type. -/
def registering (tree : TypeTree) (iri parent : Iri) : TypeTree :=
  match tree.register iri parent with
  | .ok next => next
  | .error _ => tree

/-- A tree that came about by registering, whether each attempt succeeded or not. -/
inductive Reachable : TypeTree → Prop where
  | empty : Reachable empty
  | standard : Reachable standard
  | registering {tree : TypeTree} (earlier : Reachable tree) (iri parent : Iri) :
      Reachable (tree.registering iri parent)

/-- The walk from one supertype to the next until it meets its goal or comes to a type that
has no supertype, with whether the goal was met. -/
inductive Climbs (tree : TypeTree) (goal : Iri) : Iri → Bool → Prop where
  | ends {iri : Iri} (last : tree.supertype? iri = none) : Climbs tree goal iri false
  | meets {iri : Iri} (here : tree.supertype? iri = some goal) : Climbs tree goal iri true
  | climbs {iri parent : Iri} {met : Bool} (next : tree.supertype? iri = some parent)
      (other : parent ≠ goal) (rest : Climbs tree goal parent met) : Climbs tree goal iri met

variable {tree next : TypeTree} {entries : List (Iri × Iri)} {iri parent goal a b : Iri}

/-- The chain goes from each type to its direct supertype, also where it was told by the
older entries only. -/
theorem Grown.chain_eq (grown : Grown entries) (iri : Iri) :
    chain entries iri = match entries.lookup iri with
      | none => []
      | some parent => parent :: chain entries parent := by
  induction entries with
  | nil => rfl
  | cons e older ih =>
      obtain ⟨child, above⟩ := e
      by_cases here : child = iri
      · subst here
        rw [List.lookup_cons, beq_self_eq_true, chain_self]
        exact congrArg _ (chain_of_ne (grown.ne_of_known grown.2.1)).symm
      · have other : (iri == child) = false := by simpa using Ne.symm here
        rw [List.lookup_cons, other, chain_of_ne here, ih grown.2.2]
        cases found : older.lookup iri with
        | none => rfl
        | some parent =>
            have above : parent ∈ chain older iri := by
              rw [ih grown.2.2, found]
              exact List.mem_cons_self
            have known := grown.2.2.known_of_mem_chain above
            exact congrArg _ (chain_of_ne (grown.ne_of_known known)).symm

theorem Grown.known_of_lookup (grown : Grown entries) (found : entries.lookup iri = some parent) :
    Known entries parent := by
  have above : parent ∈ chain entries iri := by
    rw [grown.chain_eq, found]
    exact List.mem_cons_self
  exact grown.known_of_mem_chain above

theorem lookup_isSome_iff : (entries.lookup iri).isSome ↔ iri ∈ entries.map (·.1) := by
  induction entries with
  | nil => simp
  | cons e older ih =>
      obtain ⟨child, above⟩ := e
      by_cases here : iri = child
      · simp [here]
      · have other : (iri == child) = false := by simpa using here
        rw [List.lookup_cons, other, List.map_cons, List.mem_cons, ih]
        exact (or_iff_right here).symm

theorem Grown.not_mem_chain (grown : Grown entries) : iri ∉ chain entries iri := by
  induction entries with
  | nil => nofun
  | cons e older ih =>
      obtain ⟨child, above⟩ := e
      by_cases here : child = iri
      · subst here
        rw [chain_self]
        intro again
        rcases List.mem_cons.mp again with same | again
        · exact grown.ne_of_known grown.2.1 same
        · exact grown.ne_of_known (grown.2.2.known_of_mem_chain again) rfl
      · rw [chain_of_ne here]
        exact ih grown.2.2

/-- Two types are not above each other. -/
theorem Grown.not_mem_chain_of_mem (grown : Grown entries) (above : b ∈ chain entries a) :
    a ∉ chain entries b :=
  fun back => grown.not_mem_chain (grown.chain_trans above back)

theorem Grown.chain_nodup (grown : Grown entries) : (chain entries iri).Nodup := by
  induction entries generalizing iri with
  | nil => exact .nil
  | cons e older ih =>
      obtain ⟨child, above⟩ := e
      by_cases here : child = iri
      · subst here
        rw [chain_self]
        exact List.nodup_cons.mpr ⟨grown.2.2.not_mem_chain, ih grown.2.2⟩
      · rw [chain_of_ne here]
        exact ih grown.2.2

/-- The chain of a registered type ends with the top type. -/
theorem Grown.getLast?_chain (grown : Grown entries) (listed : iri ∈ entries.map (·.1)) :
    (chain entries iri).getLast? = some Iri.top := by
  induction entries generalizing iri with
  | nil => cases listed
  | cons e older ih =>
      obtain ⟨child, above⟩ := e
      by_cases here : child = iri
      · subst here
        rw [chain_self, List.getLast?_cons]
        rcases grown.2.1 with top | known
        · rw [top, grown.2.2.chain_top]
          rfl
        · rw [ih grown.2.2 known]
          rfl
      · rw [chain_of_ne here]
        rcases List.mem_cons.mp listed with same | listed
        · exact absurd same.symm here
        · exact ih grown.2.2 listed

theorem Grown.isChain (grown : Grown entries) (iri : Iri) :
    (iri :: chain entries iri).IsChain fun a b => entries.lookup a = some b := by
  induction above : chain entries iri generalizing iri with
  | nil => exact .singleton iri
  | cons parent rest ih =>
      rw [grown.chain_eq] at above
      cases found : entries.lookup iri with
      | none =>
          rw [found] at above
          cases above
      | some direct =>
          rw [found] at above
          obtain ⟨rfl, rfl⟩ := List.cons.inj above
          exact .cons_cons found (ih direct rfl)

/-- The walk comes to an end, and it meets what is on the chain. -/
theorem Grown.climbs (grown : Grown tree.entries) (goal iri : Iri) :
    tree.Climbs goal iri ((tree.supertypes iri).contains goal) := by
  unfold supertypes
  induction above : chain tree.entries iri generalizing iri with
  | nil =>
      rw [grown.chain_eq] at above
      cases found : tree.entries.lookup iri with
      | none => exact .ends found
      | some direct =>
          rw [found] at above
          cases above
  | cons parent rest ih =>
      rw [grown.chain_eq] at above
      cases found : tree.entries.lookup iri with
      | none =>
          rw [found] at above
          cases above
      | some direct =>
          rw [found] at above
          obtain ⟨rfl, same⟩ := List.cons.inj above
          by_cases here : direct = goal
          · subst here
            rw [List.contains_cons, beq_self_eq_true, Bool.true_or]
            exact .meets found
          · have other : (goal == direct) = false := by simpa using Ne.symm here
            rw [List.contains_cons, other, Bool.false_or]
            exact .climbs found here (ih direct same)

/-- There is one way to walk. -/
theorem Climbs.unique {met met' : Bool} (first : tree.Climbs goal iri met)
    (second : tree.Climbs goal iri met') : met = met' := by
  induction first with
  | ends last =>
      cases second with
      | ends => rfl
      | meets here => rw [last] at here; cases here
      | climbs here => rw [last] at here; cases here
  | meets here =>
      cases second with
      | ends last => rw [last] at here; cases here
      | meets => rfl
      | climbs found other => exact absurd (Option.some.inj (found.symm.trans here)) other
  | climbs found other _ ih =>
      cases second with
      | ends last => rw [last] at found; cases found
      | meets here => exact absurd (Option.some.inj (found.symm.trans here)) other
      | climbs found' _ rest =>
          obtain rfl := Option.some.inj (found.symm.trans found')
          exact ih rest

/-- One type is below another one when they are the same, the second is the top or the first
the bottom, or else when the walk from the first meets the second. -/
theorem Grown.isBelow_iff_climbs (grown : Grown tree.entries) :
    tree.isBelow a b = true ↔ a = b ∨ b = Iri.top ∨ a = Iri.bottom ∨ tree.Climbs b a true := by
  have walk : tree.Climbs b a true ↔ b ∈ chain tree.entries a := by
    rw [← List.contains_iff_mem]
    constructor
    · exact fun met => (met.unique (grown.climbs b a)).symm
    · intro listed
      have climbs := grown.climbs b a
      rwa [supertypes, listed] at climbs
  rw [isBelow_iff, walk]

/-- A type is refused, or it is there with this supertype, or it is new and its supertype is
known. -/
theorem register_cases (tree : TypeTree) (iri parent : Iri) :
    (∃ error, tree.register iri parent = .error error) ∨
      (tree.supertype? iri = some parent ∧ tree.register iri parent = .ok tree) ∨
      ((iri ≠ Iri.top ∧ iri ≠ Iri.bottom ∧ tree.supertype? iri = none) ∧
        Known tree.entries parent ∧
        tree.register iri parent = .ok ⟨(iri, parent) :: tree.entries⟩) := by
  unfold register
  split
  · exact .inl ⟨_, rfl⟩
  · rename_i own
    split
    · exact .inl ⟨_, rfl⟩
    · rename_i known
      simp only [Bool.or_eq_true, beq_iff_eq, not_or] at own
      simp only [Bool.or_eq_true, Bool.not_eq_true', beq_iff_eq, not_or, Bool.not_eq_false] at known
      split
      · rename_i fresh
        refine .inr (.inr ⟨⟨own.1, own.2, fresh⟩, ?_, rfl⟩)
        have there := known.1
        simp only [contains, Bool.or_eq_true, beq_iff_eq] at there
        rcases there with (top | bottom) | listed
        · exact .inl top
        · exact absurd bottom known.2
        · exact .inr (lookup_isSome_iff.mp listed)
      · rename_i existing found
        split
        · rename_i same
          obtain rfl := eq_of_beq same
          exact .inr (.inl ⟨found, rfl⟩)
        · exact .inl ⟨_, rfl⟩

theorem Grown.registering (grown : Grown tree.entries) (iri parent : Iri) :
    Grown (tree.registering iri parent).entries := by
  unfold TypeTree.registering
  rcases tree.register_cases iri parent with ⟨error, failed⟩ | ⟨-, same⟩ | ⟨own, known, added⟩
  · rw [failed]
    exact grown
  · rw [same]
    exact grown
  · rw [added]
    have new : iri ∉ tree.entries.map (·.1) := by
      rw [← lookup_isSome_iff]
      exact Option.not_isSome_iff_eq_none.mpr own.2.2
    exact ⟨⟨own.1, own.2.1, new⟩, known, grown⟩

theorem Reachable.grown (reachable : tree.Reachable) : Grown tree.entries := by
  induction reachable with
  | empty => trivial
  | standard => exact grown_standard
  | registering _ iri parent ih => exact ih.registering iri parent

/-- A new type is above no type but itself and the bottom, so the others stay in order. -/
theorem isBelow_of_register (registered : tree.register iri parent = .ok next)
    (new : tree.supertype? iri = none) (apart : a ≠ iri) :
    next.isBelow a b = tree.isBelow a b := by
  rcases tree.register_cases iri parent with ⟨error, failed⟩ | ⟨found, -⟩ | ⟨-, -, added⟩
  · rw [failed] at registered
    cases registered
  · rw [new] at found
    cases found
  · obtain rfl := Except.ok.inj (added.symm.trans registered)
    unfold isBelow supertypes
    rw [chain_of_ne (Ne.symm apart)]

/-- Direct supertypes lead from every registered type to the top, and registering keeps it so. -/
structure Rooted (tree : TypeTree) : Prop where
  steps : ∀ iri, (iri :: tree.supertypes iri).IsChain fun a b => tree.supertype? a = some b
  once : ∀ iri, (iri :: tree.supertypes iri).Nodup
  ends : ∀ iri, (tree.supertype? iri).isSome → (tree.supertypes iri).getLast? = some Iri.top
  walks : ∀ goal iri, ∃! met, tree.Climbs goal iri met
  below : ∀ a b, tree.isBelow a b = true ↔
    a = b ∨ b = Iri.top ∨ a = Iri.bottom ∨ tree.Climbs b a true
  top : tree.supertype? Iri.top = none
  bottom : tree.supertype? Iri.bottom = none
  bottomless : ∀ iri, tree.supertype? iri ≠ some Iri.bottom
  refused : ∀ iri parent error, tree.register iri parent = .error error →
    tree.registering iri parent = tree
  kept : ∀ iri parent next, tree.register iri parent = .ok next → tree.supertype? iri = none →
    ∀ a b, a ≠ iri → next.isBelow a b = tree.isBelow a b

/-- Every tree that came about by registering is rooted. -/
theorem rooted_of_reachable (reachable : tree.Reachable) : tree.Rooted := by
  have grown := reachable.grown
  have unlisted {iri : Iri} (absent : iri ∉ tree.entries.map (·.1)) :
      tree.supertype? iri = none := by
    rw [← Option.not_isSome_iff_eq_none]
    exact mt lookup_isSome_iff.mp absent
  constructor
  case steps => exact fun iri => grown.isChain iri
  case once => exact fun iri => List.nodup_cons.mpr ⟨grown.not_mem_chain, grown.chain_nodup⟩
  case ends => exact fun iri registered => grown.getLast?_chain (lookup_isSome_iff.mp registered)
  case walks =>
    intro goal iri
    exact ⟨_, grown.climbs goal iri, fun met other => other.unique (grown.climbs goal iri)⟩
  case below => exact fun a b => grown.isBelow_iff_climbs
  case top =>
    have alone := grown.chain_eq Iri.top
    rw [grown.chain_top] at alone
    unfold supertype?
    cases found : tree.entries.lookup Iri.top with
    | none => rfl
    | some parent =>
        rw [found] at alone
        cases alone
  case bottom => exact unlisted fun listed => grown.ne_bottom (.inr listed) rfl
  case bottomless => exact fun iri found => grown.ne_bottom (grown.known_of_lookup found) rfl
  case refused =>
    intro iri parent error failed
    rw [registering, failed]
  case kept =>
    exact fun iri parent next registered new a b apart => isBelow_of_register registered new apart

/-- Two kinds of date, one below the other, after an attempt without the first. -/
def dated : TypeTree :=
  ((standard.registering "Feast" "Day").registering "Day" Iri.xsdDate).registering "Feast" "Day"

/-- The attempts are made one after the other. -/
theorem reachable_dated : dated.Reachable :=
  ((Reachable.standard.registering _ _).registering _ _).registering _ _

/-- The feast has been placed below the day and cannot be moved to the dates. -/
theorem rooted_of_reachable_dated : dated.Reachable ∧ dated.Rooted ∧
    dated.supertypes "Feast" = ["Day", Iri.xsdDate, Iri.literal, Iri.top] ∧
    dated.register "Feast" Iri.xsdDate =
      .error (.conflictingSupertype "Feast" "Day" Iri.xsdDate) :=
  ⟨reachable_dated, rooted_of_reachable reachable_dated, by decide +kernel, rfl⟩

end TypeTree

end RdfTemplates
