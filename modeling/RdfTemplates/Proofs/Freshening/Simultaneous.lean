import RdfTemplates.Proofs.Matching
import Mathlib.Data.List.Nodup

/-!
# A body rewritten all at once

While a body is gone through, the blank nodes without a binding get new labels one
by one, so its first and its last instance are rewritten by different bindings.
What comes out is nevertheless one substitution applied to the whole body: the
given one with a label for each such blank node. Where a list is bound as a whole
nothing in it is looked at.
-/

namespace RdfTemplates

namespace Substitution

variable {s : Substitution} {start : BlankSupply} {met last bs cs : List String} {t u : Term}
variable {b c : String}

mutual
/-- The blank nodes that stay as they are, from left to right and with repetitions. -/
def unmapped (s : Substitution) (t : Term) : List String :=
  match s.get? t with
  | some _ => []
  | none => match t with
    | .blank b => [b]
    | .list items => unmappedAll s items
    | _ => []
def unmappedAll (s : Substitution) : List Term → List String
  | [] => []
  | t :: ts => unmapped s t ++ unmappedAll s ts
end

def unmappedIn (s : Substitution) (body : List Instance) : List String :=
  body.flatMap fun i => i.arguments.arguments.flatMap fun a => s.unmapped a.term

/-- The substitution that also takes blank nodes to others. -/
def relabelled (s : Substitution) (labels : List (String × String)) : Substitution :=
  ⟨labels.map (fun (b, c) => (.blank b, .blank c)) ++ s.bindings⟩

/-- The labels handed out to the blank nodes met, the latest first. -/
def labelled (start : BlankSupply) : List String → List (String × String)
  | [] => []
  | b :: met => (b, BlankSupply.label (start.next + met.length)) :: labelled start met

theorem get?_relabelled_cons (labels : List (String × String)) (t : Term) :
    (s.relabelled ((b, c) :: labels)).get? t =
      if t == .blank b then some (.blank c) else (s.relabelled labels).get? t := by
  cases same : t == .blank b <;> simp [relabelled, get?, List.lookup_cons, same]

theorem get?_relabelled_of_not_blank (labels : List (String × String)) (other : t.isBlank = false) :
    (s.relabelled labels).get? t = s.get? t := by
  induction labels with
  | nil => rfl
  | cons binding labels ih =>
      have apart : ¬ (t == .blank binding.1) = true := by
        intro same
        rw [Freshening.beq_blank.mp same] at other
        cases other
      rw [get?_relabelled_cons, if_neg apart, ih]

theorem get?_relabelled_of_not_mem {labels : List (String × String)}
    (new : b ∉ labels.map Prod.fst) :
    (s.relabelled labels).get? (.blank b) = s.get? (.blank b) := by
  induction labels with
  | nil => rfl
  | cons binding labels ih =>
      rw [List.map_cons, List.mem_cons, not_or] at new
      have apart : ¬ (Term.blank b == .blank binding.1) = true := by
        intro same
        exact new.1 (Term.blank.inj (Freshening.beq_blank.mp same))
      rw [get?_relabelled_cons, if_neg apart, ih new.2]

theorem get?_relabelled_of_mem {labels : List (String × String)}
    (single : (labels.map Prod.fst).Nodup) (listed : (b, c) ∈ labels) :
    (s.relabelled labels).get? (.blank b) = some (.blank c) := by
  induction labels with
  | nil => cases listed
  | cons binding labels ih =>
      obtain ⟨new, single⟩ := List.nodup_cons.mp single
      rw [get?_relabelled_cons]
      rcases List.mem_cons.mp listed with rfl | later
      · simp
      · have apart : ¬ (Term.blank b == .blank binding.1) = true := by
          intro same
          rw [← Term.blank.inj (Freshening.beq_blank.mp same)] at new
          exact new (List.mem_map_of_mem later)
        rw [if_neg apart, ih single later]

@[simp] theorem keys_labelled (start : BlankSupply) (met : List String) :
    (labelled start met).map Prod.fst = met := by
  induction met with
  | nil => rfl
  | cons b met ih => simp [labelled, ih]

@[simp] theorem length_labelled (start : BlankSupply) (met : List String) :
    (labelled start met).length = met.length := by
  have keys := congrArg List.length (keys_labelled start met)
  rwa [List.length_map] at keys

theorem minted_of_mem_labelled {p : String × String} (listed : p ∈ labelled start met) :
    start.Minted ⟨start.next + met.length⟩ p.2 := by
  induction met with
  | nil => cases listed
  | cons b met ih =>
      rcases List.mem_cons.mp listed with rfl | later
      · refine ⟨start.next + met.length, by omega, ?_, rfl⟩
        simp only [List.length_cons]
        omega
      · refine (ih later).left ?_
        simp only [List.length_cons]
        omega

/-- Every label that is handed out is new. -/
theorem nodup_labels (start : BlankSupply) (met : List String) :
    ((labelled start met).map Prod.snd).Nodup := by
  induction met with
  | nil => exact List.nodup_nil
  | cons b met ih =>
      refine List.nodup_cons.mpr ⟨?_, ih⟩
      intro again
      obtain ⟨p, listed, same⟩ := List.mem_map.mp again
      have later := (minted_of_mem_labelled listed).avoids
      exact later (start.next + met.length) (Nat.le_refl _) same

theorem labelled_of_suffix (suffix : met <:+ last) {p : String × String}
    (listed : p ∈ labelled start met) : p ∈ labelled start last := by
  obtain ⟨more, rfl⟩ := suffix
  induction more with
  | nil => exact listed
  | cons b more ih => exact List.mem_cons_of_mem _ ih

/-- The blank nodes met are all different and have no binding. -/
structure Unbound (s : Substitution) (met : List String) : Prop where
  single : met.Nodup
  free : ∀ b ∈ met, s.get? (.blank b) = none

def meet (met : List String) (b : String) : List String := if b ∈ met then met else b :: met

theorem mem_meetAll : b ∈ bs.foldl meet met ↔ b ∈ met ∨ b ∈ bs := by
  induction bs generalizing met with
  | nil => simp
  | cons c bs ih =>
      rw [List.foldl_cons, ih]
      by_cases known : c ∈ met
      · simp only [meet, known, if_true, List.mem_cons]
        constructor
        · tauto
        · rintro (old | rfl | new)
          · exact .inl old
          · exact .inl known
          · exact .inr new
      · simp only [meet, known, if_false, List.mem_cons]
        tauto

theorem suffix_meetAll (met bs : List String) : met <:+ bs.foldl meet met := by
  induction bs generalizing met with
  | nil => exact List.suffix_refl met
  | cons b bs ih =>
      refine List.IsSuffix.trans ?_ (ih (meet met b))
      unfold meet
      split
      · exact List.suffix_refl met
      · exact List.suffix_cons b met

theorem Unbound.meetAll (unbound : s.Unbound met) (new : ∀ b ∈ bs, s.get? (.blank b) = none) :
    s.Unbound (bs.foldl meet met) where
  single := by
    induction bs generalizing met with
    | nil => exact unbound.single
    | cons b bs ih =>
        have first : s.Unbound (meet met b) := by
          unfold meet
          split
          · exact unbound
          · rename_i unknown
            exact ⟨List.nodup_cons.mpr ⟨unknown, unbound.single⟩,
              List.forall_mem_cons.mpr ⟨new b List.mem_cons_self, unbound.free⟩⟩
        exact ih first fun c h => new c (List.mem_cons_of_mem b h)
  free := by
    intro b known
    rcases mem_meetAll.mp known with old | here
    · exact unbound.free b old
    · exact new b here

/-- The state in which the blank nodes met have their labels. -/
def stateAfter (s : Substitution) (start : BlankSupply) (met : List String) : Freshening :=
  ⟨s.relabelled (labelled start met), ⟨start.next + met.length⟩⟩

/-- Whatever was met before, the action meets these blank nodes in turn, and what it gives is
what the bindings in the end say. -/
structure Follows {β : Type} (s : Substitution) (start : BlankSupply)
    (act : Freshening → β × Freshening) (bs : List String) (result : Substitution → β) : Prop where
  unbound : ∀ b ∈ bs, s.get? (.blank b) = none
  state : ∀ met, s.Unbound met →
    (act (s.stateAfter start met)).2 = s.stateAfter start (bs.foldl meet met)
  value : ∀ met last, s.Unbound met → s.Unbound last → bs.foldl meet met <:+ last →
    (act (s.stateAfter start met)).1 = result (s.relabelled (labelled start last))

theorem Follows.pure {β : Type} (x : β) :
    s.Follows start (fun state => (x, state)) [] fun _ => x where
  unbound := nofun
  state := fun _ _ => rfl
  value := fun _ _ _ _ _ => rfl

/-- One action after another, with what they give put together. -/
theorem Follows.andThen {β γ δ : Type} {act : Freshening → β × Freshening}
    {next : Freshening → γ × Freshening} {result : Substitution → β} {other : Substitution → γ}
    (join : β → γ → δ) (first : s.Follows start act bs result)
    (second : s.Follows start next cs other) :
    s.Follows start
      (fun state => (join (act state).1 (next (act state).2).1, (next (act state).2).2))
      (bs ++ cs) fun final => join (result final) (other final) where
  unbound := by
    intro b h
    rcases List.mem_append.mp h with here | there
    · exact first.unbound b here
    · exact second.unbound b there
  state := by
    intro met unbound
    rw [first.state met unbound, second.state _ (unbound.meetAll first.unbound),
      List.foldl_append]
  value := by
    intro met last unbound final whole
    rw [List.foldl_append] at whole
    have part := (suffix_meetAll (bs.foldl meet met) cs).trans whole
    have before := first.value met last unbound final part
    have after := second.value (bs.foldl meet met) last (unbound.meetAll first.unbound) final whole
    rw [before, first.state met unbound, after]

theorem follows_freshenAll {ts : List Term}
    (each : ∀ t ∈ ts, s.Follows start (freshen t) (s.unmapped t) fun final => final.apply t) :
    s.Follows start (freshenAll ts) (s.unmappedAll ts) fun final => final.applyAll ts := by
  induction ts with
  | nil => exact .pure []
  | cons t ts ih =>
      have head := each t List.mem_cons_self
      have tail := ih fun u h => each u (List.mem_cons_of_mem t h)
      exact head.andThen List.cons tail

/-- No blank node is met in a term that comes out the same in every state. -/
theorem follows_still (u : Term) (nothing : s.unmapped t = []) (still : ∀ met, s.Unbound met →
      freshen t (s.stateAfter start met) = (u, s.stateAfter start met) ∧
        (s.relabelled (labelled start met)).apply t = u) :
    s.Follows start (freshen t) (s.unmapped t) fun final => final.apply t := by
  rw [nothing]
  constructor
  · exact nofun
  · intro met unbound
    rw [(still met unbound).1]
    rfl
  · intro met last unbound final _
    rw [(still met unbound).1, (still last final).2]

theorem unmapped_of_bound (bound : s.get? t = some u) : s.unmapped t = [] := by
  unfold unmapped
  rw [bound]

/-- A term with a binding of its own is replaced as a whole. -/
theorem follows_bound (other : t.isBlank = false) (bound : s.get? t = some u) :
    s.Follows start (freshen t) (s.unmapped t) fun final => final.apply t := by
  refine follows_still u (unmapped_of_bound bound) fun met _ => ?_
  have known : (s.relabelled (labelled start met)).get? t = some u := by
    rw [get?_relabelled_of_not_blank _ other, bound]
  exact ⟨Freshening.freshen_bound known, apply_of_bound known⟩

theorem follows_leaf (other : t.isBlank = false) (leaf : t.isList = false)
    (unbound : s.get? t = none) :
    s.Follows start (freshen t) (s.unmapped t) fun final => final.apply t := by
  have nothing : s.unmapped t = [] := by
    unfold unmapped
    rw [unbound]
    cases t with
    | blank => cases other
    | list => cases leaf
    | _ => rfl
  refine follows_still t nothing fun met _ => ?_
  have free : (s.relabelled (labelled start met)).get? t = none := by
    rw [get?_relabelled_of_not_blank _ other, unbound]
  exact ⟨Freshening.freshen_unbound other leaf free, apply_of_unbound free leaf⟩

/-- A blank node without a binding gets a label the first time and has it from then on. -/
theorem freshen_unmapped (start : BlankSupply) (unbound : s.Unbound met)
    (free : s.get? (.blank b) = none) :
    ∃ c, (b, c) ∈ labelled start (meet met b) ∧
      freshen (.blank b) (s.stateAfter start met) =
        (.blank c, s.stateAfter start (meet met b)) := by
  have keys : b ∈ (labelled start met).map Prod.fst ↔ b ∈ met := by rw [keys_labelled]
  by_cases again : b ∈ met
  · obtain ⟨⟨key, c⟩, listed, here⟩ := List.mem_map.mp (keys.mpr again)
    obtain rfl : key = b := here
    have single : ((labelled start met).map Prod.fst).Nodup := by simpa using unbound.single
    have same : meet met key = met := if_pos again
    refine ⟨c, by rwa [same], ?_⟩
    rw [same]
    exact Freshening.freshen_bound (get?_relabelled_of_mem single listed)
  · have new : (s.stateAfter start met).bindings.get? (.blank b) = none := by
      rw [stateAfter, get?_relabelled_of_not_mem (mt keys.mp again), free]
    have grown : (s.stateAfter start met).mintFor b = s.stateAfter start (b :: met) := by
      simp [Freshening.mintFor, insert, contains, new]
      rfl
    refine ⟨BlankSupply.label (start.next + met.length), ?_, ?_⟩
    · simp [meet, again, labelled]
    · rw [Freshening.freshen_blank new, grown, meet, if_neg again]
      rfl

/-- A blank node with a binding is never met, so its binding stays. -/
theorem follows_blank (b : String) :
    s.Follows start (freshen (.blank b)) (s.unmapped (.blank b)) fun final =>
      final.apply (.blank b) := by
  cases bound : s.get? (.blank b) with
  | some u =>
      refine follows_still u (unmapped_of_bound bound) fun met unbound => ?_
      have unmet : b ∉ (labelled start met).map Prod.fst := by
        rw [keys_labelled]
        intro listed
        have free := unbound.free b listed
        rw [bound] at free
        cases free
      have known : (s.relabelled (labelled start met)).get? (.blank b) = some u := by
        rw [get?_relabelled_of_not_mem unmet, bound]
      exact ⟨Freshening.freshen_bound known, apply_of_bound known⟩
  | none =>
      have alone : s.unmapped (.blank b) = [b] := by simp [unmapped, bound]
      rw [alone]
      constructor
      · intro c listed
        rw [List.mem_singleton.mp listed, bound]
      · intro met unbound
        obtain ⟨c, -, made⟩ := freshen_unmapped start unbound bound
        rw [made]
        rfl
      · intro met last unbound final whole
        obtain ⟨c, listed, made⟩ := freshen_unmapped start unbound bound
        have single : ((labelled start last).map Prod.fst).Nodup := by simpa using final.single
        have later := get?_relabelled_of_mem (s := s) single (labelled_of_suffix whole listed)
        rw [made, apply_of_bound later]

theorem follows_freshen (t : Term) :
    s.Follows start (freshen t) (s.unmapped t) fun final => final.apply t := by
  induction t with
  | blank b => exact follows_blank b
  | list items ih =>
      cases bound : s.get? (.list items) with
      | some u => exact follows_bound rfl bound
      | none =>
          have free (labels : List (String × String)) :
              (s.relabelled labels).get? (.list items) = none := by
            rw [get?_relabelled_of_not_blank labels rfl, bound]
          have inside : s.Follows start (freshenAll items) (s.unmappedAll items) _ :=
            follows_freshenAll ih
          have elements : s.unmapped (.list items) = s.unmappedAll items := by
            simp [unmapped, bound]
          have gone (met : List String) : freshen (.list items) (s.stateAfter start met) =
              (.list (freshenAll items (s.stateAfter start met)).1,
                (freshenAll items (s.stateAfter start met)).2) := by
            rw [freshen]
            simp only [stateAfter, free]
          rw [elements]
          constructor
          · exact inside.unbound
          · intro met unbound
            rw [gone]
            exact inside.state met unbound
          · intro met last unbound final whole
            rw [gone, apply, free]
            exact congrArg Term.list (inside.value met last unbound final whole)
  | iri | literal | var | none =>
      cases bound : s.get? _ with
      | some u => exact follows_bound rfl bound
      | none => exact follows_leaf rfl rfl bound

theorem follows_freshenArguments (as : List Argument) :
    s.Follows start (freshenArguments as) (as.flatMap fun a => s.unmapped a.term) fun final =>
      as.map fun a => { a with term := final.apply a.term } := by
  induction as with
  | nil => exact .pure []
  | cons a as ih =>
      exact (follows_freshen a.term).andThen (fun t rest => { a with term := t } :: rest) ih

theorem follows_freshenBody (body : List Instance) :
    s.Follows start (freshenBody body) (s.unmappedIn body) fun final =>
      body.map final.applyInstance := by
  induction body with
  | nil => exact .pure []
  | cons i body ih =>
      exact (follows_freshenArguments i.arguments.arguments).andThen
        (fun arguments rest => { i with arguments := { i.arguments with arguments } } :: rest) ih

/-- What is handed out to a body, the latest first. -/
def handedOut (s : Substitution) (body : List Instance) (supply : BlankSupply) :
    List (String × String) :=
  labelled supply ((s.unmappedIn body).foldl meet [])

theorem unbound_nil (s : Substitution) : s.Unbound [] := ⟨List.nodup_nil, nofun⟩

theorem unbound_of_mem_unmappedIn {body : List Instance} (h : b ∈ s.unmappedIn body) :
    s.get? (.blank b) = none := by
  have follows : s.Follows ⟨0⟩ (freshenBody body) (s.unmappedIn body) _ := follows_freshenBody body
  exact follows.unbound b h

theorem nodup_handedOut (s : Substitution) (body : List Instance) (supply : BlankSupply) :
    ((s.handedOut body supply).map Prod.fst).Nodup := by
  rw [handedOut, keys_labelled]
  exact (s.unbound_nil.meetAll fun _ => unbound_of_mem_unmappedIn).single

theorem mem_keys_handedOut {body : List Instance} {supply : BlankSupply} :
    b ∈ (s.handedOut body supply).map Prod.fst ↔ b ∈ s.unmappedIn body := by
  rw [handedOut, keys_labelled, mem_meetAll]
  simp

/-- The body comes out rewritten by one substitution, and every label handed out is in it. -/
theorem applyBody_eq_map (s : Substitution) (body : List Instance) (supply : BlankSupply) :
    s.applyBody body supply = (body.map (s.relabelled (s.handedOut body supply)).applyInstance,
      ⟨supply.next + (s.handedOut body supply).length⟩) := by
  have follows : s.Follows supply (freshenBody body) (s.unmappedIn body) _ :=
    follows_freshenBody body
  have state := follows.state [] s.unbound_nil
  have value := follows.value [] _ s.unbound_nil (s.unbound_nil.meetAll follows.unbound)
    (List.suffix_refl _)
  have applied : s.applyBody body supply = ((freshenBody body (s.stateAfter supply [])).1,
      (freshenBody body (s.stateAfter supply [])).2.supply) := rfl
  rw [applied, value, state, handedOut, length_labelled]
  rfl

theorem minted_of_mem_handedOut {body : List Instance} {supply : BlankSupply}
    {p : String × String} (listed : p ∈ s.handedOut body supply) :
    supply.Minted (s.applyBody body supply).2 p.2 := by
  rw [applyBody_eq_map, handedOut, length_labelled]
  exact minted_of_mem_labelled listed

/-- A blank node label occurs in what is bound, or in what it is bound to. -/
def Mentions (s : Substitution) (b : String) : Prop :=
  ∃ binding ∈ s.bindings, b ∈ binding.1.blanks ∨ b ∈ binding.2.blanks

/-- The blank nodes of the body that have no binding get new labels, each one of its own, and
nothing else changes about the bindings. -/
structure Renames (s : Substitution) (body : List Instance) (supply left : BlankSupply)
    (labels : List (String × String)) : Prop where
  domain : ∀ b, b ∈ labels.map Prod.fst ↔ b ∈ s.unmappedIn body
  single : (labels.map Prod.fst).Nodup
  injective : (labels.map Prod.snd).Nodup
  minted : ∀ p ∈ labels, supply.Minted left p.2
  apart : ∀ p ∈ labels, ¬ s.Mentions p.2 ∧ ∀ i ∈ body, p.2 ∉ i.blanks
  renamed : ∀ p ∈ labels, (s.relabelled labels).apply (.blank p.1) = .blank p.2
  kept : ∀ t u, s.get? t = some u → (s.relabelled labels).apply t = u

/-- A label that could have been handed out is neither bound nor written. -/
theorem applyBody_simultaneous (bound : ∀ b, s.Mentions b → BlankSupply.isStemmed b = false)
    {body : List Instance} (written : ∀ i ∈ body, ∀ b ∈ i.blanks, BlankSupply.isStemmed b = false)
    (supply : BlankSupply) :
    ∃ labels : List (String × String),
      (s.applyBody body supply).1 = body.map (s.relabelled labels).applyInstance ∧
      s.Renames body supply (s.applyBody body supply).2 labels := by
  have single := s.nodup_handedOut body supply
  have new {b : String} (other : BlankSupply.isStemmed b = false) :
      ¬ supply.Minted (s.applyBody body supply).2 b :=
    (supply.avoids_of_not_stemmed other).not_minted
  refine ⟨s.handedOut body supply, by rw [applyBody_eq_map], ?_⟩
  constructor
  case domain => exact fun b => mem_keys_handedOut
  case single => exact single
  case injective => exact nodup_labels supply _
  case minted => exact fun p => minted_of_mem_handedOut
  case apart =>
    intro p listed
    constructor
    · intro mentioned
      exact new (bound _ mentioned) (minted_of_mem_handedOut listed)
    · intro i hi hb
      exact new (written i hi _ hb) (minted_of_mem_handedOut listed)
  case renamed =>
    intro p listed
    exact apply_of_bound (get?_relabelled_of_mem single listed)
  case kept =>
    intro t u known
    apply apply_of_bound
    cases t with
    | blank b =>
        rw [get?_relabelled_of_not_mem, known]
        intro listed
        rw [unbound_of_mem_unmappedIn (mem_keys_handedOut.mp listed)] at known
        cases known
    | _ => rw [get?_relabelled_of_not_blank _ rfl, known]

/-- A guest is given, a host is known by another name, and two blank nodes are new. -/
def visit : Substitution :=
  ⟨[(.var ⟨"guest", .top⟩, .blank "a"), (.blank "host", .blank "c")]⟩

/-- Two meetings with the friend, of whom the host is one to meet. -/
def visited : List Instance :=
  [.ofTerms "Meets" [.blank "host", .list [.blank "friend", .var ⟨"guest", .top⟩]],
    .ofTerms "Meets" [.blank "cousin", .blank "friend"]]

/-- The friend gets one new label in both meetings, and the cousin another. -/
theorem applyBody_simultaneous_visit :
    (∀ b, visit.Mentions b → BlankSupply.isStemmed b = false) ∧
    (∀ i ∈ visited, ∀ b ∈ i.blanks, BlankSupply.isStemmed b = false) ∧
    (∃ labels : List (String × String),
      (visit.applyBody visited ⟨0⟩).1 = visited.map (visit.relabelled labels).applyInstance ∧
      visit.Renames visited ⟨0⟩ (visit.applyBody visited ⟨0⟩).2 labels) ∧
    (visit.applyBody visited ⟨0⟩).1 =
      [.ofTerms "Meets" [.blank "c", .list [.blank "genid0", .blank "a"]],
        .ofTerms "Meets" [.blank "genid1", .blank "genid0"]] := by
  have bound : ∀ b, visit.Mentions b → BlankSupply.isStemmed b = false := by
    have each : ∀ binding ∈ visit.bindings, ∀ b ∈ binding.1.blanks ++ binding.2.blanks,
        BlankSupply.isStemmed b = false := by decide
    rintro b ⟨binding, listed, mentioned⟩
    exact each binding listed b (List.mem_append.mpr mentioned)
  have written : ∀ i ∈ visited, ∀ b ∈ i.blanks, BlankSupply.isStemmed b = false := by decide
  exact ⟨bound, written, applyBody_simultaneous bound written ⟨0⟩, rfl⟩

end Substitution

end RdfTemplates
