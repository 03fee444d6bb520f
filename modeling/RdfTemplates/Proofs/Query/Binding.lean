import RdfTemplates.Proofs.Query.Relations

/-!
# What relations read and bind

Every relation has inputs, which it reads as values of certain kinds, and outputs, which
it binds where they are not bound. With its inputs bound to values of these kinds, and no
output bound to a value of another kind than its own, a relation meets no violation, and
whatever it finds has the outputs bound, one after the other.
-/

namespace RdfTemplates

/-- What a variable can be bound to. -/
inductive Kind where
  | iri | term | terms | parameters | arguments | inst | body | int | type | substitution
deriving DecidableEq

namespace Kind

def any : List Kind :=
  [iri, term, terms, parameters, arguments, inst, body, int, type, substitution]

/-- What a substitution can be applied to. -/
def substitutable : List Kind := [term, terms, arguments, inst, body]

end Kind

/-- The kind of a value. -/
def Value.sort : Value → Kind
  | .iri _ => .iri
  | .term _ => .term
  | .terms _ => .terms
  | .parameters _ => .parameters
  | .arguments _ => .arguments
  | .inst _ => .inst
  | .body _ => .body
  | .int _ => .int
  | .type _ => .type
  | .substitution _ => .substitution

namespace Reading

variable {α β : Type} {P : α → Prop} {Q : β → Prop}

/-- The reading meets no violation and comes to something with the property. -/
def Yields (x : Reading α) (P : α → Prop) : Prop := ∃ a, x = .ok a ∧ P a

/-- The reading meets no violation. -/
abbrev Succeeds (x : Reading α) : Prop := Yields x fun _ => True

namespace Yields

theorem pure {a : α} (h : P a) : Reading.Yields (Pure.pure a) P := ⟨a, rfl, h⟩

/-- A reading goes on with what it has yielded. -/
theorem bind {x : Reading α} {f : α → Reading β} (first : x.Yields P)
    (next : ∀ a, P a → (f a).Yields Q) : Reading.Yields (x >>= f) Q := by
  obtain ⟨a, read, holds⟩ := first
  obtain ⟨b, done, holds'⟩ := next a holds
  exact ⟨b, Reading.bind_eq_ok.mpr ⟨a, read, done⟩, holds'⟩

theorem mono {P' : α → Prop} {x : Reading α} (h : x.Yields P) (weaker : ∀ a, P a → P' a) :
    x.Yields P' := by
  obtain ⟨a, read, holds⟩ := h
  exact ⟨a, read, weaker a holds⟩

theorem succeeds {x : Reading α} (h : x.Yields P) : x.Succeeds := h.mono fun _ _ => trivial

end Yields

/-- Where every reading of a list succeeds, the list is read as a whole. -/
theorem exists_mapM {f : β → Reading α} {bs : List β} (each : ∀ b ∈ bs, ∃ a, f b = .ok a) :
    ∃ as, bs.mapM f = .ok as ∧ ∀ a, a ∈ as ↔ ∃ b ∈ bs, f b = .ok a := by
  induction bs with
  | nil => exact ⟨[], rfl, fun a => by simp⟩
  | cons b bs ih =>
      obtain ⟨⟨a, here⟩, there⟩ := List.forall_mem_cons.mp each
      obtain ⟨as, rest, listed⟩ := ih there
      refine ⟨a :: as, ?_, fun x => ?_⟩
      · rw [List.mapM_cons, here, rest]
        rfl
      · simp [here, listed, eq_comm]

theorem mapM_succeeds {f : β → Reading α} {bs : List β} (each : ∀ b ∈ bs, (f b).Succeeds) :
    Succeeds (bs.mapM f) := by
  obtain ⟨as, read, -⟩ := exists_mapM fun b listed => by
    obtain ⟨a, known, -⟩ := each b listed
    exact ⟨a, known⟩
  exact ⟨as, read, trivial⟩

theorem foldlM_succeeds {f : α → β → Reading α} {bs : List β} (a : α)
    (each : ∀ b ∈ bs, ∀ a, (f a b).Succeeds) : Succeeds (bs.foldlM f a) := by
  induction bs generalizing a with
  | nil => exact .pure trivial
  | cons b bs ih =>
      rw [List.foldlM_cons]
      exact (each b List.mem_cons_self a).bind fun next _ =>
        ih next fun c hc => each c (List.mem_cons_of_mem b hc)

end Reading

namespace Tuple

variable {t : Tuple} {v : Var} {kinds : List Kind}

/-- The variable is bound, to a value of one of the kinds. -/
def Holds (t : Tuple) (v : Var) (kinds : List Kind) : Prop :=
  ∃ x, t.get? v = some x ∧ x.sort ∈ kinds

/-- If the variable is bound at all, then to a value of one of the kinds. -/
def Fits (t : Tuple) (v : Var) (kinds : List Kind) : Prop :=
  ∀ x, t.get? v = some x → x.sort ∈ kinds

/-- A variable that is bound and fits holds a value of the kinds. -/
theorem holds_of_hasBound (bound : t.hasBound v = true) (fits : t.Fits v kinds) :
    t.Holds v kinds := by
  obtain ⟨x, known⟩ := Option.isSome_iff_exists.mp bound
  exact ⟨x, known, fits x known⟩

theorem value_yields (h : t.Holds v kinds) : (t.value v).Yields fun x => x.sort ∈ kinds := by
  obtain ⟨x, known, kind⟩ := h
  exact ⟨x, value_eq_ok.mpr known, kind⟩

/-- A variable that holds a value of the kind can be read. -/
theorem read_succeeds {α : Type} {kind : String} {of? : Value → Option α}
    (of : ∀ x : Value, x.sort ∈ kinds → ∃ a, of? x = some a) (h : t.Holds v kinds) :
    (read kind of? t v).Succeeds := by
  refine (value_yields h).bind fun x here => ?_
  obtain ⟨a, found⟩ := of x here
  exact ⟨a, by rw [found], trivial⟩

theorem iri_succeeds (h : t.Holds v [.iri]) : (t.iri v).Succeeds :=
  read_succeeds (fun x here => by cases x <;> simp_all [Value.sort]) h

theorem term_succeeds (h : t.Holds v [.term]) : (t.term v).Succeeds :=
  read_succeeds (fun x here => by cases x <;> simp_all [Value.sort]) h

theorem parameters_succeeds (h : t.Holds v [.parameters]) :
    (t.parameters v).Succeeds :=
  read_succeeds (fun x here => by cases x <;> simp_all [Value.sort]) h

theorem arguments_succeeds (h : t.Holds v [.arguments]) : (t.arguments v).Succeeds :=
  read_succeeds (fun x here => by cases x <;> simp_all [Value.sort]) h

theorem inst_succeeds (h : t.Holds v [.inst]) : (t.inst v).Succeeds :=
  read_succeeds (fun x here => by cases x <;> simp_all [Value.sort]) h

theorem body_succeeds (h : t.Holds v [.body]) : (t.body v).Succeeds :=
  read_succeeds (fun x here => by cases x <;> simp_all [Value.sort]) h

theorem int_succeeds (h : t.Holds v [.int]) : (t.int v).Succeeds :=
  read_succeeds (fun x here => by cases x <;> simp_all [Value.sort]) h

theorem type_succeeds (h : t.Holds v [.type]) : (t.type v).Succeeds :=
  read_succeeds (fun x here => by cases x <;> simp_all [Value.sort]) h

theorem substitution_succeeds (h : t.Holds v [.substitution]) :
    (t.substitution v).Succeeds :=
  read_succeeds (fun x here => by cases x <;> simp_all [Value.sort]) h

/-- The variable is bound on the way from one tuple to the other, or was before. -/
def Binds (v : Var) (kinds : List Kind) (t u : Tuple) : Prop :=
  t.hasBound v = true ∧ u = t ∨ ∃ x : Value, x.sort ∈ kinds ∧ u = t.bind v x

/-- So are several variables one after the other. -/
def BindsEach : List (Var × List Kind) → Tuple → Tuple → Prop
  | [], t, u => u = t
  | (v, kinds) :: rest, t, u => ∃ s, Binds v kinds t s ∧ BindsEach rest s u

end Tuple

namespace Relation

open RdfTemplates.Tuple

/-- The variables that have to be bound, with the kinds they are read as. -/
def inputs : Relation → List (Var × List Kind)
  | .template _ => []
  | .parameters v _ | .body v _ | .isUndefined v | .isSignature v | .isBase v
  | .isDependencyOf v _ | .dependsTransitive v _ => [(v, [.iri])]
  | .inst is _ => [(is, [.body])]
  | .instanceIri i _ | .arguments i _ | .hasExpander i | .hasCross i | .hasZipMin i
  | .hasZipMax i => [(i, [.inst])]
  | .length xs _ | .index xs _ _ => [(xs, Kind.any)]
  | .isOptional ps _ | .isNonBlank ps _ | .hasDefault ps _ => [(ps, [.parameters])]
  | .hasListExpander args _ => [(args, [.arguments])]
  | .hasOccurrenceAt u _ _ | .isVariable u | .isBlank u | .isNotNone u | .typeOf u _ =>
      [(u, [.term])]
  | .innerTypeAt ty _ _ | .innerType ty _ | .listType ty _ => [(ty, [.type])]
  | .isSubtypeOf a b | .isCompatibleWith a b => [(a, [.type]), (b, [.type])]
  | .unifiesTerms a b _ => [(a, [.term]), (b, [.term])]
  | .unifiesParameters ps qs _ | .unifiesParametersUnordered ps qs _ =>
      [(ps, [.parameters]), (qs, [.parameters])]
  | .unifiesBody is js _ => [(is, [.body]), (js, [.body])]
  | .merge a b _ => [(a, [.substitution]), (b, [.substitution])]
  | .applyUnifier a s _ => [(s, [.substitution]), (a, Kind.any)]
  | .equals a b | .notEquals a b | .removeSymmetry a b => [(a, Kind.any), (b, Kind.any)]

/-- The variables bound where they are not, in the order in which this happens. -/
def outputs : Relation → List (Var × List Kind)
  | .template v | .instanceIri _ v | .isDependencyOf _ v | .dependsTransitive _ v =>
      [(v, [.iri])]
  | .parameters _ ps => [(ps, [.parameters])]
  | .body _ is => [(is, [.body])]
  | .inst _ i => [(i, [.inst])]
  | .arguments _ args => [(args, [.arguments])]
  | .length _ n | .isOptional _ n | .isNonBlank _ n | .hasDefault _ n | .hasListExpander _ n =>
      [(n, [.int])]
  | .index _ n u => [(n, [.int]), (u, [.term])]
  | .hasOccurrenceAt _ x n => [(n, [.int]), (x, [.term])]
  | .innerTypeAt _ n x => [(n, [.int]), (x, [.type])]
  | .typeOf _ ty | .innerType _ ty | .listType _ ty => [(ty, [.type])]
  | .unifiesTerms _ _ x | .unifiesParameters _ _ x | .unifiesParametersUnordered _ _ x
  | .unifiesBody _ _ x | .merge _ _ x => [(x, [.substitution])]
  | .applyUnifier _ _ x => [(x, Kind.substitutable)]
  | .isUndefined _ | .isSignature _ | .isBase _ | .hasExpander _ | .hasCross _ | .hasZipMin _
  | .hasZipMax _ | .isVariable _ | .isBlank _ | .isNotNone _ | .isSubtypeOf _ _
  | .isCompatibleWith _ _ | .equals _ _ | .notEquals _ _ | .removeSymmetry _ _ => []

variable {store : Store} {t u : Tuple} {v : Var} {kinds : List Kind}

theorem binds_of_mem_keepIf {holds : Bool} (bound : t.hasBound v = true)
    (h : u ∈ keepIf t holds) : Binds v kinds t u :=
  .inl ⟨bound, (Query.mem_keepIf.mp h).1⟩

/-- A result that is bound or checked is of its kind. -/
theorem binds_of_mem_bindOrCheck {x : Value} (kind : x.sort ∈ kinds)
    (h : u ∈ bindOrCheck t v x) : Binds v kinds t u := by
  unfold bindOrCheck at h
  split at h
  · rename_i bound known
    exact binds_of_mem_keepIf (by simp [hasBound, known]) h
  · exact .inr ⟨x, kind, List.mem_singleton.mp h⟩

theorem binds_of_mem_bindOrCheck? {x : Option Value} (kind : ∀ y ∈ x, y.sort ∈ kinds)
    (h : u ∈ bindOrCheck? t v x) : Binds v kinds t u := by
  cases x with
  | none => cases h
  | some y => exact binds_of_mem_bindOrCheck (kind y rfl) h

theorem binds_of_mem_bindEach {xs : List Value} (kind : ∀ x ∈ xs, x.sort ∈ kinds)
    (h : u ∈ bindEach t v xs) : Binds v kinds t u := by
  unfold bindEach at h
  split at h
  · rename_i bound known
    exact binds_of_mem_keepIf (by simp [hasBound, known]) h
  · obtain ⟨x, listed, rfl⟩ := List.mem_map.mp h
    exact .inr ⟨x, kind x listed, rfl⟩

theorem bindsEach_single (h : Binds v kinds t u) : BindsEach [(v, kinds)] t u := ⟨u, h, rfl⟩

/-- A relation that reads something and then only binds or checks one output. -/
theorem yields_of_reading {α : Type} {x : Reading α} {g : α → List Tuple} {P : α → Prop}
    (read : x.Yields P) (binds : ∀ a, P a → ∀ u ∈ g a, Binds v kinds t u) :
    Reading.Yields (x >>= fun a => pure (g a))
      fun us => ∀ u ∈ us, BindsEach [(v, kinds)] t u :=
  read.bind fun a holds => .pure fun u hu => bindsEach_single (binds a holds u hu)

/-- A relation that reads something and then keeps the tuple or drops it. -/
theorem yields_of_test {α : Type} {x : Reading α} {holds : α → Bool}
    (read : x.Succeeds) :
    Reading.Yields (x >>= fun a => pure (keepIf t (holds a)))
      fun us => ∀ u ∈ us, BindsEach [] t u :=
  read.bind fun _ _ => .pure fun _ hu => (Query.mem_keepIf.mp hu).1

/-- What goes on from a reading that is done only where the variable is bound. -/
theorem yields_of_readBound {α β : Type} {x : Reading α} {f : Option α → Reading β}
    {P : α → Prop} {Q : β → Prop} (read : t.hasBound v = true → x.Yields P)
    (next : ∀ found, (found.isSome = true → t.hasBound v = true) → (f found).Yields Q) :
    Reading.Yields (if t.hasBound v then (some <$> x) >>= f else pure none >>= f) Q := by
  split
  · rename_i known
    obtain ⟨a, met, -⟩ := read known
    rw [met]
    exact next (some a) fun _ => known
  · exact next none nofun

theorem indicesWhere_yields {index : Var} {length : Nat} {holds : Nat → Bool}
    (fits : t.Fits index [.int]) :
    (indicesWhere t index length holds).Yields
      fun us => ∀ u ∈ us, BindsEach [(index, [.int])] t u := by
  unfold indicesWhere
  split
  · rename_i bound
    refine yields_of_reading (int_succeeds (holds_of_hasBound bound fits)) fun i _ u hu => ?_
    exact binds_of_mem_keepIf bound hu
  · refine .pure fun u hu => bindsEach_single ?_
    obtain ⟨i, -, rfl⟩ := List.mem_map.mp hu
    exact .inr ⟨.int i, List.mem_singleton_self _, rfl⟩

/-- A place in a list is bound with the term at it. -/
theorem runIndex_yields {list index term : Var} (bound : t.Holds list Kind.any)
    (fits : t.Fits index [.int]) :
    (runIndex t list index term).Yields
      fun us => ∀ u ∈ us, BindsEach [(index, [.int]), (term, [.term])] t u := by
  refine (value_yields bound).bind fun x _ => ?_
  split
  · rename_i known
    refine (int_succeeds (holds_of_hasBound known fits)).bind fun i _ => .pure fun u hu => ?_
    refine ⟨t, .inl ⟨known, rfl⟩, bindsEach_single (binds_of_mem_bindOrCheck? ?_ hu)⟩
    simp [Value.sort]
  · refine .pure fun u hu => ?_
    obtain ⟨i, -, here⟩ := List.mem_filterMap.mp hu
    obtain ⟨a, -, placed⟩ := Option.bind_eq_some_iff.mp here
    obtain rfl := Option.some.inj (Option.ite_none_right_eq_some.mp placed).2
    exact ⟨_, .inr ⟨.int i, List.mem_singleton_self _, rfl⟩,
      bindsEach_single (.inr ⟨.term a, List.mem_singleton_self _, rfl⟩)⟩

/-- An occurrence is bound with its depth. -/
theorem runOccurrence_yields {term inside level : Var} (bound : t.Holds term [.term])
    (fits : t.Fits level [.int]) :
    (runOccurrence t term inside level).Yields
      fun us => ∀ u ∈ us, BindsEach [(level, [.int]), (inside, [.term])] t u := by
  refine yields_of_readBound (fun known => int_succeeds (holds_of_hasBound known fits))
    fun wanted _ => ?_
  refine (term_succeeds bound).bind fun outer _ => .pure fun u hu => ?_
  obtain ⟨⟨a, depth⟩, -, here⟩ := List.mem_flatMap.mp hu
  simp only at here
  split at here
  · exact ⟨_, .inr ⟨.int depth, List.mem_singleton_self _, rfl⟩,
      bindsEach_single (binds_of_mem_bindOrCheck (List.mem_singleton_self _) here)⟩
  · cases here

theorem runInnerTypeAt_yields {type level inner : Var} (bound : t.Holds type [.type])
    (fits : t.Fits level [.int]) :
    (runInnerTypeAt t type level inner).Yields
      fun us => ∀ u ∈ us, BindsEach [(level, [.int]), (inner, [.type])] t u := by
  refine (type_succeeds bound).bind fun outer _ => ?_
  split
  · rename_i known
    refine (int_succeeds (holds_of_hasBound known fits)).bind fun n _ => .pure fun u hu => ?_
    refine ⟨t, .inl ⟨known, rfl⟩, bindsEach_single (binds_of_mem_bindOrCheck? ?_ hu)⟩
    simp [Value.sort]
  · refine .pure fun u hu => ?_
    obtain ⟨⟨depth, found⟩, -, here⟩ := List.mem_flatMap.mp hu
    exact ⟨_, .inr ⟨.int depth, List.mem_singleton_self _, rfl⟩,
      bindsEach_single (binds_of_mem_bindOrCheck (List.mem_singleton_self _) here)⟩

/-- A unifier is bound or checked. -/
theorem runUnifiesTerms_yields {a b unifier : Var} (left : t.Holds a [.term])
    (right : t.Holds b [.term]) (fits : t.Fits unifier [.substitution]) :
    (runUnifiesTerms t a b unifier).Yields
      fun us => ∀ u ∈ us, BindsEach [(unifier, [.substitution])] t u := by
  refine (term_succeeds left).bind fun x _ => (term_succeeds right).bind fun y _ => ?_
  split
  · rename_i known
    refine yields_of_reading (substitution_succeeds (holds_of_hasBound known fits))
      fun s _ u hu => ?_
    exact binds_of_mem_keepIf known hu
  · refine .pure fun u hu => bindsEach_single ?_
    split at hu
    · rename_i unified _
      exact .inr ⟨.substitution (unifierOf x y unified), List.mem_singleton_self _,
        List.mem_singleton.mp hu⟩
    · cases hu

theorem runUnifiesBody_yields {body into unifier : Var} (left : t.Holds body [.body])
    (right : t.Holds into [.body]) :
    (runUnifiesBody t body into unifier).Yields
      fun us => ∀ u ∈ us, BindsEach [(unifier, [.substitution])] t u := by
  refine (body_succeeds left).bind fun is _ => (body_succeeds right).bind fun js _ =>
    .pure fun u hu => bindsEach_single ?_
  split at hu
  · cases hu
  · obtain ⟨s, -, here⟩ := List.mem_filterMap.mp hu
    obtain ⟨merged, -, rfl⟩ := Option.map_eq_some_iff.mp here
    exact .inr ⟨.substitution merged, List.mem_singleton_self _, rfl⟩

theorem runTemplate_yields (fits : t.Fits v [.iri]) :
    (runTemplate store t v).Yields fun us => ∀ u ∈ us, BindsEach [(v, [.iri])] t u := by
  unfold runTemplate
  split
  · rename_i known
    refine yields_of_reading (iri_succeeds (holds_of_hasBound known fits)) fun iri _ u hu => ?_
    exact binds_of_mem_keepIf known hu
  · refine .pure fun u hu => bindsEach_single (binds_of_mem_bindEach ?_ hu)
    simp [Value.sort]

theorem runBody_yields {template : Var} (bound : t.Holds template [.iri]) :
    (runBody store t template v).Yields fun us => ∀ u ∈ us, BindsEach [(v, [.body])] t u := by
  refine (iri_succeeds bound).bind fun iri _ => ?_
  split
  · exact .pure nofun
  · refine .pure fun u hu => bindsEach_single ?_
    exact .inr ⟨_, List.mem_singleton_self _, List.mem_singleton.mp hu⟩
  · rename_i known
    refine .pure fun u hu => bindsEach_single ?_
    exact binds_of_mem_keepIf (by simp [hasBound, known]) hu
  · exact .pure nofun

/-- A dependency is bound or checked. -/
theorem runDependsTransitive_yields {template : Var} (bound : t.Holds template [.iri])
    (fits : t.Fits v [.iri]) :
    (runDependsTransitive store t template v).Yields
      fun us => ∀ u ∈ us, BindsEach [(v, [.iri])] t u := by
  refine (iri_succeeds bound).bind fun start _ => ?_
  refine yields_of_readBound (fun known => iri_succeeds (holds_of_hasBound known fits))
    fun target known => ?_
  refine .pure fun u hu => bindsEach_single ?_
  split at hu
  · exact binds_of_mem_keepIf (known rfl) hu
  · exact binds_of_mem_bindEach (by simp [Value.sort]) hu

theorem sort_of_applied? {s : Substitution} {x y : Value} (h : applied? s x = some y) :
    y.sort ∈ Kind.substitutable := by
  cases x <;> cases h <;> simp [Value.sort, Kind.substitutable]

/-- With its inputs bound to what it reads them as, a relation comes to its end, and whatever it
finds has its outputs bound. Each relation is a reading of its inputs and then one of the few ways
to go on from there. -/
theorem run_yields {r : Relation} (ready : ∀ p ∈ r.inputs, t.Holds p.1 p.2)
    (fits : ∀ p ∈ r.outputs, t.Fits p.1 p.2) :
    (r.run store t).Yields fun us => ∀ u ∈ us, BindsEach r.outputs t u := by
  cases r with
  | template v => exact runTemplate_yields (fits _ (List.mem_singleton_self _))
  | body v is => exact runBody_yields (ready _ (List.mem_singleton_self _))
  | index xs n u =>
      exact runIndex_yields (ready _ (List.mem_singleton_self _)) (fits _ List.mem_cons_self)
  | hasOccurrenceAt u x n =>
      exact runOccurrence_yields (ready _ (List.mem_singleton_self _)) (fits _ List.mem_cons_self)
  | innerTypeAt ty n x =>
      exact runInnerTypeAt_yields (ready _ (List.mem_singleton_self _)) (fits _ List.mem_cons_self)
  | unifiesTerms a b x =>
      exact runUnifiesTerms_yields (ready _ List.mem_cons_self)
        (ready _ (List.mem_cons_of_mem _ List.mem_cons_self)) (fits _ (List.mem_singleton_self _))
  | unifiesBody is js x =>
      exact runUnifiesBody_yields (ready _ List.mem_cons_self)
        (ready _ (List.mem_cons_of_mem _ List.mem_cons_self))
  | dependsTransitive v callee =>
      exact runDependsTransitive_yields (ready _ (List.mem_singleton_self _))
        (fits _ (List.mem_singleton_self _))
  | parameters v ps =>
      exact yields_of_reading (iri_succeeds (ready _ (List.mem_singleton_self _)))
        fun iri _ u => binds_of_mem_bindOrCheck? (by simp [Value.sort])
  | inst is i =>
      exact yields_of_reading (body_succeeds (ready _ (List.mem_singleton_self _)))
        fun is _ u => binds_of_mem_bindEach (by simp [Value.sort])
  | instanceIri i v =>
      exact yields_of_reading (inst_succeeds (ready _ (List.mem_singleton_self _)))
        fun i _ u => binds_of_mem_bindOrCheck (List.mem_singleton_self _)
  | arguments i args =>
      exact yields_of_reading (inst_succeeds (ready _ (List.mem_singleton_self _)))
        fun i _ u => binds_of_mem_bindOrCheck (List.mem_singleton_self _)
  | isDependencyOf callee caller =>
      exact yields_of_reading (iri_succeeds (ready _ (List.mem_singleton_self _)))
        fun iri _ u => binds_of_mem_bindEach (by simp [Value.sort])
  | length xs n =>
      exact yields_of_reading (value_yields (ready _ (List.mem_singleton_self _)))
        fun x _ u => binds_of_mem_bindOrCheck? (by simp [Value.sort])
  | typeOf u ty =>
      exact yields_of_reading (term_succeeds (ready _ (List.mem_singleton_self _)))
        fun a _ u => binds_of_mem_bindOrCheck (List.mem_singleton_self _)
  | innerType ty x =>
      exact yields_of_reading (type_succeeds (ready _ (List.mem_singleton_self _)))
        fun a _ u => binds_of_mem_bindOrCheck? (by simp [Value.sort])
  | listType ty x =>
      exact yields_of_reading (type_succeeds (ready _ (List.mem_singleton_self _)))
        fun a _ u => binds_of_mem_bindOrCheck (List.mem_singleton_self _)
  | unifiesParameters ps qs x =>
      refine (parameters_succeeds (ready _ List.mem_cons_self)).bind fun us _ => ?_
      exact yields_of_reading
        (parameters_succeeds (ready _ (List.mem_cons_of_mem _ List.mem_cons_self)))
        fun vs _ u => binds_of_mem_bindOrCheck? (by simp [Value.sort])
  | unifiesParametersUnordered ps qs x =>
      refine (parameters_succeeds (ready _ List.mem_cons_self)).bind fun us _ => ?_
      exact yields_of_reading
        (parameters_succeeds (ready _ (List.mem_cons_of_mem _ List.mem_cons_self)))
        fun vs _ u => binds_of_mem_bindEach (by simp [Value.sort])
  | merge a b x =>
      refine (substitution_succeeds (ready _ List.mem_cons_self)).bind fun r _ => ?_
      exact yields_of_reading
        (substitution_succeeds (ready _ (List.mem_cons_of_mem _ List.mem_cons_self)))
        fun s _ u => binds_of_mem_bindOrCheck? (by simp [Value.sort])
  | applyUnifier a s x =>
      refine (substitution_succeeds (ready _ List.mem_cons_self)).bind fun s _ => ?_
      exact yields_of_reading (value_yields (ready _ (List.mem_cons_of_mem _ List.mem_cons_self)))
        fun x _ u => binds_of_mem_bindOrCheck? fun y => sort_of_applied?
  | isOptional ps n | isNonBlank ps n | hasDefault ps n =>
      exact (parameters_succeeds (ready _ (List.mem_singleton_self _))).bind fun _ _ =>
        indicesWhere_yields (fits _ (List.mem_singleton_self _))
  | hasListExpander args n =>
      exact (arguments_succeeds (ready _ (List.mem_singleton_self _))).bind fun _ _ =>
        indicesWhere_yields (fits _ (List.mem_singleton_self _))
  | isUndefined v | isSignature v | isBase v =>
      exact yields_of_test (iri_succeeds (ready _ (List.mem_singleton_self _)))
  | hasExpander i | hasCross i | hasZipMin i | hasZipMax i =>
      exact yields_of_test (inst_succeeds (ready _ (List.mem_singleton_self _)))
  | isVariable u | isBlank u | isNotNone u =>
      exact yields_of_test (term_succeeds (ready _ (List.mem_singleton_self _)))
  | isSubtypeOf a b | isCompatibleWith a b =>
      exact (type_succeeds (ready _ List.mem_cons_self)).bind fun _ _ =>
        yields_of_test (type_succeeds (ready _ (List.mem_cons_of_mem _ List.mem_cons_self)))
  | equals a b | notEquals a b | removeSymmetry a b =>
      exact (value_yields (ready _ List.mem_cons_self)).bind fun _ _ =>
        yields_of_test (value_yields (ready _ (List.mem_cons_of_mem _ List.mem_cons_self))).succeeds

end Relation

end RdfTemplates
