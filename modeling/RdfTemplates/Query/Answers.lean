import RdfTemplates.Query.Tuple

/-!
# Answers

The answers to a query are met one after the other, and no further than somebody
asks for them. Where the query reads a variable amiss, the answers up to there
are still answers, and whoever asks for one more meets the violation. All that
can be met are the `tuples` and then the `violation?`, and what an operation does
is said by what it does to these two.
-/

namespace RdfTemplates

/-- The tuples that come up, and what stops them. -/
inductive Answers where
  | done
  | violated (v : Violation)
  | found (t : Tuple) (rest : Unit → Answers)
  /-- No answer yet, but there may be one further on. -/
  | searching (rest : Unit → Answers)

namespace Answers

/-- The tuples before that. -/
def tuples : Answers → List Tuple
  | done => []
  | violated _ => []
  | found t rest => t :: (rest ()).tuples
  | searching rest => (rest ()).tuples

/-- What stopped them, if anything did. -/
def violation? : Answers → Option Violation
  | done => none
  | violated v => some v
  | found _ rest => (rest ()).violation?
  | searching rest => (rest ()).violation?

def ofList : List Tuple → Answers
  | [] => done
  | t :: ts => found t fun _ => ofList ts

@[simp] theorem tuples_ofList (ts : List Tuple) : (ofList ts).tuples = ts := by
  induction ts with
  | nil => rfl
  | cons t ts ih => simp [ofList, tuples, ih]

@[simp] theorem violation?_ofList (ts : List Tuple) : (ofList ts).violation? = none := by
  induction ts with
  | nil => rfl
  | cons t ts ih => simp [ofList, violation?, ih]

/-- The others follow where these are done. -/
def append : Answers → (Unit → Answers) → Answers
  | done, others => searching others
  | violated v, _ => violated v
  | found t rest, others => found t fun _ => (rest ()).append others
  | searching rest, others => searching fun _ => (rest ()).append others

/-- Further tuples come up only if the first ones did not stop. -/
theorem tuples_append (a : Answers) (others : Unit → Answers) :
    (a.append others).tuples =
      a.tuples ++ match a.violation? with
        | some _ => []
        | none => (others ()).tuples := by
  induction a with
  | done => rfl
  | violated v => rfl
  | found t rest ih => simp [append, tuples, violation?, ih]
  | searching rest ih => simp [append, tuples, violation?, ih]

theorem violation?_append (a : Answers) (others : Unit → Answers) :
    (a.append others).violation? = a.violation?.or (others ()).violation? := by
  induction a with
  | done => simp [append, violation?]
  | violated v => simp [append, violation?]
  | found t rest ih => simp [append, violation?, ih]
  | searching rest ih => simp [append, violation?, ih]

/-- The answers for each tuple one after the other, up to the first violation. -/
def bind (f : Tuple → Reading Answers) : Answers → Answers
  | done => done
  | violated v => violated v
  | found t rest => searching fun _ =>
      match f t with
      | .error v => violated v
      | .ok a => a.append fun _ => bind f (rest ())
  | searching rest => searching fun _ => bind f (rest ())

/-- Leaves out the tuples met before, here or earlier on. -/
def distinctFrom (met : List Tuple) : Answers → Answers
  | done => done
  | violated v => violated v
  | found t rest =>
      if met.contains t then searching fun _ => distinctFrom met (rest ())
      else found t fun _ => distinctFrom (t :: met) (rest ())
  | searching rest => searching fun _ => distinctFrom met (rest ())

def distinct (a : Answers) : Answers := a.distinctFrom []

@[simp] theorem violation?_distinctFrom (met : List Tuple) (a : Answers) :
    (a.distinctFrom met).violation? = a.violation? := by
  induction a generalizing met with
  | done => rfl
  | violated v => rfl
  | found t rest ih =>
      simp only [distinctFrom]
      split <;> simp [violation?, ih]
  | searching rest ih => simp [distinctFrom, violation?, ih]

/-- Takes a value through the answers as they are met. -/
def foldM {α : Type} (f : α → Tuple → Reading α) : α → Answers → Reading α
  | a, done => .ok a
  | _, violated v => .error v
  | a, found t rest =>
      match f a t with
      | .error v => .error v
      | .ok b => foldM f b (rest ())
  | a, searching rest => foldM f a (rest ())

/-- All answers, if no violation comes after them. -/
def all (a : Answers) : Reading (List Tuple) :=
  (a.foldM (fun met t => .ok (t :: met)) []).map List.reverse

/-- Puts the next answer and so many more on top of those met, the latest first. -/
def takeOnto (met : List Tuple) : Nat → Answers → Reading (List Tuple)
  | _, done => .ok met
  | _, violated v => .error v
  | 0, found t _ => .ok (t :: met)
  | n + 1, found t rest => takeOnto (t :: met) n (rest ())
  | n, searching rest => takeOnto met n (rest ())

/-- The first answers, as many as asked for; a violation counts if it is in the way. -/
def take (a : Answers) : Nat → Reading (List Tuple)
  | 0 => .ok []
  | n + 1 => (a.takeOnto [] n).map List.reverse

/-- Whether there is no answer. -/
def isEmpty : Answers → Reading Bool
  | done => .ok true
  | violated v => .error v
  | found _ _ => .ok false
  | searching rest => (rest ()).isEmpty

/-- Answers are gone through until they stop. -/
theorem foldM_eq {α : Type} (f : α → Tuple → Reading α) (a : Answers) (x : α) :
    a.foldM f x = (a.tuples.foldlM f x).bind fun y =>
      match a.violation? with
      | some v => .error v
      | none => .ok y := by
  induction a generalizing x with
  | done => rfl
  | violated v => rfl
  | found t rest ih =>
      simp only [foldM, tuples, violation?, List.foldlM_cons]
      cases f x t with
      | error v => rfl
      | ok y => exact ih () y
  | searching rest ih => exact ih () x

theorem all_eq (a : Answers) :
    a.all = match a.violation? with
      | some v => .error v
      | none => .ok a.tuples := by
  have met (ts us : List Tuple) :
      ts.foldlM (fun met t => (.ok (t :: met) : Reading (List Tuple))) us =
        .ok (ts.reverse ++ us) := by
    induction ts generalizing us with
    | nil => rfl
    | cons t ts ih =>
        rw [List.reverse_cons, List.append_assoc]
        exact ih (t :: us)
  simp only [all, foldM_eq, met]
  cases a.violation? with
  | some v => rfl
  | none => simp [Except.bind, Except.map]

theorem takeOnto_eq (a : Answers) (n : Nat) (met : List Tuple) :
    a.takeOnto met n =
      if n < a.tuples.length then .ok ((a.tuples.take (n + 1)).reverse ++ met)
      else match a.violation? with
        | some v => .error v
        | none => .ok (a.tuples.reverse ++ met) := by
  induction a generalizing n met with
  | done => simp [takeOnto, tuples, violation?]
  | violated v => simp [takeOnto, tuples, violation?]
  | found t rest ih =>
      cases n with
      | zero => simp [takeOnto, tuples]
      | succ n => simp [takeOnto, tuples, violation?, ih]
  | searching rest ih => cases n <;> exact ih () _ met

theorem take_eq (a : Answers) (n : Nat) :
    a.take n =
      if n ≤ a.tuples.length then .ok (a.tuples.take n)
      else match a.violation? with
        | some v => .error v
        | none => .ok a.tuples := by
  cases n with
  | zero => simp [take]
  | succ n =>
      simp only [take, takeOnto_eq, Nat.add_one_le_iff]
      split
      · simp [Except.map]
      · cases a.violation? with
        | some v => rfl
        | none => simp [Except.map]

theorem isEmpty_eq (a : Answers) :
    a.isEmpty = match a.tuples, a.violation? with
      | _ :: _, _ => .ok false
      | [], some v => .error v
      | [], none => .ok true := by
  induction a with
  | done => rfl
  | violated v => rfl
  | found t rest ih => rfl
  | searching rest ih => exact ih ()

end Answers

end RdfTemplates
