import DeviceTester.Framework.Run

/-! # The bounded first-in first-out queue

  The specification of a queue of at most `capacity` items: a push appends an
  item while there is room, a pop takes the oldest one. A label that is not
  enabled is a caller who has to wait.

  An implementation is compared with it state by state (`Implements`). Then
  what it has handed out, followed by what it holds, is what it has been given
  (`conservation_of_implements`).
-/

namespace Fifo

open LTS

universe u v w

variable {α : Type w}

/-- The two operations. -/
inductive Op (α : Type w) where
  | push (item : α)
  | pop

/-- The queue, the oldest item first. -/
def next (capacity : Nat) (queue : List α) : Op α → Option (List α)
  | .push item => if queue.length < capacity then some (queue ++ [item]) else none
  | .pop =>
      match queue with
      | [] => none
      | _ :: rest => some rest

/-- What an operation adds. -/
def offered : Op α → List α
  | .push item => [item]
  | .pop => []

/-- What an operation takes. -/
def served (queue : List α) : Op α → List α
  | .push _ => []
  | .pop => queue.take 1

/-- What is taken comes off the front, what is added goes to the back. -/
theorem balance {capacity : Nat} {queue queue' : List α} {op : Op α}
    (h : next capacity queue op = some queue') :
    served queue op ++ queue' = queue ++ offered op := by
  cases op with
  | push item =>
    obtain ⟨_, heq⟩ := Option.ite_none_right_eq_some.mp h
    exact (Option.some.inj heq).symm
  | pop =>
    cases queue with
    | nil => cases h
    | cons item rest =>
      obtain rfl := Option.some.inj h
      exact (List.append_nil _).symm

/-! ### Implementations -/

variable {State : Type u} {Label : Type v}

/-- In the state `s` an implementation does what the queue it stands for does:
    the label `l` is enabled when the operation `op l` is, leads to what that
    operation leads to, and hands out what it takes. -/
def Implements (sys : System State Label) (capacity : Nat) (abs : State → List α)
    (op : Label → Op α) (out : State → Label → List α) (s : State) : Prop :=
  ∀ l, (sys.next s l).map abs = next capacity (abs s) (op l) ∧ out s l = served (abs s) (op l)

/-- **Conservation**: an implementation hands out what it has been given, in the
    same order. -/
theorem conservation_of_implements {sys : System State Label} {capacity : Nat}
    {abs : State → List α} {op : Label → Op α} {out : State → Label → List α} {I : State → Prop}
    (hinit : ∀ s, sys.init s → I s ∧ abs s = [])
    (hstep : ∀ s l s', I s → sys.next s l = some s' → I s')
    (himpl : ∀ s, I s → Implements sys capacity abs op out s)
    {s : State} (r : Run sys s) :
    r.collect out ++ abs s = r.collect fun _ l => offered (op l) := by
  refine r.conservation hinit hstep (fun s l s' hI hn => ?_)
  obtain ⟨hnext, hout⟩ := himpl s hI l
  rw [hn, Option.map_some] at hnext
  rw [hout]
  exact balance hnext.symm

end Fifo
