import Mathlib.Data.List.Basic

/-! # The bounded queue of messages waiting to be sent

  `RingBuffer` of `libcon/src/ring_buffer.hpp`, over the part of
  `boost::circular_buffer` that it uses.

  Popping never removes an element: it lowers `m_unread` and reads one
  position further to the front. The container therefore fills up with
  messages that have been read already, and a push on a full container
  overwrites the one at its back. What is still to be read are the first
  `m_unread` elements, the oldest of them last (`RingBuffer.unread`).
-/

namespace DeviceTester

/-! ### `boost::circular_buffer` -/

/-- A circular buffer as a list, its front first. -/
structure CircularBuffer (α : Type) where
  capacity : Nat
  elems : List α
  bounded : elems.length ≤ capacity
  deriving DecidableEq, Repr

namespace CircularBuffer

variable {α : Type}

def new (capacity : Nat) : CircularBuffer α := ⟨capacity, [], Nat.zero_le _⟩

/-- Insert at the front. On a full buffer the back element is overwritten. -/
def push_front (c : CircularBuffer α) (item : α) : CircularBuffer α where
  capacity := c.capacity
  elems := (item :: c.elems).take c.capacity
  bounded := List.length_take_le _ _

end CircularBuffer

/-! ### `RingBuffer` -/

structure RingBuffer (α : Type) where
  m_unread : Nat
  m_container : CircularBuffer α
  deriving DecidableEq, Repr

/-- What a call of `pop_back` comes to: the caller waits on `m_not_empty`, or
    `m_container[--m_unread]` is read outside the container, or an item is
    returned. -/
inductive Popped (α : Type) where
  | waits
  | outOfRange
  | item (x : α) (q : RingBuffer α)

namespace RingBuffer

variable {α : Type}

def new (capacity : Nat) : RingBuffer α where
  m_unread := 0
  m_container := .new capacity

def is_not_empty (q : RingBuffer α) : Bool := decide (q.m_unread > 0)

def is_not_full (q : RingBuffer α) : Bool := decide (q.m_unread < q.m_container.capacity)

/-- `none` when the caller waits on `m_not_full`. -/
def push_front (q : RingBuffer α) (item : α) : Option (RingBuffer α) :=
  if q.is_not_full then
    some { m_unread := q.m_unread + 1, m_container := q.m_container.push_front item }
  else
    none

def pop_back (q : RingBuffer α) : Popped α :=
  if q.is_not_empty then
    match q.m_container.elems[q.m_unread - 1]? with
    | some x => .item x { q with m_unread := q.m_unread - 1 }
    | none => .outOfRange
  else
    .waits

/-- The items pushed and not yet popped, oldest first. -/
def unread (q : RingBuffer α) : List α := (q.m_container.elems.take q.m_unread).reverse

/-- `m_unread` counts stored elements. -/
def WF (q : RingBuffer α) : Prop := q.m_unread ≤ q.m_container.elems.length

/-! ### Specification of the two operations -/

theorem WF.le_capacity {q : RingBuffer α} (h : q.WF) : q.m_unread ≤ q.m_container.capacity :=
  Nat.le_trans h q.m_container.bounded

theorem WF.length_unread {q : RingBuffer α} (h : q.WF) : q.unread.length = q.m_unread := by
  have h' : q.m_unread ≤ q.m_container.elems.length := h
  simp [unread, h']

@[simp] theorem new_wf (capacity : Nat) : (new capacity : RingBuffer α).WF := Nat.zero_le _

theorem WF.is_not_empty_iff {q : RingBuffer α} (h : q.WF) :
    q.is_not_empty = true ↔ q.unread ≠ [] := by
  rw [← List.length_pos_iff, h.length_unread]
  simp [is_not_empty]

/-- A push waits exactly while the buffer is full. -/
theorem push_front_eq_none {q : RingBuffer α} {x : α} :
    q.push_front x = none ↔ q.is_not_full = false := by
  simp [RingBuffer.push_front]

/-- A push that goes through takes one place. -/
theorem is_not_full_of_push_front {q q' : RingBuffer α} {x : α} (hpush : q.push_front x = some q') :
    q.is_not_full = true ∧
      q'.is_not_full = decide (q.m_unread + 1 < q.m_container.capacity) := by
  unfold RingBuffer.push_front at hpush
  split at hpush
  · next hroom =>
    obtain rfl := Option.some.inj hpush
    exact ⟨hroom, rfl⟩
  · cases hpush

/-- A push appends to what is unread, whatever it overwrites at the back. -/
theorem WF.push_front {q q' : RingBuffer α} {x : α} (h : q.WF)
    (hpush : q.push_front x = some q') :
    q'.WF ∧ q'.unread = q.unread ++ [x] ∧
      q'.m_container.capacity = q.m_container.capacity := by
  unfold RingBuffer.push_front at hpush
  split at hpush
  · next hfull =>
    have hlt : q.m_unread < q.m_container.capacity := by simpa [is_not_full] using hfull
    have h' : q.m_unread ≤ q.m_container.elems.length := h
    obtain rfl := Option.some.inj hpush
    refine ⟨?_, ?_, rfl⟩
    · simp only [WF, CircularBuffer.push_front, List.length_take, List.length_cons]
      omega
    · -- the element that is overwritten lies behind the first `m_unread + 1`
      simp only [unread, CircularBuffer.push_front, List.take_take]
      rw [Nat.min_eq_left (by omega), List.take_succ_cons, List.reverse_cons]
  · cases hpush

/-- A pop never removes an element. -/
theorem popped_container {q q' : RingBuffer α} {x : α} (hpop : q.pop_back = .item x q') :
    q'.m_container = q.m_container := by
  unfold RingBuffer.pop_back at hpop
  split at hpop
  · split at hpop
    · cases hpop
      rfl
    · cases hpop
  · cases hpop

/-- A pop returns the oldest unread item and leaves the rest. -/
theorem WF.pop_back {q : RingBuffer α} {x : α} {xs : List α} (h : q.WF)
    (hunread : q.unread = x :: xs) :
    ∃ q', q.pop_back = .item x q' ∧ q'.WF ∧ q'.unread = xs ∧
      q'.m_container.capacity = q.m_container.capacity := by
  have hlen : q.m_unread = xs.length + 1 := by rw [← h.length_unread, hunread, List.length_cons]
  have h' : q.m_unread ≤ q.m_container.elems.length := h
  have hidx : xs.length < q.m_container.elems.length := by omega
  -- the oldest unread item is the one at `m_unread - 1`
  have hsplit : q.unread =
      q.m_container.elems[xs.length] :: (q.m_container.elems.take xs.length).reverse := by
    unfold unread
    rw [hlen, List.take_succ_eq_append_getElem hidx, List.reverse_append]
    rfl
  rw [hunread, List.cons.injEq] at hsplit
  obtain ⟨rfl, hxs⟩ := hsplit
  refine ⟨{ q with m_unread := xs.length }, ?_, ?_, hxs.symm, rfl⟩
  · have hne : q.is_not_empty = true := by simp [is_not_empty, hlen]
    simp only [RingBuffer.pop_back, hne, if_true, hlen, Nat.add_sub_cancel,
      List.getElem?_eq_getElem hidx]
  · simp only [WF]
    omega

end RingBuffer

end DeviceTester
