import DeviceTester.Framework.Fifo
import DeviceTester.RingBuffer

/-! # The ring buffer as a queue

  Any number of producers call `push_front`, any number of consumers call
  `pop_back`. A call is one step once its guard holds: `m_mutex` is held from
  the test of the guard to the end of the update, and a caller whose guard does
  not hold waits.

  The buffer stands for the queue of its unread elements, and does what the
  bounded queue of `Framework.Fifo` does (`refines_fifo`).
-/

namespace DeviceTester

open LTS

namespace RingBuffer

variable {α : Type}

/-! ### The buffer as a system -/

/-- The calls that go through, each with the number of the thread that makes
    it. -/
inductive Call (α : Type) where
  | push_front (producer : Nat) (item : α)
  | pop_back (consumer : Nat)

/-- The operation of the queue that a call is. -/
def Call.op : Call α → Fifo.Op α
  | .push_front _ item => .push item
  | .pop_back _ => .pop

def next (q : RingBuffer α) : Call α → Option (RingBuffer α)
  | .push_front _ item => q.push_front item
  | .pop_back _ =>
      match q.pop_back with
      | .item _ q' => some q'
      -- the caller waits; and see `IndexInRange` for the other one
      | .waits | .outOfRange => none

def system (α : Type) (capacity : Nat) : System (RingBuffer α) (Call α) where
  init := fun q => q = RingBuffer.new capacity
  next := RingBuffer.next

/-- The items a call pushes. -/
def pushed (_ : RingBuffer α) (c : Call α) : List α := Fifo.offered c.op

/-- The items a call returns. -/
def popped (q : RingBuffer α) : Call α → List α
  | .push_front _ _ => []
  | .pop_back _ =>
      match q.pop_back with
      | .item x _ => [x]
      | .waits | .outOfRange => []

/-! ### The properties -/

/-- **(B)** The counter is bounded by what is stored and by the capacity. -/
def CounterBounded (capacity : Nat) (q : RingBuffer α) : Prop :=
  q.m_unread ≤ q.m_container.elems.length ∧ q.m_unread ≤ capacity

/-- **(X)** A pop whose guard holds reads inside the container. -/
def IndexInRange (q : RingBuffer α) : Prop :=
  q.is_not_empty = true → q.m_unread - 1 < q.m_container.elems.length

/-- **(K)** Every unread element is kept: a push moves it one place to the back,
    a pop leaves the container as it is. -/
def KeepsUnread (q : RingBuffer α) (c : Call α) (q' : RingBuffer α) : Prop :=
  match c with
  | .push_front _ _ =>
      ∀ i < q.m_unread, q'.m_container.elems[i + 1]? = q.m_container.elems[i]?
  | .pop_back _ => q'.m_container = q.m_container

/-! ### The invariant -/

/-- Of a buffer made with `capacity`. -/
structure Sized (capacity : Nat) (q : RingBuffer α) : Prop where
  wf : q.WF
  capacity_eq : q.m_container.capacity = capacity

theorem Sized.new (capacity : Nat) : Sized capacity (RingBuffer.new capacity : RingBuffer α) :=
  ⟨new_wf capacity, rfl⟩

theorem Sized.counterBounded {capacity : Nat} {q : RingBuffer α} (h : Sized capacity q) :
    CounterBounded capacity q :=
  ⟨h.wf, h.capacity_eq ▸ h.wf.le_capacity⟩

theorem Sized.indexInRange {capacity : Nat} {q : RingBuffer α} (h : Sized capacity q) :
    IndexInRange q := by
  intro hne
  have hpos : 0 < q.m_unread := by simpa [is_not_empty] using hne
  have hle : q.m_unread ≤ q.m_container.elems.length := h.wf
  omega

/-! ### One call -/

/-- Behind the element that is pushed the container begins as before. -/
theorem keepsUnread_push {q q' : RingBuffer α} {producer : Nat} {x : α}
    (hpush : q.push_front x = some q') : KeepsUnread q (.push_front producer x) q' := by
  obtain ⟨hroom, heq⟩ := Option.ite_none_right_eq_some.mp hpush
  have hlt : q.m_unread < q.m_container.capacity := by simpa [is_not_full] using hroom
  obtain rfl := Option.some.inj heq
  intro i hi
  show ((x :: q.m_container.elems).take q.m_container.capacity)[i + 1]? = _
  -- what is cut off lies behind the unread elements
  rw [List.getElem?_take, if_pos (by omega), List.getElem?_cons_succ]

/-- A pop that goes through has found an item. -/
theorem pop_back_of_next {q q' : RingBuffer α} {consumer : Nat}
    (hn : q.next (.pop_back consumer) = some q') : ∃ x, q.pop_back = .item x q' := by
  simp only [next] at hn
  split at hn
  · next x t hpop => exact ⟨x, Option.some.inj hn ▸ hpop⟩
  · cases hn
  · cases hn

theorem keepsUnread_next {q q' : RingBuffer α} {c : Call α} (hn : q.next c = some q') :
    KeepsUnread q c q' := by
  cases c with
  | push_front producer x => exact keepsUnread_push hn
  | pop_back consumer =>
    obtain ⟨x, hpop⟩ := pop_back_of_next hn
    exact popped_container hpop

/-- A push waits exactly while the queue is full, and appends otherwise. -/
theorem Sized.push_front {capacity : Nat} {q : RingBuffer α} (h : Sized capacity q) (x : α) :
    (q.push_front x).map unread = Fifo.next capacity q.unread (.push x) := by
  simp only [Fifo.next, h.wf.length_unread, ← h.capacity_eq]
  cases hpush : q.push_front x with
  | none =>
    have hfull := push_front_eq_none.mp hpush
    rw [if_neg (by simpa [is_not_full] using hfull), Option.map_none]
  | some q' =>
    have hroom := (is_not_full_of_push_front hpush).1
    rw [if_pos (by simpa [is_not_full] using hroom), Option.map_some,
      (h.wf.push_front hpush).2.1]

/-- A pop waits exactly while nothing is unread, and takes the oldest item
    otherwise. -/
theorem Sized.pop_back {capacity : Nat} {q : RingBuffer α} (h : Sized capacity q) (consumer : Nat) :
    (q.next (.pop_back consumer)).map unread = Fifo.next capacity q.unread .pop ∧
      popped q (.pop_back consumer) = q.unread.take 1 := by
  cases hunread : q.unread with
  | nil =>
    have hempty : q.is_not_empty = false := by
      rw [← Bool.not_eq_true, h.wf.is_not_empty_iff]
      simp [hunread]
    have hwaits : q.pop_back = .waits := by simp [RingBuffer.pop_back, hempty]
    simp [next, popped, hwaits, Fifo.next]
  | cons x xs =>
    obtain ⟨t, hpop, _, hrest, _⟩ := h.wf.pop_back hunread
    simp [next, popped, hpop, hrest, Fifo.next]

theorem Sized.implements {capacity : Nat} {q : RingBuffer α} (h : Sized capacity q) :
    Fifo.Implements (system α capacity) capacity unread Call.op popped q := by
  intro c
  cases c with
  | push_front producer x => exact ⟨h.push_front x, rfl⟩
  | pop_back consumer => exact h.pop_back consumer

/-- Every call keeps the invariant. -/
theorem Sized.next {capacity : Nat} {q q' : RingBuffer α} (h : Sized capacity q) {c : Call α}
    (hn : q.next c = some q') : Sized capacity q' := by
  cases c with
  | push_front producer x =>
    obtain ⟨hwf, _, hcap⟩ := h.wf.push_front hn
    exact ⟨hwf, hcap.trans h.capacity_eq⟩
  | pop_back consumer =>
    obtain ⟨x, hpop⟩ := pop_back_of_next hn
    -- something is unread, or the pop would have waited
    cases hunread : q.unread with
    | nil =>
      have himpl := (h.pop_back consumer).1
      rw [hn, hunread] at himpl
      cases himpl
    | cons y ys =>
      obtain ⟨t, hpop', hwf, _, hcap⟩ := h.wf.pop_back hunread
      rw [hpop] at hpop'
      cases hpop'
      exact ⟨hwf, hcap.trans h.capacity_eq⟩

/-! ### Every run -/

/-- **The buffer is a bounded first-in first-out queue**, for every capacity and
    whoever calls: the counter is bounded, no pop reads outside the container,
    every call does what the queue does, no unread element is overwritten, and
    what has been popped, followed by the first `m_unread` elements in reverse,
    is what has been pushed. -/
theorem refines_fifo {capacity : Nat} {q : RingBuffer α} (r : Run (system α capacity) q) :
    (r.Throughout fun q => CounterBounded capacity q ∧ IndexInRange q ∧
      Fifo.Implements (system α capacity) capacity unread Call.op popped q) ∧
    r.Ensures KeepsUnread ∧
    r.collect popped ++ (q.m_container.elems.take q.m_unread).reverse = r.collect pushed := by
  have hinit : ∀ q, (system α capacity).init q → Sized capacity q ∧ q.unread = [] := by
    rintro q rfl
    exact ⟨Sized.new capacity, rfl⟩
  have hstep : ∀ q c q', Sized capacity q → (system α capacity).next q c = some q' →
      Sized capacity q' := fun q c q' h hn => h.next hn
  refine ⟨?_, ?_, ?_⟩
  · exact (r.always (fun q hq => (hinit q hq).1) hstep).mono
      fun q h => ⟨h.counterBounded, h.indexInRange, h.implements⟩
  · exact r.ensures (fun q hq => (hinit q hq).1) hstep fun q c q' _ hn => keepsUnread_next hn
  · exact Fifo.conservation_of_implements hinit hstep (fun q h => h.implements) r

end RingBuffer

end DeviceTester
