import DeviceTester.Framework.Monitors
import DeviceTester.RingBufferQueue

/-! # The threads at the ring buffer

  `push_front` and `pop_back` as `ring_buffer.hpp` has them: a caller takes
  `m_mutex`, waits on `m_not_full` or `m_not_empty` until its guard holds, changes
  the buffer, gives the mutex back, and notifies one of those that wait on the other
  one. In the model of the queue a call is one step, and here it is shown to be as
  good as one.

  No notification is lost although it is given after the mutex, and although each
  call notifies one thread at most: when nobody has anything left to do, those that
  still wait are pushes on a full buffer or pops on an empty one
  (`concurrent_calls`).
-/

namespace DeviceTester

open LTS Monitors

namespace RingBuffer

inductive Cond where
  | m_not_full
  | m_not_empty
  deriving DecidableEq, Repr

def monitor (α : Type) (capacity : Nat) : Monitor (system α capacity) Nat Cond where
  caller := fun c =>
    match c with
    | .push_front producer _ => producer
    | .pop_back consumer => consumer
  waitsOn := fun c =>
    match c with
    | .push_front _ _ => .m_not_full
    | .pop_back _ => .m_not_empty
  notifies := fun c =>
    match c with
    | .push_front _ _ => .m_not_empty
    | .pop_back _ => .m_not_full

variable {α : Type} {capacity : Nat}

/-- What the calls that the step does return, and what they push. -/
def returns (capacity : Nat) (s : State (RingBuffer α) (Call α)) (l : Label (Call α)) : List α :=
  (Monitor.done (system α capacity) s l).flatMap (popped s.data)

def pushes (capacity : Nat) (s : State (RingBuffer α) (Call α)) (l : Label (Call α)) : List α :=
  (Monitor.done (system α capacity) s l).flatMap (pushed s.data)

/-- Whoever is still in a call waits, for room or for an item. -/
structure Settled (s : State (RingBuffer α) (Call α)) : Prop where
  calls : s.calls = s.asleep
  full : ∀ producer item, .push_front producer item ∈ s.asleep → s.data.is_not_full = false
  empty : ∀ consumer, .pop_back consumer ∈ s.asleep → s.data.is_not_empty = false

/-! ### The room in the buffer -/

/-- How many of the calls that wait on it can go through. -/
def room (capacity : Nat) (q : RingBuffer α) : Cond → Nat
  | .m_not_full => capacity - q.unread.length
  | .m_not_empty => q.unread.length

theorem Sized.isSome_next {q : RingBuffer α} (h : Sized capacity q) (c : Call α) :
    (q.next c).isSome = true ↔ 0 < room capacity q ((monitor α capacity).waitsOn c) := by
  have himpl : (q.next c).map unread = Fifo.next capacity q.unread c.op := (h.implements c).1
  rw [← Option.isSome_map, himpl]
  cases c with
  | push_front producer item =>
    show (if q.unread.length < capacity then some _ else none).isSome = true ↔
      0 < capacity - q.unread.length
    split
    · simp; omega
    · simp; omega
  | pop_back consumer =>
    show (Fifo.next capacity q.unread .pop).isSome = true ↔ 0 < q.unread.length
    cases q.unread with
    | nil => simp [Fifo.next]
    | cons x xs => simp [Fifo.next]

theorem Sized.room_next {q q' : RingBuffer α} (h : Sized capacity q) {c : Call α}
    (hn : q.next c = some q') (cond : Cond) :
    room capacity q' cond + (if (monitor α capacity).waitsOn c = cond then 1 else 0) ≤
      room capacity q cond + if (monitor α capacity).notifies c = cond then 1 else 0 := by
  have himpl : (q.next c).map unread = Fifo.next capacity q.unread c.op := (h.implements c).1
  have hroom := (h.isSome_next c).mp (by rw [hn]; rfl)
  rw [hn, Option.map_some] at himpl
  have hlen := congrArg List.length (Fifo.balance himpl.symm)
  cases c with
  | push_front producer item =>
    simp only [Fifo.served, Fifo.offered, Call.op, List.nil_append, List.length_append,
      List.length_singleton] at hlen
    have hfree : 0 < capacity - q.unread.length := hroom
    cases cond with
    | m_not_full =>
      show capacity - q'.unread.length + 1 ≤ capacity - q.unread.length + 0
      omega
    | m_not_empty =>
      show q'.unread.length + 0 ≤ q.unread.length + 1
      omega
  | pop_back consumer =>
    simp only [Fifo.served, Fifo.offered, Call.op, List.append_nil, List.length_append,
      List.length_take] at hlen
    have hitem : 0 < q.unread.length := hroom
    cases cond with
    | m_not_full =>
      show capacity - q'.unread.length + 0 ≤ capacity - q.unread.length + 1
      omega
    | m_not_empty =>
      show q'.unread.length + 1 ≤ q.unread.length + 0
      omega

theorem counts (α : Type) (capacity : Nat) :
    (monitor α capacity).Counts (Sized capacity) (room capacity) where
  init := by
    intro q hq
    obtain rfl := hq
    exact .new capacity
  next := fun q c q' h hn => h.next hn
  enabled := fun q c h => h.isSome_next c
  change := fun q c q' cond h hn => h.room_next hn cond

/-! ### Every run -/

theorem Sized.settled {s : State (RingBuffer α) (Call α)} (h : Sized capacity s.data)
    (hs : Monitor.Settled (system α capacity) s) : Settled s where
  calls := by
    simp [State.calls, State.pending, hs.entering, hs.inside, hs.leaving]
  full := by
    intro producer item hc
    exact push_front_eq_none.mp (hs.asleep _ hc)
  empty := by
    intro consumer hc
    have hnone : s.data.next (.pop_back consumer) = none := hs.asleep _ hc
    have hzero : ¬0 < s.data.unread.length := by
      intro hpos
      have hsome := (h.isSome_next (.pop_back consumer)).mpr hpos
      rw [hnone] at hsome
      cases hsome
    rw [← Bool.not_eq_true, h.wf.is_not_empty_iff]
    simpa using hzero

theorem queue_conserves {q : RingBuffer α} (r : Run (system α capacity) q) :
    r.collect popped ++ q.unread = r.collect pushed := by
  refine Fifo.conservation_of_implements (I := Sized capacity) ?_ ?_ (fun q h => h.implements) r
  · intro q hq
    obtain rfl := hq
    exact ⟨.new capacity, rfl⟩
  · exact fun q c q' h hn => h.next hn

/-- **Any number of threads may push and pop**: each call is done once, what is
    returned, followed by what is unread, is what is pushed, and no pop reads outside
    the container. From every state, whoever is scheduled, soon nobody is left in a
    call but those that wait for room in a full buffer or for an item in an empty
    one. -/
theorem concurrent_calls {s : State (RingBuffer α) (Call α)}
    (r : Run (monitor α capacity).system s) :
    (r.collect fun _ l => Monitor.called l).Perm
      (r.collect (Monitor.done (system α capacity)) ++ s.pending) ∧
    r.collect (returns capacity) ++ s.data.unread = r.collect (pushes capacity) ∧
    IndexInRange s.data ∧
    ∀ ls s', (∀ l ∈ ls, l.working = true) → (monitor α capacity).system.exec s ls = some s' →
      ls.length + s'.rank ≤ s.rank ∧
      ((∀ l : Label (Call α), l.working = true → (monitor α capacity).system.next s' l = none) →
        Settled s') := by
  have hM := counts α capacity
  refine ⟨Monitor.called_perm r, ?_, (Monitor.sound hM r).inv.indexInRange, ?_⟩
  · have hfifo := queue_conserves ((monitor α capacity).refines.run r)
    rw [Monitor.collect_refines, Monitor.collect_refines] at hfifo
    exact hfifo
  · intro ls s' hls hexec
    obtain ⟨hlen, hsettled⟩ := Monitor.settles hM r hls hexec
    have hsized := (Monitor.sound hM (r.extend ls hexec)).inv
    exact ⟨hlen, fun hnone => hsized.settled (hsettled hnone)⟩

/-- A push waits for room in a buffer of one place, and is let in by a pop. -/
theorem concurrent_calls_settle :
    ∃ (s : State (RingBuffer Nat) (Call Nat)) (_r : Run (monitor Nat 1).system s)
      (s' : State (RingBuffer Nat) (Call Nat)),
      s.asleep.length = 1 ∧ s'.calls.length = 0 ∧ s'.data.unread = [8] ∧ Settled s' := by
  obtain ⟨s, r, _, hs⟩ := Run.exists_of_check (monitor Nat 1).system
    (s := ⟨RingBuffer.new 1, [], none, [], []⟩) ⟨rfl, rfl⟩
    [.call (.push_front 0 7), .lock 0, .perform, .notify 0 none, .call (.push_front 1 8), .lock 0,
      .perform, .call (.pop_back 2), .lock 0, .perform]
    (fun _ _ => true)
    (fun s => decide (s.asleep.length = 1) &&
      ((monitor Nat 1).system.exec s [.notify 0 (some 0), .lock 0, .perform, .notify 0 none]).any
        fun s' : State (RingBuffer Nat) (Call Nat) =>
          decide (s'.calls.length = 0) && decide (s'.data.unread = [8]))
    (by decide)
  obtain ⟨hasleep, hexec⟩ := Bool.and_eq_true_iff.mp hs
  obtain ⟨s', hexec, hs'⟩ := (Option.any_eq_true _ _).mp hexec
  obtain ⟨hcalls, hunread⟩ := Bool.and_eq_true_iff.mp hs'
  have hnone := of_decide_eq_true hcalls
  refine ⟨s, r, s', of_decide_eq_true hasleep, hnone, of_decide_eq_true hunread, ?_⟩
  apply ((concurrent_calls r).2.2.2 _ s' (by simp [Label.working]) hexec).2
  -- nobody is there any more who could do anything
  obtain ⟨hentering, hinside, _, hleaving⟩ :
      s'.entering = [] ∧ s'.inside = none ∧ s'.asleep = [] ∧ s'.leaving = [] := by
    simpa [State.calls, State.pending] using List.eq_nil_of_length_eq_zero hnone
  intro l hl
  cases l with
  | lock i => simp [Monitor.system, Monitor.next, hentering]
  | perform => simp [Monitor.system, Monitor.next, hinside]
  | notify i woken => simp [Monitor.system, Monitor.next, hleaving]
  | _ => cases hl

end RingBuffer

end DeviceTester
