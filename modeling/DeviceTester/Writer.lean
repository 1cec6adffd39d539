import DeviceTester.Asio
import DeviceTester.Framework.Run
import DeviceTester.RingBuffer

/-! # The write pump

  `Writer` (`libcon/src/writer.cpp`) queues what is to be sent, and each of
  the four connection classes built on it has its own copy of `startWrite`,
  which hands one message at a time to the transport. The copies differ in
  what `doWrite` tests, and in whether `startWrite` is called or posted on the
  strand:

  * `Serial`           tests `should_run_` and posts,
  * `TcpClient`        tests `should_run_` and calls,
  * `UdpConnection`    tests `should_run_` and calls,
  * `TcpServerClient`  tests `write_in_progress_` and calls.

  `Pump` is the write side of one connection object: its `Writer` members, the
  flag, and the sends the transport has not completed.
-/

namespace DeviceTester

open Async LTS

abbrev Bytes := List UInt8

/-! ### State -/

structure Pump where
  tx_queue : RingBuffer Bytes
  tx_current : Bytes
  write_in_progress : Bool
  /-- `should_run_`, which `TcpServerClient` does not test. -/
  should_run : Bool
  /-- Whether the socket or serial port the sends go through is open. -/
  is_open : Bool
  /-- The sends whose completion handler has not run. -/
  sends : Operations Bytes (Except ErrorCode Nat)
  /-- The posted calls of `startWrite` that have not run. -/
  posted : Nat

/-- A connection object as it is constructed. -/
def Pump.new (should_run is_open : Bool) : Pump where
  tx_queue := .new 100
  tx_current := []
  write_in_progress := false
  should_run := should_run
  is_open := is_open
  sends := []
  posted := 0

namespace Pump

/-- The messages still in `tx_queue_`, oldest first. -/
abbrev unread (p : Pump) : List Bytes := p.tx_queue.unread

/-! ### `startWrite` and its completion lambda -/

/-- `async_send`, `async_send_to` or `async_write_some` of one buffer: on a
    closed transport the operation fails at once. -/
def send (p : Pump) (buffer : Bytes) : Pump :=
  { p with
    sends := if p.is_open then p.sends.start buffer
      else p.sends.startDone buffer (.error .bad_descriptor) }

def startWrite (p : Pump) : Pump :=
  if p.write_in_progress then p
  else if p.tx_current.length == 0 && p.tx_queue.is_not_empty then
    match p.tx_queue.pop_back with
    | .item d q => send { p with tx_queue := q, tx_current := d, write_in_progress := true } d
    -- excluded by the test of `is_not_empty`, see `RingBuffer.WF.pop_back`
    | .waits | .outOfRange => p
  else p

/-- The section of `startWrite` under `write_lock_`. -/
def lockedStart (p : Pump) : Pump :=
  if p.tx_current.length == 0 && p.tx_queue.is_not_empty then
    match p.tx_queue.pop_back with
    | .item d q => send { p with tx_queue := q, tx_current := d, write_in_progress := true } d
    | .waits | .outOfRange => p
  else p

theorem startWrite_eq (p : Pump) :
    p.startWrite = if p.write_in_progress then p else p.lockedStart := rfl

/-- The three-way choice of the completion lambda, after `written` bytes. -/
def advance (p : Pump) (written : Nat) : Pump :=
  if p.tx_current.length > written then
    { p with tx_current := p.tx_current.drop written }
  else if p.tx_queue.is_not_empty then
    match p.tx_queue.pop_back with
    | .item d q => { p with tx_queue := q, tx_current := d }
    | .waits | .outOfRange => p
  else
    { p with tx_current := [] }

/-- `asio::post(strand_, startWrite)`. -/
def post (p : Pump) : Pump := { p with posted := p.posted + 1 }

end Pump

/-! ### The four classes -/

def Serial.doWrite (p : Pump) : Pump := if p.should_run then p.post else p

def TcpClient.doWrite (p : Pump) : Pump := if p.should_run then p.startWrite else p

def UdpConnection.doWrite (p : Pump) : Pump := if p.should_run then p.startWrite else p

def TcpServerClient.doWrite (p : Pump) : Pump := if p.write_in_progress then p else p.startWrite

/-- The classes built on `Writer`. -/
inductive PumpKind where
  | serial
  | tcpClient
  | udpConnection
  | tcpServerClient
  deriving DecidableEq, Repr

namespace PumpKind

def doWrite : PumpKind → Pump → Pump
  | serial => Serial.doWrite
  | tcpClient => TcpClient.doWrite
  | udpConnection => UdpConnection.doWrite
  | tcpServerClient => TcpServerClient.doWrite

/-- The last statement of the completion lambda: `Serial` posts `startWrite`,
    the other classes call it. -/
def restart : PumpKind → Pump → Pump
  | serial => Pump.post
  | _ => Pump.startWrite

/-- The completion lambda of a send. Nothing at all is done when the send has
    failed. -/
def onSent (k : PumpKind) (p : Pump) : Except ErrorCode Nat → Pump
  | .ok written => k.restart { p.advance written with write_in_progress := false }
  | .error _ => p

end PumpKind

/-! ### The pump as a system -/

inductive PumpLabel where
  /-- `Writer::write`. -/
  | write (d : Bytes)
  /-- The strand runs a posted `startWrite`. -/
  | runPosted
  /-- The transport finishes the `i`-th send. -/
  | finish (i : Nat) (r : Except ErrorCode Nat)
  /-- The completion handler of the `i`-th send is run. -/
  | deliver (i : Nat)
  | setShouldRun (b : Bool)
  /-- The transport is opened, closed, or its operations are cancelled. -/
  | openTransport
  | closeTransport
  | cancelTransport

/-- What a send may be reported to have done: no more than the buffer is
    written, and only a cancelled operation is reported as aborted. -/
def admissible (buffer : Bytes) (r : Except ErrorCode Nat) : Bool :=
  reportable r &&
    match r with
    | .ok written => decide (written ≤ buffer.length)
    | .error _ => true

def Pump.next (k : PumpKind) (p : Pump) : PumpLabel → Option Pump
  | .write d =>
      -- `none`: the caller waits in `push_front`
      (p.tx_queue.push_front d).map fun q => k.doWrite { p with tx_queue := q }
  | .runPosted =>
      if p.posted > 0 then some (Pump.startWrite { p with posted := p.posted - 1 }) else none
  | .finish i r =>
      (p.sends.inProgress i).bind fun b =>
        if admissible b r then some { p with sends := p.sends.finish i b r } else none
  | .deliver i =>
      (p.sends.finished i).map fun x => k.onSent { p with sends := p.sends.remove i } x.2
  | .setShouldRun b => some { p with should_run := b }
  | .openTransport => some { p with is_open := true }
  | .closeTransport =>
      some { p with is_open := false, sends := cancelAll p.sends }
  | .cancelTransport => some { p with sends := cancelAll p.sends }

def pump (k : PumpKind) : System Pump PumpLabel where
  init := fun p => ∃ should_run is_open, p = Pump.new should_run is_open
  next := Pump.next k

/-! ### What one step can do

    Every fact about the steps of the pump is derived from `Pump.Step`, and
    every fact about its calls from the three lemmas after it. -/

namespace Pump

/-- The steps of the pump, a constructor for each label. -/
inductive Step (k : PumpKind) (p : Pump) : PumpLabel → Pump → Prop
  | write {d : Bytes} {q : RingBuffer Bytes} (hpush : p.tx_queue.push_front d = some q) :
      Step k p (.write d) (k.doWrite { p with tx_queue := q })
  | runPosted (hposted : p.posted > 0) :
      Step k p .runPosted (startWrite { p with posted := p.posted - 1 })
  | finish {i : Nat} {b : Bytes} {r : Except ErrorCode Nat}
      (hi : p.sends.inProgress i = some b) (hr : admissible b r = true) :
      Step k p (.finish i r) { p with sends := p.sends.finish i b r }
  | deliver {i : Nat} {b : Bytes} {r : Except ErrorCode Nat}
      (hf : p.sends.finished i = some (b, r)) :
      Step k p (.deliver i) (k.onSent { p with sends := p.sends.remove i } r)
  | setShouldRun (b : Bool) : Step k p (.setShouldRun b) { p with should_run := b }
  | openTransport : Step k p .openTransport { p with is_open := true }
  | closeTransport :
      Step k p .closeTransport { p with is_open := false, sends := cancelAll p.sends }
  | cancelTransport : Step k p .cancelTransport { p with sends := cancelAll p.sends }

theorem step_of_next {k : PumpKind} {p p' : Pump} {l : PumpLabel} (hn : p.next k l = some p') :
    p.Step k l p' := by
  cases l with
  | write d =>
    obtain ⟨q, hpush, rfl⟩ := Option.map_eq_some_iff.mp hn
    exact .write hpush
  | runPosted =>
    obtain ⟨hposted, heq⟩ := Option.ite_none_right_eq_some.mp hn
    exact Option.some.inj heq ▸ .runPosted hposted
  | finish i r =>
    obtain ⟨b, hi, hn⟩ := Option.bind_eq_some_iff.mp hn
    obtain ⟨hr, heq⟩ := Option.ite_none_right_eq_some.mp hn
    exact Option.some.inj heq ▸ .finish hi hr
  | deliver i =>
    obtain ⟨⟨b, r⟩, hf, rfl⟩ := Option.map_eq_some_iff.mp hn
    exact .deliver hf
  | setShouldRun b => exact Option.some.inj hn ▸ .setShouldRun b
  | openTransport => exact Option.some.inj hn ▸ .openTransport
  | closeTransport => exact Option.some.inj hn ▸ .closeTransport
  | cancelTransport => exact Option.some.inj hn ▸ .cancelTransport

/-- Under the lock nothing is done, or the oldest message is taken and sent. -/
theorem lockedStart_cases {p : Pump} (h : p.tx_queue.WF) :
    (p.lockedStart = p ∧ (p.tx_current ≠ [] ∨ p.unread = [])) ∨
    (∃ d q, p.tx_current = [] ∧ p.unread = d :: q.unread ∧ q.WF ∧
      q.m_container.capacity = p.tx_queue.m_container.capacity ∧
      p.lockedStart =
        send { p with tx_queue := q, tx_current := d, write_in_progress := true } d) := by
  unfold lockedStart
  by_cases hcur : p.tx_current = []
  · match hq : p.unread with
    | [] =>
      have hne : p.tx_queue.is_not_empty = false := by
        rw [← Bool.not_eq_true, h.is_not_empty_iff]; simp [hq]
      left; simp [hne]
    | d :: rest =>
      obtain ⟨q, hpop, hwf, hrest, hcap⟩ := h.pop_back hq
      have hne : p.tx_queue.is_not_empty = true := h.is_not_empty_iff.mpr (by simp [hq])
      right
      exact ⟨d, q, hcur, by rw [hrest], hwf, hcap, by simp [hcur, hne, hpop]⟩
  · left; simp [hcur]

/-- `startWrite` does nothing, or it takes the oldest message and sends it. -/
theorem startWrite_cases {p : Pump} (h : p.tx_queue.WF) :
    (p.startWrite = p ∧
      (p.write_in_progress = true ∨ p.tx_current ≠ [] ∨ p.unread = [])) ∨
    (∃ d q, p.write_in_progress = false ∧ p.tx_current = [] ∧
      p.unread = d :: q.unread ∧ q.WF ∧
      q.m_container.capacity = p.tx_queue.m_container.capacity ∧
      p.startWrite =
        send { p with tx_queue := q, tx_current := d, write_in_progress := true } d) := by
  rw [startWrite_eq]
  by_cases hflag : p.write_in_progress = true
  · rw [if_pos hflag]
    exact .inl ⟨rfl, .inl hflag⟩
  · rw [if_neg hflag]
    rcases lockedStart_cases h with ⟨heq, hnothing⟩ | ⟨d, q, hcur, hunread, hwf, hcap, heq⟩
    · exact .inl ⟨heq, .inr hnothing⟩
    · exact .inr ⟨d, q, by simpa using hflag, hcur, hunread, hwf, hcap, heq⟩

/-- `advance` keeps an unsent rest, or takes the oldest message, or clears. -/
theorem advance_cases {p : Pump} (h : p.tx_queue.WF) (written : Nat) :
    (written < p.tx_current.length ∧
      p.advance written = { p with tx_current := p.tx_current.drop written }) ∨
    (∃ d q, p.tx_current.length ≤ written ∧ p.unread = d :: q.unread ∧ q.WF ∧
      q.m_container.capacity = p.tx_queue.m_container.capacity ∧
      p.advance written = { p with tx_queue := q, tx_current := d }) ∨
    (p.tx_current.length ≤ written ∧ p.unread = [] ∧
      p.advance written = { p with tx_current := [] }) := by
  unfold advance
  by_cases hlt : p.tx_current.length > written
  · left; simp [hlt]
  · have hle : p.tx_current.length ≤ written := Nat.le_of_not_lt hlt
    right
    match hq : p.unread with
    | [] =>
      have hne : p.tx_queue.is_not_empty = false := by
        rw [← Bool.not_eq_true, h.is_not_empty_iff]; simp [hq]
      right; simp [hlt, hle, hne]
    | d :: rest =>
      obtain ⟨q, hpop, hwf, hrest, hcap⟩ := h.pop_back hq
      have hne : p.tx_queue.is_not_empty = true := h.is_not_empty_iff.mpr (by simp [hq])
      left
      exact ⟨d, q, hle, by rw [hrest], hwf, hcap, by simp [hlt, hne, hpop]⟩

end Pump

/-- `doWrite` does nothing, posts `startWrite`, or calls it. It does nothing
    only where the class tests its way out. -/
theorem PumpKind.doWrite_cases (k : PumpKind) (p : Pump) :
    (k.doWrite p = p ∧ (p.should_run = false ∨ p.write_in_progress = true)) ∨
    (k = .serial ∧ k.doWrite p = p.post) ∨
    (k ≠ .serial ∧ k.doWrite p = p.startWrite) := by
  cases k with
  | serial => by_cases h : p.should_run = true <;> simp [doWrite, Serial.doWrite, h]
  | tcpClient => by_cases h : p.should_run = true <;> simp [doWrite, TcpClient.doWrite, h]
  | udpConnection => by_cases h : p.should_run = true <;> simp [doWrite, UdpConnection.doWrite, h]
  | tcpServerClient =>
    by_cases h : p.write_in_progress = true <;> simp [doWrite, TcpServerClient.doWrite, h]

/-! ### What the calls leave alone -/

namespace Pump

/-- What `advance` leaves alone. -/
theorem advance_frame (p : Pump) (n : Nat) :
    (p.advance n).sends = p.sends ∧ (p.advance n).should_run = p.should_run ∧
      (p.advance n).is_open = p.is_open := by
  unfold advance
  split
  · simp
  · split
    · split <;> simp
    · simp

theorem startWrite_flags (p : Pump) :
    p.startWrite.should_run = p.should_run ∧ p.startWrite.is_open = p.is_open := by
  unfold startWrite
  split
  · simp
  · split
    · split <;> simp [send]
    · simp

end Pump

theorem PumpKind.doWrite_flags (k : PumpKind) (p : Pump) :
    (k.doWrite p).should_run = p.should_run ∧ (k.doWrite p).is_open = p.is_open := by
  rcases k.doWrite_cases p with ⟨heq, _⟩ | ⟨_, heq⟩ | ⟨_, heq⟩
  · rw [heq]; exact ⟨rfl, rfl⟩
  · rw [heq]; exact ⟨rfl, rfl⟩
  · rw [heq]; exact p.startWrite_flags

theorem PumpKind.onSent_flags (k : PumpKind) (p : Pump) (r : Except ErrorCode Nat) :
    (k.onSent p r).should_run = p.should_run ∧ (k.onSent p r).is_open = p.is_open := by
  cases r with
  | error ec => exact ⟨rfl, rfl⟩
  | ok n =>
    obtain ⟨_, hrun, hopen⟩ := p.advance_frame n
    have hrestart : ∀ q : Pump,
        (k.restart q).should_run = q.should_run ∧ (k.restart q).is_open = q.is_open := by
      intro q
      cases k
      · exact ⟨rfl, rfl⟩
      · exact q.startWrite_flags
      · exact q.startWrite_flags
      · exact q.startWrite_flags
    obtain ⟨h₁, h₂⟩ := hrestart { p.advance n with write_in_progress := false }
    exact ⟨h₁.trans hrun, h₂.trans hopen⟩

/-- The steps that are not the class's own doing leave its flags alone. -/
def PumpLabel.keepsFlags : PumpLabel → Bool
  | .setShouldRun _ => false
  | .openTransport => false
  | .closeTransport => false
  | _ => true

theorem Pump.next_flags {k : PumpKind} {p p' : Pump} {l : PumpLabel} (hn : p.next k l = some p')
    (hl : l.keepsFlags = true) : p'.should_run = p.should_run ∧ p'.is_open = p.is_open := by
  cases step_of_next hn with
  | write => exact k.doWrite_flags _
  | runPosted => exact startWrite_flags _
  | finish => exact ⟨rfl, rfl⟩
  | deliver => exact k.onSent_flags _ _
  | setShouldRun b => exact absurd hl Bool.false_ne_true
  | openTransport => exact absurd hl Bool.false_ne_true
  | closeTransport => exact absurd hl Bool.false_ne_true
  | cancelTransport => exact ⟨rfl, rfl⟩

end DeviceTester
