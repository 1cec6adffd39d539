import DeviceTester.WritePump
import Mathlib.Logic.Function.Basic

/-! # Sends of concurrent writers

  Threads, slots of the receive handlers and the completion lambda all come to
  `startWrite`, which tests `write_in_progress_` before it takes `write_lock_`.
  Several of them can be past the test when the first one sets the flag. The
  others then find `tx_current_` non-empty under the lock, unless the message in
  flight is empty: with another message waiting they start a second send
  (`one_send_iff`).

  A call of `startWrite` is two steps, the test and the section under the lock.
  The steps of the pump are those of a caller whom nobody interrupts
  (`uninterrupted`).
-/

namespace DeviceTester

open Async LTS

/-! ### The two halves of the calls -/

/-- Where a caller of `write` or `startWrite` is. -/
inductive Stage where
  | outside
  /-- In `push_front`, with the queue full. -/
  | waiting (d : Bytes)
  /-- Before the call of `doWrite`. -/
  | pushed
  /-- Before the test of `write_in_progress_` in `startWrite`. -/
  | testing
  /-- Before the section under `write_lock_`. -/
  | passed
  deriving DecidableEq, Repr

namespace PumpKind

/-- `doWrite` up to its call of `startWrite`, if it comes to that. -/
def beginWrite (k : PumpKind) (p : Pump) : Pump × Stage :=
  match k with
  | serial => (if p.should_run then p.post else p, .outside)
  | tcpClient | udpConnection => (p, if p.should_run then .testing else .outside)
  -- the only one that tests the flag here as well
  | tcpServerClient => (p, if p.write_in_progress then .outside else .testing)

/-- The completion lambda up to its call of `startWrite`. -/
def beginSent (k : PumpKind) (p : Pump) : Except ErrorCode Nat → Pump × Stage
  | .ok written =>
      -- the flag is cleared outside of the lock
      let p := { p.advance written with write_in_progress := false }
      match k with
      | serial => (p.post, .outside)
      | _ => (p, .testing)
  | .error _ => (p, .outside)

end PumpKind

/-! ### Callers and their steps -/

/-- Who calls `startWrite`: a thread, or a handler on the strand. -/
inductive Agent where
  | thread (id : Nat)
  | strand
  deriving DecidableEq, Repr

/-- A connection object and where its callers are. -/
structure Sending where
  pump : Pump
  stage : Agent → Stage

namespace Sending

inductive Label where
  /-- `write` is called: it pushes, or starts to wait. -/
  | write (a : Agent) (d : Bytes)
  /-- A caller that waits finds room and pushes. -/
  | wake (a : Agent)
  | doWrite (a : Agent)
  /-- The two halves of `startWrite`. -/
  | test (a : Agent)
  | enter (a : Agent)
  /-- The strand comes to a posted `startWrite`, or runs the completion lambda
      of the `i`-th send up to its call. -/
  | runPosted
  | deliver (i : Nat)
  /-- The transport, or the owner of the flags, does something. -/
  | transport (l : PumpLabel)

def new (should_run is_open : Bool) : Sending where
  pump := .new should_run is_open
  stage := fun _ => .outside

/-- The caller comes to `stage`, and leaves the pump as `p`. -/
def move (s : Sending) (a : Agent) (p : Pump) (stage : Stage) : Sending where
  pump := p
  stage := Function.update s.stage a stage

@[simp] theorem move_pump (s : Sending) (a : Agent) (p : Pump) (stage : Stage) :
    (s.move a p stage).pump = p := rfl

@[simp] theorem move_stage_self (s : Sending) (a : Agent) (p : Pump) (stage : Stage) :
    (s.move a p stage).stage a = stage := by
  simp [move]

theorem move_stage_ne (s : Sending) {a b : Agent} (h : b ≠ a) (p : Pump) (stage : Stage) :
    (s.move a p stage).stage b = s.stage b := by
  simp [move, h]

/-- The steps of the pump that are not those of a caller. -/
def ofTransport : PumpLabel → Bool
  | .write _ => false
  | .runPosted => false
  | .deliver _ => false
  | _ => true

def next (k : PumpKind) (s : Sending) : Label → Option Sending
  | .write a d =>
      if s.stage a = .outside then
        match s.pump.tx_queue.push_front d with
        | some q => some (s.move a { s.pump with tx_queue := q } .pushed)
        | none => some (s.move a s.pump (.waiting d))
      else none
  | .wake a =>
      match s.stage a with
      | .waiting d =>
          (s.pump.tx_queue.push_front d).map fun q =>
            s.move a { s.pump with tx_queue := q } .pushed
      | _ => none
  | .doWrite a =>
      if s.stage a = .pushed then
        some (s.move a (k.beginWrite s.pump).1 (k.beginWrite s.pump).2)
      else none
  | .test a =>
      if s.stage a = .testing then
        some (s.move a s.pump (if s.pump.write_in_progress then .outside else .passed))
      else none
  | .enter a =>
      if s.stage a = .passed then some (s.move a s.pump.lockedStart .outside) else none
  | .runPosted =>
      if s.stage .strand = .outside ∧ s.pump.posted > 0 then
        some (s.move .strand { s.pump with posted := s.pump.posted - 1 } .testing)
      else none
  | .deliver i =>
      if s.stage .strand = .outside then
        (s.pump.sends.finished i).map fun x =>
          let after := k.beginSent { s.pump with sends := s.pump.sends.remove i } x.2
          s.move .strand after.1 after.2
      else none
  | .transport l =>
      if ofTransport l then (s.pump.next k l).map fun p => { s with pump := p } else none

end Sending

def sending (k : PumpKind) : System Sending Sending.Label where
  init := fun s => ∃ should_run is_open, s = Sending.new should_run is_open
  next := Sending.next k

/-! ### The property -/

/-- **(S)** At most one send is outstanding, and what is in `tx_current_` stays
    there while one is, whoever enters the section. -/
def OneSend (s : Sending) (l : Sending.Label) (s' : Sending) : Prop :=
  s'.pump.sends.length ≤ 1 ∧
  ∀ a, l = .enter a → s.pump.sends ≠ [] → s'.pump.tx_current = s.pump.tx_current

/-- Nobody enters the section while a send of an empty message is outstanding
    and another message waits. -/
def entersInTime (s : Sending) : Sending.Label → Bool
  | .enter _ => s.pump.sends.isEmpty || !s.pump.tx_current.isEmpty || s.pump.unread.isEmpty
  | _ => true

/-- No empty message is written. -/
def writesSomething (_ : Sending) : Sending.Label → Bool
  | .write _ d => !d.isEmpty
  | _ => true

/-! ### What one step can do -/

namespace Sending

inductive Step (k : PumpKind) (s : Sending) : Label → Sending → Prop
  | write {a : Agent} {d : Bytes} {q : RingBuffer Bytes} (ha : s.stage a = .outside)
      (hpush : s.pump.tx_queue.push_front d = some q) :
      Step k s (.write a d) (s.move a { s.pump with tx_queue := q } .pushed)
  | wait {a : Agent} {d : Bytes} (ha : s.stage a = .outside)
      (hpush : s.pump.tx_queue.push_front d = none) :
      Step k s (.write a d) (s.move a s.pump (.waiting d))
  | wake {a : Agent} {d : Bytes} {q : RingBuffer Bytes} (ha : s.stage a = .waiting d)
      (hpush : s.pump.tx_queue.push_front d = some q) :
      Step k s (.wake a) (s.move a { s.pump with tx_queue := q } .pushed)
  | doWrite {a : Agent} (ha : s.stage a = .pushed) :
      Step k s (.doWrite a) (s.move a (k.beginWrite s.pump).1 (k.beginWrite s.pump).2)
  | test {a : Agent} (ha : s.stage a = .testing) :
      Step k s (.test a)
        (s.move a s.pump (if s.pump.write_in_progress then .outside else .passed))
  | enter {a : Agent} (ha : s.stage a = .passed) :
      Step k s (.enter a) (s.move a s.pump.lockedStart .outside)
  | runPosted (ha : s.stage .strand = .outside) (hposted : s.pump.posted > 0) :
      Step k s .runPosted
        (s.move .strand { s.pump with posted := s.pump.posted - 1 } .testing)
  | deliver {i : Nat} {b : Bytes} {r : Except ErrorCode Nat} {p : Pump} {stage : Stage}
      (ha : s.stage .strand = .outside) (hf : s.pump.sends.finished i = some (b, r))
      (hsent : k.beginSent { s.pump with sends := s.pump.sends.remove i } r = (p, stage)) :
      Step k s (.deliver i) (s.move .strand p stage)
  | transport {l : PumpLabel} {p : Pump} (hl : ofTransport l = true)
      (hp : s.pump.next k l = some p) : Step k s (.transport l) { s with pump := p }

theorem step_of_next {k : PumpKind} {s s' : Sending} {l : Label} (hn : s.next k l = some s') :
    s.Step k l s' := by
  cases l with
  | write a d =>
    simp only [next] at hn
    split at hn
    · next ha =>
      split at hn
      · next q hpush => exact Option.some.inj hn ▸ .write ha hpush
      · next hpush => exact Option.some.inj hn ▸ .wait ha hpush
    · cases hn
  | wake a =>
    simp only [next] at hn
    split at hn
    · next d ha =>
      obtain ⟨q, hpush, rfl⟩ := Option.map_eq_some_iff.mp hn
      exact .wake ha hpush
    · cases hn
  | doWrite a =>
    obtain ⟨ha, heq⟩ := Option.ite_none_right_eq_some.mp hn
    exact Option.some.inj heq ▸ .doWrite ha
  | test a =>
    obtain ⟨ha, heq⟩ := Option.ite_none_right_eq_some.mp hn
    exact Option.some.inj heq ▸ .test ha
  | enter a =>
    obtain ⟨ha, heq⟩ := Option.ite_none_right_eq_some.mp hn
    exact Option.some.inj heq ▸ .enter ha
  | runPosted =>
    obtain ⟨⟨ha, hposted⟩, heq⟩ := Option.ite_none_right_eq_some.mp hn
    exact Option.some.inj heq ▸ .runPosted ha hposted
  | deliver i =>
    obtain ⟨ha, hn⟩ := Option.ite_none_right_eq_some.mp hn
    obtain ⟨⟨b, r⟩, hf, rfl⟩ := Option.map_eq_some_iff.mp hn
    exact .deliver ha hf rfl
  | transport l =>
    obtain ⟨hl, hn⟩ := Option.ite_none_right_eq_some.mp hn
    obtain ⟨p, hp, rfl⟩ := Option.map_eq_some_iff.mp hn
    exact .transport hl hp

end Sending

/-! ### The pump between the steps -/

namespace Pump

/-- At most one send is outstanding, and it is a send of `tx_current_`. Nothing
    is said of the flag. -/
structure OneInFlight (p : Pump) : Prop where
  wf : p.tx_queue.WF
  in_flight : p.sends.kinds = [] ∨ p.sends.kinds = [p.tx_current]

theorem OneInFlight.new (should_run is_open : Bool) : (Pump.new should_run is_open).OneInFlight where
  wf := RingBuffer.new_wf 100
  in_flight := .inl rfl

theorem OneInFlight.frame {p p' : Pump} (h : p.OneInFlight) (hwf : p'.tx_queue.WF)
    (hcurrent : p'.tx_current = p.tx_current) (hkinds : p'.sends.kinds = p.sends.kinds) :
    p'.OneInFlight where
  wf := hwf
  in_flight := by
    rw [hcurrent, hkinds]
    exact h.in_flight

theorem OneInFlight.of_none {p : Pump} (hwf : p.tx_queue.WF) (hs : p.sends = []) :
    p.OneInFlight where
  wf := hwf
  in_flight := .inl (by rw [hs, Operations.kinds_nil])

theorem length_sends (p : Pump) : p.sends.length = p.sends.kinds.length := by
  rw [Operations.kinds, List.length_map]

theorem OneInFlight.length_le {p : Pump} (h : p.OneInFlight) : p.sends.length ≤ 1 := by
  rw [length_sends]
  rcases h.in_flight with hk | hk
  · rw [hk]
    exact Nat.zero_le 1
  · rw [hk]
    exact Nat.le_refl 1

/-- The send whose handler is run was the only one. -/
theorem OneInFlight.remove {p : Pump} (h : p.OneInFlight) {i : Nat} {b : Bytes}
    {r : Except ErrorCode Nat} (hf : p.sends.finished i = some (b, r)) :
    p.sends.remove i = [] := by
  rcases h.in_flight with hk | hk
  · have hmem := Operations.mem_kinds_of_finished hf
    rw [hk] at hmem
    cases hmem
  · exact (Operations.remove_of_kinds_singleton hf hk).2

/-- What the section does, when it does not leave everything as it is. -/
theorem lockedStart_send {p : Pump} (hwf : p.tx_queue.WF) (hcurrent : p.tx_current = [])
    (hunread : p.unread ≠ []) :
    ∃ d rest, p.unread = d :: rest ∧ p.lockedStart.tx_queue.WF ∧ p.lockedStart.unread = rest ∧
      p.lockedStart.tx_current = d ∧ p.lockedStart.sends.kinds = p.sends.kinds ++ [d] := by
  rcases lockedStart_cases hwf with ⟨_, hne | hnil⟩ | ⟨d, q, _, hq, hwf', _, heq⟩
  · exact absurd hcurrent hne
  · exact absurd hnil hunread
  · rw [heq]
    exact ⟨d, q.unread, hq, hwf', rfl, rfl, kinds_send _ d⟩

/-- The section leaves everything as it is with a message in `tx_current_`, or
    with none waiting. -/
theorem lockedStart_eq_self {p : Pump} (hwf : p.tx_queue.WF)
    (h : p.tx_current ≠ [] ∨ p.unread = []) : p.lockedStart = p := by
  rcases lockedStart_cases hwf with ⟨heq, _⟩ | ⟨d, q, hcurrent, hq, _⟩
  · exact heq
  · rcases h with hne | hnil
    · exact absurd hcurrent hne
    · rw [hnil] at hq
      cases hq

/-- Who enters with nothing outstanding starts the only send. -/
theorem OneInFlight.lockedStart {p : Pump} (h : p.OneInFlight)
    (hin : p.sends = [] ∨ p.tx_current ≠ [] ∨ p.unread = []) : p.lockedStart.OneInFlight := by
  by_cases hidle : p.tx_current ≠ [] ∨ p.unread = []
  · rw [lockedStart_eq_self h.wf hidle]
    exact h
  -- a message is taken out and sent, so nothing may have been outstanding
  · have hnone : p.sends = [] := hin.resolve_right hidle
    obtain ⟨hcurrent, hunread⟩ := not_or.mp hidle
    obtain ⟨d, rest, _, hwf, _, htx, hkinds⟩ :=
      lockedStart_send h.wf (not_not.mp hcurrent) hunread
    rw [hnone, Operations.kinds_nil, List.nil_append] at hkinds
    exact ⟨hwf, .inr (by rw [hkinds, htx])⟩

end Pump

namespace PumpKind

/-- `doWrite` touches neither the queue nor the sends. -/
theorem beginWrite_pump (k : PumpKind) (p : Pump) :
    (k.beginWrite p).1.tx_queue = p.tx_queue ∧ (k.beginWrite p).1.tx_current = p.tx_current ∧
      (k.beginWrite p).1.sends = p.sends := by
  cases k with
  | serial =>
    unfold beginWrite
    by_cases hrun : p.should_run = true
    · simp [hrun, Pump.post]
    · simp [hrun]
  | _ => exact ⟨rfl, rfl, rfl⟩

/-- The completion lambda starts no send before it calls `startWrite`. -/
theorem beginSent_pump (k : PumpKind) {p p' : Pump} {r : Except ErrorCode Nat} {stage : Stage}
    (h : k.beginSent p r = (p', stage)) (hwf : p.tx_queue.WF) :
    p'.sends = p.sends ∧ p'.tx_queue.WF ∧ ∀ d ∈ p'.unread, d ∈ p.unread := by
  cases r with
  | error ec =>
    cases h
    exact ⟨rfl, hwf, fun _ hd => hd⟩
  | ok n =>
    -- the rest of the message, the next message or none comes to be in `tx_current_`
    have hadvance : (p.advance n).sends = p.sends ∧ (p.advance n).tx_queue.WF ∧
        ∀ d ∈ (p.advance n).unread, d ∈ p.unread := by
      rcases Pump.advance_cases hwf n with ⟨_, heq⟩ | ⟨d, q, _, hq, hwf', _, heq⟩ | ⟨_, _, heq⟩
      · rw [heq]
        exact ⟨rfl, hwf, fun _ hd => hd⟩
      · rw [heq, hq]
        exact ⟨rfl, hwf', fun _ hd => List.mem_cons_of_mem _ hd⟩
      · rw [heq]
        exact ⟨rfl, hwf, fun _ hd => hd⟩
    cases k with
    | serial =>
      cases h
      exact hadvance
    | _ =>
      cases h
      exact hadvance

end PumpKind

namespace Sending

/-- The transport gives no work, and takes none away. -/
theorem transport_frame {k : PumpKind} {p p' : Pump} {l : PumpLabel} (hl : ofTransport l = true)
    (hp : p.next k l = some p') :
    p'.tx_queue = p.tx_queue ∧ p'.tx_current = p.tx_current ∧ p'.sends.kinds = p.sends.kinds := by
  cases Pump.step_of_next hp with
  | write => cases hl
  | runPosted => cases hl
  | deliver => cases hl
  | finish hi => exact ⟨rfl, rfl, Operations.kinds_finish _ hi⟩
  | setShouldRun b => exact ⟨rfl, rfl, rfl⟩
  | openTransport => exact ⟨rfl, rfl, rfl⟩
  | closeTransport => exact ⟨rfl, rfl, Operations.kinds_abort _ _⟩
  | cancelTransport => exact ⟨rfl, rfl, Operations.kinds_abort _ _⟩

/-- One step that enters in time. -/
theorem oneInFlight_next {k : PumpKind} {s s' : Sending} {l : Label} (h : s.pump.OneInFlight)
    (hin : entersInTime s l = true) (hn : s.next k l = some s') : s'.pump.OneInFlight := by
  cases step_of_next hn with
  | write ha hpush => exact h.frame (h.wf.push_front hpush).1 rfl rfl
  | wait ha hpush => exact h
  | wake ha hpush => exact h.frame (h.wf.push_front hpush).1 rfl rfl
  | doWrite ha =>
    -- `Serial` posts the call, and the others only look at their flags
    obtain ⟨hqueue, hcurrent, hsends⟩ := k.beginWrite_pump s.pump
    exact h.frame (hqueue.symm ▸ h.wf) hcurrent (congrArg Operations.kinds hsends)
  | test ha => exact h
  | enter ha =>
    simp only [entersInTime, Bool.or_eq_true, Bool.not_eq_true', List.isEmpty_iff,
      List.isEmpty_eq_false_iff, or_assoc] at hin
    exact h.lockedStart hin
  | runPosted ha hposted => exact h.frame h.wf rfl rfl
  | deliver ha hf hsent =>
    -- the only send is over before the handler starts another one
    obtain ⟨hsends, hwf, _⟩ := k.beginSent_pump hsent h.wf
    exact .of_none hwf (hsends.trans (h.remove hf))
  | transport hl hp =>
    obtain ⟨hqueue, hcurrent, hkinds⟩ := transport_frame hl hp
    exact h.frame (hqueue.symm ▸ h.wf) hcurrent hkinds

/-- Who enters too early makes a second send. -/
theorem two_sends {s : Sending} {a : Agent} (h : s.pump.OneInFlight)
    (hlate : entersInTime s (.enter a) = false) : s.pump.lockedStart.sends.length = 2 := by
  simp only [entersInTime, Bool.or_eq_false_iff, Bool.not_eq_false', List.isEmpty_iff,
    List.isEmpty_eq_false_iff] at hlate
  obtain ⟨⟨hsends, hcurrent⟩, hunread⟩ := hlate
  obtain ⟨d, rest, _, _, _, _, hkinds⟩ := Pump.lockedStart_send h.wf hcurrent hunread
  -- the message in flight is the empty one that `tx_current_` still holds
  rcases h.in_flight with hk | hk
  · exact absurd (Operations.kinds_eq_nil.mp hk) hsends
  · rw [Pump.length_sends, hkinds, hk]
    rfl

theorem oneSend_iff {k : PumpKind} {s s' : Sending} {l : Label} (h : s.pump.OneInFlight)
    (hn : s.next k l = some s') : OneSend s l s' ↔ entersInTime s l = true := by
  constructor
  · intro hR
    -- no other step can be too early
    cases l with
    | enter a =>
      by_contra hlate
      have htwo := two_sends h (Bool.eq_false_iff.mpr hlate)
      obtain ⟨_, heq⟩ := Option.ite_none_right_eq_some.mp hn
      have hone := hR.1
      rw [← Option.some.inj heq] at hone
      change s.pump.lockedStart.sends.length ≤ 1 at hone
      omega
    | _ => rfl
  · intro hin
    refine ⟨(oneInFlight_next h hin hn).length_le, ?_⟩
    intro a hl hsends
    subst hl
    obtain ⟨_, heq⟩ := Option.ite_none_right_eq_some.mp hn
    simp only [entersInTime, Bool.or_eq_true, Bool.not_eq_true', List.isEmpty_iff,
      List.isEmpty_eq_false_iff, or_assoc] at hin
    rw [← Option.some.inj heq]
    show s.pump.lockedStart.tx_current = s.pump.tx_current
    rw [Pump.lockedStart_eq_self h.wf (hin.resolve_left hsends)]

/-! ### Writers of messages that are not empty -/

/-- Nothing in the queue, in the hands of a caller or in flight is empty. -/
structure SendsSomething (s : Sending) : Prop where
  one : s.pump.OneInFlight
  unread : ∀ d ∈ s.pump.unread, d ≠ []
  waiting : ∀ a d, s.stage a = .waiting d → d ≠ []
  current : s.pump.sends.kinds = [] ∨ s.pump.tx_current ≠ []

theorem SendsSomething.new (should_run is_open : Bool) :
    (Sending.new should_run is_open).SendsSomething where
  one := .new should_run is_open
  unread := by
    intro d hd
    cases hd
  waiting := by
    intro a d h
    cases h
  current := .inl rfl

theorem SendsSomething.entersInTime {s : Sending} (h : s.SendsSomething) (l : Label) :
    entersInTime s l = true := by
  cases l with
  | enter a =>
    simp only [DeviceTester.entersInTime, Bool.or_eq_true, Bool.not_eq_true', List.isEmpty_iff,
      List.isEmpty_eq_false_iff, ← Operations.kinds_eq_nil]
    exact .inl h.current
  | _ => rfl

/-- The callers that wait are the ones before, and at most the one that has
    moved. -/
theorem waiting_move {s : Sending} {a : Agent} {p : Pump} {stage : Stage}
    (hwaiting : ∀ b d, s.stage b = .waiting d → d ≠ []) (hstage : ∀ d, stage = .waiting d → d ≠ []) :
    ∀ b d, (s.move a p stage).stage b = .waiting d → d ≠ [] := by
  intro b d h
  by_cases hb : b = a
  · subst hb
    rw [move_stage_self] at h
    exact hstage d h
  · rw [move_stage_ne s hb] at h
    exact hwaiting b d h

theorem beginWrite_stage (k : PumpKind) (p : Pump) :
    (k.beginWrite p).2 = .outside ∨ (k.beginWrite p).2 = .testing := by
  cases k with
  | serial => exact .inl rfl
  | tcpClient => by_cases h : p.should_run = true <;> simp [PumpKind.beginWrite, h]
  | udpConnection => by_cases h : p.should_run = true <;> simp [PumpKind.beginWrite, h]
  | tcpServerClient => by_cases h : p.write_in_progress = true <;> simp [PumpKind.beginWrite, h]

theorem beginSent_stage {k : PumpKind} {p p' : Pump} {r : Except ErrorCode Nat} {stage : Stage}
    (h : k.beginSent p r = (p', stage)) : stage = .outside ∨ stage = .testing := by
  cases r with
  | error ec =>
    cases h
    exact .inl rfl
  | ok n =>
    cases k with
    | serial =>
      cases h
      exact .inl rfl
    | _ =>
      cases h
      exact .inr rfl

/-- What is pushed is not empty. -/
theorem SendsSomething.pushed {s : Sending} (h : s.SendsSomething) {a : Agent} {d : Bytes}
    {q : RingBuffer Bytes} (hd : d ≠ []) (hpush : s.pump.tx_queue.push_front d = some q) :
    (s.move a { s.pump with tx_queue := q } .pushed).SendsSomething := by
  obtain ⟨hwf, hunread, _⟩ := h.one.wf.push_front hpush
  refine ⟨h.one.frame hwf rfl rfl, ?_, ?_, h.current⟩
  · intro m hm
    have hm' : m ∈ s.pump.unread ++ [d] := hunread ▸ hm
    rcases List.mem_append.mp hm' with hold | hnew
    · exact h.unread m hold
    · exact List.mem_singleton.mp hnew ▸ hd
  · apply waiting_move h.waiting
    intro m hm
    cases hm

theorem SendsSomething.next {k : PumpKind} {s s' : Sending} {l : Label} (h : s.SendsSomething)
    (hl : writesSomething s l = true) (hn : s.next k l = some s') : s'.SendsSomething := by
  have hone := oneInFlight_next h.one (h.entersInTime l) hn
  -- whoever moves elsewhere than to the wait for room leaves the others where they are
  have hmoved : ∀ a p stage, (∀ d, stage ≠ .waiting d) →
      ∀ b d, (s.move a p stage).stage b = .waiting d → d ≠ [] :=
    fun a p stage hstage => waiting_move h.waiting fun d hd => absurd hd (hstage d)
  cases step_of_next hn with
  | @write a d q ha hpush =>
    simp only [writesSomething, Bool.not_eq_true', List.isEmpty_eq_false_iff] at hl
    exact h.pushed hl hpush
  | @wait a d ha hpush =>
    simp only [writesSomething, Bool.not_eq_true', List.isEmpty_eq_false_iff] at hl
    refine ⟨hone, h.unread, waiting_move h.waiting ?_, h.current⟩
    intro m hm
    cases hm
    exact hl
  -- what has waited was written, and was not empty
  | wake ha hpush => exact h.pushed (h.waiting _ _ ha) hpush
  | @doWrite a ha =>
    obtain ⟨hqueue, hcurrent, hsends⟩ := k.beginWrite_pump s.pump
    refine ⟨hone, ?_, ?_, ?_⟩
    · show ∀ d ∈ (k.beginWrite s.pump).1.tx_queue.unread, d ≠ []
      rw [hqueue]
      exact h.unread
    · apply hmoved
      intro d hd
      rcases beginWrite_stage k s.pump with hstage | hstage
      · rw [hstage] at hd
        cases hd
      · rw [hstage] at hd
        cases hd
    · rw [move_pump, hcurrent, hsends]
      exact h.current
  | @test a ha =>
    refine ⟨hone, h.unread, ?_, h.current⟩
    apply hmoved
    intro d hd
    split at hd
    · cases hd
    · cases hd
  | @enter a ha =>
    have hwaiting := hmoved a s.pump.lockedStart .outside (fun d hd => by cases hd)
    by_cases hidle : s.pump.tx_current ≠ [] ∨ s.pump.unread = []
    · have heq := Pump.lockedStart_eq_self h.one.wf hidle
      refine ⟨hone, ?_, hwaiting, ?_⟩
      · rw [move_pump, heq]
        exact h.unread
      · rw [move_pump, heq]
        exact h.current
    · obtain ⟨hcurrent, hunread⟩ := not_or.mp hidle
      obtain ⟨d, rest, hd, _, hrest, htx, _⟩ :=
        Pump.lockedStart_send h.one.wf (not_not.mp hcurrent) hunread
      -- the message goes from the queue to `tx_current_`
      have hall := h.unread
      rw [hd, List.forall_mem_cons] at hall
      refine ⟨hone, ?_, hwaiting, ?_⟩
      · rw [move_pump, hrest]
        exact hall.2
      · right
        rw [move_pump, htx]
        exact hall.1
  | runPosted ha hposted =>
    exact ⟨hone, h.unread, hmoved _ _ .testing (fun d hd => by cases hd), h.current⟩
  | @deliver i b r p stage ha hf hsent =>
    obtain ⟨hsends, _, hunread⟩ := k.beginSent_pump hsent h.one.wf
    refine ⟨hone, fun d hd => h.unread d (hunread d hd), ?_, ?_⟩
    · apply hmoved
      intro d hd
      rcases beginSent_stage hsent with rfl | rfl
      · cases hd
      · cases hd
    · left
      exact Operations.kinds_eq_nil.mpr (hsends.trans (h.one.remove hf))
  | transport hlt hp =>
    obtain ⟨hqueue, hcurrent, hkinds⟩ := transport_frame hlt hp
    refine ⟨hone, ?_, h.waiting, ?_⟩
    · show ∀ d ∈ RingBuffer.unread _, d ≠ []
      rw [hqueue]
      exact h.unread
    · show Operations.kinds _ = [] ∨ _
      rw [hkinds, hcurrent]
      exact h.current

/-! ### Callers whom nobody interrupts -/

/-- The two halves of `startWrite`, from the test on. -/
def callStart (a : Agent) (p : Pump) : List Label :=
  .test a :: if p.write_in_progress then [] else [.enter a]

theorem exec_callStart {k : PumpKind} {s : Sending} {a : Agent} (ha : s.stage a = .testing) :
    (sending k).exec s (callStart a s.pump) = some (s.move a s.pump.startWrite .outside) := by
  unfold callStart
  rw [Pump.startWrite_eq]
  -- the flag is the same at the test, as nobody comes in between
  by_cases hflag : s.pump.write_in_progress = true
  · have htest : s.next k (.test a) = some (s.move a s.pump .outside) := by
      simp [next, ha, hflag]
    rw [if_pos hflag, if_pos hflag, System.exec_cons]
    exact ⟨_, htest, rfl⟩
  · have htest : s.next k (.test a) = some (s.move a s.pump .passed) := by
      simp [next, ha, hflag]
    have henter : (s.move a s.pump .passed).next k (.enter a) =
        some ((s.move a s.pump .passed).move a s.pump.lockedStart .outside) := by
      simp [next]
    rw [if_neg hflag, if_neg hflag, System.exec_cons]
    refine ⟨_, htest, System.exec_cons.mpr ⟨_, henter, ?_⟩⟩
    simp [move]

/-- What is left of a call whose first half is done. -/
def restOf (a : Agent) (first : Pump × Stage) : List Label :=
  if first.2 = .testing then callStart a first.1 else []

/-- The pump after a call whose first half is done. -/
def afterRest (first : Pump × Stage) : Pump :=
  if first.2 = .testing then first.1.startWrite else first.1

theorem exec_restOf {k : PumpKind} {s : Sending} {a : Agent} {first : Pump × Stage}
    (h : first.2 = .outside ∨ first.2 = .testing) :
    (sending k).exec (s.move a first.1 first.2) (restOf a first) =
      some (s.move a (afterRest first) .outside) := by
  unfold restOf afterRest
  rcases h with hout | htest
  · rw [hout]
    rfl
  · have hcall := exec_callStart (k := k) (s.move_stage_self a first.1 .testing)
    rw [htest]
    simp only [if_true]
    rw [move_pump] at hcall
    rw [hcall]
    simp [move]

theorem doWrite_eq (k : PumpKind) (p : Pump) : k.doWrite p = afterRest (k.beginWrite p) := by
  unfold afterRest
  cases k with
  | serial =>
    by_cases h : p.should_run = true <;>
      simp [PumpKind.doWrite, Serial.doWrite, PumpKind.beginWrite, h]
  | tcpClient =>
    by_cases h : p.should_run = true <;>
      simp [PumpKind.doWrite, TcpClient.doWrite, PumpKind.beginWrite, h]
  | udpConnection =>
    by_cases h : p.should_run = true <;>
      simp [PumpKind.doWrite, UdpConnection.doWrite, PumpKind.beginWrite, h]
  | tcpServerClient =>
    by_cases h : p.write_in_progress = true <;>
      simp [PumpKind.doWrite, TcpServerClient.doWrite, PumpKind.beginWrite, h]

theorem onSent_eq (k : PumpKind) (p : Pump) (r : Except ErrorCode Nat) :
    k.onSent p r = afterRest (k.beginSent p r) := by
  cases r with
  | error ec => rfl
  | ok n => cases k <;> rfl

/-- A pump whose callers have all returned. -/
def resting (p : Pump) : Sending := ⟨p, fun _ => .outside⟩

theorem move_resting (p p' : Pump) (a : Agent) :
    (resting p).move a p' .outside = resting p' := by
  unfold move resting
  simp

/-- The steps of a caller that does what one step of the pump does. -/
def uninterruptedLabels (k : PumpKind) (p : Pump) : PumpLabel → List Label
  | .write d =>
      match p.tx_queue.push_front d with
      | some q =>
          .write (.thread 0) d :: .doWrite (.thread 0) ::
            restOf (.thread 0) (k.beginWrite { p with tx_queue := q })
      | none => []
  | .runPosted => .runPosted :: callStart .strand { p with posted := p.posted - 1 }
  | .deliver i =>
      match p.sends.finished i with
      | some x => .deliver i :: restOf .strand (k.beginSent { p with sends := p.sends.remove i } x.2)
      | none => []
  | l => [.transport l]

/-- Every step of the pump is made of the steps of a caller whom nobody
    interrupts. -/
theorem exec_uninterrupted {k : PumpKind} {p p' : Pump} {l : PumpLabel} (hn : p.next k l = some p') :
    (sending k).exec (resting p) (uninterruptedLabels k p l) = some (resting p') := by
  have htransport : ofTransport l = true →
      (sending k).exec (resting p) [.transport l] = some (resting p') := by
    intro hl
    have hstep : (resting p).next k (.transport l) = some (resting p') := by
      simp [next, hl, resting, hn]
    exact System.exec_cons.mpr ⟨_, hstep, rfl⟩
  cases Pump.step_of_next hn with
  -- a write pushes, calls `doWrite`, and then goes on with `startWrite`
  | @write d q hpush =>
    have hwrite : (resting p).next k (.write (.thread 0) d) =
        some ((resting p).move (.thread 0) { p with tx_queue := q } .pushed) := by
      simp [next, resting, hpush]
    have hbegin : ((resting p).move (.thread 0) { p with tx_queue := q } .pushed).next k
          (.doWrite (.thread 0)) =
        some ((resting p).move (.thread 0) (k.beginWrite { p with tx_queue := q }).1
          (k.beginWrite { p with tx_queue := q }).2) := by
      simp [next, move]
    have hrest := exec_restOf (k := k) (s := resting p) (a := .thread 0)
      (beginWrite_stage k { p with tx_queue := q })
    rw [move_resting, ← doWrite_eq] at hrest
    simp only [uninterruptedLabels, hpush]
    exact System.exec_cons.mpr ⟨_, hwrite, System.exec_cons.mpr ⟨_, hbegin, hrest⟩⟩
  | runPosted hposted =>
    have hrun : (resting p).next k .runPosted =
        some ((resting p).move .strand { p with posted := p.posted - 1 } .testing) := by
      simp [next, resting, hposted]
    have hcall := exec_callStart (k := k)
      ((resting p).move_stage_self .strand { p with posted := p.posted - 1 } .testing)
    rw [move_pump] at hcall
    refine System.exec_cons.mpr ⟨_, hrun, hcall.trans ?_⟩
    simp [move, resting]
  | @deliver i b r hf =>
    have hdeliver : (resting p).next k (.deliver i) =
        some ((resting p).move .strand (k.beginSent { p with sends := p.sends.remove i } r).1
          (k.beginSent { p with sends := p.sends.remove i } r).2) := by
      simp [next, resting, hf]
    have hstage : (k.beginSent { p with sends := p.sends.remove i } r).2 = .outside ∨
        (k.beginSent { p with sends := p.sends.remove i } r).2 = .testing :=
      beginSent_stage rfl
    have hrest := exec_restOf (k := k) (s := resting p) (a := .strand) hstage
    rw [move_resting, ← onSent_eq] at hrest
    simp only [uninterruptedLabels, hf]
    exact System.exec_cons.mpr ⟨_, hdeliver, hrest⟩
  | finish => exact htransport rfl
  | setShouldRun b => exact htransport rfl
  | openTransport => exact htransport rfl
  | closeTransport => exact htransport rfl
  | cancelTransport => exact htransport rfl

/-- The pump is the calls of `startWrite` that nobody interrupts. -/
def uninterrupted (k : PumpKind) : Simulation (DeviceTester.pump k) (sending k) where
  abs := resting
  labels := uninterruptedLabels k
  init := by
    rintro p ⟨should_run, is_open, rfl⟩
    exact ⟨should_run, is_open, rfl⟩
  next := fun _ _ _ hn => exec_uninterrupted hn

end Sending

/-! ### The sends of a run -/

/-- **At most one send is in flight** in a run exactly when nobody enters the
    section of `startWrite` while an empty message is in flight and another one
    waits. So it is when no empty message is ever written. -/
theorem one_send_iff {k : PumpKind} {s : Sending} (r : Run (sending k) s) :
    (r.Ensures OneSend ↔ r.EachStep fun s l => entersInTime s l = true) ∧
    ((r.EachStep fun s l => writesSomething s l = true) → r.Ensures OneSend) := by
  constructor
  · apply Run.ensures_iff (I := fun s => s.pump.OneInFlight)
    · intro s hs
      obtain ⟨should_run, is_open, rfl⟩ := hs
      exact .new should_run is_open
    · intro s l s' h hin hn
      exact Sending.oneInFlight_next h hin hn
    · intro s l s' h hn
      exact Sending.oneSend_iff h hn
  · apply Run.guarded_ensures (I := Sending.SendsSomething)
    · intro s hs
      obtain ⟨should_run, is_open, rfl⟩ := hs
      exact .new should_run is_open
    · intro s l s' h hl hn
      exact h.next hl hn
    · intro s l s' h _ hn
      exact (Sending.oneSend_iff h.one hn).mpr (h.entersInTime l)

/-- Two threads are past the test of the flag at the same time, and the second one
    leaves its message to the completion of the first. -/
theorem one_send_of_two_threads :
    ∃ (s : Sending) (r : Run (sending .tcpClient) s), s.pump.sends.kinds = [[5]] ∧
      s.pump.unread = [[7]] ∧ r.Ensures OneSend := by
  obtain ⟨s, r, hsome, hs⟩ := Run.exists_of_check (sending .tcpClient) ⟨true, true, rfl⟩
    [.write (.thread 0) [5], .doWrite (.thread 0), .write (.thread 1) [7], .doWrite (.thread 1),
      .test (.thread 0), .test (.thread 1), .enter (.thread 0), .enter (.thread 1)]
    writesSomething
    (fun s => decide (s.pump.sends.kinds = [[5]]) && decide (s.pump.unread = [[7]])) (by decide)
  simp only [Bool.and_eq_true, decide_eq_true_eq] at hs
  exact ⟨s, r, hs.1, hs.2, (one_send_iff r).2 hsome⟩

/-- Two threads come to `startWrite`, one of them with an empty message. -/
def emptyMessage : List Sending.Label :=
  [.write (.thread 0) [], .doWrite (.thread 0), .write (.thread 1) [7], .doWrite (.thread 1),
   .test (.thread 0), .test (.thread 1), .enter (.thread 0)]

/-- Both are past the test when the empty message is sent, and the second one
    sends its own beside it. -/
theorem two_sends_in_flight :
    (∃ (s : Sending) (r : Run (sending .tcpClient) s), ¬ r.Ensures OneSend) ∧
    (∃ (s : Sending) (r : Run (sending .udpConnection) s), ¬ r.Ensures OneSend) ∧
    (∃ (s : Sending) (r : Run (sending .tcpServerClient) s), ¬ r.Ensures OneSend) := by
  have htwo : ∀ s s' : Sending, decide (s'.pump.sends.length = 2) = true →
      ¬ OneSend s (.enter (.thread 1)) s' := by
    intro s s' hlen hone
    have hle := hone.1
    rw [of_decide_eq_true hlen] at hle
    omega
  refine ⟨?_, ?_, ?_⟩
  · exact Run.exists_not_ensures (sending .tcpClient) ⟨true, true, rfl⟩ emptyMessage
      (.enter (.thread 1)) _ htwo (by decide)
  · exact Run.exists_not_ensures (sending .udpConnection) ⟨true, true, rfl⟩ emptyMessage
      (.enter (.thread 1)) _ htwo (by decide)
  · exact Run.exists_not_ensures (sending .tcpServerClient) ⟨true, true, rfl⟩ emptyMessage
      (.enter (.thread 1)) _ htwo (by decide)

end DeviceTester
