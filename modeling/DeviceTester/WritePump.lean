import DeviceTester.Writer

/-! # What the write pump guarantees

  Two properties of the pump over all its runs:

  * no byte is lost, duplicated or reordered, whatever the transport reports
    (`pump_conserves_bytes`);
  * the pump goes on by itself as long as each completed send has written its
    whole buffer and has found `tx_queue_` empty. The first completion that is
    short, or that finds a message waiting, stalls it: the lambda leaves
    something in `tx_current_`, and `startWrite` only starts a send when
    `tx_current_` is empty (`pump_drains`).
-/

namespace DeviceTester

open Async LTS

namespace Pump

/-! ### The invariant of all runs -/

/-- At most one send is outstanding, it is a send of `tx_current_`, and the
    flag is set for it. -/
structure Inv (p : Pump) : Prop where
  wf : p.tx_queue.WF
  capacity : p.tx_queue.m_container.capacity = 100
  in_flight : p.sends = [] ∨ (p.sends.kinds = [p.tx_current] ∧ p.write_in_progress = true)

theorem Inv.new (should_run is_open : Bool) : (Pump.new should_run is_open).Inv where
  wf := RingBuffer.new_wf 100
  capacity := rfl
  in_flight := Or.inl rfl

/-- The invariant does not depend on the flags of the class, and `posted` is
    free. -/
theorem Inv.frame {p p' : Pump} (h : p.Inv) (hq : p'.tx_queue = p.tx_queue)
    (hc : p'.tx_current = p.tx_current) (hf : p'.write_in_progress = p.write_in_progress)
    (hs : p'.sends = p.sends) : p'.Inv where
  wf := hq ▸ h.wf
  capacity := hq ▸ h.capacity
  in_flight := by rw [hs, hc, hf]; exact h.in_flight

/-- The sends after `send`: one more, of the given buffer. -/
theorem kinds_send (p : Pump) (d : Bytes) : (p.send d).sends.kinds = p.sends.kinds ++ [d] := by
  unfold send
  by_cases h : p.is_open = true <;> simp [h]

theorem Inv.startWrite {p : Pump} (h : p.Inv) : p.startWrite.Inv := by
  rcases startWrite_cases h.wf with ⟨heq, _⟩ | ⟨d, q, hflag, _, _, hwf, hcap, heq⟩
  · rw [heq]; exact h
  · -- the flag is clear, so no send is outstanding
    have hs : p.sends = [] := by
      rcases h.in_flight with hs | ⟨_, hset⟩
      · exact hs
      · rw [hflag] at hset; cases hset
    rw [heq]
    refine ⟨hwf, hcap.trans h.capacity, Or.inr ⟨?_, rfl⟩⟩
    rw [kinds_send]
    simp [send, hs]

theorem Inv.doWrite {p : Pump} (h : p.Inv) (k : PumpKind) : (k.doWrite p).Inv := by
  rcases k.doWrite_cases p with ⟨heq, _⟩ | ⟨_, heq⟩ | ⟨_, heq⟩
  · rw [heq]; exact h
  · rw [heq]; exact h.frame rfl rfl rfl rfl
  · rw [heq]; exact h.startWrite

theorem Inv.restart {p : Pump} (h : p.Inv) (k : PumpKind) : (k.restart p).Inv := by
  cases k
  · exact h.frame rfl rfl rfl rfl
  · exact h.startWrite
  · exact h.startWrite
  · exact h.startWrite

theorem advance_wf {p : Pump} (h : p.tx_queue.WF) (n : Nat) :
    (p.advance n).tx_queue.WF ∧
      (p.advance n).tx_queue.m_container.capacity = p.tx_queue.m_container.capacity := by
  rcases advance_cases h n with ⟨_, heq⟩ | ⟨d, q, _, _, hwf, hcap, heq⟩ | ⟨_, _, heq⟩
  · rw [heq]; exact ⟨h, rfl⟩
  · rw [heq]; exact ⟨hwf, hcap⟩
  · rw [heq]; exact ⟨h, rfl⟩

theorem Inv.onSent {p : Pump} (h : p.Inv) (hs : p.sends = []) (k : PumpKind)
    (r : Except ErrorCode Nat) : (k.onSent p r).Inv := by
  cases r with
  | error ec => exact h
  | ok n =>
    apply Inv.restart
    have hs' : (p.advance n).sends = [] := (advance_frame p n).1.trans hs
    obtain ⟨hwf, hcap⟩ := advance_wf h.wf n
    exact ⟨hwf, hcap.trans h.capacity, Or.inl hs'⟩

/-- The one send of the invariant is taken out when its handler is run. -/
theorem Inv.deliver {p : Pump} (h : p.Inv) {i : Nat} {b : Bytes} {r : Except ErrorCode Nat}
    (hf : p.sends.finished i = some (b, r)) :
    b = p.tx_current ∧ p.sends.remove i = [] ∧ p.write_in_progress = true := by
  -- the send is the one of the invariant, as there is no other
  rcases h.in_flight with hs | ⟨hk, hflag⟩
  · have hmem := Operations.mem_of_finished hf
    rw [hs] at hmem
    cases hmem
  · obtain ⟨rfl, hrest⟩ := Operations.remove_of_kinds_singleton hf hk
    exact ⟨rfl, hrest, hflag⟩

/-- `sends` may be replaced by sends of the same buffers. -/
theorem Inv.sends {p : Pump} (h : p.Inv) (ops : Operations Bytes (Except ErrorCode Nat))
    (hk : ops.kinds = p.sends.kinds) : ({ p with sends := ops } : Pump).Inv where
  wf := h.wf
  capacity := h.capacity
  in_flight := by
    rcases h.in_flight with hs | ⟨hk', hflag⟩
    · left
      rw [hs] at hk
      exact Operations.kinds_eq_nil.mp hk
    · right
      exact ⟨hk.trans hk', hflag⟩

theorem Inv.abort {p : Pump} (h : p.Inv) (is_open : Bool) :
    ({ p with is_open := is_open, sends := cancelAll p.sends } : Pump).Inv :=
  (h.sends _ (Operations.kinds_abort _ _)).frame rfl rfl rfl rfl

/-- Every step keeps the invariant. -/
theorem Inv.next {k : PumpKind} {p p' : Pump} {l : PumpLabel} (h : p.Inv)
    (hn : p.next k l = some p') : p'.Inv := by
  cases step_of_next hn with
  | write hpush =>
    obtain ⟨hwf, _, hcap⟩ := h.wf.push_front hpush
    apply Inv.doWrite
    exact ⟨hwf, hcap.trans h.capacity, h.in_flight⟩
  | runPosted =>
    apply Inv.startWrite
    exact h.frame rfl rfl rfl rfl
  | finish hi => exact h.sends _ (Operations.kinds_finish _ hi)
  | deliver hf =>
    -- the one send has been taken out when the lambda is called
    obtain ⟨_, hrest, _⟩ := h.deliver hf
    apply Inv.onSent
    · exact ⟨h.wf, h.capacity, Or.inl hrest⟩
    · exact hrest
  | setShouldRun b => exact h.frame rfl rfl rfl rfl
  | openTransport => exact h.frame rfl rfl rfl rfl
  | closeTransport => exact h.abort false
  | cancelTransport => exact h.abort p.is_open

end Pump

/-- The invariant holds in every reachable state. -/
theorem pump_inv {k : PumpKind} {p : Pump} (r : Run (pump k) p) : p.Inv := by
  apply r.invariant
  · rintro p ⟨should_run, is_open, rfl⟩
    exact Pump.Inv.new should_run is_open
  · intro s l s' h hn
    exact h.next hn

/-! ### No byte is lost, duplicated or reordered -/

namespace Pump

/-- The bytes accepted and not acknowledged yet, in the order they go out. -/
def content (p : Pump) : Bytes := p.tx_current ++ p.unread.flatten

/-- The bytes passed to `write` by a step. -/
def written (_ : Pump) : PumpLabel → Bytes
  | .write d => d
  | _ => []

/-- The bytes a step reports as transmitted: the first `n` of the buffer in
    flight when a send of it has succeeded with `n`. -/
def transmitted (p : Pump) : PumpLabel → Bytes
  | .deliver i =>
      match p.sends.finished i with
      | some (b, .ok n) => b.take n
      | _ => []
  | _ => []

theorem content_send (p : Pump) (d : Bytes) : (p.send d).content = p.content := rfl

theorem content_startWrite {p : Pump} (h : p.tx_queue.WF) : p.startWrite.content = p.content := by
  rcases startWrite_cases h with ⟨heq, _⟩ | ⟨d, q, _, hcur, hunread, _, _, heq⟩
  · rw [heq]
  · rw [heq, content_send]
    show d ++ q.unread.flatten = p.tx_current ++ p.unread.flatten
    rw [hcur, hunread]
    simp

theorem content_doWrite {p : Pump} (h : p.tx_queue.WF) (k : PumpKind) :
    (k.doWrite p).content = p.content := by
  rcases k.doWrite_cases p with ⟨heq, _⟩ | ⟨_, heq⟩ | ⟨_, heq⟩
  · rw [heq]
  · rw [heq]; rfl
  · rw [heq, content_startWrite h]

theorem content_restart {p : Pump} (h : p.tx_queue.WF) (k : PumpKind) :
    (k.restart p).content = p.content := by
  cases k
  · rfl
  · exact content_startWrite h
  · exact content_startWrite h
  · exact content_startWrite h

/-- What `advance n` drops is what has been transmitted. -/
theorem content_advance {p : Pump} (h : p.tx_queue.WF) (n : Nat) :
    p.tx_current.take n ++ (p.advance n).content = p.content := by
  rcases advance_cases h n with ⟨_, heq⟩ | ⟨d, q, hle, hunread, _, _, heq⟩ | ⟨hle, hunread, heq⟩
  · rw [heq]
    show p.tx_current.take n ++ (p.tx_current.drop n ++ p.unread.flatten) = _
    rw [← List.append_assoc, List.take_append_drop]
    rfl
  · rw [heq, List.take_of_length_le hle]
    show p.tx_current ++ (d ++ q.unread.flatten) = p.tx_current ++ p.unread.flatten
    rw [hunread]
    rfl
  · rw [heq, List.take_of_length_le hle]
    show p.tx_current ++ ([] ++ p.unread.flatten) = p.tx_current ++ p.unread.flatten
    rfl

theorem content_onSent {p : Pump} (h : p.tx_queue.WF) (k : PumpKind) (n : Nat) :
    p.tx_current.take n ++ (k.onSent p (.ok n)).content = p.content := by
  have hrestart := content_restart (p := { p.advance n with write_in_progress := false })
    (advance_wf h n).1 k
  show p.tx_current.take n ++ (k.restart { p.advance n with write_in_progress := false }).content = _
  rw [hrestart]
  exact content_advance h n

/-- One step: what goes out and what is left is what was there and what came
    in. -/
theorem Inv.balance {k : PumpKind} {p p' : Pump} {l : PumpLabel} (h : p.Inv)
    (hn : p.next k l = some p') :
    p.transmitted l ++ p'.content = p.content ++ p.written l := by
  cases step_of_next hn with
  | @write d q hpush =>
    obtain ⟨hwf, hunread, _⟩ := h.wf.push_front hpush
    rw [content_doWrite hwf]
    show p.tx_current ++ q.unread.flatten = p.tx_current ++ p.unread.flatten ++ d
    rw [hunread]
    simp
  | runPosted =>
    rw [content_startWrite (p := { p with posted := p.posted - 1 }) h.wf]
    simp [transmitted, written, content]
  | @deliver i b r hf =>
    obtain ⟨rfl, _, _⟩ := h.deliver hf
    cases r with
    | error ec => simp [transmitted, written, hf, PumpKind.onSent, content]
    | ok n =>
      simp only [transmitted, hf, written, List.append_nil]
      exact content_onSent (p := { p with sends := p.sends.remove i }) h.wf k n
  | finish => simp [transmitted, written, content]
  | setShouldRun b => simp [transmitted, written, content]
  | openTransport => simp [transmitted, written, content]
  | closeTransport => simp [transmitted, written, content]
  | cancelTransport => simp [transmitted, written, content]

end Pump

/-- **The pump conserves bytes.** On every run of every class, what has been
    transmitted, followed by what is left in `tx_current_` and in `tx_queue_`,
    is what has been passed to `write`, and a send that is outstanding is a
    send of `tx_current_`. -/
theorem pump_conserves_bytes (k : PumpKind) {p : Pump} (r : Run (pump k) p) :
    r.collect Pump.transmitted ++ p.tx_current ++ p.unread.flatten = r.collect Pump.written ∧
      ∀ o ∈ p.sends, o.kind = p.tx_current := by
  constructor
  · have hinit : ∀ p, (pump k).init p → p.Inv ∧ Pump.content p = [] := by
      rintro p ⟨should_run, is_open, rfl⟩
      exact ⟨Pump.Inv.new should_run is_open, rfl⟩
    rw [List.append_assoc]
    refine r.conservation hinit ?_ ?_
    · intro s l s' h hn
      exact h.next hn
    · intro s l s' h hn
      exact h.balance hn
  · intro o ho
    rcases (pump_inv r).in_flight with hs | ⟨hk, _⟩
    · rw [hs] at ho; cases ho
    · have hmem : o.kind ∈ p.sends.kinds := List.mem_map.mpr ⟨o, ho, rfl⟩
      rw [hk] at hmem
      exact List.mem_singleton.mp hmem

/-! ### A pump whose connection is up -/

namespace Pump

/-- The steps of a connection that is up: writes that are not empty, posted
    calls, and completions with success of at least one byte (none at all for
    an empty buffer). -/
def up (p : Pump) : PumpLabel → Bool
  | .write d => !d.isEmpty
  | .runPosted => true
  | .finish i (.ok n) =>
      match p.sends.inProgress i with
      | some b => decide (1 ≤ n ∨ b = [])
      | none => false
  | .deliver _ => true
  | _ => false

end Pump

def upPump (k : PumpKind) : System Pump PumpLabel where
  init := fun p => p = Pump.new true true
  next := ((pump k).restrict Pump.up).next

namespace Pump

/-- With no send outstanding and no `startWrite` posted, nothing is left to be
    sent. -/
def Drained (p : Pump) : Prop :=
  p.sends = [] → p.posted = 0 → p.tx_current = [] ∧ p.unread = []

/-- A completion that is delivered reports the whole buffer, and no message is
    waiting in `tx_queue_`. -/
def completesAll (p : Pump) : PumpLabel → Bool
  | .deliver i =>
      match p.sends.finished i with
      | some (b, .ok n) => decide (b.length ≤ n) && !p.tx_queue.is_not_empty
      | _ => true
  | _ => true

theorem completesAll_deliver {p : Pump} (h : p.tx_queue.WF) {i : Nat} {b : Bytes} {n : Nat}
    (hf : p.sends.finished i = some (b, .ok n)) :
    p.completesAll (.deliver i) = true ↔ b.length ≤ n ∧ p.unread = [] := by
  have hempty : p.tx_queue.is_not_empty = false ↔ p.unread = [] := by
    rw [← Bool.not_eq_true, h.is_not_empty_iff, not_not]
  simp [completesAll, hf, hempty]

/-- What holds of a pump that is up whenever `startWrite` may be called. -/
structure Ready (p : Pump) : Prop extends p.Inv where
  running : p.should_run = true
  opened : p.is_open = true
  succeeded : ∀ o ∈ p.sends, ∀ ec, o.result ≠ some (.error ec)
  idle : p.sends = [] → p.tx_current = [] ∧ p.write_in_progress = false
  nonempty : ∀ d ∈ p.unread, d ≠ []

/-- A message that waits has a send or a posted call ahead of it. -/
structure Flowing (p : Pump) : Prop extends p.Ready where
  waiting : p.sends = [] → p.posted = 0 → p.unread = []

theorem Flowing.drained {p : Pump} (h : p.Flowing) : p.Drained := by
  intro hs hp
  exact ⟨(h.idle hs).1, h.waiting hs hp⟩

theorem Flowing.new : (Pump.new true true).Flowing where
  toInv := Inv.new true true
  running := rfl
  opened := rfl
  succeeded := by
    intro o ho
    cases ho
  idle := fun _ => ⟨rfl, rfl⟩
  nonempty := by
    intro d hd
    cases hd
  waiting := fun _ _ => rfl

/-- After `startWrite` a send is outstanding or nothing is waiting. -/
theorem Ready.startWrite {p : Pump} (h : p.Ready) : p.startWrite.Flowing := by
  have hinv := h.toInv.startWrite
  rcases startWrite_cases h.wf with ⟨heq, hwhy⟩ | ⟨d, q, hflag, _, hunread, _, _, heq⟩
  · rw [heq] at hinv ⊢
    refine ⟨h, fun hs _ => ?_⟩
    -- with no send outstanding, the queue must have been empty
    obtain ⟨hcur, hflag⟩ := h.idle hs
    rcases hwhy with hset | hne | hnone
    · rw [hflag] at hset; cases hset
    · exact absurd hcur hne
    · exact hnone
  · rw [heq] at hinv ⊢
    have hsends : (send { p with tx_queue := q, tx_current := d, write_in_progress := true } d).sends
        = p.sends.start d := by
      simp [send, h.opened]
    have hne : p.sends.start d ≠ [] := by simp [Operations.start]
    refine ⟨⟨hinv, h.running, h.opened, ?_, ?_, ?_⟩, ?_⟩
    · intro o ho ec
      rw [hsends] at ho
      rcases Operations.mem_start.mp ho with ho | rfl
      · exact h.succeeded o ho ec
      · simp
    · intro hs
      exact absurd (hsends ▸ hs) hne
    · intro m hm
      exact h.nonempty m (by rw [hunread]; exact List.mem_cons_of_mem d hm)
    · intro hs _
      exact absurd (hsends ▸ hs) hne

theorem Ready.post {p : Pump} (h : p.Ready) : p.post.Flowing :=
  ⟨⟨h.toInv.frame rfl rfl rfl rfl, h.running, h.opened, h.succeeded, h.idle, h.nonempty⟩,
    fun _ hp => absurd hp (Nat.succ_ne_zero _)⟩

theorem Ready.doWrite {p : Pump} (h : p.Ready) (k : PumpKind) : (k.doWrite p).Flowing := by
  rcases k.doWrite_cases p with ⟨heq, hwhy⟩ | ⟨_, heq⟩ | ⟨_, heq⟩
  · rw [heq]
    refine ⟨h, fun hs _ => ?_⟩
    -- the class returned early, so its flag is set and a send is outstanding
    rcases hwhy with hstop | hset
    · rw [h.running] at hstop; cases hstop
    · rw [(h.idle hs).2] at hset; cases hset
  · rw [heq]; exact h.post
  · rw [heq]; exact h.startWrite

theorem Ready.restart {p : Pump} (h : p.Ready) (k : PumpKind) : (k.restart p).Flowing := by
  cases k
  · exact h.post
  · exact h.startWrite
  · exact h.startWrite
  · exact h.startWrite

/-- A completion that leaves nothing behind keeps the pump flowing. -/
theorem Flowing.deliver {p : Pump} (h : p.Flowing) (k : PumpKind) {i : Nat} {b : Bytes}
    {r : Except ErrorCode Nat} (hf : p.sends.finished i = some (b, r))
    (hC : p.completesAll (.deliver i) = true) :
    (k.onSent { p with sends := p.sends.remove i } r).Flowing := by
  obtain ⟨rfl, hrest, _⟩ := h.toInv.deliver hf
  cases r with
  | error ec => exact absurd rfl (h.succeeded _ (Operations.mem_of_finished hf) ec)
  | ok n =>
    obtain ⟨hle, hnone⟩ := (completesAll_deliver h.wf hf).mp hC
    have hadv : ({ p with sends := p.sends.remove i } : Pump).advance n =
        { p with sends := p.sends.remove i, tx_current := [] } := by
      rcases advance_cases (p := { p with sends := p.sends.remove i }) h.wf n with
        ⟨hlt, _⟩ | ⟨d, q, _, hunread, _⟩ | ⟨_, _, heq⟩
      · exact absurd hlt (Nat.not_lt.mpr hle)
      · exact absurd (hunread.symm.trans hnone) (by simp)
      · exact heq
    simp only [PumpKind.onSent, hadv]
    apply Ready.restart
    refine ⟨⟨h.wf, h.capacity, Or.inl hrest⟩, h.running, h.opened, ?_, fun _ => ⟨rfl, rfl⟩, h.nonempty⟩
    intro o ho
    exact absurd (hrest ▸ ho) (by simp)

/-- A successful completion is reported, and its handler is still to be run. -/
theorem Flowing.finish {p : Pump} (h : p.Flowing) {i : Nat} {b : Bytes} {n : Nat}
    (hi : p.sends.inProgress i = some b) :
    ({ p with sends := p.sends.finish i b (.ok n) } : Pump).Flowing := by
  have hnil : p.sends.finish i b (.ok n) = [] → p.sends = [] := by
    intro hs
    rw [← Operations.kinds_eq_nil, Operations.kinds_finish _ hi] at hs
    exact Operations.kinds_eq_nil.mp hs
  have hinv := h.toInv.sends _ (Operations.kinds_finish (.ok n) hi)
  refine ⟨⟨hinv, h.running, h.opened, ?_, fun hs => h.idle (hnil hs), h.nonempty⟩,
    fun hs => h.waiting (hnil hs)⟩
  intro o ho ec
  rcases Operations.mem_of_mem_finish ho with ho | rfl
  · exact h.succeeded o ho ec
  · simp

theorem Flowing.next {k : PumpKind} {p p' : Pump} {l : PumpLabel} (h : p.Flowing)
    (hC : p.completesAll l = true) (hn : (upPump k).next p l = some p') : p'.Flowing := by
  obtain ⟨hup, hn⟩ := System.restrict_next.mp hn
  cases step_of_next hn with
  | @write d q hpush =>
    obtain ⟨hwf, hunread, hcap⟩ := h.wf.push_front hpush
    apply Ready.doWrite
    refine ⟨⟨hwf, hcap.trans h.capacity, h.in_flight⟩, h.running, h.opened, h.succeeded,
      h.idle, ?_⟩
    -- what is queued is not empty, because what is written is not
    intro m hm
    have hm' : m ∈ p.unread ++ [d] := hunread ▸ hm
    rcases List.mem_append.mp hm' with hm' | hm'
    · exact h.nonempty m hm'
    · rw [List.mem_singleton.mp hm']
      simpa [up] using hup
  | runPosted =>
    apply Ready.startWrite
    exact ⟨h.toInv.frame rfl rfl rfl rfl, h.running, h.opened, h.succeeded, h.idle, h.nonempty⟩
  | @finish i b r hi =>
    cases r with
    | error ec => exact absurd hup Bool.false_ne_true
    | ok n => exact h.finish hi
  | deliver hf => exact h.deliver k hf hC
  | setShouldRun b => exact absurd hup Bool.false_ne_true
  | openTransport => exact absurd hup Bool.false_ne_true
  | closeTransport => exact absurd hup Bool.false_ne_true
  | cancelTransport => exact absurd hup Bool.false_ne_true

/-! ### A stalled pump -/

/-- No send is outstanding, and `tx_current_` holds something that no
    `startWrite` will ever send. -/
structure Stalled (p : Pump) : Prop where
  wf : p.tx_queue.WF
  none_sent : p.sends = []
  left : p.tx_current ≠ []

theorem Stalled.startWrite {p : Pump} (h : p.Stalled) : p.startWrite.Stalled := by
  rcases startWrite_cases h.wf with ⟨heq, _⟩ | ⟨d, q, _, hcur, _⟩
  · rw [heq]; exact h
  · exact absurd hcur h.left

theorem Stalled.doWrite {p : Pump} (h : p.Stalled) (k : PumpKind) : (k.doWrite p).Stalled := by
  rcases k.doWrite_cases p with ⟨heq, _⟩ | ⟨_, heq⟩ | ⟨_, heq⟩
  · rw [heq]; exact h
  · rw [heq]; exact ⟨h.wf, h.none_sent, h.left⟩
  · rw [heq]; exact h.startWrite

theorem Stalled.restart {p : Pump} (h : p.Stalled) (k : PumpKind) : (k.restart p).Stalled := by
  cases k
  · exact ⟨h.wf, h.none_sent, h.left⟩
  · exact h.startWrite
  · exact h.startWrite
  · exact h.startWrite

/-- A stalled pump stays stalled, whatever is written and whatever the
    transport does. -/
theorem Stalled.next {k : PumpKind} {p p' : Pump} {l : PumpLabel} (h : p.Stalled)
    (hn : p.next k l = some p') : p'.Stalled := by
  have haborted : cancelAll p.sends = [] := by
    rw [h.none_sent]
    rfl
  cases step_of_next hn with
  | write hpush =>
    apply Stalled.doWrite
    exact ⟨(h.wf.push_front hpush).1, h.none_sent, h.left⟩
  | runPosted =>
    apply Stalled.startWrite
    exact ⟨h.wf, h.none_sent, h.left⟩
  | finish hi => exact absurd (Operations.mem_of_inProgress hi) (by simp [h.none_sent])
  | deliver hf => exact absurd (Operations.mem_of_finished hf) (by simp [h.none_sent])
  | setShouldRun b => exact ⟨h.wf, h.none_sent, h.left⟩
  | openTransport => exact ⟨h.wf, h.none_sent, h.left⟩
  | closeTransport => exact ⟨h.wf, haborted, h.left⟩
  | cancelTransport => exact ⟨h.wf, haborted, h.left⟩

/-- A completion that leaves something behind stalls the pump. -/
theorem Flowing.stalls_deliver {p : Pump} (h : p.Flowing) (k : PumpKind) {i : Nat} {b : Bytes}
    {r : Except ErrorCode Nat} (hf : p.sends.finished i = some (b, r))
    (hC : ¬ p.completesAll (.deliver i) = true) :
    (k.onSent { p with sends := p.sends.remove i } r).Stalled := by
  obtain ⟨rfl, hrest, _⟩ := h.toInv.deliver hf
  cases r with
  | error ec => exact absurd rfl (h.succeeded _ (Operations.mem_of_finished hf) ec)
  | ok n =>
    have hwf : ({ p with sends := p.sends.remove i } : Pump).tx_queue.WF := h.wf
    have hfree : (({ p with sends := p.sends.remove i } : Pump).advance n).sends = [] :=
      (advance_frame _ n).1.trans hrest
    apply Stalled.restart
    refine ⟨(advance_wf hwf n).1, hfree, ?_⟩
    show (({ p with sends := p.sends.remove i } : Pump).advance n).tx_current ≠ []
    rcases advance_cases hwf n with ⟨hlt, heq⟩ | ⟨d, q, _, hunread, _, _, heq⟩ | ⟨hle, hnone, _⟩
    · -- a rest of the buffer is left
      rw [heq]
      exact fun hdrop => Nat.not_lt.mpr (List.drop_eq_nil_iff.mp hdrop) hlt
    · -- the next message has been put into `tx_current_`
      rw [heq]
      have hunread' : p.unread = d :: q.unread := hunread
      exact h.nonempty d (by rw [hunread']; exact List.mem_cons_self)
    · -- otherwise nothing is left behind
      exact absurd ((completesAll_deliver h.wf hf).mpr ⟨hle, hnone⟩) hC

/-- Only a completion can leave something behind. -/
theorem Flowing.stalls {k : PumpKind} {p p' : Pump} {l : PumpLabel} (h : p.Flowing)
    (hC : ¬ p.completesAll l = true) (hn : (upPump k).next p l = some p') : p'.Stalled := by
  obtain ⟨_, hn⟩ := System.restrict_next.mp hn
  cases step_of_next hn with
  | deliver hf => exact h.stalls_deliver k hf hC
  | _ => exact absurd rfl hC

end Pump

/-- **The pump drains exactly as long as every completion leaves nothing
    behind.** In a run of such completions it never stops with something to
    send; after the first other completion it never sends again. -/
theorem pump_drains (k : PumpKind) {p : Pump} (r : Run (upPump k) p)
    (h : r.EachStep fun p l => p.completesAll l = true) :
    r.Throughout Pump.Drained ∧
      ∀ l p', (upPump k).next p l = some p' → ¬ p.completesAll l = true →
        ∀ ls q, (upPump k).exec p' ls = some q → q.sends = [] ∧ q.tx_current ≠ [] := by
  -- `Flowing` is kept by the steps that meet the condition, `Stalled` by all steps
  have hflow : r.Throughout Pump.Flowing := by
    apply Run.guarded _ _ r h
    · rintro p rfl
      exact Pump.Flowing.new
    · intro s l s' hs hC hn
      exact hs.next hC hn
  refine ⟨hflow.mono fun _ hs => hs.drained, ?_⟩
  intro l p' hn hC ls q hq
  have hstall := hflow.last.stalls hC hn
  have hq' : q.Stalled := by
    refine System.exec_invariant ?_ hstall hq
    intro s m s' hs hm
    exact hs.next (System.restrict_next.mp hm).2
  exact ⟨hq'.none_sent, hq'.left⟩

/-- Two messages, of which the second is written when the first has been sent
    and reported. -/
theorem pump_drains_two :
    ∃ (p : Pump) (r : Run (upPump .tcpClient) p), p.sends = [] ∧ r.Throughout Pump.Drained := by
  obtain ⟨p, r, hall, hidle⟩ := Run.exists_of_check (upPump .tcpClient) rfl
    [.write [7], .finish 0 (.ok 1), .deliver 0, .write [8, 9], .finish 0 (.ok 2), .deliver 0]
    Pump.completesAll (fun p => p.sends.isEmpty) (by decide)
  exact ⟨p, r, by simpa using hidle, (pump_drains .tcpClient r hall).1⟩

/-- Two messages written one after the other: the second is put into
    `tx_current_` by the completion of the first, and is never sent. -/
theorem second_message_stalls :
    (∃ (p : Pump) (_ : Run (upPump .serial) p), ¬ p.Drained) ∧
    (∃ (p : Pump) (_ : Run (upPump .tcpClient) p), ¬ p.Drained) ∧
    (∃ (p : Pump) (_ : Run (upPump .udpConnection) p), ¬ p.Drained) ∧
    (∃ (p : Pump) (_ : Run (upPump .tcpServerClient) p), ¬ p.Drained) := by
  let stuck : Pump → Bool := fun p => p.sends.isEmpty && p.posted == 0 && !p.tx_current.isEmpty
  have hstuck : ∀ p : Pump, stuck p = true → ¬ p.Drained := by
    intro p hp hd
    simp only [stuck, Bool.and_eq_true, List.isEmpty_iff, beq_iff_eq, Bool.not_eq_true',
      List.isEmpty_eq_false_iff] at hp
    exact hp.2 (hd hp.1.1 hp.1.2).1
  refine ⟨?_, ?_, ?_, ?_⟩
  · obtain ⟨p, r, _, hp⟩ := Run.exists_of_check (upPump .serial) rfl
      [.write [1], .runPosted, .write [2], .runPosted, .finish 0 (.ok 1), .deliver 0, .runPosted]
      (fun _ _ => true) stuck (by decide)
    exact ⟨p, r, hstuck p hp⟩
  · obtain ⟨p, r, _, hp⟩ := Run.exists_of_check (upPump .tcpClient) rfl
      [.write [1], .write [2], .finish 0 (.ok 1), .deliver 0] (fun _ _ => true) stuck (by decide)
    exact ⟨p, r, hstuck p hp⟩
  · obtain ⟨p, r, _, hp⟩ := Run.exists_of_check (upPump .udpConnection) rfl
      [.write [1], .write [2], .finish 0 (.ok 1), .deliver 0] (fun _ _ => true) stuck (by decide)
    exact ⟨p, r, hstuck p hp⟩
  · obtain ⟨p, r, _, hp⟩ := Run.exists_of_check (upPump .tcpServerClient) rfl
      [.write [1], .write [2], .finish 0 (.ok 1), .deliver 0] (fun _ _ => true) stuck (by decide)
    exact ⟨p, r, hstuck p hp⟩

end DeviceTester
