import DeviceTester.ConcurrentSends
import DeviceTester.WritePump

/-! # The bytes of concurrent writers

  Two sends can be outstanding when several callers come to `startWrite`
  (`ConcurrentSends`). What they can not do is mix their bytes: of the sends
  that overlap all but one are of an empty message, and that one is of
  `tx_current_` (`Streaming`). So what has been transmitted, followed by what is
  left, is still what has been pushed, in the order of the pushes
  (`concurrent_writes_conserve`).
-/

namespace DeviceTester

open Async LTS

namespace Pump

/-! ### The sends that carry something -/

/-- The buffers in flight that are not empty. -/
def loaded (p : Pump) : List Bytes := p.sends.kinds.filter fun b => !b.isEmpty

theorem nonempty_of_loaded {p : Pump} {b : Bytes} (h : b ∈ p.loaded) : b ≠ [] := by
  have hb := (List.mem_filter.mp h).2
  simpa using hb

/-- One send at most carries something, and it is a send of `tx_current_`. No
    send reports more than its buffer. -/
structure Streaming (p : Pump) : Prop where
  wf : p.tx_queue.WF
  in_flight : p.loaded = [] ∨ p.loaded = [p.tx_current]
  honest : ∀ o ∈ p.sends, ∀ n, o.result = some (.ok n) → n ≤ o.kind.length

theorem Streaming.new (should_run is_open : Bool) : (Pump.new should_run is_open).Streaming where
  wf := RingBuffer.new_wf 100
  in_flight := .inl rfl
  honest := by
    intro o ho
    cases ho

theorem Streaming.frame {p p' : Pump} (h : p.Streaming) (hwf : p'.tx_queue.WF)
    (hcurrent : p'.tx_current = p.tx_current) (hsends : p'.sends = p.sends) : p'.Streaming where
  wf := hwf
  in_flight := by
    unfold loaded
    rw [hcurrent, hsends]
    exact h.in_flight
  honest := by
    rw [hsends]
    exact h.honest

/-- With nothing in `tx_current_`, the sends in flight are of nothing. -/
theorem Streaming.loaded_nil {p : Pump} (h : p.Streaming) (hcurrent : p.tx_current = []) :
    p.loaded = [] := by
  rcases h.in_flight with hnil | hone
  · exact hnil
  · have hmem : p.tx_current ∈ p.loaded := by
      rw [hone]
      exact List.mem_singleton_self _
    exact absurd hcurrent (nonempty_of_loaded hmem)

/-! ### The calls -/

/-- Sends of the same buffers, with results that are as honest. -/
theorem Streaming.sends {p : Pump} (h : p.Streaming)
    {ops : Operations Bytes (Except ErrorCode Nat)} (hk : ops.kinds = p.sends.kinds)
    (hhonest : ∀ o ∈ ops, ∀ n, o.result = some (.ok n) → n ≤ o.kind.length) (is_open : Bool) :
    ({ p with is_open := is_open, sends := ops } : Pump).Streaming where
  wf := h.wf
  in_flight := by
    show ops.kinds.filter _ = [] ∨ ops.kinds.filter _ = [p.tx_current]
    rw [hk]
    exact h.in_flight
  honest := hhonest

theorem Streaming.finish {p : Pump} (h : p.Streaming) {i : Nat} {b : Bytes}
    {r : Except ErrorCode Nat} (hi : p.sends.inProgress i = some b) (hr : admissible b r = true) :
    ({ p with sends := p.sends.finish i b r } : Pump).Streaming := by
  refine h.sends (Operations.kinds_finish r hi) ?_ p.is_open
  intro o ho n hn
  rcases Operations.mem_of_mem_finish ho with hold | hnew
  · exact h.honest o hold n hn
  · rw [hnew] at hn ⊢
    obtain rfl := Option.some.inj hn
    simpa [admissible, reportable] using hr

theorem Streaming.abort {p : Pump} (h : p.Streaming) (is_open : Bool) :
    ({ p with is_open := is_open, sends := cancelAll p.sends } : Pump).Streaming := by
  refine h.sends (Operations.kinds_abort _ _) ?_ is_open
  intro o ho n hn
  rcases Operations.mem_of_mem_abort ho with hold | ⟨haborted, _⟩
  · exact h.honest o hold n hn
  · rw [haborted] at hn
    cases hn

/-- The section takes a message out only while nothing that carries something is
    in flight. -/
theorem Streaming.lockedStart {p : Pump} (h : p.Streaming) : p.lockedStart.Streaming := by
  rcases lockedStart_cases h.wf with ⟨heq, _⟩ | ⟨d, q, hcurrent, _, hwf, _, heq⟩
  · rw [heq]
    exact h
  · rw [heq]
    have hnil := h.loaded_nil hcurrent
    refine ⟨hwf, ?_, ?_⟩
    · unfold loaded at hnil ⊢
      rw [kinds_send, List.filter_append, hnil, List.nil_append]
      by_cases hd : d = []
      · exact .inl (by simp [hd])
      · exact .inr (by simp [hd, send])
    · -- the new send is in progress, or has failed on a closed transport
      intro o ho n hn
      unfold send at ho
      cases hopen : p.is_open with
      | true =>
        simp only [hopen, if_true, Operations.mem_start] at ho
        rcases ho with hold | hnew
        · exact h.honest o hold n hn
        · rw [hnew] at hn
          cases hn
      | false =>
        simp only [hopen, Bool.false_eq_true, if_false, Operations.startDone, List.mem_append,
          List.mem_singleton] at ho
        rcases ho with hold | hnew
        · exact h.honest o hold n hn
        · rw [hnew] at hn
          cases hn

/-! ### Completions -/

/-- The buffers in flight before the handler of a send is run, and after. -/
theorem loaded_remove {p : Pump} {i : Nat} {b : Bytes} {r : Except ErrorCode Nat}
    (hf : p.sends.finished i = some (b, r)) :
    p.loaded.Perm ((if b = [] then [] else [b]) ++
      ({ p with sends := p.sends.remove i } : Pump).loaded) := by
  have hperm := ((Operations.perm_remove hf).map Operation.kind).filter fun b => !b.isEmpty
  rw [List.map_cons, List.filter_cons] at hperm
  unfold loaded Operations.kinds
  by_cases hb : b = []
  · simpa [hb] using hperm
  · simpa [hb] using hperm

/-- A completion of nothing reports nothing, and one of something is that of
    `tx_current_`, with nothing else in flight. -/
theorem Streaming.deliver {p : Pump} (h : p.Streaming) {i n : Nat} {b : Bytes}
    (hf : p.sends.finished i = some (b, .ok n)) :
    (b = [] ∧ n = 0) ∨
      (b = p.tx_current ∧ ({ p with sends := p.sends.remove i } : Pump).loaded = []) := by
  have hn := h.honest _ (Operations.mem_of_finished hf) n rfl
  have hperm := loaded_remove hf
  by_cases hb : b = []
  · subst hb
    exact .inl ⟨rfl, Nat.le_zero.mp hn⟩
  · right
    rw [if_neg hb] at hperm
    rcases h.in_flight with hnil | hone
    · rw [hnil] at hperm
      exact absurd hperm.length_eq (by simp)
    · rw [hone] at hperm
      obtain ⟨hcurrent, hrest⟩ := List.cons.inj (List.singleton_perm.mp hperm).symm
      exact ⟨hcurrent, hrest⟩

theorem Streaming.remove {p : Pump} (h : p.Streaming) {i : Nat} {b : Bytes}
    {r : Except ErrorCode Nat} (hf : p.sends.finished i = some (b, r)) :
    ({ p with sends := p.sends.remove i } : Pump).Streaming := by
  have hperm := loaded_remove hf
  refine ⟨h.wf, ?_, fun o ho => h.honest o (Operations.mem_of_mem_remove ho)⟩
  rcases h.in_flight with hnil | hone
  · rw [hnil] at hperm
    exact .inl (List.append_eq_nil_iff.mp (List.nil_perm.mp hperm)).2
  · rw [hone] at hperm
    by_cases hb : b = []
    · rw [if_pos hb, List.nil_append] at hperm
      exact .inr (List.singleton_perm.mp hperm).symm
    · rw [if_neg hb] at hperm
      exact .inl (List.cons.inj (List.singleton_perm.mp hperm).symm).2

/-- `advance` comes to nothing for the sends in flight. -/
theorem Streaming.advance {p : Pump} (h : p.Streaming) {n : Nat} (hn : p.loaded = [] ∨ n = 0) :
    (p.advance n).Streaming := by
  have hsends := (advance_frame p n).1
  have hwf := (advance_wf h.wf n).1
  have hloaded : (p.advance n).loaded = p.loaded := by
    unfold loaded
    rw [hsends]
  refine ⟨hwf, ?_, hsends.symm ▸ h.honest⟩
  rw [hloaded]
  rcases hn with hnil | hzero
  · exact .inl hnil
  · subst hzero
    rcases advance_cases h.wf 0 with ⟨_, heq⟩ | ⟨d, q, hle, _⟩ | ⟨hle, _⟩
    · rw [heq, List.drop_zero]
      exact h.in_flight
    · exact .inl (h.loaded_nil (List.eq_nil_of_length_eq_zero (Nat.le_zero.mp hle)))
    · exact .inl (h.loaded_nil (List.eq_nil_of_length_eq_zero (Nat.le_zero.mp hle)))

/-- The completion lambda up to its call of `startWrite`: what has been
    transmitted goes out of what is left. -/
theorem Streaming.beginSent {p p' : Pump} (h : p.Streaming) {k : PumpKind} {i : Nat} {b : Bytes}
    {r : Except ErrorCode Nat} {stage : Stage} (hf : p.sends.finished i = some (b, r))
    (hsent : k.beginSent { p with sends := p.sends.remove i } r = (p', stage)) :
    p'.Streaming ∧ p.transmitted (.deliver i) ++ p'.content = p.content := by
  have hrest := h.remove hf
  cases r with
  | error ec =>
    cases hsent
    refine ⟨hrest, ?_⟩
    simp only [transmitted, hf]
    rfl
  | ok n =>
    have hcontent := content_advance (p := { p with sends := p.sends.remove i }) h.wf n
    have hcome : (({ p with sends := p.sends.remove i } : Pump).advance n).Streaming ∧
        b.take n ++ (({ p with sends := p.sends.remove i } : Pump).advance n).content =
          p.content := by
      rcases h.deliver hf with ⟨hb, hzero⟩ | ⟨hb, hnil⟩
      · subst hb hzero
        exact ⟨hrest.advance (.inr rfl), hcontent⟩
      · subst hb
        exact ⟨hrest.advance (.inl hnil), hcontent⟩
    obtain ⟨hstream, hbytes⟩ := hcome
    have hout : p.transmitted (.deliver i) = b.take n := by
      simp only [transmitted, hf]
    rw [hout]
    cases k with
    | serial =>
      cases hsent
      exact ⟨hstream.frame hstream.wf rfl rfl, hbytes⟩
    | _ =>
      cases hsent
      exact ⟨hstream.frame hstream.wf rfl rfl, hbytes⟩

theorem content_lockedStart {p : Pump} (h : p.tx_queue.WF) :
    p.lockedStart.content = p.content := by
  rcases lockedStart_cases h with ⟨heq, _⟩ | ⟨d, q, hcurrent, hunread, _, _, heq⟩
  · rw [heq]
  · rw [heq, content_send]
    show d ++ q.unread.flatten = p.tx_current ++ p.unread.flatten
    rw [hcurrent, hunread]
    rfl

end Pump

/-! ### Every interleaving -/

namespace Sending

/-- The bytes that come into the queue with the step. -/
def pushed (s : Sending) : Label → Bytes
  | .write _ d => if s.pump.tx_queue.is_not_full then d else []
  | .wake a =>
      match s.stage a with
      | .waiting d => d
      | _ => []
  | _ => []

/-- The bytes that the step reports as transmitted. -/
def transmitted (s : Sending) : Label → Bytes
  | .deliver i => s.pump.transmitted (.deliver i)
  | _ => []

theorem streaming_push {p : Pump} (h : p.Streaming) {d : Bytes} {q : RingBuffer Bytes}
    (hpush : p.tx_queue.push_front d = some q) :
    ({ p with tx_queue := q } : Pump).Streaming ∧
      ({ p with tx_queue := q } : Pump).content = p.content ++ d := by
  obtain ⟨hwf, hunread, _⟩ := h.wf.push_front hpush
  refine ⟨h.frame hwf rfl rfl, ?_⟩
  show p.tx_current ++ q.unread.flatten = p.tx_current ++ p.unread.flatten ++ d
  rw [hunread]
  simp

/-- One step of a caller, the strand or the transport. -/
theorem streaming_next {k : PumpKind} {s s' : Sending} {l : Label} (h : s.pump.Streaming)
    (hn : s.next k l = some s') :
    s'.pump.Streaming ∧ s.transmitted l ++ s'.pump.content = s.pump.content ++ s.pushed l := by
  have hnothing : s.pump.content = s.pump.content ++ [] := (List.append_nil _).symm
  cases step_of_next hn with
  | write ha hpush =>
    obtain ⟨hstream, hbytes⟩ := streaming_push h hpush
    refine ⟨hstream, ?_⟩
    simp only [pushed, (RingBuffer.is_not_full_of_push_front hpush).1, if_true]
    exact hbytes
  | wait ha hpush =>
    refine ⟨h, ?_⟩
    simp only [pushed, RingBuffer.push_front_eq_none.mp hpush, Bool.false_eq_true, if_false]
    exact hnothing
  | wake ha hpush =>
    obtain ⟨hstream, hbytes⟩ := streaming_push h hpush
    refine ⟨hstream, ?_⟩
    simp only [pushed, ha]
    exact hbytes
  | doWrite ha =>
    obtain ⟨hqueue, hcurrent, hsends⟩ := k.beginWrite_pump s.pump
    refine ⟨h.frame (hqueue.symm ▸ h.wf) hcurrent hsends, ?_⟩
    have hcontent : (k.beginWrite s.pump).1.content = s.pump.content := by
      unfold Pump.content Pump.unread
      rw [hqueue, hcurrent]
    exact hcontent.trans hnothing
  | test ha => exact ⟨h, hnothing⟩
  | enter ha => exact ⟨h.lockedStart, (Pump.content_lockedStart h.wf).trans hnothing⟩
  | runPosted ha hposted => exact ⟨h.frame h.wf rfl rfl, hnothing⟩
  | deliver ha hf hsent =>
    obtain ⟨hstream, hbytes⟩ := h.beginSent hf hsent
    exact ⟨hstream, hbytes.trans hnothing⟩
  | @transport l p hl hp =>
    obtain ⟨hqueue, hcurrent, _⟩ := transport_frame hl hp
    have hcontent : p.content = s.pump.content := by
      unfold Pump.content Pump.unread
      rw [hqueue, hcurrent]
    refine ⟨?_, hcontent.trans hnothing⟩
    cases Pump.step_of_next hp with
    | write => cases hl
    | runPosted => cases hl
    | deliver => cases hl
    | finish hi hr => exact h.finish hi hr
    | setShouldRun b => exact h.frame h.wf rfl rfl
    | openTransport => exact h.frame h.wf rfl rfl
    | closeTransport => exact h.abort false
    | cancelTransport => exact h.abort s.pump.is_open

end Sending

/-- **No byte is lost, duplicated or reordered**, however the writers, the strand
    and the transport interleave, and with two sends outstanding as with one: what
    has been transmitted, followed by `tx_current_` and the queue, is what has been
    pushed. Of the sends outstanding one at most carries something. -/
theorem concurrent_writes_conserve (k : PumpKind) {s : Sending} (r : Run (sending k) s) :
    r.collect Sending.transmitted ++ s.pump.tx_current ++ s.pump.unread.flatten =
        r.collect Sending.pushed ∧
      (s.pump.loaded = [] ∨ s.pump.loaded = [s.pump.tx_current]) := by
  have hinit : ∀ s, (sending k).init s → s.pump.Streaming ∧ s.pump.content = [] := by
    intro s hs
    obtain ⟨should_run, is_open, rfl⟩ := hs
    exact ⟨.new should_run is_open, rfl⟩
  have hstep : ∀ s l s', s.pump.Streaming → (sending k).next s l = some s' →
      s'.pump.Streaming := fun s l s' h hn => (Sending.streaming_next h hn).1
  constructor
  · rw [List.append_assoc]
    exact r.conservation hinit hstep fun s l s' h hn => (Sending.streaming_next h hn).2
  · exact (r.invariant (fun s hs => (hinit s hs).1) hstep).in_flight

end DeviceTester
