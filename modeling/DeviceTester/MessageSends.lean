import DeviceTester.ConcurrentStreams

/-! # The messages of concurrent writers

  What the completion lambda takes out of the queue is put into `tx_current_`,
  and not sent. `startWrite` leaves it there. So the messages that get a send are
  those that are taken out by `startWrite` itself. Each of them is sent whole, in
  a send of its own: a datagram of a UDP connection is a message
  (`messages_sent_whole`).
-/

namespace DeviceTester

open Async LTS

namespace Sending

/-- The message that comes into the queue with the step. -/
def messages (s : Sending) : Label → List Bytes
  | .write _ d => if s.pump.tx_queue.is_not_full then [d] else []
  | .wake a =>
      match s.stage a with
      | .waiting d => [d]
      | _ => []
  | _ => []

/-- The buffers of the sends that the step starts. -/
def started (s : Sending) : Label → List Bytes
  | .enter _ => s.pump.lockedStart.sends.kinds.drop s.pump.sends.length
  | _ => []

/-- The step is not that of a completion lambda that has everything written, and
    finds another message. -/
def leavesQueue (s : Sending) : Label → Bool
  | .deliver i =>
      match s.pump.sends.finished i with
      | some (_, .ok written) =>
          decide (written < s.pump.tx_current.length) || s.pump.unread.isEmpty
      | _ => true
  | _ => true

/-! ### One step -/

variable {k : PumpKind} {s s' : Sending}

/-- The section sends the oldest message, or nothing. -/
theorem started_enter (h : s.pump.tx_queue.WF) (a : Agent) :
    s.started (.enter a) ++ s.pump.lockedStart.unread = s.pump.unread := by
  have hlength : s.pump.sends.length = s.pump.sends.kinds.length := Pump.length_sends s.pump
  rcases Pump.lockedStart_cases h with ⟨heq, _⟩ | ⟨d, q, _, hunread, _, _, heq⟩
  · simp only [started]
    rw [heq, hlength, List.drop_length, List.nil_append]
  · have hkinds := Pump.kinds_send
      { s.pump with tx_queue := q, tx_current := d, write_in_progress := true } d
    simp only [started]
    rw [heq, hkinds, hlength, hunread]
    show List.drop _ (s.pump.sends.kinds ++ [d]) ++ q.unread = d :: q.unread
    rw [List.drop_left]
    rfl

/-- The completion lambda drops the oldest message, or nothing. -/
theorem unread_deliver {i : Nat} {b : Bytes} {r : Except ErrorCode Nat} {p : Pump} {stage : Stage}
    (h : s.pump.tx_queue.WF) (hf : s.pump.sends.finished i = some (b, r))
    (hsent : k.beginSent { s.pump with sends := s.pump.sends.remove i } r = (p, stage)) :
    p.unread.Sublist s.pump.unread ∧
      (p.unread = s.pump.unread ↔ s.leavesQueue (.deliver i) = true) := by
  cases r with
  | error ec =>
    cases hsent
    refine ⟨List.Sublist.refl _, iff_of_true rfl ?_⟩
    simp only [leavesQueue, hf]
  | ok n =>
    have hadvance : p.unread =
        (({ s.pump with sends := s.pump.sends.remove i } : Pump).advance n).unread := by
      cases k with
      | serial =>
        cases hsent
        rfl
      | _ =>
        cases hsent
        rfl
    simp only [leavesQueue, hf, Bool.or_eq_true, decide_eq_true_eq, List.isEmpty_iff]
    rw [hadvance]
    rcases Pump.advance_cases (p := { s.pump with sends := s.pump.sends.remove i }) h n with
      ⟨hlt, heq⟩ | ⟨d, q, hle, hunread, _, _, heq⟩ | ⟨_, hnil, heq⟩
    · rw [heq]
      exact ⟨List.Sublist.refl _, iff_of_true rfl (Or.inl hlt)⟩
    · rw [heq]
      have hunread' : s.pump.unread = d :: q.unread := hunread
      show q.unread.Sublist s.pump.unread ∧ (q.unread = s.pump.unread ↔ _)
      rw [hunread']
      refine ⟨List.sublist_cons_self _ _, iff_of_false ?_ ?_⟩
      · intro hsame
        exact absurd (congrArg List.length hsame) (by simp)
      · rintro (hlt | hempty)
        · exact absurd hlt (Nat.not_lt.mpr hle)
        · cases hempty
    · rw [heq]
      exact ⟨List.Sublist.refl _, iff_of_true rfl (Or.inr hnil)⟩

/-- What goes into the queue with a step, and what comes out of it. -/
theorem messages_next {l : Label} (h : s.pump.Streaming) (hn : s.next k l = some s') :
    (s.started l ++ s'.pump.unread).Sublist (s.pump.unread ++ s.messages l) ∧
      (s.started l ++ s'.pump.unread = s.pump.unread ++ s.messages l ↔
        s.leavesQueue l = true) := by
  have hkeeps : s.started l ++ s'.pump.unread = s.pump.unread ++ s.messages l →
      s.leavesQueue l = true →
      (s.started l ++ s'.pump.unread).Sublist (s.pump.unread ++ s.messages l) ∧
        (s.started l ++ s'.pump.unread = s.pump.unread ++ s.messages l ↔
          s.leavesQueue l = true) := by
    intro heq hl
    rw [heq]
    exact ⟨List.Sublist.refl _, iff_of_true rfl hl⟩
  have hnothing : s.pump.unread = s.pump.unread ++ [] := (List.append_nil _).symm
  cases step_of_next hn with
  | write ha hpush =>
    refine hkeeps ?_ rfl
    simp only [messages, (RingBuffer.is_not_full_of_push_front hpush).1, if_true]
    exact (h.wf.push_front hpush).2.1
  | wait ha hpush =>
    refine hkeeps ?_ rfl
    simp only [messages, RingBuffer.push_front_eq_none.mp hpush, Bool.false_eq_true, if_false]
    exact hnothing
  | wake ha hpush =>
    refine hkeeps ?_ rfl
    simp only [messages, ha]
    exact (h.wf.push_front hpush).2.1
  | doWrite ha =>
    refine hkeeps ?_ rfl
    have hqueue := (k.beginWrite_pump s.pump).1
    exact (congrArg RingBuffer.unread hqueue).trans hnothing
  | test ha => exact hkeeps hnothing rfl
  | enter ha => exact hkeeps ((started_enter h.wf _).trans hnothing) rfl
  | runPosted ha hposted => exact hkeeps hnothing rfl
  | deliver ha hf hsent =>
    show (List.Sublist _ (s.pump.unread ++ [])) ∧ (_ = s.pump.unread ++ [] ↔ _)
    rw [List.append_nil]
    exact unread_deliver h.wf hf hsent
  | transport hl hp =>
    refine hkeeps ?_ rfl
    exact (congrArg RingBuffer.unread (transport_frame hl hp).1).trans hnothing

end Sending

/-- **Every send carries one whole message**, and they are in the order of the
    writes: the buffers of the sends that have been started, followed by the queue,
    are the messages that have been written, with some left out. None is left out
    exactly when no completion lambda has everything written and finds another
    message. -/
theorem messages_sent_whole (k : PumpKind) {s : Sending} (r : Run (sending k) s) :
    (r.collect Sending.started ++ s.pump.unread).Sublist (r.collect Sending.messages) ∧
      (r.collect Sending.started ++ s.pump.unread = r.collect Sending.messages ↔
        r.EachStep fun s l => s.leavesQueue l = true) := by
  apply r.conservation_iff (I := fun s => s.pump.Streaming)
  · intro s hs
    obtain ⟨should_run, is_open, rfl⟩ := hs
    exact ⟨.new should_run is_open, rfl⟩
  · intro s l s' h hn
    exact (Sending.streaming_next h hn).1
  · intro s l s' h hn
    exact (Sending.messages_next h hn).1
  · intro s l s' h hn
    exact (Sending.messages_next h hn).2

/-- The second message is taken out by the completion lambda of the first. -/
example : (sending .udpConnection).emits Sending.started (.new true true)
    [.write (.thread 0) [1], .doWrite (.thread 0), .test (.thread 0), .enter (.thread 0),
      .write (.thread 0) [2], .transport (.finish 0 (.ok 1)), .deliver 0, .test .strand,
      .enter .strand] = [[1]] := by
  decide

end DeviceTester
