import DeviceTester.UdpConnection

/-! # Receiving on a UDP connection

  Receiving can be turned on once. As nothing closes the socket, the second
  `open` fails, be it of `setReceiving` or of `setOptions`; and `cancel` does
  not take back a receive that has finished already (`receiving_iff`).

  The theorem is about the runs in which the operating system grants every
  `open` and `bind` of a socket that is not open, and in which the options
  always name a protocol.
-/

namespace DeviceTester

open Async LTS

namespace UdpConnection

variable {Address : Type}

/-! ### The property -/

/-- Labels of the runs the theorem is about. -/
def granted (_ : Impl Address) : Label → Bool
  | .setOptions opts os => decide (opts.listen_protocol ≠ .none) && decide (os = .granted)
  | .setReceiving _ os => decide (os = .granted)
  | _ => true

def grantedSystem (make_address : String → Option Address) : System (Impl Address) Label where
  init := fun s => ∃ opts : Options, opts.listen_protocol ≠ .none ∧ s = Impl.new opts
  next := ((system make_address).restrict granted).next

/-- The call is one after which the connection has to receive. -/
def asksToReceive (s : Impl Address) : Label → Bool
  | .setReceiving is_receiving _ => is_receiving
  | .setOptions _ _ => s.isReceiving
  | _ => false

/-- **(R)** `isReceiving` tells whether a receive that has not been cancelled is
    outstanding, and a call that asks to receive succeeds on the current
    options. -/
def Receiving (s : Impl Address) (l : Label) (s' : Impl Address) : Prop :=
  (s'.isReceiving = true ↔ 0 < liveCount s'.receives) ∧
  (asksToReceive s l = true →
    s'.isReceiving = true ∧ s'.bound = some s'.opts.listenEndpoint ∧
      liveCount s'.receives = 1)

/-- Receiving is turned on before the socket has ever been opened, the options
    are set while it is off, and it is turned off while no receive has finished
    whose handler is still to be run. -/
def receivesOnce (s : Impl Address) : Label → Bool
  | .setReceiving true _ => !s.pump.is_open
  | .setReceiving false _ => liveCount s.receives == pendingCount s.receives
  | .setOptions _ _ => !s.should_receive
  | _ => true

/-! ### The invariant -/

namespace Impl

/-- The invariant of the runs that receive once. -/
structure Sound (s : Impl Address) : Prop where
  protocol : s.opts.listen_protocol ≠ .none
  closed : s.pump.is_open = false → s.receives = []
  on : s.should_receive = true → s.receives.kinds = [()] ∧ liveCount s.receives = 1
  off : s.should_receive = false → liveCount s.receives = 0

theorem Sound.new {opts : Options} (h : opts.listen_protocol ≠ .none) :
    (Impl.new opts : Impl Address).Sound where
  protocol := h
  closed := fun _ => by simp [Impl.new]
  on := by
    intro hon
    simp [Impl.new] at hon
  off := fun _ => by simp [Impl.new]

/-- A connection that receives has its socket open. -/
theorem Sound.opened {s : Impl Address} (h : s.Sound) (hon : s.should_receive = true) :
    s.pump.is_open = true := by
  rw [← Bool.not_eq_false]
  intro hclosed
  obtain ⟨_, hone⟩ := h.on hon
  rw [h.closed hclosed, liveCount_nil] at hone
  omega

/-- The flag is right in every sound state. -/
theorem Sound.flag {s : Impl Address} (h : s.Sound) :
    s.isReceiving = true ↔ 0 < liveCount s.receives := by
  unfold isReceiving
  constructor
  · intro hon
    have hone := (h.on hon).2
    omega
  · intro hpos
    rw [← Bool.not_eq_false]
    intro hoff
    have hzero := h.off hoff
    omega

/-- Soundness depends on the options, on whether the socket is open, and on
    what is being received. -/
theorem Sound.frame {s s' : Impl Address} (h : s.Sound) (ho : s'.opts = s.opts)
    (hp : s'.pump.is_open = s.pump.is_open) (hf : s'.should_receive = s.should_receive)
    (hr : s'.receives = s.receives) : s'.Sound where
  protocol := ho ▸ h.protocol
  closed := by rw [hp, hr]; exact h.closed
  on := by rw [hf, hr]; exact h.on
  off := by rw [hf, hr]; exact h.off

/-! What the two calls do. -/

/-- The first `startReceive` opens, binds and starts the one receive. -/
theorem startReceive_closed {s : Impl Address} (hp : s.opts.listen_protocol ≠ .none)
    (hc : s.pump.is_open = false) :
    s.startReceive .granted =
      { s with
        pump := { s.pump with is_open := true }
        bound := some s.opts.listenEndpoint
        listen_endpoint := some s.opts.listenEndpoint
        should_receive := true
        receives := s.receives.start () } := by
  simp [startReceive, startRead, hp, hc]

/-- Every other one fails, and clears the flag of a receive that goes on. -/
theorem startReceive_open {s : Impl Address} (hp : s.opts.listen_protocol ≠ .none)
    (ho : s.pump.is_open = true) (os : Answer) :
    s.startReceive os =
      { s with
        listen_endpoint := some s.opts.listenEndpoint
        should_receive := false } := by
  simp [startReceive, hp, ho]

/-- `setOptions` while nothing is received only stores the options. -/
theorem setOptions_idle (make_address : String → Option Address) {s : Impl Address}
    (hoff : s.should_receive = false) (opts : Options) (os : Answer) :
    ∃ endpoint, s.setOptions make_address opts os =
      { s with opts := opts, write_endpoint := endpoint } := by
  simp only [setOptions, isReceiving, hoff, Bool.false_eq_true, if_false]
  cases make_address opts.write_address with
  | none => exact ⟨s.write_endpoint, rfl⟩
  | some address => exact ⟨some (address, opts.write_port), rfl⟩

/-- `setOptions` on a connection that receives turns receiving off. -/
theorem setOptions_receiving (make_address : String → Option Address) {s : Impl Address}
    (hon : s.should_receive = true) (ho : s.pump.is_open = true) {opts : Options}
    (hp : opts.listen_protocol ≠ .none) (os : Answer) :
    (s.setOptions make_address opts os).should_receive = false := by
  have hfail : (({ s with opts := opts } : Impl Address).disconnect.startReceive os).should_receive
      = false := by
    rw [startReceive_open (s := ({ s with opts := opts } : Impl Address).disconnect) hp ho os]
  simp only [setOptions, isReceiving, hon, if_true]
  split
  · exact hfail
  · exact hfail

/-- Turning off cancels what is in progress, and leaves what has finished. -/
theorem liveCount_disconnect (s : Impl Address) :
    liveCount s.disconnect.receives + pendingCount s.receives = liveCount s.receives :=
  liveCount_cancelAll s.receives

theorem Sound.disconnect {s : Impl Address} (h : s.Sound)
    (hl : liveCount s.receives = pendingCount s.receives) : s.disconnect.Sound where
  protocol := h.protocol
  closed := by
    intro hc
    show cancelAll s.receives = []
    rw [h.closed hc]
    simp [cancelAll, Operations.abort]
  on := by
    intro hon
    simp [Impl.disconnect] at hon
  off := by
    intro _
    have hcount := s.liveCount_disconnect
    omega

/-- The receive handler, with the receive it completes taken out. -/
theorem Sound.receiveDeliver {s : Impl Address} (h : s.Sound) {i : Nat} {r : Except ErrorCode Bytes}
    (hf : s.receives.finished i = some ((), r)) :
    (handleRead { s with receives := s.receives.remove i } r).Sound := by
  have hcount := liveCount_remove hf
  by_cases hon : s.should_receive = true
  · -- the one receive of the connection has completed
    obtain ⟨hone, _⟩ := h.on hon
    obtain ⟨_, hrest⟩ := Operations.remove_of_kinds_singleton hf hone
    have hopen := h.opened hon
    cases r with
    | error ec =>
      refine ⟨h.protocol, fun _ => ?_, fun hon' => ?_, fun _ => ?_⟩
      · simp [handleRead, Impl.disconnect, hrest, cancelAll, Operations.abort]
      · simp [handleRead, Impl.disconnect] at hon'
      · simp [handleRead, Impl.disconnect, hrest, cancelAll, Operations.abort]
    | ok datagram =>
      -- and is replaced by the next one
      have hnext : (handleRead { s with receives := s.receives.remove i } (.ok datagram)).receives
          = Operations.start [] () := by
        simp [handleRead, startRead, hon, hopen, hrest]
      refine ⟨?_, fun hclosed => ?_, fun _ => ?_, fun hoff => ?_⟩
      · simpa [handleRead, startRead, hon] using h.protocol
      · simp [handleRead, startRead, hon, hopen] at hclosed
      · rw [hnext]
        exact ⟨by simp, by simp [liveCount_start]⟩
      · simp [handleRead, startRead, hon] at hoff
  · -- only a cancelled receive is left
    have hoff : s.should_receive = false := by simpa using hon
    have hzero := h.off hoff
    have hrest : liveCount (s.receives.remove i) = 0 := by omega
    cases r with
    | ok datagram =>
      have hlive : live (⟨(), some (.ok datagram)⟩ : Operation Unit (Except ErrorCode Bytes)) = true :=
        rfl
      rw [hlive, if_pos rfl] at hcount
      omega
    | error ec =>
      -- its handler calls `disconnect`, which finds nothing live to cancel
      have hsum := liveCount_cancelAll (s.receives.remove i)
      refine ⟨h.protocol, fun hclosed => ?_, fun hon' => ?_, fun _ => ?_⟩
      · have hnil := h.closed hclosed
        simp [handleRead, Impl.disconnect, hnil, Operations.remove, cancelAll, Operations.abort]
      · simp [handleRead, Impl.disconnect] at hon'
      · show liveCount (cancelAll (s.receives.remove i)) = 0
        omega

/-- A receive in progress finishes. -/
theorem Sound.receiveFinish {s : Impl Address} (h : s.Sound) {i : Nat} {r : Except ErrorCode Bytes}
    (hi : s.receives.inProgress i = some ()) (hr : receiveReportable r = true) :
    ({ s with receives := s.receives.finish i () r } : Impl Address).Sound := by
  have hlive : liveCount (s.receives.finish i () r) = liveCount s.receives :=
    liveCount_finish hi (Bool.and_eq_true_iff.mp hr).1
  refine ⟨h.protocol, fun hc => ?_, fun hon => ?_, fun hoff => ?_⟩
  · have hmem := Operations.mem_of_inProgress hi
    rw [h.closed hc] at hmem
    cases hmem
  · show (s.receives.finish i () r).kinds = [()] ∧ liveCount (s.receives.finish i () r) = 1
    rw [Operations.kinds_finish r hi, hlive]
    exact h.on hon
  · exact hlive.trans (h.off hoff)

/-- The first `startReceive` leaves one receive, on the current options. -/
theorem Sound.startReceive {s : Impl Address} (h : s.Sound) (hc : s.pump.is_open = false) :
    (s.startReceive .granted).Sound ∧ (s.startReceive .granted).isReceiving = true ∧
      (s.startReceive .granted).bound = some (s.startReceive .granted).opts.listenEndpoint ∧
      liveCount (s.startReceive .granted).receives = 1 := by
  have hone : liveCount (s.receives.start ()) = 1 := by
    rw [h.closed hc, liveCount_start, liveCount_nil]
  have hkinds : (s.receives.start ()).kinds = [()] := by
    rw [h.closed hc]
    rfl
  -- nothing has been received on before, so the new receive is the only one
  rw [startReceive_closed h.protocol hc]
  refine ⟨⟨h.protocol, fun hclosed => ?_, fun _ => ⟨hkinds, hone⟩, fun hoff => ?_⟩, rfl, rfl, hone⟩
  · exact absurd hclosed.symm Bool.false_ne_true
  · exact absurd hoff.symm Bool.false_ne_true

end Impl

/-! ### One step of a sound connection -/

/-- The step keeps the state sound when `receivesOnce` lets it through, and is as
    (R) says exactly then. -/
def StepExact (s : Impl Address) (l : Label) (s' : Impl Address) : Prop :=
  (receivesOnce s l = true → s'.Sound) ∧ (Receiving s l s' ↔ receivesOnce s l = true)

/-- A step that does not ask to receive only has to keep the state sound. -/
theorem StepExact.quiet {s s' : Impl Address} {l : Label} (hask : asksToReceive s l = false)
    (hC : receivesOnce s l = true) (hs' : s'.Sound) : StepExact s l s' := by
  refine ⟨fun _ => hs', iff_of_true ⟨hs'.flag, fun hasked => ?_⟩ hC⟩
  exact absurd (hask.symm.trans hasked) Bool.false_ne_true

/-- A call that asks to receive, and after which the connection does not. -/
theorem StepExact.fails {s s' : Impl Address} {l : Label} (hask : asksToReceive s l = true)
    (hC : receivesOnce s l = false) (hoff : s'.isReceiving = false) : StepExact s l s' := by
  unfold StepExact
  rw [hC]
  refine ⟨fun hC => absurd hC Bool.false_ne_true, iff_of_false (fun hR => ?_) Bool.false_ne_true⟩
  exact absurd (hoff.symm.trans (hR.2 hask).1) Bool.false_ne_true

theorem exact_setOptions (make_address : String → Option Address) {s : Impl Address} (h : s.Sound)
    {opts : Options} (hp : opts.listen_protocol ≠ .none) (os : Answer) :
    StepExact s (.setOptions opts os) (s.setOptions make_address opts os) := by
  by_cases hon : s.should_receive = true
  · -- the socket is still open, so the restart fails
    apply StepExact.fails
    · exact hon
    · simp [receivesOnce, hon]
    · exact Impl.setOptions_receiving make_address hon (h.opened hon) hp os
  · have hoff : s.should_receive = false := by simpa using hon
    obtain ⟨endpoint, heq⟩ := Impl.setOptions_idle make_address hoff opts os
    apply StepExact.quiet
    · exact hoff
    · simp [receivesOnce, hoff]
    · rw [heq]
      exact ⟨hp, h.closed, h.on, h.off⟩

theorem exact_setReceiving_on {s : Impl Address} (h : s.Sound) :
    StepExact s (.setReceiving true .granted) (s.startReceive .granted) := by
  by_cases ho : s.pump.is_open = true
  · -- `open` throws
    apply StepExact.fails
    · rfl
    · simp [receivesOnce, ho]
    · rw [Impl.startReceive_open h.protocol ho]
      rfl
  · have hc : s.pump.is_open = false := by simpa using ho
    have hC : receivesOnce s (.setReceiving true .granted) = true := by simp [receivesOnce, hc]
    obtain ⟨hsound, hreceives⟩ := h.startReceive hc
    exact ⟨fun _ => hsound, iff_of_true ⟨hsound.flag, fun _ => hreceives⟩ hC⟩

theorem exact_setReceiving_off {s : Impl Address} (h : s.Sound) :
    StepExact s (.setReceiving false .granted) s.disconnect := by
  unfold StepExact
  simp only [receivesOnce, beq_iff_eq]
  refine ⟨h.disconnect, fun hR => ?_, fun hl => ⟨(h.disconnect hl).flag, fun hask => ?_⟩⟩
  · -- a receive that has finished already would still be delivered
    have hcount := s.liveCount_disconnect
    have hnone : ¬ 0 < liveCount s.disconnect.receives := by
      intro hpos
      have hreceives := hR.1.mpr hpos
      cases hreceives
    omega
  · cases hask

/-- One step of a sound connection. -/
theorem receiving_next {make_address : String → Option Address} {s s' : Impl Address} {l : Label}
    (h : s.Sound) (hn : (grantedSystem make_address).next s l = some s') : StepExact s l s' := by
  obtain ⟨hgranted, hn⟩ := System.restrict_next.mp hn
  -- a step of the pump alone
  have hpump : ∀ {l : PumpLabel} {p : Pump}, s.pump.next .udpConnection l = some p →
      l.keepsFlags = true → ({ s with pump := p } : Impl Address).Sound := by
    intro l p hp hl
    exact h.frame rfl (Pump.next_flags hp hl).2 rfl rfl
  cases Impl.step_of_next hn with
  | setOptions opts os =>
    simp only [granted, Bool.and_eq_true, decide_eq_true_eq] at hgranted
    exact exact_setOptions make_address h hgranted.1 os
  | setReceiving is_receiving os =>
    obtain rfl : os = .granted := of_decide_eq_true hgranted
    cases is_receiving with
    | true => exact exact_setReceiving_on h
    | false => exact exact_setReceiving_off h
  | write hp => exact .quiet rfl rfl (hpump hp rfl)
  | sendFinish hp => exact .quiet rfl rfl (hpump hp rfl)
  | sendDeliver hp => exact .quiet rfl rfl (hpump hp rfl)
  | receiveFinish hi hr => exact .quiet rfl rfl (h.receiveFinish hi hr)
  | receiveDeliver hf => exact .quiet rfl rfl (h.receiveDeliver hf)

/-- **Receiving works once**: the flag is right and every call that asks to
    receive succeeds, throughout a run, exactly when receiving is turned on
    before the socket has ever been opened, the options are only set while it
    is off, and it is not turned off between a datagram and its handler. -/
theorem receiving_iff (make_address : String → Option Address) {s : Impl Address}
    (r : Run (grantedSystem make_address) s) :
    r.Ensures Receiving ↔ r.EachStep fun s l => receivesOnce s l = true := by
  apply Run.ensures_iff (I := Impl.Sound)
  · rintro s ⟨opts, hp, rfl⟩
    exact Impl.Sound.new hp
  · intro s l s' h hC hn
    exact (receiving_next h hn).1 hC
  · intro s l s' h hn
    exact (receiving_next h hn).2

/-- Off and on again: the second `open` fails, and so does the one of
    `setOptions`. And a datagram whose handler has not run yet is delivered
    after receiving has been turned off. -/
theorem receiving_again_fails :
    (∃ (s : Impl Unit) (r : Run (grantedSystem fun _ => some ()) s), ¬ r.Ensures fun s l s' =>
      asksToReceive s l = true → s'.isReceiving = true) ∧
    (∃ (s : Impl Unit) (r : Run (grantedSystem fun _ => some ()) s), ¬ r.Ensures Receiving) ∧
    (∃ (s : Impl Unit) (r : Run (grantedSystem fun _ => some ()) s), ¬ r.Ensures fun _ _ s' =>
      0 < liveCount s'.receives → s'.isReceiving = true) := by
  let opts : Options := ⟨"", 0, .ipv4, 5000⟩
  have hinit : (grantedSystem fun _ => some ()).init (Impl.new opts) := ⟨opts, by decide, rfl⟩
  refine ⟨?_, ?_, ?_⟩
  · apply Run.exists_not_ensures _ hinit [.setReceiving true .granted, .setReceiving false .granted]
      (.setReceiving true .granted) (fun _ s' => !s'.isReceiving)
    · intro s s' hv hR
      rw [hR rfl] at hv
      cases hv
    · decide
  · apply Run.exists_not_ensures _ hinit [.setReceiving true .granted]
      (.setOptions opts .granted) (fun s s' => s.isReceiving && !s'.isReceiving)
    · intro s s' hv hR
      obtain ⟨hon, hoff⟩ := Bool.and_eq_true_iff.mp hv
      rw [(hR.2 hon).1] at hoff
      cases hoff
    · decide
  · apply Run.exists_not_ensures _ hinit [.setReceiving true .granted, .receiveFinish 0 (.ok [7])]
      (.setReceiving false .granted)
      (fun _ s' => decide (0 < liveCount s'.receives) && !s'.isReceiving)
    · intro s s' hv hR
      obtain ⟨hlive, hoff⟩ := Bool.and_eq_true_iff.mp hv
      rw [hR (of_decide_eq_true hlive)] at hoff
      cases hoff
    · decide

end UdpConnection

end DeviceTester
