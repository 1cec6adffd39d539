import DeviceTester.SerialRequests
import DeviceTester.TcpSessions
import DeviceTester.UdpConnection

/-! # The write side of the classes

  What the members of `Serial`, `TcpClient` and `UdpConnection` do to the
  sends and the flags of the object is a sequence of steps of the pump, and
  the pump can be all that a class is for whoever writes to it
  (`Serial.pumpSimulation` and its siblings).

  With that, `write_in_progress_` is looked at over runs of the whole object:
  it tells whether a send is outstanding exactly until a failed send is
  reported (`in_progress_iff`).
-/

namespace DeviceTester

open Async LTS

/-! ### The classes refine the pump -/

/-- `close` of the transport with `should_run_` cleared. -/
def stopLabels : List PumpLabel := [.closeTransport, .setShouldRun false]

namespace TcpClient

/-- The steps of the pump in a step of the client. -/
def pumpLabels (s : Impl) : Label → List PumpLabel
  | .disconnect => stopLabels
  | .setOptions _ => if s.isConnected then stopLabels else []
  | .write d => [.write d]
  | .sendFinish i r => [.finish i r]
  | .sendDeliver i => [.deliver i]
  | .resolveDeliver i =>
      match s.resolves.finished i with
      | some (_, .ok _) => [.cancelTransport, .openTransport]
      | some (_, .error _) => stopLabels
      | none => []
  | .connectDeliver i =>
      match (s.connects.finished i).map fun x => s.connectResult x.2 with
      | some (.error _) => stopLabels
      | _ => []
  | .receiveDeliver i =>
      match s.receives.finished i with
      | some (_, .error _) => stopLabels
      | _ => []
  | _ => []

def pumpSimulation : Simulation system (pump .tcpClient) where
  abs := Impl.pump
  labels := pumpLabels
  init := by
    rintro s rfl
    exact ⟨true, false, rfl⟩
  next := by
    intro s l s' hn
    cases Impl.step_of_next hn with
    | setOptions opts =>
      simp only [pumpLabels, Impl.setOptions, Impl.isConnected]
      -- a connected client is disconnected first
      by_cases ho : s.pump.is_open = true
      · simp only [ho, if_true]
        rfl
      · simp only [ho]
        rfl
    | write hp => exact System.exec_cons.mpr ⟨_, hp, rfl⟩
    | sendFinish hp => exact System.exec_cons.mpr ⟨_, hp, rfl⟩
    | sendDeliver _ hp => exact System.exec_cons.mpr ⟨_, hp, rfl⟩
    | @resolveDeliver i l r hf =>
      simp only [pumpLabels, hf]
      cases r with
      | ok endpoints => rfl
      | error ec => rfl
    | @connectDeliver i d r hf =>
      simp only [pumpLabels, hf, Option.map_some]
      cases s.connectResult r with
      | ok endpoint => rfl
      | error ec => rfl
    | @receiveDeliver i o r hf =>
      simp only [pumpLabels, hf]
      cases r with
      | ok chunk =>
        simp only [Impl.handleRead]
        split
        · rfl
        · rfl
      | error ec => rfl
    -- the other steps leave the write side alone, or close it as `stopLabels` says
    | _ => rfl

/-- Completion handlers of sends are run in steps of their own. -/
theorem pumpLabels_quiet (s : Impl) {l : Label} (hl : ∀ i, l ≠ .sendDeliver i) :
    ∀ m ∈ pumpLabels s l, ∀ i, m ≠ .deliver i := by
  have hstop : ∀ m ∈ stopLabels, ∀ i, m ≠ .deliver i := by
    simp [stopLabels]
  cases l with
  | sendDeliver i => exact absurd rfl (hl i)
  | setOptions opts =>
    simp only [pumpLabels]
    split
    · exact hstop
    · simp
  | disconnect => exact hstop
  | resolveDeliver i =>
    simp only [pumpLabels]
    split
    · simp
    · exact hstop
    · simp
  | connectDeliver i =>
    simp only [pumpLabels]
    split
    · exact hstop
    · simp
  | receiveDeliver i =>
    simp only [pumpLabels]
    split
    · exact hstop
    · simp
  | _ => simp [pumpLabels]

end TcpClient

namespace UdpConnection

variable {Address : Type}

/-- `startReceive` opens the socket. -/
def openLabels (s : Impl Address) (os : Answer) : List PumpLabel :=
  if s.opts.listen_protocol = .none ∨ s.pump.is_open = true ∨ os = .openFails then []
  else [.openTransport]

/-- The steps of the pump in a step of the connection. -/
def pumpLabels (s : Impl Address) : Label → List PumpLabel
  | .setOptions opts os =>
      if s.isReceiving then .cancelTransport :: openLabels { s with opts := opts } os else []
  | .setReceiving is_receiving os => if is_receiving then openLabels s os else [.cancelTransport]
  | .write d => [.write d]
  | .sendFinish i r => [.finish i r]
  | .sendDeliver i => [.deliver i]
  | .receiveDeliver i =>
      match s.receives.finished i with
      | some (_, .error _) => [.cancelTransport]
      | _ => []
  | _ => []

theorem exec_openLabels (s : Impl Address) (os : Answer) :
    (pump .udpConnection).exec s.pump (openLabels s os) = some (s.startReceive os).pump := by
  unfold openLabels Impl.startReceive
  by_cases hp : s.opts.listen_protocol = .none
  · simp [hp]
  · by_cases ho : s.pump.is_open = true
    · simp [hp, ho]
    · cases os with
      | openFails => simp [hp, ho]
      | bindFails => simp [hp, ho, System.exec, pump, Pump.next]
      | granted => simp [hp, ho, System.exec, pump, Pump.next, Impl.startRead]

/-- The endpoint to send to is not part of the pump. -/
theorem setOptions_pump (make_address : String → Option Address) (s : Impl Address)
    (opts : Options) (os : Answer) :
    (s.setOptions make_address opts os).pump =
      if s.isReceiving then (({ s with opts := opts } : Impl Address).disconnect.startReceive os).pump
      else s.pump := by
  simp only [Impl.setOptions, Impl.isReceiving]
  by_cases hon : s.should_receive = true
  · simp only [hon, if_true]
    split
    · rfl
    · rfl
  · simp only [hon]
    split
    · rfl
    · rfl

def pumpSimulation (make_address : String → Option Address) :
    Simulation (system make_address) (pump .udpConnection) where
  abs := Impl.pump
  labels := pumpLabels
  init := by
    rintro s ⟨opts, rfl⟩
    exact ⟨true, false, rfl⟩
  next := by
    intro s l s' hn
    cases Impl.step_of_next hn with
    | setOptions opts os =>
      rw [setOptions_pump]
      simp only [pumpLabels]
      split
      · have hexec := exec_openLabels (({ s with opts := opts } : Impl Address).disconnect) os
        exact System.exec_cons.mpr ⟨_, rfl, hexec⟩
      · rfl
    | setReceiving is_receiving os =>
      cases is_receiving with
      | true => exact exec_openLabels s os
      | false => rfl
    | write hp => exact System.exec_cons.mpr ⟨_, hp, rfl⟩
    | sendFinish hp => exact System.exec_cons.mpr ⟨_, hp, rfl⟩
    | sendDeliver hp => exact System.exec_cons.mpr ⟨_, hp, rfl⟩
    | receiveFinish => rfl
    | @receiveDeliver i r hf =>
      simp only [pumpLabels, hf]
      cases r with
      | ok datagram =>
        simp only [Impl.handleRead]
        split
        · rfl
        · rfl
      | error ec => rfl

/-- Completion handlers of sends are run in steps of their own. -/
theorem pumpLabels_quiet (s : Impl Address) {l : Label} (hl : ∀ i, l ≠ .sendDeliver i) :
    ∀ m ∈ pumpLabels s l, ∀ i, m ≠ .deliver i := by
  have hopen : ∀ (t : Impl Address) (os : Answer), ∀ m ∈ openLabels t os, ∀ i, m ≠ .deliver i := by
    intro t os
    unfold openLabels
    split
    · simp
    · simp
  cases l with
  | sendDeliver i => exact absurd rfl (hl i)
  | setOptions opts os =>
    simp only [pumpLabels]
    split
    · intro m hm i
      rcases List.mem_cons.mp hm with rfl | hm
      · simp
      · exact hopen _ os m hm i
    · simp
  | setReceiving is_receiving os =>
    simp only [pumpLabels]
    split
    · exact hopen s os
    · simp
  | receiveDeliver i =>
    simp only [pumpLabels]
    split
    · simp
    · simp
  | _ => simp [pumpLabels]

end UdpConnection

namespace Serial

/-- `doClose` touches the port only while it is open. -/
def closeLabels (s : Impl) : List PumpLabel :=
  if s.pump.is_open then stopLabels else [.setShouldRun false]

/-- What `doOpen` has done after its `doClose` when it leaves the state `s'`. -/
def openLabels (s' : Impl) : List PumpLabel :=
  (if s'.pump.is_open then [.openTransport] else []) ++ [.setShouldRun s'.pump.should_run]

/-- The steps of the pump in a step of the port. -/
def pumpLabels (s : Impl) : Label → List PumpLabel
  | .closing => [.setShouldRun false]
  | .write d => [.write d]
  | .startWrite => [.runPosted]
  | .sendFinish i r => [.finish i r]
  | .sendDeliver i => [.deliver i]
  | .run dev =>
      match s.strand, s.runNext dev with
      | .doOpen :: _, some (.ok s') => closeLabels s ++ openLabels s'
      | .doOpen :: _, some (.error s') => closeLabels s ++ openLabels s'
      | .doClose :: _, _ => closeLabels s
      | .handleRead (.error _) :: _, _ => closeLabels s
      | _, _ => []
  | _ => []

theorem exec_closeLabels (s : Impl) :
    (pump .serial).exec s.pump (closeLabels s) = some s.doClose.pump := by
  unfold closeLabels Impl.doClose
  by_cases ho : s.pump.is_open = true
  · simp [ho, stopLabels, System.exec, pump, Pump.next]
  · simp [ho, System.exec, pump, Pump.next]

/-- Device calls do nothing to the pump but open the transport. -/
theorem foldlM_call_pump {dev : DeviceCall → Bool} {cs : List DeviceCall} {s s' : Impl}
    (h : cs.foldlM (Impl.call dev) s = .ok s' ∨ cs.foldlM (Impl.call dev) s = .error s') :
    s'.pump = { s.pump with is_open := s'.pump.is_open } := by
  induction cs generalizing s with
  | nil =>
    rcases h with h | h
    · obtain rfl := Except.ok.inj h
      rfl
    · cases h
  | cons c cs ih =>
    rw [List.foldlM_cons] at h
    cases hc : s.call dev c with
    | error t =>
      -- the call has thrown, and left everything as it was
      rw [hc] at h
      have ht : t = s := by
        unfold Impl.call at hc
        split at hc
        · cases hc
        · exact (Except.error.inj hc).symm
      rcases h with h | h
      · cases h
      · obtain rfl := Except.error.inj h
        rw [ht]
    | ok t =>
      rw [hc] at h
      obtain ⟨_, rfl⟩ := Impl.call_eq_ok.mp hc
      have hrest := ih h
      have happly : (s.apply c).pump = { s.pump with is_open := (s.apply c).pump.is_open } := by
        cases c <;> rfl
      rw [hrest, happly]

/-- From the port that `doClose` has closed to the state `doOpen` leaves. -/
theorem exec_openLabels {p : Pump} {s' : Impl} (hopen : p.is_open = false)
    (hrest : s'.pump =
      { p with is_open := s'.pump.is_open, should_run := s'.pump.should_run }) :
    (pump .serial).exec p (openLabels s') = some s'.pump := by
  unfold openLabels
  by_cases ho : s'.pump.is_open = true
  · rw [ho] at hrest
    rw [hrest]
    simp [System.exec, pump, Pump.next]
  · have hclosed : s'.pump.is_open = false := by simpa using ho
    rw [hclosed] at hrest
    rw [hrest]
    simp [System.exec, pump, Pump.next, hopen]

theorem doOpen_pump {dev : DeviceCall → Bool} {s s' : Impl}
    (h : Impl.doOpen dev s = .ok s' ∨ Impl.doOpen dev s = .error s') :
    s'.pump = { s.doClose.pump with
      is_open := s'.pump.is_open, should_run := s'.pump.should_run } := by
  unfold Impl.doOpen at h
  cases hcalls : s.opts.deviceCalls.foldlM (Impl.call dev) s.doClose with
  | error t =>
    rw [hcalls] at h
    have hpump := foldlM_call_pump (.inr hcalls)
    rcases h with h | h
    · cases h
    · obtain rfl := Except.error.inj h
      rw [hpump]
  | ok t =>
    rw [hcalls] at h
    have hpump := foldlM_call_pump (.inl hcalls)
    rcases h with h | h
    · obtain rfl := Except.ok.inj h
      show { t.pump with should_run := true } = _
      rw [hpump]
      rfl
    · cases h

/-- Running a handler is a sequence of steps of the pump. -/
theorem exec_runLabels {s s' : Impl} {dev : DeviceCall → Bool} {result : Except Impl Impl}
    (hn : s.runNext dev = some result) (hresult : result = .error s' ∨ result = .ok s') :
    (pump .serial).exec s.pump (pumpLabels s (.run dev)) = some s'.pump := by
  have hrun := hn
  unfold Impl.runNext at hn
  split at hn
  · cases hn
  · next handler rest hs =>
    have hexec := Option.some.inj hn
    cases handler with
    | doOpen =>
      -- the port is closed, and then `doOpen` gets as far as it gets
      have hclose := exec_closeLabels s
      have hpump : s'.pump = { s.doClose.pump with
          is_open := s'.pump.is_open, should_run := s'.pump.should_run } := by
        apply doOpen_pump (s := { s with
          strand := rest
          hist := { s.hist with opened_clean := Impl.noRead { s with strand := rest } } })
        rcases hresult with h | h
        · exact Or.inr (hexec.trans h)
        · exact Or.inl (hexec.trans h)
      have hopen := exec_openLabels (p := s.doClose.pump) rfl hpump
      have hboth := System.exec_append hclose hopen
      rcases hresult with rfl | rfl
      · simpa only [pumpLabels, hs, hrun] using hboth
      · simpa only [pumpLabels, hs, hrun] using hboth
    | doClose =>
      have hok : Except.ok (({ s with strand := rest } : Impl).doClose) = result := hexec
      rcases hresult with rfl | rfl
      · cases hok
      · obtain rfl := Except.ok.inj hok
        simp only [pumpLabels, hs]
        exact exec_closeLabels s
    | doRead =>
      have hok : Except.ok (({ s with strand := rest } : Impl).doRead) = result := hexec
      rcases hresult with rfl | rfl
      · cases hok
      · obtain rfl := Except.ok.inj hok
        simp only [pumpLabels, hs]
        rfl
    | handleRead r =>
      have hok : Except.ok (({ s with strand := rest } : Impl).handleRead r) = result := hexec
      rcases hresult with rfl | rfl
      · cases hok
      · obtain rfl := Except.ok.inj hok
        cases r with
        | ok chunk =>
          simp only [pumpLabels, hs, Impl.handleRead]
          split
          · rfl
          · rfl
        | error ec =>
          simp only [pumpLabels, hs]
          exact exec_closeLabels s

def pumpSimulation : Simulation system (pump .serial) where
  abs := Impl.pump
  labels := pumpLabels
  init := by
    rintro s ⟨opts, rfl⟩
    exact ⟨false, false, rfl⟩
  next := by
    intro s l s' hn
    obtain ⟨_, hstep⟩ := Impl.step_of_next hn
    cases hstep with
    | write hp => exact System.exec_cons.mpr ⟨_, hp, rfl⟩
    | startWrite hp => exact System.exec_cons.mpr ⟨_, hp, rfl⟩
    | sendFinish hp => exact System.exec_cons.mpr ⟨_, hp, rfl⟩
    | sendDeliver hp => exact System.exec_cons.mpr ⟨_, hp, rfl⟩
    | run hrun => exact exec_runLabels hrun (.inr rfl)
    | throw hrun =>
      -- the port is not used any more, and its write side is what the handler left
      have hexec := exec_runLabels hrun (.inl rfl)
      exact hexec
    | _ => rfl

/-- Completion handlers of sends are run in steps of their own. -/
theorem pumpLabels_quiet (s : Impl) {l : Label} (hl : ∀ i, l ≠ .sendDeliver i) :
    ∀ m ∈ pumpLabels s l, ∀ i, m ≠ .deliver i := by
  have hclose : ∀ m ∈ closeLabels s, ∀ i, m ≠ .deliver i := by
    unfold closeLabels
    split
    · simp [stopLabels]
    · simp
  have hboth : ∀ s', ∀ m ∈ closeLabels s ++ openLabels s', ∀ i, m ≠ .deliver i := by
    intro s' m hm i
    rcases List.mem_append.mp hm with hm | hm
    · exact hclose m hm i
    · rcases List.mem_append.mp hm with hm | hm
      · split at hm
        · rw [List.mem_singleton.mp hm]
          simp
        · simp at hm
      · rw [List.mem_singleton.mp hm]
        simp
  cases l with
  | sendDeliver i => exact absurd rfl (hl i)
  | run dev =>
    simp only [pumpLabels]
    split
    · exact hboth _
    · exact hboth _
    · exact hclose
    · exact hclose
    · simp
  | _ => simp [pumpLabels]

end Serial

/-! ### The flag tells whether a send is outstanding -/

namespace Pump

/-- **(F)** `write_in_progress_` is set exactly while a send is outstanding. -/
def Truthful (p : Pump) : Prop := p.write_in_progress = true ↔ p.sends ≠ []

/-- The step reports no failed send. -/
def reportsNoFailure (p : Pump) : PumpLabel → Bool
  | .deliver i =>
      match p.sends.finished i with
      | some (_, .error _) => false
      | _ => true
  | _ => true

theorem Truthful.frame {p p' : Pump} (h : p.Truthful)
    (hf : p'.write_in_progress = p.write_in_progress) (hs : p'.sends = [] ↔ p.sends = []) :
    p'.Truthful := by
  unfold Truthful
  rw [hf, ne_eq, hs]
  exact h

theorem Truthful.startWrite {p : Pump} (h : p.Truthful) (hwf : p.tx_queue.WF) :
    p.startWrite.Truthful := by
  rcases startWrite_cases hwf with ⟨heq, _⟩ | ⟨d, q, _, _, _, _, _, heq⟩
  · rw [heq]
    exact h
  · -- a send has been started, and the flag has been set for it
    have hsends : p.startWrite.sends ≠ [] := by
      intro hnil
      have hkinds := kinds_send { p with tx_queue := q, tx_current := d, write_in_progress := true } d
      rw [← heq, hnil] at hkinds
      simp at hkinds
    have hflag : p.startWrite.write_in_progress = true := by rw [heq]; rfl
    exact iff_of_true hflag hsends

theorem Truthful.doWrite {p : Pump} (h : p.Truthful) (hwf : p.tx_queue.WF) (k : PumpKind) :
    (k.doWrite p).Truthful := by
  rcases k.doWrite_cases p with ⟨heq, _⟩ | ⟨_, heq⟩ | ⟨_, heq⟩
  · rw [heq]
    exact h
  · rw [heq]
    exact h.frame rfl Iff.rfl
  · rw [heq]
    exact h.startWrite hwf

theorem Truthful.restart {p : Pump} (h : p.Truthful) (hwf : p.tx_queue.WF) (k : PumpKind) :
    (k.restart p).Truthful := by
  cases k
  · exact h.frame rfl Iff.rfl
  · exact h.startWrite hwf
  · exact h.startWrite hwf
  · exact h.startWrite hwf

/-- The completion lambda restores the flag, unless the send has failed. -/
theorem truthful_deliver {p : Pump} (hinv : p.Inv) (k : PumpKind) {i : Nat} {b : Bytes}
    {r : Except ErrorCode Nat} (hf : p.sends.finished i = some (b, r)) :
    (k.onSent { p with sends := p.sends.remove i } r).Truthful ↔
      p.reportsNoFailure (.deliver i) = true := by
  obtain ⟨_, hnil, hflag⟩ := hinv.deliver hf
  cases r with
  | error ec =>
    have hfails : p.reportsNoFailure (.deliver i) = false := by simp [reportsNoFailure, hf]
    rw [hfails]
    refine iff_of_false (fun ht => ?_) Bool.false_ne_true
    exact ht.mp hflag hnil
  | ok n =>
    have hsucceeds : p.reportsNoFailure (.deliver i) = true := by simp [reportsNoFailure, hf]
    refine iff_of_true ?_ hsucceeds
    have hwf : ({ p with sends := p.sends.remove i } : Pump).tx_queue.WF := hinv.wf
    have hclear : ({ ({ p with sends := p.sends.remove i } : Pump).advance n with
        write_in_progress := false } : Pump).Truthful := by
      have hsends : (({ p with sends := p.sends.remove i } : Pump).advance n).sends = [] :=
        (advance_frame _ n).1.trans hnil
      exact iff_of_false Bool.false_ne_true (fun hne => hne hsends)
    exact hclear.restart (advance_wf hwf n).1 k

theorem cancelAll_eq_nil {ops : Operations Bytes (Except ErrorCode Nat)} :
    cancelAll ops = [] ↔ ops = [] := by
  simp [cancelAll, Operations.abort]

/-- One step of the pump. -/
theorem truthful_next {k : PumpKind} {p p' : Pump} {l : PumpLabel} (hinv : p.Inv) (h : p.Truthful)
    (hn : p.next k l = some p') : p'.Truthful ↔ p.reportsNoFailure l = true := by
  cases step_of_next hn with
  | write hpush =>
    refine iff_of_true ?_ rfl
    apply Truthful.doWrite
    · exact h.frame rfl Iff.rfl
    · exact (hinv.wf.push_front hpush).1
  | runPosted =>
    refine iff_of_true ?_ rfl
    apply Truthful.startWrite
    · exact h.frame rfl Iff.rfl
    · exact hinv.wf
  | @finish i b r hi =>
    have hnil : p.sends.finish i b r = [] ↔ p.sends = [] := by
      rw [← Operations.kinds_eq_nil, Operations.kinds_finish r hi, Operations.kinds_eq_nil]
    exact iff_of_true (h.frame rfl hnil) rfl
  | deliver hf => exact truthful_deliver hinv k hf
  | setShouldRun b => exact iff_of_true (h.frame rfl Iff.rfl) rfl
  | openTransport => exact iff_of_true (h.frame rfl Iff.rfl) rfl
  | closeTransport => exact iff_of_true (h.frame rfl cancelAll_eq_nil) rfl
  | cancelTransport => exact iff_of_true (h.frame rfl cancelAll_eq_nil) rfl

/-- What holds of the pump between two steps that report no failure. -/
structure Honest (p : Pump) : Prop where
  inv : p.Inv
  truthful : p.Truthful

theorem Honest.new (should_run is_open : Bool) : (Pump.new should_run is_open).Honest where
  inv := Inv.new should_run is_open
  truthful := iff_of_false Bool.false_ne_true (fun hne => hne rfl)

theorem Honest.exec {k : PumpKind} {ls : List PumpLabel} {p p' : Pump} (h : p.Honest)
    (hls : ∀ l ∈ ls, ∀ i, l ≠ .deliver i) (hn : (pump k).exec p ls = some p') : p'.Honest := by
  induction ls generalizing p with
  | nil =>
    simp only [System.exec_nil, Option.some.injEq] at hn
    exact hn ▸ h
  | cons l ls ih =>
    obtain ⟨t, hnext, hrest⟩ := System.exec_cons.mp hn
    have hquiet : p.reportsNoFailure l = true := by
      cases l with
      | deliver i => exact absurd rfl (hls _ List.mem_cons_self i)
      | _ => rfl
    have ht : t.Honest :=
      ⟨h.inv.next hnext, (truthful_next h.inv h.truthful hnext).mpr hquiet⟩
    exact ih ht (fun m hm => hls m (List.mem_cons_of_mem l hm)) hrest

end Pump

theorem exec_singleton {k : PumpKind} {p p' : Pump} {l : PumpLabel}
    (h : (pump k).exec p [l] = some p') : p.next k l = some p' := by
  obtain ⟨t, hnext, ht⟩ := System.exec_cons.mp h
  obtain rfl : t = p' := Option.some.inj ht
  exact hnext

/-- Over the runs of a class that refines the pump, where the class runs a
    completion handler of a send in a step of its own. -/
theorem truthful_iff {State Label : Type} {sys : System State Label} {k : PumpKind}
    (sim : Simulation sys (pump k)) (C : State → Label → Bool)
    (hC : ∀ s l, (∃ i, sim.labels s l = [.deliver i] ∧
        C s l = (sim.abs s).reportsNoFailure (.deliver i)) ∨
      (C s l = true ∧ ∀ m ∈ sim.labels s l, ∀ i, m ≠ .deliver i))
    {s : State} (r : Run sys s) :
    (r.Throughout fun s => (sim.abs s).Truthful) ↔ r.EachStep fun s l => C s l = true := by
  apply Run.throughout_iff (I := fun s => (sim.abs s).Honest)
  · intro s hs
    -- a class constructs its pump with nothing outstanding
    obtain ⟨should_run, is_open, hp⟩ := sim.init s hs
    rw [hp]
    exact Pump.Honest.new should_run is_open
  · intro s h
    exact h.truthful
  · intro s l s' h hl hn
    have hexec := sim.next s l s' hn
    -- either the step is the delivery of a completion, or it does not deliver any
    rcases hC s l with ⟨i, hlabels, hiff⟩ | ⟨_, hquiet⟩
    · rw [hlabels] at hexec
      have hnext := exec_singleton hexec
      exact ⟨h.inv.next hnext, (Pump.truthful_next h.inv h.truthful hnext).mpr (hiff ▸ hl)⟩
    · exact h.exec hquiet hexec
  · intro s l s' h hn htruthful
    have hexec := sim.next s l s' hn
    rcases hC s l with ⟨i, hlabels, hiff⟩ | ⟨hl, _⟩
    · rw [hlabels] at hexec
      rw [hiff]
      exact (Pump.truthful_next h.inv h.truthful (exec_singleton hexec)).mp htruthful
    · exact hl

/-- The step does not run the completion handler of a send that has failed. -/
def Serial.reportsNoFailure (s : Serial.Impl) : Serial.Label → Bool
  | .sendDeliver i => s.pump.reportsNoFailure (.deliver i)
  | _ => true

def TcpClient.reportsNoFailure (s : TcpClient.Impl) : TcpClient.Label → Bool
  | .sendDeliver i => s.pump.reportsNoFailure (.deliver i)
  | _ => true

def UdpConnection.reportsNoFailure {Address : Type} (s : UdpConnection.Impl Address) :
    UdpConnection.Label → Bool
  | .sendDeliver i => s.pump.reportsNoFailure (.deliver i)
  | _ => true

/-- **`write_in_progress_` is right** throughout a run of a serial port, a TCP
    client or a UDP connection exactly when no completion handler of a failed
    send is run in it. -/
theorem in_progress_iff {Address : Type} (make_address : String → Option Address) :
    (∀ (s : Serial.Impl) (r : Run Serial.system s),
      (r.Throughout fun s => s.pump.write_in_progress = true ↔ s.pump.sends ≠ []) ↔
        r.EachStep fun s l => Serial.reportsNoFailure s l = true) ∧
    (∀ (s : TcpClient.Impl) (r : Run TcpClient.system s),
      (r.Throughout fun s => s.pump.write_in_progress = true ↔ s.pump.sends ≠ []) ↔
        r.EachStep fun s l => TcpClient.reportsNoFailure s l = true) ∧
    (∀ (s : UdpConnection.Impl Address) (r : Run (UdpConnection.system make_address) s),
      (r.Throughout fun s => s.pump.write_in_progress = true ↔ s.pump.sends ≠ []) ↔
        r.EachStep fun s l => UdpConnection.reportsNoFailure s l = true) := by
  refine ⟨fun s r => ?_, fun s r => ?_, fun s r => ?_⟩
  · refine truthful_iff Serial.pumpSimulation Serial.reportsNoFailure (fun s l => ?_) r
    by_cases hl : ∃ i, l = .sendDeliver i
    · obtain ⟨i, rfl⟩ := hl
      exact Or.inl ⟨i, rfl, rfl⟩
    · refine Or.inr ⟨?_, Serial.pumpLabels_quiet s fun i h => hl ⟨i, h⟩⟩
      cases l with
      | sendDeliver i => exact absurd ⟨i, rfl⟩ hl
      | _ => rfl
  · refine truthful_iff TcpClient.pumpSimulation TcpClient.reportsNoFailure (fun s l => ?_) r
    by_cases hl : ∃ i, l = .sendDeliver i
    · obtain ⟨i, rfl⟩ := hl
      exact Or.inl ⟨i, rfl, rfl⟩
    · refine Or.inr ⟨?_, TcpClient.pumpLabels_quiet s fun i h => hl ⟨i, h⟩⟩
      cases l with
      | sendDeliver i => exact absurd ⟨i, rfl⟩ hl
      | _ => rfl
  · refine truthful_iff (UdpConnection.pumpSimulation make_address)
      UdpConnection.reportsNoFailure (fun s l => ?_) r
    by_cases hl : ∃ i, l = .sendDeliver i
    · obtain ⟨i, rfl⟩ := hl
      exact Or.inl ⟨i, rfl, rfl⟩
    · refine Or.inr ⟨?_, UdpConnection.pumpLabels_quiet s fun i h => hl ⟨i, h⟩⟩
      cases l with
      | sendDeliver i => exact absurd ⟨i, rfl⟩ hl
      | _ => rfl

/-- A send that fails leaves the flag set for good: on a serial port that is
    closed and opened again, on a TCP client, and on a UDP connection written
    to before its socket is open. -/
theorem failed_send_leaves_flag :
    (∃ (s : Serial.Impl) (_ : Run Serial.system s), s.isOpen = true ∧ s.pump.should_run = true ∧
      ¬ (s.pump.write_in_progress = true ↔ s.pump.sends ≠ [])) ∧
    (∃ (s : TcpClient.Impl) (_ : Run TcpClient.system s), s.isConnected = true ∧
      ¬ (s.pump.write_in_progress = true ↔ s.pump.sends ≠ [])) ∧
    (∃ (s : UdpConnection.Impl Unit) (_ : Run (UdpConnection.system fun _ => some ()) s),
      s.isReceiving = true ∧ ¬ (s.pump.write_in_progress = true ↔ s.pump.sends ≠ [])) := by
  let stuck : Pump → Bool := fun p => p.write_in_progress && p.sends.isEmpty
  have hstuck : ∀ p : Pump, stuck p = true → ¬ (p.write_in_progress = true ↔ p.sends ≠ []) := by
    intro p hp htruthful
    obtain ⟨hflag, hnil⟩ := Bool.and_eq_true_iff.mp hp
    exact htruthful.mp hflag (List.isEmpty_iff.mp hnil)
  let dev : Serial.DeviceCall → Bool := fun _ => true
  refine ⟨?_, ?_, ?_⟩
  · obtain ⟨s, r, _, hs⟩ := Run.exists_of_check Serial.system
      ⟨⟨"", 0, 0, .none, .none, .one⟩, rfl⟩
      [.opening, .run dev, .run dev, .write [1], .startWrite, .closing, .run dev, .sendDeliver 0,
        .readDeliver 0, .run dev, .opening, .run dev, .run dev]
      (fun _ _ => true) (fun s => s.isOpen && s.pump.should_run && stuck s.pump) (by decide)
    simp only [Bool.and_eq_true] at hs
    exact ⟨s, r, hs.1.1, hs.1.2, hstuck s.pump hs.2⟩
  · obtain ⟨s, r, _, hs⟩ := Run.exists_of_check TcpClient.system rfl
      [.connect, .resolveFinish 0 (.ok [⟨"::1", 80⟩]), .resolveDeliver 0,
        .connectFinish 0 (.ok ⟨"::1", 80⟩), .connectDeliver 0, .write [1],
        .sendFinish 0 (.error (.other 32)), .sendDeliver 0]
      (fun _ _ => true) (fun s => s.isConnected && stuck s.pump) (by decide)
    obtain ⟨hopen, hpump⟩ := Bool.and_eq_true_iff.mp hs
    exact ⟨s, r, hopen, hstuck s.pump hpump⟩
  · obtain ⟨s, r, _, hs⟩ := Run.exists_of_check (UdpConnection.system fun _ => some ())
      ⟨⟨"", 0, .ipv4, 5000⟩, rfl⟩
      [.write [1], .sendDeliver 0, .setReceiving true .granted, .write [2]]
      (fun _ _ => true) (fun s => s.isReceiving && stuck s.pump) (by decide)
    obtain ⟨hon, hpump⟩ := Bool.and_eq_true_iff.mp hs
    exact ⟨s, r, hon, hstuck s.pump hpump⟩

end DeviceTester
