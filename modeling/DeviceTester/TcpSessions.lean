import DeviceTester.TcpClient

/-! # Sessions of the TCP client

  What one `connect` leaves for the next: whether a client works after it has
  connected (`usable_iff`), and whether a completion that belongs to an earlier
  session can act on a later one (`isolated_iff`). Both fail on the code, and
  the theorems say on which steps.

  All of it rests on one invariant. `should_run_` is set in the constructor and
  cleared by `disconnect`, and no statement ever sets it again.
-/

namespace DeviceTester

open Async LTS

namespace TcpClient

/-! ### The invariant of all runs -/

structure Impl.Inv (s : Impl) : Prop where
  pump : s.pump.Inv
  run : s.pump.should_run = true ↔ s.hist.disconnects = 0
  socket : s.hist.socket_session ≤ s.hist.disconnects
  lookups : ∀ l ∈ s.resolves.kinds,
    l.origin.session ≤ l.origin.started ∧ l.origin.started ≤ s.hist.disconnects

namespace Impl

theorem Inv.new : Impl.new.Inv where
  pump := Pump.Inv.new true false
  run := by simp [Impl.new, Pump.new]
  socket := Nat.le_refl 0
  lookups := by
    intro l hl
    cases hl

/-- Nothing the invariant speaks of has changed. -/
theorem Inv.frame {s s' : Impl} (h : s.Inv) (hp : s'.pump = s.pump)
    (hd : s'.hist.disconnects = s.hist.disconnects)
    (hsock : s'.hist.socket_session = s.hist.socket_session)
    (hr : s'.resolves = s.resolves) : s'.Inv where
  pump := hp ▸ h.pump
  run := by rw [hp, hd]; exact h.run
  socket := by rw [hsock, hd]; exact h.socket
  lookups := by rw [hr, hd]; exact h.lookups

theorem Inv.connect {s : Impl} (h : s.Inv) : s.connect.Inv where
  pump := h.pump
  run := h.run
  socket := h.socket
  lookups := by
    intro l hl
    simp only [Impl.connect, Operations.kinds_start, List.mem_append, List.mem_singleton] at hl
    rcases hl with hl | rfl
    · exact h.lookups l hl
    · exact ⟨Nat.le_refl _, Nat.le_refl _⟩

theorem Inv.disconnect {s : Impl} (h : s.Inv) : s.disconnect.Inv where
  pump := (h.pump.abort false).frame rfl rfl rfl rfl
  run := by simp [Impl.disconnect]
  socket := Nat.le_succ_of_le h.socket
  lookups := by
    intro l hl
    obtain ⟨h₁, h₂⟩ := h.lookups l hl
    exact ⟨h₁, Nat.le_succ_of_le h₂⟩

theorem Inv.handleResolve {s : Impl} (h : s.Inv) {l : Lookup}
    (hl : l.origin.session ≤ s.hist.disconnects) (r : Except ErrorCode (List Endpoint)) :
    (s.handleResolve l r).Inv := by
  cases r with
  | error ec => exact h.disconnect
  | ok endpoints =>
    exact ⟨(h.pump.abort true).frame rfl rfl rfl rfl, h.run, hl, h.lookups⟩

theorem Inv.handleConnect {s : Impl} (h : s.Inv) (d : Dial) (r : Except ErrorCode Endpoint) :
    (s.handleConnect d r).Inv := by
  cases r with
  | error ec => exact h.disconnect
  | ok endpoint => exact h.frame rfl rfl rfl rfl

theorem Inv.handleRead {s : Impl} (h : s.Inv) (o : Origin) (r : Except ErrorCode Bytes) :
    (s.handleRead o r).Inv := by
  cases r with
  | error ec => exact h.disconnect
  | ok chunk =>
    simp only [Impl.handleRead]
    split
    · exact h.frame rfl rfl rfl rfl
    · exact h.frame rfl rfl rfl rfl

theorem Inv.setOptions {s : Impl} (h : s.Inv) (opts : Options) : (s.setOptions opts).Inv := by
  have hs : ({ s with opts := opts } : Impl).Inv := h.frame rfl rfl rfl rfl
  simp only [Impl.setOptions]
  split
  · exact hs.disconnect.connect
  · exact hs

/-- The pump of the client may be replaced by one with the same flags. -/
theorem Inv.withPump {s : Impl} (h : s.Inv) {p : Pump} (hp : p.Inv)
    (hrun : p.should_run = s.pump.should_run) (hist : History)
    (hd : hist.disconnects = s.hist.disconnects)
    (hsock : hist.socket_session = s.hist.socket_session) :
    ({ s with pump := p, hist := hist } : Impl).Inv where
  pump := hp
  run := by rw [hrun, hd]; exact h.run
  socket := by rw [hsock, hd]; exact h.socket
  lookups := by rw [hd]; exact h.lookups

end Impl

/-- Every step keeps the invariant. -/
theorem Impl.Inv.next {s s' : Impl} {l : Label} (h : s.Inv) (hn : s.next l = some s') : s'.Inv := by
  -- a step of the pump alone
  have hpump : ∀ {l : PumpLabel} {p : Pump}, s.pump.next .tcpClient l = some p →
      l.keepsFlags = true → ∀ hist : History, hist.disconnects = s.hist.disconnects →
        hist.socket_session = s.hist.socket_session →
        ({ s with pump := p, hist := hist } : Impl).Inv := by
    intro l p hp hl hist hd hsock
    exact h.withPump (h.pump.next hp) (Pump.next_flags hp hl).1 hist hd hsock
  cases Impl.step_of_next hn with
  | connect => exact h.connect
  | disconnect => exact h.disconnect
  | setOptions opts => exact h.setOptions opts
  | write hp => exact hpump hp rfl s.hist rfl rfl
  | sendFinish hp => exact hpump hp rfl s.hist rfl rfl
  | sendDeliver _ hp => exact hpump hp rfl _ rfl rfl
  | @resolveFinish i l r hi =>
    refine ⟨h.pump, h.run, h.socket, ?_⟩
    show ∀ m ∈ (s.resolves.finish i l r).kinds, _
    rw [Operations.kinds_finish r hi]
    exact h.lookups
  | resolveDeliver hf =>
    -- the session of a lookup is one that has begun
    obtain ⟨h₁, h₂⟩ := h.lookups _ (Operations.mem_kinds_of_finished hf)
    apply Inv.handleResolve
    · refine ⟨h.pump, h.run, h.socket, ?_⟩
      intro m hm
      exact h.lookups m (Operations.mem_kinds_of_remove hm)
    · exact Nat.le_trans h₁ h₂
  | connectFinish => exact h.frame rfl rfl rfl rfl
  | connectDeliver =>
    apply Inv.handleConnect
    exact h.frame rfl rfl rfl rfl
  | receiveFinish => exact h.frame rfl rfl rfl rfl
  | receiveDeliver =>
    apply Inv.handleRead
    exact h.frame rfl rfl rfl rfl

/-! ### A client that has connected works -/

namespace Impl

/-- **(C)** After a successful `handleConnect`, and until the next `disconnect`
    or failed completion, writes are passed on to `startWrite` and exactly one
    receive is outstanding that has not been cancelled. -/
def Usable (s : Impl) : Prop :=
  s.hist.connected = true → s.pump.should_run = true ∧ liveCount s.receives = 1

/-- A `handleConnect` succeeds only before the first `disconnect` and with no
    receive outstanding, and no resolve succeeds while a connected client has a
    receive in progress. -/
def staysUsable (s : Impl) : Label → Bool
  | .connectDeliver i =>
      match s.connects.finished i with
      | some (_, r) =>
          (s.connectResult r matches .error _) ||
            (s.hist.disconnects == 0 && liveCount s.receives == 0)
      | none => true
  | .resolveDeliver i =>
      match s.resolves.finished i with
      | some (_, .ok _) => !s.hist.connected || pendingCount s.receives == 0
      | _ => true
  | _ => true

theorem usable_of_not_connected {s : Impl} (h : s.hist.connected = false) : s.Usable := by
  intro hc
  rw [h] at hc
  cases hc

/-- Usability depends on four fields. -/
theorem Usable.frame {s s' : Impl} (h : s.Usable)
    (hc : s'.hist.connected = true → s.hist.connected = true)
    (hrun : s'.pump.should_run = s.pump.should_run) (hr : s'.receives = s.receives) :
    s'.Usable := by
  intro hc'
  rw [hrun, hr]
  exact h (hc hc')

/-- `startRead` adds one receive, also on a closed socket. -/
theorem liveCount_startRead (s : Impl) (session : Nat) :
    liveCount (s.startRead session).receives = liveCount s.receives + 1 := by
  simp only [startRead]
  split
  · exact liveCount_start s.receives _
  · exact liveCount_startDone s.receives _ rfl

/-- A handler of the socket is run with success only while the socket is open. -/
theorem connectResult_cases (s : Impl) (r : Except ErrorCode Endpoint) :
    (∃ ec, s.connectResult r = .error ec) ∨
      (s.pump.is_open = true ∧ ∃ endpoint, r = .ok endpoint ∧ s.connectResult r = .ok endpoint) := by
  unfold connectResult
  by_cases ho : s.pump.is_open = true
  · rw [if_pos ho]
    cases r with
    | error ec => exact Or.inl ⟨ec, rfl⟩
    | ok endpoint => exact Or.inr ⟨ho, endpoint, rfl, rfl⟩
  · rw [if_neg ho]
    exact Or.inl ⟨_, rfl⟩

theorem usable_resolveDeliver {s : Impl} (h : s.Usable) {i : Nat} {l : Lookup}
    {r : Except ErrorCode (List Endpoint)} (hf : s.resolves.finished i = some (l, r)) :
    (handleResolve { s with resolves := s.resolves.remove i } l r).Usable ↔
      s.staysUsable (.resolveDeliver i) = true := by
  cases r with
  | error ec =>
    have hbad : s.staysUsable (.resolveDeliver i) = true := by simp [staysUsable, hf]
    exact iff_of_true (usable_of_not_connected rfl) hbad
  | ok endpoints =>
    -- the connect is started on the socket the receive of the session is on
    have hcount := liveCount_cancelAll s.receives
    simp only [staysUsable, hf, Usable, handleResolve, asyncConnect, Bool.or_eq_true,
      Bool.not_eq_true', beq_iff_eq]
    by_cases hc : s.hist.connected = true
    · obtain ⟨hrun, hone⟩ := h hc
      simp only [hc, hrun, true_and, forall_const, Bool.true_eq_false, false_or]
      omega
    · simp [hc]

theorem usable_connectDeliver {s : Impl} (hinv : s.Inv) {i : Nat} {d : Dial}
    {r : Except ErrorCode Endpoint} (hf : s.connects.finished i = some (d, r)) :
    (handleConnect { s with connects := s.connects.remove i } d (s.connectResult r)).Usable ↔
      s.staysUsable (.connectDeliver i) = true := by
  rcases s.connectResult_cases r with ⟨ec, hr⟩ | ⟨_, endpoint, _, hr⟩
  · have hbad : s.staysUsable (.connectDeliver i) = true := by simp [staysUsable, hf, hr]
    rw [hr]
    exact iff_of_true (usable_of_not_connected rfl) hbad
  · have hcount := liveCount_startRead
      { s with
        connects := s.connects.remove i
        connection_str := "[tcp-client] " ++ endpoint.address ++ ":" ++ toString endpoint.port
        hist := { s.hist with
          connected := true, connects_succeeded := s.hist.connects_succeeded + 1 } }
      d.origin.session
    rw [hr]
    simp only [staysUsable, hf, hr, Bool.false_or, Bool.and_eq_true, beq_iff_eq]
    rw [← hinv.run]
    constructor
    · intro hu
      obtain ⟨hrun, hone⟩ := hu rfl
      refine ⟨hrun, ?_⟩
      -- `startRead` adds a receive to those that are left of an earlier session
      have : liveCount s.receives + 1 = 1 := hcount ▸ hone
      omega
    · rintro ⟨hrun, hnone⟩ _
      refine ⟨hrun, hcount.trans ?_⟩
      show liveCount s.receives + 1 = 1
      omega

theorem usable_receiveDeliver {s : Impl} (h : s.Usable) {i : Nat} {o : Origin}
    {r : Except ErrorCode Bytes} (hf : s.receives.finished i = some (o, r)) :
    (handleRead { s with receives := s.receives.remove i } o r).Usable := by
  cases r with
  | error ec => exact usable_of_not_connected rfl
  | ok chunk =>
    have hcount := liveCount_remove hf
    simp only [live, if_true] at hcount
    intro hc
    by_cases hrun : s.pump.should_run = true
    · -- the receive that is delivered is replaced by the next one
      have hre := liveCount_startRead
        { s with receives := s.receives.remove i, received := s.received ++ [chunk] } o.session
      simp only [handleRead, hrun, if_true] at hc ⊢
      obtain ⟨_, hone⟩ := h hc
      refine ⟨hrun, hre.trans ?_⟩
      show liveCount (s.receives.remove i) + 1 = 1
      omega
    · -- a usable client runs, so this does not happen
      have hc' : s.hist.connected = true := by simpa [handleRead, hrun] using hc
      exact absurd (h hc').1 hrun

/-- One step of a usable client. -/
theorem usable_next {s s' : Impl} {l : Label} (hinv : s.Inv) (h : s.Usable)
    (hn : s.next l = some s') : s'.Usable ↔ s.staysUsable l = true := by
  cases step_of_next hn with
  | connect => exact iff_of_true (h.frame id rfl rfl) rfl
  | disconnect => exact iff_of_true (usable_of_not_connected rfl) rfl
  -- a client that is connected starts over
  | setOptions opts =>
    refine iff_of_true ?_ rfl
    simp only [setOptions]
    split
    · exact usable_of_not_connected rfl
    · exact h.frame id rfl rfl
  | write hp => exact iff_of_true (h.frame id (Pump.next_flags hp rfl).1 rfl) rfl
  | sendFinish hp => exact iff_of_true (h.frame id (Pump.next_flags hp rfl).1 rfl) rfl
  | sendDeliver _ hp =>
    -- a failed send ends what the property is about
    refine iff_of_true (h.frame ?_ (Pump.next_flags hp rfl).1 rfl) rfl
    intro hc
    exact (Bool.and_eq_true_iff.mp hc).1
  | resolveFinish => exact iff_of_true (h.frame id rfl rfl) rfl
  | resolveDeliver hf => exact usable_resolveDeliver h hf
  | connectFinish => exact iff_of_true (h.frame id rfl rfl) rfl
  | connectDeliver hf => exact usable_connectDeliver hinv hf
  | receiveFinish hi hr =>
    refine iff_of_true ?_ rfl
    intro hc
    obtain ⟨hrun, hone⟩ := h hc
    exact ⟨hrun, (liveCount_finish hi (Bool.and_eq_true_iff.mp hr).1).trans hone⟩
  | receiveDeliver hf => exact iff_of_true (usable_receiveDeliver h hf) rfl

end Impl

/-- **A connected client works** throughout a run exactly when no step of the
    run connects after a `disconnect`, connects with a receive outstanding, or
    resolves over a receive in progress. -/
theorem usable_iff {s : Impl} (r : Run system s) :
    r.Throughout Impl.Usable ↔ r.EachStep fun s l => s.staysUsable l = true := by
  apply Run.throughout_iff (I := fun s => s.Inv ∧ s.Usable)
  · rintro s rfl
    exact ⟨Impl.Inv.new, Impl.usable_of_not_connected rfl⟩
  · intro s h
    exact h.2
  · intro s l s' h hC hn
    exact ⟨h.1.next hn, (Impl.usable_next h.1 h.2 hn).mpr hC⟩
  · intro s l s' h hn hu
    exact (Impl.usable_next h.1 h.2 hn).mp hu

/-- A client that connects again never sends again: after `disconnect` and
    `connect`, and after `setOptions` on a connected client. -/
theorem second_session_is_dead :
    (∃ (s : Impl) (r : Run system s), (r.EachStep fun _ l => !(l matches .setOptions _)) ∧
      ¬ r.Throughout Impl.Usable) ∧
    (∃ (s : Impl) (r : Run system s), (r.EachStep fun _ l => !(l matches .disconnect)) ∧
      ¬ r.Throughout Impl.Usable) := by
  let ep : Endpoint := ⟨"::1", 80⟩
  let dead : Impl → Bool := fun s => s.hist.connected && !s.pump.should_run
  have hdead : ∀ s : Impl, dead s = true → ∀ r : Run system s, ¬ r.Throughout Impl.Usable := by
    intro s hs r hr
    simp only [dead, Bool.and_eq_true, Bool.not_eq_true'] at hs
    have hrun := (hr.last hs.1).1
    rw [hs.2] at hrun
    cases hrun
  -- the aborted receive of the first session is delivered before the second connects
  let again : List Label :=
    [.receiveDeliver 0, .resolveFinish 0 (.ok [ep]), .resolveDeliver 0,
      .connectFinish 0 (.ok ep), .connectDeliver 0]
  let first : List Label :=
    [.connect, .resolveFinish 0 (.ok [ep]), .resolveDeliver 0,
      .connectFinish 0 (.ok ep), .connectDeliver 0]
  constructor
  · obtain ⟨s, r, hall, hs⟩ := Run.exists_of_check system rfl
      (first ++ [.disconnect, .connect] ++ again)
      (fun _ l => !(l matches .setOptions _)) dead (by decide)
    exact ⟨s, r, hall, hdead s hs r⟩
  · obtain ⟨s, r, hall, hs⟩ := Run.exists_of_check system rfl
      (first ++ [.setOptions ⟨"::1", "80"⟩] ++ again)
      (fun _ l => !(l matches .disconnect)) dead (by decide)
    exact ⟨s, r, hall, hdead s hs r⟩

/-! ### A session is not touched by the one before it -/

/-- The operation whose completion handler the step runs, of those the client
    starts to get connected and to receive. -/
def completionOf (s : Impl) : Label → Option Origin
  | .resolveDeliver i => (s.resolves.finished i).map fun x => x.1.origin
  | .connectDeliver i => (s.connects.finished i).map fun x => x.1.origin
  | .receiveDeliver i => (s.receives.finished i).map fun x => x.1
  | _ => none

/-- The socket is open for a session that a later `connect` has begun, with a
    `disconnect` since the operation was started. -/
def openForLater (s : Impl) (o : Origin) : Bool :=
  s.pump.is_open && decide (o.started < s.hist.socket_session)

/-- **(I)** A completion of an operation started before a `disconnect` leaves
    `should_run_` and the socket of a later session alone and starts no read on
    it, and without a `connect` since the last `disconnect` no completion
    starts a connect or makes one succeed. -/
def Isolated (s : Impl) (l : Label) (s' : Impl) : Prop :=
  ∀ o, completionOf s l = some o →
    (o.started < s.hist.disconnects → s'.pump.should_run = s.pump.should_run) ∧
    (openForLater s o = true →
      s'.pump.is_open = true ∧ s'.hist.socket_session = s.hist.socket_session ∧
        s'.hist.reads_started = s.hist.reads_started) ∧
    (s.hist.connect_called = false →
      s'.hist.connects_started = s.hist.connects_started ∧
        s'.hist.connects_succeeded = s.hist.connects_succeeded)

/-- No resolve, failed connect or failed receive of an earlier session is
    delivered while the socket is open for a later one, nor a successful
    connect; and no resolve or connect succeeds without a `connect` since the
    last `disconnect`. -/
def isolates (s : Impl) : Label → Bool
  | .resolveDeliver i =>
      match s.resolves.finished i with
      | some (l, r) =>
          !openForLater s l.origin && (s.hist.connect_called || (r matches .error _))
      | none => true
  | .connectDeliver i =>
      match s.connects.finished i with
      | some (d, r) =>
          !openForLater s d.origin &&
            (s.hist.connect_called || (s.connectResult r matches .error _))
      | none => true
  | .receiveDeliver i =>
      match s.receives.finished i with
      | some (o, .error _) => !openForLater s o
      | _ => true
  | _ => true

/-- `should_run_` is clear already when a completion comes from before a
    `disconnect`. -/
theorem Impl.Inv.stopped {s : Impl} (h : s.Inv) {o : Origin}
    (ho : o.started < s.hist.disconnects) : s.pump.should_run = false := by
  rw [← Bool.not_eq_true, h.run]
  omega

theorem openForLater_stale {s : Impl} (h : s.Inv) {o : Origin} (ho : openForLater s o = true) :
    o.started < s.hist.disconnects := by
  have hlt := of_decide_eq_true (Bool.and_eq_true_iff.mp ho).2
  have hle := h.socket
  omega

/-- A handler that calls `disconnect` is harmless exactly when the socket is
    not open for a later session. -/
theorem isolated_disconnect {s t : Impl} {l : Label} {o : Origin} (h : s.Inv)
    (hc : completionOf s l = some o) (hhist : t.hist = s.hist) :
    Isolated s l t.disconnect ↔ openForLater s o = false := by
  constructor
  · intro hI
    rw [← Bool.not_eq_true]
    intro ho
    -- `disconnect` leaves the socket closed
    have hopen := ((hI o hc).2.1 ho).1
    cases hopen
  · intro ho o' hc'
    obtain rfl : o = o' := Option.some.inj (hc.symm.trans hc')
    refine ⟨fun hlt => (h.stopped hlt).symm, fun hlater => ?_, fun _ => ?_⟩
    · rw [ho] at hlater
      cases hlater
    · simp [Impl.disconnect, hhist]

theorem isolated_resolveDeliver {s : Impl} (h : s.Inv) {i : Nat} {l : Lookup}
    {r : Except ErrorCode (List Endpoint)} (hf : s.resolves.finished i = some (l, r)) :
    Isolated s (.resolveDeliver i)
        (Impl.handleResolve { s with resolves := s.resolves.remove i } l r) ↔
      isolates s (.resolveDeliver i) = true := by
  have hc : completionOf s (.resolveDeliver i) = some l.origin := by simp [completionOf, hf]
  cases r with
  | error ec =>
    have hbad : isolates s (.resolveDeliver i) = true ↔ openForLater s l.origin = false := by
      simp [isolates, hf]
    rw [hbad]
    exact isolated_disconnect h hc rfl
  | ok endpoints =>
    obtain ⟨hsession, _⟩ := h.lookups l (Operations.mem_kinds_of_finished hf)
    simp only [isolates, hf, Bool.and_eq_true, Bool.not_eq_true', Bool.or_false]
    constructor
    · intro hI
      obtain ⟨_, hlater, hcalled⟩ := hI l.origin hc
      constructor
      · rw [← Bool.not_eq_true]
        intro ho
        -- the socket would have to be open for the session of the lookup itself
        have hsame : l.origin.session = s.hist.socket_session := (hlater ho).2.1
        have hlt := of_decide_eq_true (Bool.and_eq_true_iff.mp ho).2
        omega
      · rw [← Bool.not_eq_false]
        intro hno
        -- a successful resolve always starts a connect
        have hstarted : s.hist.connects_started + 1 = s.hist.connects_started := (hcalled hno).1
        omega
    · rintro ⟨ho, hcalled⟩ o hc'
      obtain rfl : l.origin = o := Option.some.inj (hc.symm.trans hc')
      refine ⟨fun _ => rfl, fun hlater => ?_, fun hno => ?_⟩
      · rw [ho] at hlater
        cases hlater
      · rw [hcalled] at hno
        cases hno

theorem isolated_connectDeliver {s : Impl} (h : s.Inv) {i : Nat} {d : Dial}
    {r : Except ErrorCode Endpoint} (hf : s.connects.finished i = some (d, r)) :
    Isolated s (.connectDeliver i)
        (Impl.handleConnect { s with connects := s.connects.remove i } d (s.connectResult r)) ↔
      isolates s (.connectDeliver i) = true := by
  have hc : completionOf s (.connectDeliver i) = some d.origin := by simp [completionOf, hf]
  cases hr : s.connectResult r with
  | error ec =>
    have hbad : isolates s (.connectDeliver i) = true ↔ openForLater s d.origin = false := by
      simp [isolates, hf, hr]
    rw [hbad]
    exact isolated_disconnect h hc rfl
  | ok endpoint =>
    simp only [isolates, hf, hr, Bool.and_eq_true, Bool.not_eq_true', Bool.or_false]
    constructor
    · intro hI
      obtain ⟨_, hlater, hcalled⟩ := hI d.origin hc
      constructor
      · rw [← Bool.not_eq_true]
        intro ho
        -- a successful `handleConnect` always starts a read
        have hread : s.hist.reads_started + 1 = s.hist.reads_started := (hlater ho).2.2
        omega
      · rw [← Bool.not_eq_false]
        intro hno
        -- and it counts as a success
        have hsucc : s.hist.connects_succeeded + 1 = s.hist.connects_succeeded := (hcalled hno).2
        omega
    · rintro ⟨ho, hcalled⟩ o hc'
      obtain rfl : d.origin = o := Option.some.inj (hc.symm.trans hc')
      refine ⟨fun _ => rfl, fun hlater => ?_, fun hno => ?_⟩
      · rw [ho] at hlater
        cases hlater
      · rw [hcalled] at hno
        cases hno

theorem isolated_receiveDeliver {s : Impl} (h : s.Inv) {i : Nat} {o : Origin}
    {r : Except ErrorCode Bytes} (hf : s.receives.finished i = some (o, r)) :
    Isolated s (.receiveDeliver i)
        (Impl.handleRead { s with receives := s.receives.remove i } o r) ↔
      isolates s (.receiveDeliver i) = true := by
  have hc : completionOf s (.receiveDeliver i) = some o := by simp [completionOf, hf]
  cases r with
  | error ec =>
    have hbad : isolates s (.receiveDeliver i) = true ↔ openForLater s o = false := by
      simp [isolates, hf]
    rw [hbad]
    exact isolated_disconnect h hc rfl
  | ok chunk =>
    have hgood : isolates s (.receiveDeliver i) = true := by simp [isolates, hf]
    refine iff_of_true ?_ hgood
    intro o' hc'
    obtain rfl : o = o' := Option.some.inj (hc.symm.trans hc')
    by_cases hrun : s.pump.should_run = true
    · -- no `disconnect` has been executed yet, so nothing is stale
      have hzero := h.run.mp hrun
      simp only [Impl.handleRead, hrun, if_true]
      refine ⟨fun _ => hrun, fun hlater => ?_, fun _ => ⟨rfl, rfl⟩⟩
      have hstale := openForLater_stale h hlater
      omega
    · -- a stopped client does not read on
      simp only [Impl.handleRead]
      rw [if_neg hrun]
      refine ⟨fun _ => rfl, fun hlater => ⟨?_, rfl, rfl⟩, fun _ => ⟨rfl, rfl⟩⟩
      exact (Bool.and_eq_true_iff.mp hlater).1

/-- One step: only the three kinds of completion can break isolation. -/
theorem isolated_next {s s' : Impl} {l : Label} (h : s.Inv) (hn : s.next l = some s') :
    Isolated s l s' ↔ isolates s l = true := by
  cases Impl.step_of_next hn with
  | resolveDeliver hf => exact isolated_resolveDeliver h hf
  | connectDeliver hf => exact isolated_connectDeliver h hf
  | receiveDeliver hf => exact isolated_receiveDeliver h hf
  | _ =>
    refine iff_of_true ?_ rfl
    intro o hc
    cases hc

/-- **Sessions are isolated** in a run exactly when each of its completions is
    one that `isolates` lets through. -/
theorem isolated_iff {s : Impl} (r : Run system s) :
    r.Ensures Isolated ↔ r.EachStep fun s l => isolates s l = true := by
  apply Run.ensures_iff (I := Impl.Inv)
  · rintro s rfl
    exact Impl.Inv.new
  · intro s l s' h _ hn
    exact h.next hn
  · intro s l s' h hn
    exact isolated_next h hn

/-- The aborted receive of the first session closes the socket of the second,
    and a resolve that was not cancelled connects a client after
    `disconnect`. -/
theorem stale_completions_act :
    (∃ (s : Impl) (r : Run system s), ¬ r.Ensures Isolated) ∧
    (∃ (s : Impl) (r : Run system s), ¬ r.Ensures fun s l s' =>
      completionOf s l ≠ none → s.hist.connect_called = false →
        s'.hist.connects_started = s.hist.connects_started) := by
  let ep : Endpoint := ⟨"::1", 80⟩
  constructor
  · -- the socket is open for the second session when the receive of the first is delivered
    apply Run.exists_not_ensures system rfl
      [.connect, .resolveFinish 0 (.ok [ep]), .resolveDeliver 0, .connectFinish 0 (.ok ep),
        .connectDeliver 0, .disconnect, .connect, .resolveFinish 0 (.ok [ep]), .resolveDeliver 0]
      (.receiveDeliver 0)
      (fun s s' => (completionOf s (.receiveDeliver 0)).any fun o =>
        openForLater s o && !s'.pump.is_open)
    · intro s s' hv hI
      obtain ⟨o, hc, ho⟩ := (Option.any_eq_true _ _).mp hv
      obtain ⟨hlater, hclosed⟩ := Bool.and_eq_true_iff.mp ho
      have hopen := ((hI o hc).2.1 hlater).1
      rw [hopen] at hclosed
      cases hclosed
    · decide
  · apply Run.exists_not_ensures system rfl [.connect, .disconnect, .resolveFinish 0 (.ok [ep])]
      (.resolveDeliver 0)
      (fun s s' => (completionOf s (.resolveDeliver 0)).isSome && !s.hist.connect_called &&
        decide (s'.hist.connects_started ≠ s.hist.connects_started))
    · intro s s' hv hI
      simp only [Bool.and_eq_true, Bool.not_eq_true', decide_eq_true_eq] at hv
      exact hv.2 (hI (Option.isSome_iff_ne_none.mp hv.1.1) hv.1.2)
    · decide

end TcpClient

end DeviceTester
