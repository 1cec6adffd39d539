import DeviceTester.Framework.SharedBuffer
import DeviceTester.SerialOpening
import DeviceTester.SerialRequests
import DeviceTester.ServerReads
import DeviceTester.TcpClient
import DeviceTester.UdpConnection

/-! # The receive buffers

  Each connection object has one buffer, which all of its receives write to, and
  from which the receive handler passes on the first `n` bytes to `onReceive`.
  The models of the connections let each receive carry what it has got. Here the
  buffer is put under them, to see whether the handlers pass on the same.

  The client of a server and the UDP connection never have two receives
  outstanding, and do. A TCP client and a serial port can have two, after a
  connect that finds a receive still going on (`connectsQuiet`), or an open that
  does (`opensQuiet`). What one of them has got is lost then when the other one
  finishes before its handler.
-/

namespace DeviceTester

open Async LTS SharedBuffer

/-! ### One step of the receives -/

/-- What a step does to the chunks that wait for their handlers and to those that
    have been passed on, when it finishes a receive with `arr` and runs the
    handler of one that has got `hand`. -/
structure Receives (waiting waiting' received received' : List Bytes) (arr hand : Option Bytes) :
    Prop where
  balance : (hand.toList ++ waiting').Perm (waiting ++ arr.toList)
  record : received' = received ++ hand.toList

namespace Receives

variable {κ : Type} {waiting waiting' received received' : List Bytes}
variable {ops ops' : Operations κ (Except ErrorCode Bytes)} {i : Nat} {k : κ}
variable {r : Except ErrorCode Bytes}

theorem idle (hwaiting : waiting' = waiting) (hreceived : received' = received) :
    Receives waiting waiting' received received' none none where
  balance := by simp [hwaiting]
  record := by simp [hreceived]

theorem finish (hi : ops.inProgress i = some k) (received : List Bytes)
    (r : Except ErrorCode Bytes) :
    Receives (arrived ops) (arrived (ops.finish i k r)) received received r.toOption none where
  balance := arrived_finish r hi
  record := by simp

theorem handle (hf : ops.finished i = some (k, r)) (hwaiting : waiting' = arrived (ops.remove i))
    (hreceived : received' = received ++ r.toOption.toList) :
    Receives (arrived ops) waiting' received received' none r.toOption where
  balance := by
    rw [hwaiting, Option.toList_none, List.append_nil]
    exact arrived_remove hf
  record := hreceived

end Receives

/-- The only operation is in progress, so nothing has arrived. -/
theorem arrived_of_one {κ : Type} {ops : Operations κ (Except ErrorCode Bytes)}
    (hone : ops.length ≤ 1) {i : Nat} {k : κ} (hi : ops.inProgress i = some k) :
    arrived ops = [] := by
  have hmem := Operations.mem_of_inProgress hi
  match ops, hone with
  | [], _ => rfl
  | [o], _ =>
    obtain rfl := List.mem_singleton.mp hmem
    rfl

/-- The only operation is the one whose handler is run. -/
theorem remove_of_one {κ : Type} {ops : Operations κ (Except ErrorCode Bytes)}
    (hone : ops.length ≤ 1) {i : Nat} {k : κ} {r : Except ErrorCode Bytes}
    (hf : ops.finished i = some (k, r)) : ops.remove i = [] := by
  have hlen := (Operations.perm_remove hf).length_eq
  rw [List.length_cons] at hlen
  exact List.eq_nil_of_length_eq_zero (by omega)

/-! ### UDP -/

namespace UdpConnection

variable {Address : Type}

/-- The datagram of the receive that the step finishes. -/
def Label.arrives : Label → Option Bytes
  | .receiveFinish _ r => r.toOption
  | _ => none

/-- The datagram of the receive whose handler the step runs. -/
def Impl.handled (s : Impl Address) : Label → Option Bytes
  | .receiveDeliver i => (s.receives.finished i).bind fun x => x.2.toOption
  | _ => none

namespace Impl

/-- At most one receive is outstanding, and none before the socket has been
    opened, which happens once. -/
structure OneReceive (s : Impl Address) : Prop where
  one : s.receives.length ≤ 1
  closed : s.pump.is_open = false → s.receives = []

variable {s s' : Impl Address}

theorem OneReceive.frame (h : s.OneReceive) (hreceives : s'.receives.length = s.receives.length)
    (hopen : s'.pump.is_open = s.pump.is_open) : s'.OneReceive where
  one := hreceives ▸ h.one
  closed := by
    intro hclosed
    rw [hopen] at hclosed
    rw [h.closed hclosed, List.length_nil] at hreceives
    exact List.eq_nil_of_length_eq_zero hreceives

theorem OneReceive.startRead (hnone : s.receives = []) (hopen : s.pump.is_open = true) :
    s.startRead.OneReceive where
  one := by simp [Impl.startRead, hopen, hnone, Operations.start]
  closed := by
    intro hclosed
    have hopen' : s.startRead.pump.is_open = true := hopen
    rw [hopen'] at hclosed
    cases hclosed

theorem OneReceive.disconnect (h : s.OneReceive) : s.disconnect.OneReceive :=
  h.frame (by simp [Impl.disconnect, cancelAll, Operations.abort]) rfl

/-- What `startReceive` does to the receives: nothing, or it starts one on the
    socket it has opened. -/
theorem startReceive_cases (s : Impl Address) (os : Answer) :
    (s.startReceive os).received = s.received ∧
      ((s.startReceive os).receives = s.receives ∧
          ((s.startReceive os).pump.is_open = s.pump.is_open ∨
            (s.startReceive os).pump.is_open = true) ∨
        s.pump.is_open = false ∧ (s.startReceive os).pump.is_open = true ∧
          (s.startReceive os).receives = s.receives.start ()) := by
  unfold Impl.startReceive
  by_cases hnone : s.opts.listen_protocol = .none
  · simp [hnone]
  · cases hopen : s.pump.is_open with
    | true => simp [hnone, hopen]
    | false =>
      cases os with
      | openFails => simp [hnone, hopen]
      | bindFails => simp [hnone, hopen]
      | granted => simp [hnone, hopen, startRead]

theorem OneReceive.startReceive (h : s.OneReceive) (os : Answer) :
    (s.startReceive os).OneReceive ∧
      Receives (arrived s.receives) (arrived (s.startReceive os).receives) s.received
        (s.startReceive os).received none none := by
  obtain ⟨hreceived, ⟨hsame, hopen⟩ | ⟨hclosed, hopen, hstart⟩⟩ := s.startReceive_cases os
  · refine ⟨⟨hsame ▸ h.one, fun hnow => ?_⟩, .idle (congrArg arrived hsame) hreceived⟩
    rw [hsame]
    rcases hopen with hopen | hopen
    · exact h.closed (hopen ▸ hnow)
    · rw [hopen] at hnow
      cases hnow
  · -- there was none before the socket was opened
    have hnone := h.closed hclosed
    refine ⟨⟨?_, fun hnow => ?_⟩, .idle ?_ hreceived⟩
    · rw [hstart, hnone]
      exact Nat.le_refl 1
    · rw [hopen] at hnow
      cases hnow
    · rw [hstart, arrived_start]

/-- `setOptions` restarts receiving if it is on, and sets the endpoint to write
    to. -/
theorem setOptions_eq (make_address : String → Option Address) (s : Impl Address) (opts : Options)
    (os : Answer) :
    ∃ write_endpoint, s.setOptions make_address opts os =
      { (if s.should_receive then ({ s with opts := opts } : Impl Address).disconnect.startReceive os
          else { s with opts := opts }) with write_endpoint := write_endpoint } := by
  unfold Impl.setOptions isReceiving
  simp only
  split
  · exact ⟨_, rfl⟩
  · exact ⟨_, rfl⟩

theorem OneReceive.setOptions (h : s.OneReceive) (make_address : String → Option Address)
    (opts : Options) (os : Answer) :
    (s.setOptions make_address opts os).OneReceive ∧
      Receives (arrived s.receives) (arrived (s.setOptions make_address opts os).receives)
        s.received (s.setOptions make_address opts os).received none none := by
  obtain ⟨write_endpoint, heq⟩ := s.setOptions_eq make_address opts os
  have hopts : ({ s with opts := opts } : Impl Address).OneReceive := h.frame rfl rfl
  have hsame := arrived_cancelAll s.receives
  rw [heq]
  by_cases hon : s.should_receive = true
  · rw [if_pos hon]
    obtain ⟨hone, hreads⟩ := hopts.disconnect.startReceive os
    change Receives (arrived (cancelAll s.receives)) _ s.received _ none none at hreads
    rw [hsame] at hreads
    exact ⟨hone.frame rfl rfl, hreads⟩
  · rw [if_neg hon]
    exact ⟨hopts.frame rfl rfl, .idle rfl rfl⟩

theorem OneReceive.handleRead (h : s.OneReceive) {i : Nat} {r : Except ErrorCode Bytes}
    (hf : s.receives.finished i = some ((), r)) :
    (({ s with receives := s.receives.remove i } : Impl Address).handleRead r).OneReceive ∧
      Receives (arrived s.receives)
        (arrived (({ s with receives := s.receives.remove i } : Impl Address).handleRead r).receives)
        s.received (({ s with receives := s.receives.remove i } : Impl Address).handleRead r).received
        none r.toOption := by
  have hrest : s.receives.remove i = [] := remove_of_one h.one hf
  have hopen : s.pump.is_open = true := by
    by_contra hclosed
    have hmem := Operations.mem_of_finished hf
    rw [h.closed (by simpa using hclosed)] at hmem
    cases hmem
  have hempty : ({ s with receives := s.receives.remove i } : Impl Address).OneReceive := by
    refine ⟨?_, fun _ => hrest⟩
    show (s.receives.remove i).length ≤ 1
    rw [hrest]
    exact Nat.zero_le 1
  cases r with
  | error ec =>
    refine ⟨hempty.disconnect, .handle hf (arrived_cancelAll _) ?_⟩
    exact (List.append_nil _).symm
  | ok datagram =>
    by_cases hon : s.should_receive = true
    · simp only [Impl.handleRead, hon, if_true]
      refine ⟨OneReceive.startRead hrest hopen, .handle hf ?_ rfl⟩
      simp [Impl.startRead, hopen]
    · simp only [Impl.handleRead, hon]
      exact ⟨hempty.frame rfl rfl, .handle hf rfl rfl⟩

theorem OneReceive.next {make_address : String → Option Address} {l : Label} (h : s.OneReceive)
    (hn : s.next make_address l = some s') :
    s'.OneReceive ∧ Receives (arrived s.receives) (arrived s'.receives) s.received s'.received
      l.arrives (s.handled l) := by
  cases step_of_next hn with
  | setOptions opts os => exact h.setOptions make_address opts os
  | setReceiving is_receiving os =>
    unfold Impl.setReceiving
    cases is_receiving with
    | true => exact h.startReceive os
    | false => exact ⟨h.disconnect, .idle (arrived_cancelAll _) rfl⟩
  | write hp => exact ⟨h.frame rfl (Pump.next_flags hp rfl).2, .idle rfl rfl⟩
  | sendFinish hp => exact ⟨h.frame rfl (Pump.next_flags hp rfl).2, .idle rfl rfl⟩
  | sendDeliver hp => exact ⟨h.frame rfl (Pump.next_flags hp rfl).2, .idle rfl rfl⟩
  | receiveFinish hi => exact ⟨h.frame List.length_set rfl, .finish hi _ _⟩
  | @receiveDeliver i r hf =>
    have hhandled : s.handled (.receiveDeliver i) = r.toOption := by
      simp [Impl.handled, hf]
    rw [hhandled]
    exact h.handleRead hf

end Impl

/-- What the steps have to do with the buffer. -/
def reads (make_address : String → Option Address) : Reads (system make_address) UInt8 where
  arrives := fun _ l => l.arrives
  handled := Impl.handled
  waiting := fun s => arrived s.receives
  received := Impl.received
  Inv := Impl.OneReceive
  init := by
    intro s hs
    obtain ⟨opts, rfl⟩ := hs
    exact ⟨⟨Nat.zero_le 1, fun _ => rfl⟩, rfl, rfl⟩
  next := fun s l s' h hn => (h.next hn).1
  apart := by
    intro s l
    cases l with
    | receiveFinish i r => exact .inr rfl
    | _ => exact .inl rfl
  balance := fun s l s' h hn => (h.next hn).2.balance
  record := fun s l s' h hn => (h.next hn).2.record

/-- A receive that finishes is the only one. -/
theorem arrives_alone {make_address : String → Option Address} {s s' : Impl Address} {l : Label}
    (h : s.OneReceive) (hn : (system make_address).next s l = some s') :
    l.arrives = none ∨ arrived s.receives = [] := by
  cases Impl.step_of_next hn with
  | receiveFinish hi => exact .inr (arrived_of_one h.one hi)
  | _ => exact .inl rfl

/-- **Every datagram is passed on as it came**, however often receiving is turned
    off, on and reconfigured: a receive is never started while another one can
    still write to the buffer. -/
theorem datagrams_pass (make_address : String → Option Address)
    {b : Buffered (Impl Address) UInt8} (r : Run (reads make_address).buffered b) :
    (reads make_address).PassesAll r := by
  apply Reads.passes_all_of_alone
  intro s l s' hI hn
  exact arrives_alone hI hn

end UdpConnection

/-! ### The clients of a server -/

namespace TcpServer

/-- The chunk of the receive of client `c` that the step finishes. -/
def Label.arrives (c : Nat) : Label → Option Bytes
  | .receiveFinish c' _ r => if c = c' then r.toOption else none
  | _ => none

/-- The chunk of the receive of client `c` whose handler the step runs. -/
def Manager.handled (m : Manager) (c : Nat) : Label → Option Bytes
  | .receiveDeliver c' i =>
      if c = c' then ((m.clients c).receives.finished i).bind fun x => x.2.toOption else none
  | _ => none

namespace Manager

/-- No client has two receives outstanding, and the ones that have not been made
    have received nothing. -/
structure OneReceive (m : Manager) : Prop extends m.Live where
  one : ∀ c, (m.clients c).receives.length ≤ 1
  silent : ∀ c, m.created ≤ c → (m.clients c).received = []

/-- What is said of one client across a step. -/
structure Steps (m m' : Manager) (c : Nat) (arr hand : Option Bytes) : Prop where
  made : m.created ≤ m'.created
  one : (m'.clients c).receives.length ≤ 1
  receives : Receives (arrived (m.clients c).receives) (arrived (m'.clients c).receives)
    (m.clients c).received (m'.clients c).received arr hand

variable {m m' : Manager} {c x i : Nat}

/-- The client object changes as `client` says. -/
theorem Steps.of_eq {client : Client} (hc : m'.clients c = client)
    (hmade : m.created ≤ m'.created) (hone : client.receives.length ≤ 1) {arr hand : Option Bytes}
    (hreceives : Receives (arrived (m.clients c).receives) (arrived client.receives)
      (m.clients c).received client.received arr hand) : m.Steps m' c arr hand where
  made := hmade
  one := by
    rw [hc]
    exact hone
  receives := by
    rw [hc]
    exact hreceives

theorem OneReceive.same (h : m.OneReceive) (hmade : m.created ≤ m'.created)
    (hc : m'.clients c = m.clients c) : m.Steps m' c none none :=
  .of_eq hc hmade (h.one c) (.idle rfl rfl)

theorem OneReceive.start (h : m.OneReceive) (c : Nat) : m.Steps m.start c none none := by
  have hmade : m.created ≤ m.start.created := Nat.le_succ _
  by_cases hnew : c = m.created
  · -- the new client has one receive, and has received nothing before
    have hclient : m.start.clients c = Client.new.start := by
      rw [hnew]
      exact Function.update_self ..
    have hge : m.created ≤ c := Nat.le_of_eq hnew.symm
    refine .of_eq hclient hmade (Nat.le_refl 1) ?_
    rw [h.unmade c hge, h.silent c hge]
    exact .idle rfl rfl
  · exact h.same hmade (Function.update_of_ne hnew ..)

theorem OneReceive.stopAll (h : m.OneReceive) (c : Nat) : m.Steps m.stopAll c none none := by
  have hmade : m.created ≤ m.stopAll.created := Nat.le_refl _
  by_cases hmem : c ∈ m.connections
  · have hclient : m.stopAll.clients c = (m.clients c).stop := if_pos hmem
    have hlen : (cancelAll (m.clients c).receives).length = (m.clients c).receives.length :=
      List.length_map _
    exact .of_eq hclient hmade (hlen ▸ h.one c) (.idle (arrived_cancelAll _) rfl)
  · exact h.same hmade (if_neg hmem)

theorem update_clients (m : Manager) (x : Nat) (client : Client) :
    (m.update x client).clients = Function.update m.clients x client := rfl

/-- Only the client `x` changes. -/
theorem OneReceive.update (h : m.OneReceive) {client : Client}
    (hclients : m'.clients = Function.update m.clients x client) (hmade : m'.created = m.created)
    (hone : client.receives.length ≤ 1) {arr hand : Option Bytes}
    (hreceives : Receives (arrived (m.clients x).receives) (arrived client.receives)
      (m.clients x).received client.received arr hand) (c : Nat) :
    m.Steps m' c (if c = x then arr else none) (if c = x then hand else none) := by
  by_cases hc : c = x
  · subst hc
    have hclient : m'.clients c = client := by rw [hclients, Function.update_self]
    simp only [if_true]
    exact .of_eq hclient hmade.ge hone hreceives
  · have hclient : m'.clients c = m.clients c := by rw [hclients, Function.update_of_ne hc]
    simp only [if_neg hc]
    exact h.same hmade.ge hclient

theorem OneReceive.nextPump (h : m.OneReceive) {l : PumpLabel} (hn : m.nextPump x l = some m')
    (c : Nat) : m.Steps m' c none none := by
  obtain ⟨_, hn⟩ := Option.ite_none_right_eq_some.mp hn
  obtain ⟨p, _, rfl⟩ := Option.map_eq_some_iff.mp hn
  have hsteps : m.Steps _ c (if c = x then none else none) (if c = x then none else none) :=
    h.update (m.update_clients x { m.clients x with pump := p }) rfl (h.one x) (.idle rfl rfl) c
  simpa only [ite_self] using hsteps

theorem OneReceive.nextReceiveFinish (h : m.OneReceive) {r : Except ErrorCode Bytes}
    (hn : m.nextReceiveFinish x i r = some m') (c : Nat) :
    m.Steps m' c (Label.arrives c (.receiveFinish x i r)) none := by
  obtain ⟨o, hi, hn⟩ := Option.bind_eq_some_iff.mp hn
  obtain ⟨_, heq⟩ := Option.ite_none_right_eq_some.mp hn
  obtain rfl := Option.some.inj heq
  have hlen : ((m.clients x).receives.finish i o r).length = (m.clients x).receives.length :=
    List.length_set
  have hone : ((m.clients x).receives.finish i o r).length ≤ 1 := hlen ▸ h.one x
  have hfinish := Receives.finish hi (m.clients x).received r
  have hsteps := h.update (m.update_clients x
    { m.clients x with receives := (m.clients x).receives.finish i o r }) rfl hone hfinish c
  simpa only [ite_self, Label.arrives] using hsteps

/-! The receive handler. -/

theorem startRead_receives (c : Client) :
    c.startRead.receives.length = c.receives.length + 1 ∧
      arrived c.startRead.receives = arrived c.receives := by
  unfold Client.startRead
  cases c.pump.is_open with
  | true => exact ⟨List.length_append, arrived_start _ ()⟩
  | false => exact ⟨List.length_append, arrived_startDone _ () _⟩

/-- It changes its own client, and starts at most one receive. -/
theorem handleRead_client (m : Manager) (c : Nat) (r : Except ErrorCode Bytes) :
    ∃ client, (m.handleRead c r).clients = Function.update m.clients c client ∧
      (m.handleRead c r).created = m.created ∧
      client.receives.length ≤ (m.clients c).receives.length + 1 ∧
      arrived client.receives = arrived (m.clients c).receives ∧
      client.received = (m.clients c).received ++ r.toOption.toList := by
  cases r with
  | ok chunk =>
    refine ⟨(m.clients c).onChunk chunk, rfl, rfl, ?_⟩
    unfold Client.onChunk
    cases (m.clients c).do_run with
    | false => exact ⟨Nat.le_succ _, rfl, rfl⟩
    | true =>
      obtain ⟨hlen, harrived⟩ := startRead_receives
        { m.clients c with received := (m.clients c).received ++ [chunk] }
      exact ⟨Nat.le_of_eq hlen, harrived, rfl⟩
  | error ec =>
    have hkept : m.clients = Function.update m.clients c (m.clients c) :=
      (Function.update_eq_self c m.clients).symm
    have hnone : ((Except.error ec : Except ErrorCode Bytes).toOption.toList) = [] := rfl
    rw [hnone, List.append_nil]
    have hsame : ∃ client, m.clients = Function.update m.clients c client ∧
        m.created = m.created ∧ client.receives.length ≤ (m.clients c).receives.length + 1 ∧
        arrived client.receives = arrived (m.clients c).receives ∧
        client.received = (m.clients c).received :=
      ⟨m.clients c, hkept, rfl, Nat.le_succ _, rfl, rfl⟩
    by_cases haborted : ec = .operation_aborted
    · subst haborted
      exact hsame
    · rw [Manager.handleRead_error haborted]
      by_cases hrun : (m.clients c).do_run = true
      · rw [if_pos hrun]
        have hlen : (cancelAll (m.clients c).receives).length = (m.clients c).receives.length :=
          List.length_map _
        exact ⟨(m.clients c).stop, rfl, rfl, hlen.le.trans (Nat.le_succ _),
          arrived_cancelAll _, rfl⟩
      · rw [if_neg hrun]
        exact hsame

theorem OneReceive.nextReceiveDeliver (h : m.OneReceive) (hn : m.nextReceiveDeliver x i = some m')
    (c : Nat) : m.Steps m' c none (m.handled c (.receiveDeliver x i)) := by
  obtain ⟨⟨o, r⟩, hf, rfl⟩ := Option.map_eq_some_iff.mp hn
  obtain ⟨client, hclients, hmade, hlen, harrived, hreceived⟩ := handleRead_client
    (m.update x { m.clients x with receives := (m.clients x).receives.remove i }) x r
  have hself : (m.update x { m.clients x with
      receives := (m.clients x).receives.remove i }).clients x =
      { m.clients x with receives := (m.clients x).receives.remove i } :=
    Function.update_self ..
  rw [hself] at hlen harrived hreceived
  rw [remove_of_one (h.one x) hf] at hlen
  have hclients' : ((m.update x { m.clients x with
      receives := (m.clients x).receives.remove i }).handleRead x r).clients =
      Function.update m.clients x client := by
    rw [hclients]
    exact Function.update_idem ..
  have hsteps : m.Steps _ c (if c = x then none else none) (if c = x then r.toOption else none) :=
    h.update hclients' hmade hlen (.handle hf harrived hreceived) c
  have hhandled : m.handled c (.receiveDeliver x i) = if c = x then r.toOption else none := by
    unfold Manager.handled
    by_cases hc : c = x
    · subst hc
      simp [hf]
    · simp [hc]
  rw [hhandled]
  simpa only [ite_self] using hsteps

/-- One step of the server, for each of its clients. -/
theorem OneReceive.next {s s' : Impl} {l : Label} (h : s.manager.OneReceive)
    (hn : s.next l = some s') (c : Nat) :
    s.manager.Steps s'.manager c (l.arrives c) (s.manager.handled c l) := by
  have hstop : ∀ m, m = s.manager.stopAll → s.manager.Steps m c none none := by
    intro m hm
    rw [hm]
    exact h.stopAll c
  cases Impl.step_of_next hn with
  | start os => exact hstop _ (Impl.start_manager s os)
  | stop => exact hstop _ rfl
  | setOptions opts os =>
    simp only [Impl.setOptions]
    split
    · exact hstop _ (Impl.start_manager _ os)
    · exact h.same (Nat.le_refl _) rfl
  | acceptFinish => exact h.same (Nat.le_refl _) rfl
  | acceptDeliver =>
    simp only [Impl.handleAccept]
    split
    · split
      · exact h.start c
      · exact h.same (Nat.le_refl _) rfl
    · exact h.same (Nat.le_refl _) rfl
  | receiveFinish hm => exact h.nextReceiveFinish hm c
  | receiveDeliver hm => exact h.nextReceiveDeliver hm c
  | write hm => exact h.nextPump hm c
  | sendFinish hm => exact h.nextPump hm c
  | sendDeliver hm => exact h.nextPump hm c

/-- A client that has not been made has no receive to handle. -/
theorem OneReceive.handled_unmade (h : m.OneReceive) (hc : m.created ≤ c) (l : Label) :
    m.handled c l = none := by
  cases l with
  | receiveDeliver x i =>
    unfold Manager.handled
    rw [h.unmade c hc]
    simp [Operations.finished]
  | _ => rfl

end Manager

/-- What the steps of the server have to do with the buffer of client `c`. -/
def reads (c : Nat) : Reads system UInt8 where
  arrives := fun _ l => l.arrives c
  handled := fun s l => s.manager.handled c l
  waiting := fun s => arrived (s.manager.clients c).receives
  received := fun s => (s.manager.clients c).received
  Inv := fun s => s.manager.OneReceive
  init := by
    intro s hs
    obtain ⟨opts, rfl⟩ := hs
    exact ⟨⟨Manager.Live.new, fun _ => Nat.zero_le 1, fun _ _ => rfl⟩, rfl, rfl⟩
  next := by
    intro s l s' h hn
    refine ⟨(reads_next h.toLive hn).1, fun x => (h.next hn x).one, fun x hx => ?_⟩
    -- a client that has not been made by now had not been made before
    have hold := (h.next hn x).made.trans hx
    have hrecord := (h.next hn x).receives.record
    rw [h.handled_unmade hold l, h.silent x hold] at hrecord
    exact hrecord
  apart := by
    intro s l
    cases l with
    | receiveFinish x i r => exact .inr rfl
    | _ => exact .inl rfl
  balance := fun s l s' h hn => (h.next hn c).receives.balance
  record := fun s l s' h hn => (h.next hn c).receives.record

/-- **Each client's chunks are passed on as they came**, whoever else is accepted,
    stopped or taken out meanwhile. -/
theorem client_chunks_pass (c : Nat) {b : Buffered Impl UInt8} (r : Run (reads c).buffered b) :
    (reads c).PassesAll r := by
  apply Reads.passes_all_of_alone
  intro s l s' hI hn
  cases Impl.step_of_next hn with
  | @receiveFinish x i r m hm =>
    by_cases hc : c = x
    · subst hc
      obtain ⟨o, hi, _⟩ := Option.bind_eq_some_iff.mp hm
      exact .inr (arrived_of_one (hI.one c) hi)
    · exact .inl (if_neg hc)
  | _ => exact .inl rfl

end TcpServer

/-! ### The TCP client -/

/-- How many receives have written to the buffer without their handler having
    been run, or may still write to it. -/
def writing {κ : Type} (ops : Operations κ (Except ErrorCode Bytes)) : Nat :=
  (arrived ops).length + pendingCount ops

section writing
variable {κ : Type} {ops : Operations κ (Except ErrorCode Bytes)} {i : Nat} {k : κ}
variable {r : Except ErrorCode Bytes}

theorem writing_start (ops : Operations κ (Except ErrorCode Bytes)) (k : κ) :
    writing (ops.start k) = writing ops + 1 := by
  unfold writing pendingCount
  rw [arrived_start, Operations.countP_start]
  rfl

theorem writing_startDone (ops : Operations κ (Except ErrorCode Bytes)) (k : κ) (ec : ErrorCode) :
    writing (ops.startDone k (.error ec)) = writing ops := by
  unfold writing
  rw [arrived_startDone, pendingCount_startDone]

theorem writing_cancelAll_le (ops : Operations κ (Except ErrorCode Bytes)) :
    writing (cancelAll ops) ≤ writing ops := by
  unfold writing
  rw [arrived_cancelAll, pendingCount_cancelAll]
  omega

/-- A receive that finishes writes now, or will not. -/
theorem writing_finish_le (hi : ops.inProgress i = some k) (r : Except ErrorCode Bytes) :
    writing (ops.finish i k r) ≤ writing ops := by
  obtain ⟨rest, hbefore, hafter⟩ := Operations.perm_finish r hi
  have hpending := hbefore.countP_eq fun o => o.result.isNone
  have hpending' := hafter.countP_eq fun o => o.result.isNone
  have harrived := (arrived_finish r hi).length_eq
  have hone : r.toOption.toList.length ≤ 1 := by cases r <;> simp [Except.toOption]
  simp only [List.countP_cons, Option.isNone_none, Option.isNone_some, List.length_append,
    Bool.false_eq_true, if_false, if_true] at hpending hpending' harrived
  unfold writing pendingCount
  omega

theorem writing_remove (hf : ops.finished i = some (k, r)) :
    writing (ops.remove i) + r.toOption.toList.length = writing ops := by
  have harrived := (arrived_remove hf).length_eq
  have hpending := pendingCount_remove hf
  rw [List.length_append] at harrived
  unfold writing
  omega

/-- The only one that may write is in progress, so nothing has arrived. -/
theorem arrived_of_writing (hone : writing ops ≤ 1) (hi : ops.inProgress i = some k) :
    arrived ops = [] := by
  have hpos := pendingCount_pos hi
  unfold writing at hone
  exact List.eq_nil_of_length_eq_zero (by omega)

end writing

namespace TcpClient

/-- The chunk of the receive that the step finishes. -/
def Label.arrives : Label → Option Bytes
  | .receiveFinish _ r => r.toOption
  | _ => none

namespace Impl

/-- The chunk of the receive whose handler the step runs. -/
def handled (s : Impl) : Label → Option Bytes
  | .receiveDeliver i => (s.receives.finished i).bind fun x => x.2.toOption
  | _ => none

/-- A connect that succeeds finds only receives that have been cancelled, or
    have failed. -/
def connectsQuiet (s : Impl) : Label → Bool
  | .connectDeliver i =>
      match (s.connects.finished i).map fun x => s.connectResult x.2 with
      | some (.ok _) => decide (writing s.receives = 0)
      | _ => true
  | _ => true

variable {s s' : Impl} {l : Label}

theorem startRead_receives (s : Impl) (session : Nat) :
    arrived (s.startRead session).receives = arrived s.receives ∧
      writing (s.startRead session).receives ≤ writing s.receives + 1 := by
  unfold Impl.startRead
  cases s.pump.is_open with
  | true => exact ⟨arrived_start _ _, (writing_start _ _).le⟩
  | false => exact ⟨arrived_startDone _ _ _, (writing_startDone _ _ _).le.trans (Nat.le_succ _)⟩

/-- What the handler of a receive does to the others. -/
theorem handleRead_receives (s : Impl) (o : Origin) (r : Except ErrorCode Bytes) :
    arrived (s.handleRead o r).receives = arrived s.receives ∧
      writing (s.handleRead o r).receives ≤ writing s.receives + r.toOption.toList.length ∧
      (s.handleRead o r).received = s.received ++ r.toOption.toList := by
  cases r with
  | error ec =>
    refine ⟨arrived_cancelAll _, writing_cancelAll_le _, ?_⟩
    exact (List.append_nil _).symm
  | ok chunk =>
    unfold Impl.handleRead
    cases hrun : s.pump.should_run with
    | false =>
      simp only [hrun]
      exact ⟨rfl, Nat.le_succ _, rfl⟩
    | true =>
      simp only [hrun, if_true]
      obtain ⟨harrived, hwriting⟩ :=
        ({ s with received := s.received ++ [chunk] } : Impl).startRead_receives o.session
      exact ⟨harrived, hwriting, rfl⟩

theorem handleConnect_receives (s : Impl) (d : Dial) (r : Except ErrorCode Endpoint) :
    arrived (s.handleConnect d r).receives = arrived s.receives ∧
      writing (s.handleConnect d r).receives ≤ writing s.receives + r.toOption.toList.length ∧
      (s.handleConnect d r).received = s.received := by
  cases r with
  | error ec => exact ⟨arrived_cancelAll _, writing_cancelAll_le _, rfl⟩
  | ok endpoint =>
    unfold Impl.handleConnect
    obtain ⟨harrived, hwriting⟩ := startRead_receives
      { s with
        connection_str := "[tcp-client] " ++ endpoint.address ++ ":" ++ toString endpoint.port
        hist := { s.hist with
          connected := true
          connects_succeeded := s.hist.connects_succeeded + 1 } } d.origin.session
    exact ⟨harrived, hwriting, rfl⟩

/-- One step, for the chunks and for the receives that may still write. -/
theorem receives_next (hn : s.next l = some s') :
    Receives (arrived s.receives) (arrived s'.receives) s.received s'.received l.arrives
        (s.handled l) ∧
      (writing s.receives ≤ 1 → s.connectsQuiet l = true → writing s'.receives ≤ 1) := by
  have hsame : Receives (arrived s.receives) (arrived s.receives) s.received s.received none none ∧
      (writing s.receives ≤ 1 → s.connectsQuiet l = true → writing s.receives ≤ 1) :=
    ⟨.idle rfl rfl, fun h _ => h⟩
  have hcancel : Receives (arrived s.receives) (arrived (cancelAll s.receives)) s.received
        s.received none none ∧
      (writing s.receives ≤ 1 → s.connectsQuiet l = true → writing (cancelAll s.receives) ≤ 1) :=
    ⟨.idle (arrived_cancelAll _) rfl, fun h _ => (writing_cancelAll_le _).trans h⟩
  cases step_of_next hn with
  | connect => exact hsame
  | disconnect => exact hcancel
  | setOptions opts =>
    unfold Impl.setOptions
    simp only
    split
    · exact hcancel
    · exact hsame
  | write hp => exact hsame
  | sendFinish hp => exact hsame
  | sendDeliver hf hp => exact hsame
  | resolveFinish hi hr => exact hsame
  | @resolveDeliver i lookup r hf =>
    cases r with
    | ok endpoints => exact hcancel
    | error ec => exact hcancel
  | connectFinish hi hr => exact hsame
  | @connectDeliver i d r hf =>
    obtain ⟨harrived, hwriting, hreceived⟩ := handleConnect_receives
      { s with connects := s.connects.remove i } d (s.connectResult r)
    refine ⟨.idle harrived hreceived, fun h hquiet => hwriting.trans ?_⟩
    simp only [connectsQuiet, hf, Option.map_some] at hquiet
    cases hresult : s.connectResult r with
    | error ec => exact h
    | ok endpoint =>
      simp only [hresult, decide_eq_true_eq] at hquiet
      exact Nat.le_of_eq (congrArg (· + 1) hquiet)
  | @receiveFinish i o r hi hr =>
    exact ⟨.finish hi _ r, fun h _ => (writing_finish_le hi r).trans h⟩
  | @receiveDeliver i o r hf =>
    obtain ⟨harrived, hwriting, hreceived⟩ :=
      ({ s with receives := s.receives.remove i } : Impl).handleRead_receives o r
    have hhandled : s.handled (.receiveDeliver i) = r.toOption := by
      simp [Impl.handled, hf]
    rw [hhandled]
    refine ⟨.handle hf harrived hreceived, fun h _ => hwriting.trans ?_⟩
    exact (writing_remove hf).le.trans h

end Impl

/-- What the steps have to do with the buffer. -/
def reads : Reads system UInt8 where
  arrives := fun _ l => l.arrives
  handled := Impl.handled
  waiting := fun s => arrived s.receives
  received := Impl.received
  Inv := fun _ => True
  init := by
    intro s hs
    obtain rfl := hs
    exact ⟨trivial, rfl, rfl⟩
  next := fun _ _ _ _ _ => trivial
  apart := by
    intro s l
    cases l with
    | receiveFinish i r => exact .inr rfl
    | _ => exact .inl rfl
  balance := fun s l s' _ hn => (Impl.receives_next hn).1.balance
  record := fun s l s' _ hn => (Impl.receives_next hn).1.record

/-- Where reading begins only after the reads of the last connection, the chunks
    arrive alone. -/
theorem passes_all_of_quiet {b : Buffered Impl UInt8} (r : Run reads.buffered b)
    (hquiet : r.EachStep fun b l => b.state.connectsQuiet l = true) : reads.PassesAll r := by
  refine Reads.passes_all_of_guarded (I := fun s => writing s.receives ≤ 1)
    (C := fun s l => s.connectsQuiet l = true) ?_ ?_ ?_ r hquiet
  · intro s hs
    obtain rfl := hs
    exact Nat.zero_le 1
  · intro s l s' hI hC hn
    exact (Impl.receives_next hn).2 hI hC
  · intro s l s' _ hI hn
    cases Impl.step_of_next hn with
    | receiveFinish hi hr => exact .inr (arrived_of_writing hI hi)
    | _ => exact .inl rfl

/-- A receive finishes while the handler of another one has still to be run. What
    this handler passes on is not what has come in with its own receive. -/
theorem chunk_written_over {b b' : Buffered Impl UInt8} {i j : Nat} {o : Origin}
    {old new : Bytes} (hn : reads.buffered.next b (.receiveFinish i (.ok new)) = some b')
    (hwaits : b.state.receives.finished j = some (o, .ok old)) (hdiffer : Differ new old) :
    ∃ b'', reads.buffered.next b' (.receiveDeliver j) = some b'' ∧
      ¬reads.PassesOwn b' (.receiveDeliver j) b'' := by
  have hstate := (reads.buffered_next hn).1
  have hkept : b'.state.receives.finished j = some (o, .ok old) := by
    generalize hl : Label.receiveFinish i (.ok new) = l at hstate
    generalize b'.state = s' at hstate ⊢
    cases Impl.step_of_next hstate with
    | receiveFinish hi hr => exact Operations.finished_finish _ hi hwaits
    | _ => cases hl
  have hhandled : reads.handled b'.state (.receiveDeliver j) = some old := by
    show (b'.state.receives.finished j).bind _ = _
    rw [hkept]
    rfl
  have hnext : (reads.buffered.next b' (.receiveDeliver j)).isSome := by
    show (((b'.state.receives.finished j).map _).map _).isSome
    rw [hkept]
    rfl
  obtain ⟨b'', hb''⟩ := Option.isSome_iff_exists.mp hnext
  exact ⟨b'', hb'', Reads.not_passesOwn hn rfl hhandled hdiffer⟩

/-- **Chunks are passed on as they came** in the runs where a connect that
    succeeds finds only receives that have been cancelled. In any run, a chunk
    that another one arrives before is not, when its handler comes next. -/
theorem chunks_pass {b : Buffered Impl UInt8} (r : Run reads.buffered b) :
    ((r.EachStep fun b l => b.state.connectsQuiet l = true) → reads.PassesAll r) ∧
    ∀ i j o old new b',
      (hn : reads.buffered.next b (.receiveFinish i (.ok new)) = some b') →
      b.state.receives.finished j = some (o, .ok old) → Differ new old →
      ∃ b'', ∃ hn' : reads.buffered.next b' (.receiveDeliver j) = some b'',
        ¬((r.step _ b' hn).step _ b'' hn').Ensures reads.PassesOwn := by
  refine ⟨passes_all_of_quiet r, fun i j o old new b' hn hwaits hdiffer => ?_⟩
  obtain ⟨b'', hn', hnot⟩ := chunk_written_over hn hwaits hdiffer
  exact ⟨b'', hn', fun hown => hnot hown.2⟩

/-- The server is `h`, and answers every connect. -/
def connectLabels : List Label :=
  [.connect, .resolveFinish 0 (.ok [⟨"h", 1⟩]), .resolveDeliver 0,
    .connectFinish 0 (.ok ⟨"h", 1⟩), .connectDeliver 0]

/-- One chunk comes in and is passed on. And a second `connect` succeeds while
    another chunk waits, which is lost when the next one arrives. -/
theorem chunks_pass_and_do_not :
    (∃ (b : Buffered Impl UInt8) (r : Run reads.buffered b), b.passed = [[7]] ∧
      reads.PassesAll r) ∧
    ∃ (b : Buffered Impl UInt8) (r : Run reads.buffered b), ¬r.Ensures reads.PassesOwn := by
  have hinit : reads.buffered.init ⟨Impl.new, [], []⟩ := ⟨rfl, rfl⟩
  constructor
  · obtain ⟨b, r, hquiet, hb⟩ := Run.exists_of_check reads.buffered hinit
      (connectLabels ++ [.receiveFinish 0 (.ok [7]), .receiveDeliver 0])
      (fun b l => b.state.connectsQuiet l) (fun b => decide (b.passed = [[7]])) (by decide)
    exact ⟨b, r, of_decide_eq_true hb, (chunks_pass r).1 hquiet⟩
  · obtain ⟨b, r, _, hb⟩ := Run.exists_of_check reads.buffered hinit
      (connectLabels ++ [.receiveFinish 0 (.ok [7])] ++ connectLabels) (fun _ _ => true)
      (fun b => decide (b.state.receives.finished 0 = some (⟨0, 0⟩, .ok [7])) &&
        (reads.buffered.next b (.receiveFinish 1 (.ok [8]))).isSome) (by decide)
    obtain ⟨hwaits, hnext⟩ := Bool.and_eq_true_iff.mp hb
    obtain ⟨b', hn⟩ := Option.isSome_iff_exists.mp hnext
    obtain ⟨b'', hn', hnot⟩ := (chunks_pass r).2 1 0 ⟨0, 0⟩ [7] [8] b' hn
      (of_decide_eq_true hwaits) ⟨0, 8, 7, rfl, rfl, by decide⟩
    exact ⟨b'', _, hnot⟩

end TcpClient

/-! ### The serial port -/

namespace Serial

/-- The chunk that the handler is going to pass on. -/
def Handler.chunk : Handler → Option Bytes
  | .handleRead r => r.toOption
  | _ => none

def posted (strand : List Handler) : List Bytes := strand.filterMap Handler.chunk

/-- A handler that passes on a chunk reads on. -/
theorem length_posted_le (strand : List Handler) :
    (posted strand).length ≤ strand.countP Handler.readsOn := by
  unfold posted
  rw [List.length_filterMap_eq_countP]
  apply List.countP_mono_left
  intro h _ hchunk
  cases h with
  | handleRead r =>
    cases r with
    | ok chunk => rfl
    | error ec => cases hchunk
  | _ => cases hchunk

/-- The chunk of the read that the step finishes. -/
def Label.arrives : Label → Option Bytes
  | .readFinish _ r => r.toOption
  | _ => none

namespace Impl

/-- The chunk of the read whose handler the step runs. -/
def handled (s : Impl) : Label → Option Bytes
  | .run _ => s.strand.head?.bind Handler.chunk
  | _ => none

/-- The chunks that wait for their handlers, those with the posted ones first. -/
def waiting (s : Impl) : List Bytes := posted s.strand ++ arrived s.reads

/-- How many reads may still write to the buffer or wait for their handler, and
    how many are posted. -/
def going (s : Impl) : Nat := writing s.reads + s.strand.countP Handler.readsOn

/-- A `doOpen` finds nothing that has arrived and nothing that reads on. -/
def opensQuiet (s : Impl) : Label → Bool
  | .run _ =>
      match s.strand with
      | .doOpen :: rest => (arrived s.reads).isEmpty && rest.all fun h => !h.readsOn
      | _ => true
  | _ => true

/-- One read goes on at most, and none is in progress on a closed port. -/
structure OneRead (s : Impl) : Prop where
  one : s.going ≤ 1
  idle : s.pump.is_open = false → pendingCount s.reads = 0

variable {s s' : Impl} {l : Label} {rest : List Handler}

theorem posted_append (strand strand' : List Handler) :
    posted (strand ++ strand') = posted strand ++ posted strand' :=
  List.filterMap_append

/-- `doClose` cancels what is in progress, and nothing else. -/
theorem arrived_doClose (s : Impl) : arrived s.doClose.reads = arrived s.reads := by
  unfold Impl.doClose
  cases s.pump.is_open with
  | true => exact arrived_cancelAll _
  | false => rfl

theorem OneRead.pendingCount_doClose (h : s.OneRead) : pendingCount s.doClose.reads = 0 := by
  unfold Impl.doClose
  cases hopen : s.pump.is_open with
  | true => exact DeviceTester.pendingCount_cancelAll _
  | false => exact h.idle hopen

theorem foldl_apply_reads (cs : List DeviceCall) (s : Impl) :
    (cs.foldl apply s).reads = s.reads ∧ (cs.foldl apply s).received = s.received ∧
      (cs.foldl apply s).strand = s.strand := by
  induction cs generalizing s with
  | nil => exact ⟨rfl, rfl, rfl⟩
  | cons c cs ih =>
    obtain ⟨hreads, hreceived, hstrand⟩ := ih (s.apply c)
    rw [List.foldl_cons]
    refine ⟨hreads.trans ?_, hreceived.trans ?_, hstrand.trans ?_⟩ <;> cases c <;> rfl

/-- Whether it throws or not, `doOpen` closes the port and posts a read or
    nothing. -/
theorem doOpen_reads {dev : DeviceCall → Bool} {t : Impl}
    (h : doOpen dev t = .ok s' ∨ doOpen dev t = .error s') :
    s'.reads = t.doClose.reads ∧ s'.received = t.received ∧
      (s'.strand = t.strand ∨ s'.strand = t.strand ++ [.doRead]) := by
  rcases h with h | h
  · obtain ⟨_, rfl⟩ := doOpen_eq_ok.mp h
    exact ⟨rfl, rfl, .inr rfl⟩
  · obtain ⟨before, c, after, _, _, _, rfl⟩ := doOpen_eq_error.mp h
    obtain ⟨hreads, hreceived, hstrand⟩ := foldl_apply_reads before t.doClose
    exact ⟨hreads, hreceived, .inl hstrand⟩

/-- A step that runs no handler of the strand. -/
theorem OneRead.frame (h : s.OneRead) (hgoing : s'.going ≤ s.going)
    (hopen : s'.pump.is_open = s.pump.is_open)
    (hpending : pendingCount s'.reads ≤ pendingCount s.reads) : s'.OneRead where
  one := hgoing.trans h.one
  idle := by
    intro hclosed
    have hzero := h.idle (hopen ▸ hclosed)
    omega

/-- A finished read posts its handler. -/
theorem OneRead.readDeliver (h : s.OneRead) {i : Nat} {r : Except ErrorCode Bytes}
    (hf : s.reads.finished i = some ((), r)) :
    ({ s.post (.handleRead r) with reads := s.reads.remove i } : Impl).OneRead := by
  refine h.frame ?_ rfl (pendingCount_remove hf).le
  have hwriting := writing_remove hf
  have hposted : Handler.readsOn (.handleRead r) = true → r.toOption.toList.length = 1 := by
    cases r with
    | ok chunk => exact fun _ => rfl
    | error ec => exact fun hon => absurd hon (by simp [Handler.readsOn])
  unfold going
  simp only [Impl.post, List.countP_append, List.countP_singleton]
  split
  · next hon =>
    have hone := hposted hon
    omega
  · omega

theorem receives_readDeliver {i : Nat} {r : Except ErrorCode Bytes}
    (hf : s.reads.finished i = some ((), r)) :
    Receives s.waiting ({ s.post (.handleRead r) with reads := s.reads.remove i } : Impl).waiting
      s.received s.received none none where
  record := (List.append_nil _).symm
  balance := by
    have hposted : posted [Handler.handleRead r] = r.toOption.toList := by cases r <;> rfl
    have hperm := arrived_remove hf
    unfold waiting
    simp only [Impl.post, posted_append, hposted, Option.toList_none, List.nil_append,
      List.append_nil, List.append_assoc]
    exact hperm.append_left _

/-! The handlers. -/

theorem going_of_strand {h : Handler} (hs : s.strand = h :: rest) :
    s.going = ({ s with strand := rest } : Impl).going + if h.readsOn then 1 else 0 := by
  unfold going
  rw [hs, List.countP_cons]
  exact (Nat.add_assoc ..).symm

theorem waiting_of_strand {h : Handler} (hs : s.strand = h :: rest) :
    s.waiting = posted [h] ++ ({ s with strand := rest } : Impl).waiting := by
  unfold waiting
  have hcons : posted (h :: rest) = posted [h] ++ posted rest := posted_append [h] rest
  rw [hs, hcons, List.append_assoc]

theorem waiting_doClose (s : Impl) : s.doClose.waiting = s.waiting :=
  congrArg (posted s.strand ++ ·) (arrived_doClose s)

theorem OneRead.doClose (h : s.OneRead) {handler : Handler} (hs : s.strand = handler :: rest) :
    ({ s with strand := rest } : Impl).doClose.OneRead := by
  have hpending := h.pendingCount_doClose
  refine ⟨?_, fun _ => hpending⟩
  have hgoing := going_of_strand hs
  have hone := h.one
  have harrived := arrived_doClose s
  unfold going writing at hone hgoing ⊢
  show (arrived s.doClose.reads).length + pendingCount s.doClose.reads +
    rest.countP Handler.readsOn ≤ 1
  rw [harrived, hpending]
  simp only at hgoing
  omega

theorem waiting_doRead (s : Impl) : s.doRead.waiting = s.waiting := by
  unfold Impl.doRead waiting
  cases s.pump.is_open with
  | true => simp only [if_true, arrived_start]
  | false => simp only [Bool.false_eq_true, if_false, arrived_startDone]

theorem OneRead.doRead (h : s.OneRead) (hs : s.strand = .doRead :: rest) :
    ({ s with strand := rest } : Impl).doRead.OneRead := by
  have hgoing := going_of_strand hs
  have hone := h.one
  simp only [Handler.readsOn, if_true, going] at hgoing hone
  unfold Impl.doRead
  cases hopen : s.pump.is_open with
  | true =>
    refine ⟨?_, fun hclosed => ?_⟩
    · simp only [going, if_true, writing_start]
      omega
    · simp only [hopen] at hclosed
      cases hclosed
  | false =>
    refine ⟨?_, fun _ => ?_⟩
    · simp only [going, Bool.false_eq_true, if_false, writing_startDone]
      omega
    · simp only [Bool.false_eq_true, if_false, pendingCount_startDone]
      exact h.idle hopen

/-- A read that has succeeded is replaced by the next one, or by none. -/
theorem handleRead_ok {chunk : Bytes} (hs : s.strand = .handleRead (.ok chunk) :: rest) :
    (({ s with strand := rest } : Impl).handleRead (.ok chunk)).waiting =
        ({ s with strand := rest } : Impl).waiting ∧
      (({ s with strand := rest } : Impl).handleRead (.ok chunk)).received =
        s.received ++ [chunk] ∧
      (s.OneRead → (({ s with strand := rest } : Impl).handleRead (.ok chunk)).OneRead) := by
  have hgoing := going_of_strand hs
  simp only [Handler.readsOn, if_true, going] at hgoing
  have heq : ({ s with strand := rest } : Impl).handleRead (.ok chunk) =
      if s.pump.should_run then
        ({ s with strand := rest, received := s.received ++ [chunk] } : Impl).post .doRead
      else { s with strand := rest, received := s.received ++ [chunk] } := rfl
  rw [heq]
  cases s.pump.should_run with
  | true =>
    rw [if_pos rfl]
    refine ⟨?_, rfl, fun h => ⟨?_, h.idle⟩⟩
    · have hnone : posted [Handler.doRead] = [] := rfl
      simp only [waiting, Impl.post, posted_append, hnone, List.append_nil]
    · have hone := h.one
      simp only [going, Impl.post, List.countP_append, List.countP_singleton, Handler.readsOn,
        if_true] at hone ⊢
      omega
  | false =>
    rw [if_neg Bool.false_ne_true]
    refine ⟨rfl, rfl, fun h => ⟨?_, h.idle⟩⟩
    have hone := h.one
    simp only [going] at hone ⊢
    omega

/-- `doOpen`, run in the state `t` without it. -/
theorem doOpen_quiet {dev : DeviceCall → Bool} {t : Impl} (hs : s.strand = .doOpen :: rest)
    (ht : t = { s with strand := rest, hist := t.hist })
    (hopen : doOpen dev t = .ok s' ∨ doOpen dev t = .error s') :
    s'.waiting = ({ s with strand := rest } : Impl).waiting ∧ s'.received = s.received ∧
      (s.OneRead → s.opensQuiet (.run dev) = true → s'.OneRead) := by
  obtain ⟨hreads, hreceived, hposted⟩ := doOpen_reads hopen
  have harrived := arrived_doClose s
  have hclosed : t.doClose.reads = s.doClose.reads := by
    rw [ht]
    rfl
  have hstrand : t.strand = rest := by rw [ht]
  have hreceived' : t.received = s.received := by rw [ht]
  rw [hclosed] at hreads
  rw [hstrand] at hposted
  refine ⟨?_, hreceived.trans hreceived', fun h hquiet => ?_⟩
  · unfold waiting
    rw [hreads, harrived]
    rcases hposted with hposted | hposted
    · rw [hposted]
    · rw [hposted, posted_append]
      exact congrArg (· ++ arrived s.reads) (List.append_nil _)
  · have hpending := h.pendingCount_doClose
    refine ⟨?_, fun _ => hreads ▸ hpending⟩
    simp only [opensQuiet, hs, Bool.and_eq_true, List.isEmpty_iff] at hquiet
    have hnone : rest.countP Handler.readsOn = 0 := by
      rw [List.countP_eq_zero]
      intro x hx
      have hx' := List.all_eq_true.mp hquiet.2 x hx
      simpa using hx'
    have hwriting : writing s'.reads = 0 := by
      unfold writing
      rw [hreads, hpending, harrived, hquiet.1]
      rfl
    unfold going
    rw [hwriting]
    rcases hposted with hposted | hposted
    · rw [hposted, hnone]
      exact Nat.zero_le 1
    · rw [hposted, List.countP_append, hnone]
      exact Nat.le_refl 1

/-- A handler of the strand: the chunks stay but for its own, and one read goes on
    if no `doOpen` found one. -/
theorem receives_runNext {dev : DeviceCall → Bool} {result : Except Impl Impl}
    (hn : s.runNext dev = some result) (hresult : result = .ok s' ∨ result = .error s') :
    Receives s.waiting s'.waiting s.received s'.received none (s.handled (.run dev)) ∧
      (s.OneRead → s.opensQuiet (.run dev) = true → s'.OneRead) := by
  unfold Impl.runNext at hn
  split at hn
  · cases hn
  · next handler rest hs =>
    obtain rfl := Option.some.inj hn
    have hwaiting := waiting_of_strand hs
    have hhandled : s.handled (.run dev) = handler.chunk := by simp [Impl.handled, hs]
    rw [hhandled]
    cases handler with
    | doOpen =>
      obtain ⟨hsame, hreceived, hone⟩ := doOpen_quiet hs rfl hresult
      exact ⟨.idle (hsame.trans hwaiting.symm) hreceived, hone⟩
    | doClose =>
      rcases hresult with hok | herr
      · obtain rfl := Except.ok.inj hok
        exact ⟨.idle ((waiting_doClose _).trans hwaiting.symm) rfl, fun h _ => h.doClose hs⟩
      · cases herr
    | doRead =>
      rcases hresult with hok | herr
      · obtain rfl := Except.ok.inj hok
        exact ⟨.idle ((waiting_doRead _).trans hwaiting.symm) rfl, fun h _ => h.doRead hs⟩
      · cases herr
    | handleRead r =>
      rcases hresult with hok | herr
      · obtain rfl := Except.ok.inj hok
        rw [hwaiting]
        cases r with
        | error ec => exact ⟨.idle (waiting_doClose _) rfl, fun h _ => h.doClose hs⟩
        | ok chunk =>
          obtain ⟨hsame, hreceived, hone⟩ := handleRead_ok hs
          refine ⟨⟨?_, hreceived⟩, fun h _ => hone h⟩
          rw [hsame, Option.toList_none, List.append_nil]
          exact List.Perm.refl _
      · cases herr

/-- A call of the API posts a handler that reads nothing. -/
theorem receives_post {h : Handler} (hnone : posted [h] = []) (hquiet : h.readsOn = false)
    (hstrand : s'.strand = s.strand ++ [h]) (hreads : s'.reads = s.reads)
    (hreceived : s'.received = s.received) (hopen : s'.pump.is_open = s.pump.is_open) :
    Receives s.waiting s'.waiting s.received s'.received none none ∧ (s.OneRead → s'.OneRead) := by
  refine ⟨.idle ?_ hreceived, fun h' => h'.frame ?_ hopen (hreads ▸ Nat.le_refl _)⟩
  · unfold waiting
    rw [hstrand, hreads, posted_append, hnone, List.append_nil]
  · unfold going
    rw [hstrand, hreads, List.countP_append, List.countP_singleton, hquiet]
    exact Nat.le_refl _

/-- One step, for the chunks and for the reads that go on. -/
theorem receives_next (hn : s.next l = some s') :
    Receives s.waiting s'.waiting s.received s'.received l.arrives (s.handled l) ∧
      (s.OneRead → s.opensQuiet l = true → s'.OneRead) := by
  have hpump : ∀ {p : Pump}, p.is_open = s.pump.is_open →
      Receives s.waiting ({ s with pump := p } : Impl).waiting s.received s.received none none ∧
        (s.OneRead → s.opensQuiet l = true → ({ s with pump := p } : Impl).OneRead) :=
    fun hopen => ⟨.idle rfl rfl, fun h _ => h.frame (Nat.le_refl _) hopen (Nat.le_refl _)⟩
  obtain ⟨_, hstep⟩ := step_of_next hn
  cases hstep with
  | opening =>
    have hpost : Receives s.waiting s.requestOpen.waiting s.received s.requestOpen.received none none ∧
        (s.OneRead → s.requestOpen.OneRead) :=
      receives_post (h := .doOpen) rfl rfl rfl rfl rfl rfl
    exact ⟨hpost.1, fun h _ => hpost.2 h⟩
  | closing =>
    have hpost : Receives s.waiting s.requestClose.waiting s.received s.requestClose.received none
          none ∧ (s.OneRead → s.requestClose.OneRead) :=
      receives_post (h := .doClose) rfl rfl rfl rfl rfl rfl
    exact ⟨hpost.1, fun h _ => hpost.2 h⟩
  | setOptions opts => exact ⟨.idle rfl rfl, fun h _ => h.frame (Nat.le_refl _) rfl (Nat.le_refl _)⟩
  | write hp => exact hpump (Pump.next_flags hp rfl).2
  | startWrite hp => exact hpump (Pump.next_flags hp rfl).2
  | sendFinish hp => exact hpump (Pump.next_flags hp rfl).2
  | sendDeliver hp => exact hpump (Pump.next_flags hp rfl).2
  | @readFinish i r hi hr =>
    refine ⟨⟨?_, (List.append_nil _).symm⟩, fun h _ => h.frame ?_ rfl ?_⟩
    · show (posted s.strand ++ arrived (s.reads.finish i () r)).Perm
        (posted s.strand ++ arrived s.reads ++ r.toOption.toList)
      rw [List.append_assoc]
      exact (arrived_finish r hi).append_left _
    · exact Nat.add_le_add_right (writing_finish_le hi r) _
    · have hpending := pendingCount_finish hi r
      exact Nat.le_of_succ_le hpending.le
  | readDeliver hf => exact ⟨receives_readDeliver hf, fun h _ => h.readDeliver hf⟩
  | run hrun => exact receives_runNext hrun (.inl rfl)
  | throw hrun =>
    obtain ⟨hreceives, hquiet⟩ := receives_runNext hrun (.inr rfl)
    exact ⟨⟨hreceives.balance, hreceives.record⟩, fun h hC =>
      (hquiet h hC).frame (Nat.le_refl _) rfl (Nat.le_refl _)⟩

end Impl

/-- What the steps have to do with the buffer. -/
def bufferReads : Reads system UInt8 where
  arrives := fun _ l => l.arrives
  handled := Impl.handled
  waiting := Impl.waiting
  received := Impl.received
  Inv := fun _ => True
  init := by
    intro s hs
    obtain ⟨opts, rfl⟩ := hs
    exact ⟨trivial, rfl, rfl⟩
  next := fun _ _ _ _ _ => trivial
  apart := by
    intro s l
    cases l with
    | readFinish i r => exact .inr rfl
    | _ => exact .inl rfl
  balance := fun s l s' _ hn => (Impl.receives_next hn).1.balance
  record := fun s l s' _ hn => (Impl.receives_next hn).1.record

/-- Where each `doOpen` finds nothing that reads on, the chunks arrive alone. -/
theorem passes_all_of_quiet {b : Buffered Impl UInt8} (r : Run bufferReads.buffered b)
    (hquiet : r.EachStep fun b l => b.state.opensQuiet l = true) : bufferReads.PassesAll r := by
  refine Reads.passes_all_of_guarded (I := Impl.OneRead)
    (C := fun s l => s.opensQuiet l = true) ?_ ?_ ?_ r hquiet
  · intro s hs
    obtain ⟨opts, rfl⟩ := hs
    exact ⟨Nat.zero_le 1, fun _ => rfl⟩
  · intro s l s' hI hC hn
    exact (Impl.receives_next hn).2 hI hC
  · intro s l s' _ hI hn
    obtain ⟨_, hstep⟩ := Impl.step_of_next hn
    cases hstep with
    | @readFinish i r hi hr =>
      right
      -- the read in progress is the one that goes on
      have hone := hI.one
      have hpos := pendingCount_pos hi
      unfold Impl.going writing at hone
      have hreads : arrived s.reads = [] := List.eq_nil_of_length_eq_zero (by omega)
      have hle := length_posted_le s.strand
      have hposted : posted s.strand = [] := List.eq_nil_of_length_eq_zero (by omega)
      show posted s.strand ++ arrived s.reads = []
      rw [hreads, hposted]
      rfl
    | _ => exact .inl rfl

/-- A read finishes while the handler of another one is the next on the strand. -/
theorem chunk_written_over {b b' : Buffered Impl UInt8} {i : Nat} {old new : Bytes}
    {dev : DeviceCall → Bool}
    (hn : bufferReads.buffered.next b (.readFinish i (.ok new)) = some b')
    (hwaits : b.state.handled (.run dev) = some old) (hdiffer : Differ new old) :
    ∃ b'', bufferReads.buffered.next b' (.run dev) = some b'' ∧
      ¬bufferReads.PassesOwn b' (.run dev) b'' := by
  have hstate : b.state.next (.readFinish i (.ok new)) = some b'.state :=
    (bufferReads.buffered_next hn).1
  have hkept : b'.state.strand = b.state.strand ∧ b'.state.terminated = b.state.terminated := by
    generalize hl : Label.readFinish i (.ok new) = l at hstate
    generalize b'.state = s' at hstate ⊢
    obtain ⟨_, hstep⟩ := Impl.step_of_next hstate
    cases hstep with
    | readFinish hi hr => exact ⟨rfl, rfl⟩
    | _ => cases hl
  have hlive := hkept.2.trans (Impl.step_of_next hstate).1
  have hhandled : bufferReads.handled b'.state (.run dev) = some old := by
    show b'.state.strand.head?.bind Handler.chunk = _
    rw [hkept.1]
    exact hwaits
  have hnext : (bufferReads.buffered.next b' (.run dev)).isSome := by
    cases hstrand : b'.state.strand with
    | nil =>
      have hnone : bufferReads.handled b'.state (.run dev) = none := by
        show b'.state.strand.head?.bind Handler.chunk = none
        rw [hstrand]
        rfl
      rw [hnone] at hhandled
      cases hhandled
    | cons h rest => simp [Reads.buffered, system, Impl.next, hlive, Impl.runNext, hstrand]
  obtain ⟨b'', hb''⟩ := Option.isSome_iff_exists.mp hnext
  exact ⟨b'', hb'', Reads.not_passesOwn hn rfl hhandled hdiffer⟩

/-- **Chunks are passed on as they came** in the runs where each `doOpen` finds
    nothing that reads on. In any run, a chunk that another one arrives before is
    not, when its handler comes next. -/
theorem read_chunks_pass {b : Buffered Impl UInt8} (r : Run bufferReads.buffered b) :
    ((r.EachStep fun b l => b.state.opensQuiet l = true) → bufferReads.PassesAll r) ∧
    ∀ i old new b' dev,
      (hn : bufferReads.buffered.next b (.readFinish i (.ok new)) = some b') →
      b.state.handled (.run dev) = some old → Differ new old →
      ∃ b'', ∃ hn' : bufferReads.buffered.next b' (.run dev) = some b'',
        ¬((r.step _ b' hn).step _ b'' hn').Ensures bufferReads.PassesOwn := by
  refine ⟨passes_all_of_quiet r, fun i old new b' dev hn hwaits hdiffer => ?_⟩
  obtain ⟨b'', hn', hnot⟩ := chunk_written_over hn hwaits hdiffer
  exact ⟨b'', hn', fun hown => hnot hown.2⟩

/-- The port is opened, and the posted handlers are run. -/
def openAndRun : List Label := [.opening, .run fun _ => true, .run fun _ => true]

/-- One chunk comes in and is passed on. And the port is opened again while
    another chunk waits, which is lost when the next one arrives. -/
theorem read_chunks_pass_and_do_not :
    (∃ (b : Buffered Impl UInt8) (r : Run bufferReads.buffered b), b.passed = [[7]] ∧
      bufferReads.PassesAll r) ∧
    ∃ (b : Buffered Impl UInt8) (r : Run bufferReads.buffered b),
      ¬r.Ensures bufferReads.PassesOwn := by
  have hinit : bufferReads.buffered.init
      ⟨Impl.new ⟨"", 0, 8, .none, .none, .one⟩, [], []⟩ := ⟨⟨_, rfl⟩, rfl⟩
  constructor
  · obtain ⟨b, r, hquiet, hb⟩ := Run.exists_of_check bufferReads.buffered hinit
      (openAndRun ++ [.readFinish 0 (.ok [7]), .readDeliver 0, .run fun _ => true])
      (fun b l => b.state.opensQuiet l) (fun b => decide (b.passed = [[7]])) (by decide)
    exact ⟨b, r, of_decide_eq_true hb, (read_chunks_pass r).1 hquiet⟩
  · obtain ⟨b, r, _, hb⟩ := Run.exists_of_check bufferReads.buffered hinit
      (openAndRun ++ [.readFinish 0 (.ok [7])] ++ openAndRun ++ [.readDeliver 0])
      (fun _ _ => true)
      (fun b => decide (b.state.handled (.run fun _ => true) = some [7]) &&
        (bufferReads.buffered.next b (.readFinish 0 (.ok [8]))).isSome) (by decide)
    obtain ⟨hwaits, hnext⟩ := Bool.and_eq_true_iff.mp hb
    obtain ⟨b', hn⟩ := Option.isSome_iff_exists.mp hnext
    obtain ⟨b'', hn', hnot⟩ := (read_chunks_pass r).2 0 [7] [8] b' (fun _ => true) hn
      (of_decide_eq_true hwaits) ⟨0, 8, 7, rfl, rfl, by decide⟩
    exact ⟨b'', _, hnot⟩

end Serial

end DeviceTester
