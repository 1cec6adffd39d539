import DeviceTester.Framework.Lifetimes
import DeviceTester.TcpClient
import DeviceTester.UdpConnection
import DeviceTester.Serial
import DeviceTester.CoapClient
import DeviceTester.TcpServer

/-! # The lifetimes of the connections

  All of the handlers of `TcpClient`, `UdpConnection`, `Serial`, `CoapClient`
  and the accept handler of `TcpServer` have captured `this`. Only the handlers
  of `TcpServerClient` hold a `shared_ptr`.

  The destructors close or cancel, which turns what is in progress into aborted
  completions, and do not wait for these to be run. What is posted is not even
  cancelled. A sleep in `disconnect` orders nothing, and is not modelled.
-/

namespace DeviceTester

open Async LTS Lifetimes

variable {κ α : Type}

/-- Of the operations that are cancelled, the first can be delivered. -/
theorem finished_cancelAll {ops : Operations κ (Except ErrorCode α)} (h : ops ≠ []) :
    ∃ x, (cancelAll ops).finished 0 = some x := by
  cases ops with
  | nil => exact absurd rfl h
  | cons o ops =>
    obtain ⟨k, _ | r⟩ := o
    · exact ⟨(k, .error .operation_aborted), rfl⟩
    · exact ⟨(k, r), rfl⟩

theorem cancelAll_eq_nil {ops : Operations κ (Except ErrorCode α)} :
    cancelAll ops = [] ↔ ops = [] :=
  List.map_eq_nil_iff

/-! ### The TCP client -/

namespace TcpClient

/-- `disconnect`, and the destructor of `resolver_`. -/
def Impl.destruct (s : Impl) : Impl :=
  let s := s.disconnect
  -- the sends, connects and receives have been cancelled with the socket
  { s with resolves := cancelAll s.resolves }

def Label.role : Label → Role
  | .connect => .call
  | .disconnect => .call
  | .setOptions _ => .call
  | .write _ => .call
  | .sendFinish _ _ => .event
  | .sendDeliver _ => .handler .raw
  | .resolveFinish _ _ => .event
  | .resolveDeliver _ => .handler .raw
  | .connectFinish _ _ => .event
  | .connectDeliver _ => .handler .raw
  | .receiveFinish _ _ => .event
  | .receiveDeliver _ => .handler .raw

def behaviour : Behaviour where
  Args := Unit
  State := Impl
  Label := Label
  construct := fun _ => Impl.new
  next := Impl.next
  role := Label.role
  destruct := Impl.destruct
  terminated := fun _ => false

/-- No handler has to be run. -/
structure Impl.Idle (s : Impl) : Prop where
  resolves : s.resolves = []
  connects : s.connects = []
  receives : s.receives = []
  sends : s.pump.sends = []

theorem Impl.Idle.destruct {s : Impl} (h : s.Idle) : s.destruct.Idle where
  resolves := cancelAll_eq_nil.mpr h.resolves
  connects := cancelAll_eq_nil.mpr h.connects
  receives := cancelAll_eq_nil.mpr h.receives
  sends := cancelAll_eq_nil.mpr h.sends

/-- Nothing goes on without a call. -/
theorem Impl.Idle.next {s : Impl} (h : s.Idle) {l : Label} (hrole : l.role ≠ .call) :
    s.next l = none := by
  cases l with
  | connect => exact absurd rfl hrole
  | disconnect => exact absurd rfl hrole
  | setOptions opts => exact absurd rfl hrole
  | write d => exact absurd rfl hrole
  -- the others need an operation, in progress or finished
  | sendFinish i r => simp [Impl.next, Pump.next, h.sends, Operations.inProgress]
  | sendDeliver i => simp [Impl.next, h.sends, Operations.finished]
  | resolveFinish i r => simp [Impl.next, h.resolves, Operations.inProgress]
  | resolveDeliver i => simp [Impl.next, h.resolves, Operations.finished]
  | connectFinish i r => simp [Impl.next, h.connects, Operations.inProgress]
  | connectDeliver i => simp [Impl.next, h.connects, Operations.finished]
  | receiveFinish i r => simp [Impl.next, h.receives, Operations.inProgress]
  | receiveDeliver i => simp [Impl.next, h.receives, Operations.finished]

theorem Impl.outstanding {s : Impl} (hbusy : ¬s.Idle) :
    s.resolves ≠ [] ∨ s.connects ≠ [] ∨ s.receives ≠ [] ∨ s.pump.sends ≠ [] := by
  by_contra hnone
  simp only [not_or, not_not] at hnone
  obtain ⟨hresolves, hconnects, hreceives, hsends⟩ := hnone
  exact hbusy ⟨hresolves, hconnects, hreceives, hsends⟩

/-- What is outstanding when the client is destroyed is delivered as aborted. -/
theorem Impl.due {s : Impl} (hbusy : ¬s.Idle) :
    ∃ l s', l.role = .handler .raw ∧ s.destruct.next l = some s' := by
  -- whatever there is, its first operation has finished by now
  rcases Impl.outstanding hbusy with hresolves | hconnects | hreceives | hsends
  · obtain ⟨x, hx⟩ := finished_cancelAll hresolves
    have hdue : s.destruct.resolves.finished 0 = some x := hx
    exact ⟨.resolveDeliver 0, _, rfl, by simp only [Impl.next, hdue]; rfl⟩
  · obtain ⟨x, hx⟩ := finished_cancelAll hconnects
    have hdue : s.destruct.connects.finished 0 = some x := hx
    exact ⟨.connectDeliver 0, _, rfl, by simp only [Impl.next, hdue]; rfl⟩
  · obtain ⟨x, hx⟩ := finished_cancelAll hreceives
    have hdue : s.destruct.receives.finished 0 = some x := hx
    exact ⟨.receiveDeliver 0, _, rfl, by simp only [Impl.next, hdue]; rfl⟩
  · obtain ⟨x, hx⟩ := finished_cancelAll hsends
    have hdue : s.destruct.pump.sends.finished 0 = some x := hx
    exact ⟨.sendDeliver 0, _, rfl, by simp only [Impl.next, Pump.next, hdue]; rfl⟩

def objectClass : ObjectClass where
  toBehaviour := behaviour
  Idle := Impl.Idle
  next_terminated := by
    intro s l h
    cases h
  destruct_idle := fun s h => Impl.Idle.destruct h
  next_idle := behaviour.next_idle_of_none fun s l h hrole => Impl.Idle.next h hrole
  due := by
    intro s _ hbusy
    obtain ⟨l, s', hrole, hn⟩ := Impl.due hbusy
    exact behaviour.due_of_next hrole hn

end TcpClient

/-! ### The UDP connection -/

namespace UdpConnection

variable {Address : Type} {make_address : String → Option Address}

/-- The destructor and that of `socket_`. -/
def Impl.destruct (s : Impl Address) : Impl Address :=
  let s := disconnect { s with pump := { s.pump with should_run := false } }
  -- nothing but the destructor of `socket_` ever closes it
  { s with
    pump := { s.pump with is_open := false, sends := cancelAll s.pump.sends }
    bound := none
    receives := cancelAll s.receives }

def Label.role : Label → Role
  | .setOptions _ _ => .call
  | .setReceiving _ _ => .call
  | .write _ => .call
  | .sendFinish _ _ => .event
  | .sendDeliver _ => .handler .raw
  | .receiveFinish _ _ => .event
  | .receiveDeliver _ => .handler .raw

def behaviour (make_address : String → Option Address) : Behaviour where
  Args := Options
  State := Impl Address
  Label := Label
  construct := Impl.new
  next := Impl.next make_address
  role := Label.role
  destruct := Impl.destruct
  terminated := fun _ => false

structure Impl.Idle (s : Impl Address) : Prop where
  receives : s.receives = []
  sends : s.pump.sends = []

theorem Impl.Idle.destruct {s : Impl Address} (h : s.Idle) : s.destruct.Idle where
  receives := cancelAll_eq_nil.mpr (cancelAll_eq_nil.mpr h.receives)
  sends := cancelAll_eq_nil.mpr (cancelAll_eq_nil.mpr h.sends)

theorem Impl.Idle.next {s : Impl Address} (h : s.Idle) {l : Label} (hrole : l.role ≠ .call) :
    s.next make_address l = none := by
  cases l with
  | setOptions opts os => exact absurd rfl hrole
  | setReceiving is_receiving os => exact absurd rfl hrole
  | write d => exact absurd rfl hrole
  | sendFinish i r => simp [Impl.next, Pump.next, h.sends, Operations.inProgress]
  | sendDeliver i => simp [Impl.next, Pump.next, h.sends, Operations.finished]
  | receiveFinish i r => simp [Impl.next, h.receives, Operations.inProgress]
  | receiveDeliver i => simp [Impl.next, h.receives, Operations.finished]

/-- What is outstanding when the connection is destroyed is delivered as
    aborted. -/
theorem Impl.due (make_address : String → Option Address) {s : Impl Address} (hbusy : ¬s.Idle) :
    ∃ l s', l.role = .handler .raw ∧ s.destruct.next make_address l = some s' := by
  by_cases hreceives : s.receives = []
  · have hsends : s.pump.sends ≠ [] := fun h => hbusy ⟨hreceives, h⟩
    obtain ⟨x, hx⟩ := finished_cancelAll (mt cancelAll_eq_nil.mp hsends)
    have hdue : s.destruct.pump.sends.finished 0 = some x := hx
    exact ⟨.sendDeliver 0, _, rfl, by simp only [Impl.next, Pump.next, hdue]; rfl⟩
  · obtain ⟨x, hx⟩ := finished_cancelAll (mt cancelAll_eq_nil.mp hreceives)
    have hdue : s.destruct.receives.finished 0 = some x := hx
    exact ⟨.receiveDeliver 0, _, rfl, by simp only [Impl.next, hdue]; rfl⟩

def objectClass (make_address : String → Option Address) : ObjectClass where
  toBehaviour := behaviour make_address
  Idle := Impl.Idle
  next_terminated := by
    intro s l h
    cases h
  destruct_idle := fun s h => Impl.Idle.destruct h
  next_idle := (behaviour make_address).next_idle_of_none fun s l h hrole =>
    Impl.Idle.next h hrole
  due := by
    intro s _ hbusy
    obtain ⟨l, s', hrole, hn⟩ := Impl.due make_address hbusy
    exact (behaviour make_address).due_of_next hrole hn

end UdpConnection

/-! ### The serial port -/

namespace Serial

/-- There is no destructor but that of `serial_`, and what is posted on the
    strand stays there. -/
def Impl.destruct (s : Impl) : Impl :=
  { s with
    pump := { s.pump with is_open := false, sends := cancelAll s.pump.sends }
    reads := cancelAll s.reads }

/-- A completion that is delivered to the strand is run there later. -/
def Label.role : Label → Role
  | .opening => .call
  | .closing => .call
  | .setOptions _ => .call
  | .write _ => .call
  | .startWrite => .handler .raw
  | .sendFinish _ _ => .event
  | .sendDeliver _ => .handler .raw
  | .readFinish _ _ => .event
  | .readDeliver _ => .event
  | .run _ => .handler .raw

def behaviour : Behaviour where
  Args := Options
  State := Impl
  Label := Label
  construct := Impl.new
  next := Impl.next
  role := Label.role
  destruct := Impl.destruct
  terminated := Impl.terminated

structure Impl.Idle (s : Impl) : Prop where
  strand : s.strand = []
  reads : s.reads = []
  sends : s.pump.sends = []
  posted : s.pump.posted = 0

theorem Impl.Idle.destruct {s : Impl} (h : s.Idle) : s.destruct.Idle where
  strand := h.strand
  reads := cancelAll_eq_nil.mpr h.reads
  sends := cancelAll_eq_nil.mpr h.sends
  posted := h.posted

theorem Impl.Idle.next {s : Impl} (h : s.Idle) {l : Label} (hrole : l.role ≠ .call) :
    s.next l = none := by
  cases l with
  | opening => exact absurd rfl hrole
  | closing => exact absurd rfl hrole
  | setOptions opts => exact absurd rfl hrole
  | write d => exact absurd rfl hrole
  | startWrite => simp [Impl.next, Pump.next, h.posted]
  | sendFinish i r => simp [Impl.next, Pump.next, h.sends, Operations.inProgress]
  | sendDeliver i => simp [Impl.next, Pump.next, h.sends, Operations.finished]
  | readFinish i r => simp [Impl.next, h.reads, Operations.inProgress]
  | readDeliver i => simp [Impl.next, h.reads, Operations.finished]
  | run dev => simp [Impl.next, Impl.runNext, h.strand]

/-- A handler at the front of the strand is run. -/
theorem run_due {s : Impl} (hlive : s.terminated = false) (hstrand : s.strand ≠ []) :
    ∃ l s', l.role = .handler .raw ∧ s.next l = some s' := by
  obtain ⟨h, rest, hcons⟩ := List.exists_cons_of_ne_nil hstrand
  have hrun : s.runNext (fun _ => true) =
      some (Impl.execute (fun _ => true) { s with strand := rest } h) := by
    unfold Impl.runNext
    rw [hcons]
  exact ⟨.run fun _ => true, _, rfl, by simp only [Impl.next, hlive, hrun]; rfl⟩

theorem pump_due {s : Impl} (hlive : s.terminated = false)
    (hbusy : s.pump.sends ≠ [] ∨ s.pump.posted ≠ 0) :
    ∃ l s', l.role = .handler .raw ∧ s.destruct.next l = some s' := by
  have hdead : s.destruct.terminated = false := hlive
  rcases hbusy with hsends | hposted
  · obtain ⟨x, hx⟩ := finished_cancelAll hsends
    have hdue : s.destruct.pump.sends.finished 0 = some x := hx
    exact ⟨.sendDeliver 0, _, rfl, by simp only [Impl.next, hdead, Pump.next, hdue]; rfl⟩
  · have hdue : s.destruct.pump.posted > 0 := Nat.pos_of_ne_zero hposted
    exact ⟨.startWrite, _, rfl, by simp only [Impl.next, hdead, Pump.next, if_pos hdue]; rfl⟩

/-- What is posted is run, and what is outstanding is delivered as aborted, to
    the strand first if it is a read. -/
theorem Impl.due {s : Impl} (hlive : s.terminated = false) (hbusy : ¬s.Idle) :
    ∃ ls l s₁ s₂, (∀ l ∈ ls, l.role ≠ .call) ∧ l.role = .handler .raw ∧
      system.exec s.destruct ls = some s₁ ∧ s₁.next l = some s₂ := by
  have hdead : s.destruct.terminated = false := hlive
  by_cases hstrand : s.strand = []
  · by_cases hreads : s.reads = []
    -- the pump has its own posted calls and sends
    · have hpump : s.pump.sends ≠ [] ∨ s.pump.posted ≠ 0 := by
        by_contra hnone
        rw [not_or, not_not, not_not] at hnone
        exact hbusy ⟨hstrand, hreads, hnone.1, hnone.2⟩
      obtain ⟨l, s', hrole, hn⟩ := pump_due hlive hpump
      exact behaviour.due_of_next hrole hn
    -- the strand is empty, so the aborted read is the next handler in it
    · obtain ⟨x, hx⟩ := finished_cancelAll hreads
      have hdue : s.destruct.reads.finished 0 = some x := hx
      let s₁ : Impl :=
        { s.destruct.post (.handleRead x.2) with reads := s.destruct.reads.remove 0 }
      have hdeliver : s.destruct.next (.readDeliver 0) = some s₁ := by
        simp only [Impl.next, hdead, hdue]
        rfl
      have hposted : s₁.strand ≠ [] :=
        List.append_ne_nil_of_right_ne_nil _ (List.cons_ne_nil _ _)
      obtain ⟨l, s₂, hrole, hn⟩ := run_due (s := s₁) hdead hposted
      refine ⟨[.readDeliver 0], l, s₁, s₂, ?_, hrole, ?_, hn⟩
      · intro l hl
        rw [List.mem_singleton.mp hl]
        decide
      · exact System.exec_cons.mpr ⟨s₁, hdeliver, rfl⟩
  · obtain ⟨l, s', hrole, hn⟩ := run_due (s := s.destruct) hdead hstrand
    exact behaviour.due_of_next hrole hn

def objectClass : ObjectClass where
  toBehaviour := behaviour
  Idle := Impl.Idle
  next_terminated := by
    intro s l h
    exact if_pos h
  destruct_idle := fun s h => Impl.Idle.destruct h
  next_idle := behaviour.next_idle_of_none fun s l h hrole => Impl.Idle.next h hrole
  due := fun s hlive hbusy => Impl.due hlive hbusy

end Serial

/-! ### The CoAP client -/

namespace CoapClient

/-- A client with `do_work_`, and how many calls of `doIO` are posted. -/
structure Worker where
  impl : Impl
  do_work : Bool
  posted : Nat

namespace Worker

def new (is_mcast : Bool) (answer : Lookup) : Worker := ⟨.new is_mcast answer, true, 1⟩

/-- libcoap has no other work to do than what it does inside of `doIO`. -/
def destruct (s : Worker) : Worker := { s with do_work := false }

inductive Label where
  /-- A call of the API, in which libcoap may release bodies. -/
  | call (l : CoapClient.Label)
  /-- The strand runs a posted `doIO`, and libcoap calls back. -/
  | doIO_run (ls : List CoapClient.Label)

def ofCall : CoapClient.Label → Bool
  | .setOptions _ _ => true
  | .sendRequest _ _ _ _ _ _ => true
  | .freeLargeData _ => true
  | .message _ _ _ => false

/-- What libcoap calls back in `coap_io_process`. -/
def calledBack : CoapClient.Label → Bool
  | .message _ _ _ => true
  | .freeLargeData _ => true
  | _ => false

def step (s : Worker) : Label → Option Worker
  | .call l =>
      if ofCall l then (s.impl.next l).map fun impl => { s with impl := impl } else none
  | .doIO_run ls =>
      if s.posted = 0 then none
      else if s.do_work then
        if ls.all calledBack then
          -- `doIO` posts itself again
          (CoapClient.system.exec s.impl ls).map fun impl => { s with impl := impl }
        else none
      -- the client has been destroyed
      else some { s with posted := s.posted - 1 }

def next (s : Worker) (l : Label) : Option Worker :=
  if s.impl.terminated then none else s.step l

theorem next_eq_some {s s' : Worker} {l : Label} :
    s.next l = some s' ↔ s.impl.terminated = false ∧ s.step l = some s' := by
  unfold next
  rw [Option.ite_none_left_eq_some, Bool.not_eq_true]

def Label.role : Label → Role
  | .call _ => .call
  | .doIO_run _ => .handler .raw

def behaviour : Behaviour where
  Args := Bool × Lookup
  State := Worker
  Label := Label
  construct := fun a => new a.1 a.2
  next := next
  role := Label.role
  destruct := destruct
  terminated := fun s => s.impl.terminated

def Idle (s : Worker) : Prop := s.posted = 0

theorem Idle.next {s : Worker} (h : s.Idle) {l : Label} (hrole : l.role ≠ .call) :
    s.next l = none := by
  cases l with
  | call l => exact absurd rfl hrole
  | doIO_run ls =>
    have hnone : s.step (.doIO_run ls) = none := if_pos h
    rw [Worker.next, hnone, ite_self]

def objectClass : ObjectClass where
  toBehaviour := behaviour
  Idle := Idle
  next_terminated := by
    intro s l h
    exact if_pos h
  destruct_idle := fun s h => h
  next_idle := behaviour.next_idle_of_none fun s l h hrole => Idle.next h hrole
  due := by
    intro s hlive hbusy
    have hrun : s.destruct.next (.doIO_run []) = some { s.destruct with posted := s.posted - 1 } :=
      next_eq_some.mpr ⟨hlive, if_neg hbusy⟩
    exact behaviour.due_of_next (l := .doIO_run []) rfl hrun

/-- `doIO` stays posted for as long as the client is there. -/
structure Working (s : Worker) : Prop where
  do_work : s.do_work = true
  posted : s.posted = 1

theorem Working.next {s s' : Worker} {l : Label} (h : s.Working) (hn : s.next l = some s') :
    s'.Working := by
  obtain ⟨_, hn⟩ := next_eq_some.mp hn
  cases l with
  | call l =>
    obtain ⟨_, hn⟩ := Option.ite_none_right_eq_some.mp hn
    obtain ⟨impl, _, rfl⟩ := Option.map_eq_some_iff.mp hn
    exact ⟨h.do_work, h.posted⟩
  | doIO_run ls =>
    obtain ⟨_, hn⟩ := Option.ite_none_left_eq_some.mp hn
    -- `do_work_` is still set, so the call that is taken out posts itself again
    rw [if_pos h.do_work] at hn
    obtain ⟨_, hn⟩ := Option.ite_none_right_eq_some.mp hn
    obtain ⟨impl, _, rfl⟩ := Option.map_eq_some_iff.mp hn
    exact ⟨h.do_work, h.posted⟩

end Worker

end CoapClient

/-! ### The TCP server -/

namespace TcpServer

/-- The destructor and that of `acceptor_`. -/
def Impl.destruct (s : Impl) : Impl :=
  let s := s.stop
  { s with accepts := cancelAll s.accepts }

/-- The handlers of the clients hold the client they belong to. -/
def Label.role : Label → Role
  | .start _ => .call
  | .stop => .call
  | .setOptions _ _ => .call
  | .acceptFinish _ _ => .event
  | .acceptDeliver _ => .handler .raw
  | .receiveFinish _ _ _ => .event
  | .receiveDeliver _ _ => .handler .shared
  | .write _ _ => .call
  | .sendFinish _ _ _ => .event
  | .sendDeliver _ _ => .handler .shared

def behaviour : Behaviour where
  Args := Options
  State := Impl
  Label := Label
  construct := Impl.new
  next := Impl.next
  role := Label.role
  destruct := Impl.destruct
  terminated := fun _ => false

/-- No accept is outstanding. -/
def Impl.Idle (s : Impl) : Prop := s.accepts = []

theorem Impl.stop_accepts (s : Impl) : s.stop.accepts = [] ↔ s.accepts = [] := by
  show (if s.acceptor.is_open then cancelAll s.accepts else s.accepts) = [] ↔ _
  split
  · exact cancelAll_eq_nil
  · exact Iff.rfl

theorem Impl.Idle.destruct {s : Impl} (h : s.Idle) : s.destruct.Idle :=
  cancelAll_eq_nil.mpr (s.stop_accepts.mpr h)

/-- Without an accept, only the clients go on. -/
theorem Impl.Idle.next {s s' : Impl} (h : s.Idle) {l : Label} (hrole : l.role ≠ .call)
    (hn : s.next l = some s') : l.role ≠ .handler .raw ∧ s'.Idle := by
  have haccepts : s.accepts = [] := h
  cases l with
  | start os => exact absurd rfl hrole
  | stop => exact absurd rfl hrole
  | setOptions opts os => exact absurd rfl hrole
  | acceptFinish i r => simp [Impl.next, haccepts, Operations.inProgress] at hn
  | acceptDeliver i => simp [Impl.next, haccepts, Operations.finished] at hn
  -- a client goes on with what it has started, and holds itself
  | receiveFinish c i r =>
    obtain ⟨m, _, rfl⟩ := Option.map_eq_some_iff.mp hn
    refine ⟨?_, h⟩
    intro hraw
    cases hraw
  | receiveDeliver c i =>
    obtain ⟨m, _, rfl⟩ := Option.map_eq_some_iff.mp hn
    refine ⟨?_, h⟩
    intro hraw
    cases hraw
  | write c d => exact absurd rfl hrole
  | sendFinish c i r =>
    obtain ⟨m, _, rfl⟩ := Option.map_eq_some_iff.mp hn
    refine ⟨?_, h⟩
    intro hraw
    cases hraw
  | sendDeliver c i =>
    obtain ⟨m, _, rfl⟩ := Option.map_eq_some_iff.mp hn
    refine ⟨?_, h⟩
    intro hraw
    cases hraw

theorem Impl.due {s : Impl} (hbusy : ¬s.Idle) :
    ∃ l s', l.role = .handler .raw ∧ s.destruct.next l = some s' := by
  have hstopped : s.stop.accepts ≠ [] := mt s.stop_accepts.mp hbusy
  obtain ⟨x, hx⟩ := finished_cancelAll hstopped
  have hdue : s.destruct.accepts.finished 0 = some x := hx
  exact ⟨.acceptDeliver 0, _, rfl, by simp only [Impl.next, hdue]; rfl⟩

def objectClass : ObjectClass where
  toBehaviour := behaviour
  Idle := Impl.Idle
  next_terminated := by
    intro s l h
    cases h
  destruct_idle := fun s h => Impl.Idle.destruct h
  next_idle := fun s l s' h hrole hn => Impl.Idle.next h hrole hn
  due := by
    intro s _ hbusy
    obtain ⟨l, s', hrole, hn⟩ := Impl.due hbusy
    exact behaviour.due_of_next hrole hn

end TcpServer

/-! ### The connections of a program -/

inductive ConnectionKind where
  | tcpClient
  | udpConnection
  | serial
  | coapClient
  | tcpServer
  deriving DecidableEq, Repr

variable {Address : Type} {make_address : String → Option Address}

def connectionClass (make_address : String → Option Address) : ConnectionKind → ObjectClass
  | .tcpClient => TcpClient.objectClass
  | .udpConnection => UdpConnection.objectClass make_address
  | .serial => Serial.objectClass
  | .coapClient => CoapClient.Worker.objectClass
  | .tcpServer => TcpServer.objectClass

def connections (make_address : String → Option Address) :=
  program (connectionClass make_address)

/-- **A handler outlives its object exactly when it is outstanding**: where only
    idle connections are destroyed, no handler is run on a destroyed one. Any
    other connection that is destroyed may have a handler run on it. -/
theorem handlers_live_iff {p : Program (connectionClass make_address)}
    (r : Run (connections make_address) p) :
    (r.EachStep Program.destroysIdle → r.Ensures Program.RunsOnLive) ∧
      ∀ k n p', p.next (.destroy k n) = some p' →
        (p'.Spared k n ↔ ∀ s, p.objects k n = .live s → (connectionClass make_address k).Idle s) :=
  ⟨runsOnLive_of_destroysIdle r, fun _ _ _ hn => spared_iff_idle r hn⟩

/-- A TCP client has received and sent. It is disconnected, and destroyed when the
    aborted receive has been delivered. -/
theorem disconnected_is_spared :
    ∃ (p : Program (connectionClass (some : String → Option String)))
      (r : Run (connections some) p), (p.objects .tcpClient 0).isDestroyed = true ∧
        r.Ensures Program.RunsOnLive ∧ p.Spared .tcpClient 0 := by
  let client : List TcpClient.Label :=
    [.connect, .resolveFinish 0 (.ok [⟨"127.0.0.1", 80⟩]), .resolveDeliver 0,
      .connectFinish 0 (.ok ⟨"127.0.0.1", 80⟩), .connectDeliver 0, .write [5],
      .receiveFinish 0 (.ok [7]), .receiveDeliver 0, .sendFinish 0 (.ok 1), .sendDeliver 0,
      .disconnect, .receiveDeliver 0]
  let idle : TcpClient.Impl → Bool := fun s =>
    s.resolves.isEmpty && s.connects.isEmpty && s.receives.isEmpty && s.pump.sends.isEmpty
  obtain ⟨p, r, hkept, hp⟩ := Run.exists_of_check (connections (some : String → Option String)) rfl
    (.create .tcpClient 0 () :: client.map fun l => .step .tcpClient 0 l)
    (fun _ l => !l.destroys)
    (fun p => (p.objects .tcpClient 0).object.any idle &&
      (p.next (.destroy .tcpClient 0)).any fun p' => (p'.objects .tcpClient 0).isDestroyed)
    (by decide)
  obtain ⟨hidle, hdestroy⟩ := Bool.and_eq_true_iff.mp hp
  obtain ⟨p', hn, hdead⟩ := (Option.any_eq_true _ _).mp hdestroy
  have hlast : ∀ s, p.objects .tcpClient 0 = .live s → TcpClient.Impl.Idle s := by
    intro s hs
    have hnone : idle s = true := by
      rw [hs] at hidle
      exact hidle
    simp only [idle, Bool.and_eq_true, List.isEmpty_iff] at hnone
    obtain ⟨⟨⟨hresolves, hconnects⟩, hreceives⟩, hsends⟩ := hnone
    exact ⟨hresolves, hconnects, hreceives, hsends⟩
  -- the client is the only one that is destroyed
  have hbefore : r.EachStep Program.destroysIdle := by
    apply hkept.mono
    intro p l hl
    exact Program.destroysIdle_of_not (by simpa using hl)
  have hstep : p.destroysIdle (.destroy .tcpClient 0) := by
    intro k n s heq hs
    cases heq
    exact hlast s hs
  let r' : Run (connections some) p' := r.step (.destroy .tcpClient 0) p' hn
  exact ⟨p', r', hdead, (handlers_live_iff r').1 ⟨hbefore, hstep⟩,
    ((handlers_live_iff r).2 _ _ _ hn).mpr hlast⟩

/-- What a CoAP client is in every run, and nothing of the others. -/
def coapWorking (make_address : String → Option Address) :
    (k : ConnectionKind) → (connectionClass make_address k).State → Prop
  | .coapClient => CoapClient.Worker.Working
  | _ => fun _ => True

/-- A CoAP client is never idle: its `doIO` is run once more when it has been
    destroyed. -/
theorem coapClient_not_spared {p p' : Program (connectionClass make_address)} {n : Nat}
    (r : Run (connections make_address) p) (hn : p.next (.destroy .coapClient n) = some p') :
    ¬p'.Spared .coapClient n := by
  have hworking : p.AllLive (coapWorking make_address) := by
    refine live_invariant ?_ ?_ r
    · intro k a
      cases k with
      | coapClient => exact ⟨rfl, rfl⟩
      | _ => trivial
    · intro k s l s' hI hs
      cases k with
      | coapClient => exact CoapClient.Worker.Working.next hI hs
      | _ => trivial
  obtain ⟨_, hstep⟩ := Program.step_of_next hn
  rw [spared_iff_idle r hn]
  -- one `doIO` is posted when the destructor begins, and it takes none away
  cases hstep with
  | destroy hcell =>
    intro hidle
    have hposted := (hworking .coapClient n _ hcell).posted
    have hnone : CoapClient.Worker.Idle _ := hidle _ hcell
    unfold CoapClient.Worker.Idle at hnone
    omega

/-- A TCP client is destroyed while it receives, and `handleRead` is run on it
    with the aborted receive. -/
theorem handler_of_destroyed :
    ∃ (p : Program (connectionClass (some : String → Option String)))
      (r : Run (connections some) p), ¬r.Ensures Program.RunsOnLive :=
  Run.exists_not_ensures (connections (some : String → Option String)) rfl
    [.create .tcpClient 0 (), .step .tcpClient 0 TcpClient.Label.connect,
      .step .tcpClient 0 (TcpClient.Label.resolveFinish 0 (.ok [⟨"127.0.0.1", 80⟩])),
      .step .tcpClient 0 (TcpClient.Label.resolveDeliver 0),
      .step .tcpClient 0 (TcpClient.Label.connectFinish 0 (.ok ⟨"127.0.0.1", 80⟩)),
      .step .tcpClient 0 (TcpClient.Label.connectDeliver 0), .destroy .tcpClient 0]
    (.step .tcpClient 0 (TcpClient.Label.receiveDeliver 0))
    (fun p _ => (p.objects .tcpClient 0).isDestroyed)
    (fun _ _ hdead => Program.not_runsOnLive rfl hdead) (by decide)

end DeviceTester
