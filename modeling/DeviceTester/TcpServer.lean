import DeviceTester.WritePump
import Mathlib.Data.Finset.Basic

/-! # The TCP server

  `TcpServer::Impl`, `TcpServerManager` and `TcpServerClient` of
  `libcon/src/tcp_server.cpp`. The accept handler makes a client for each
  socket and hands it to the manager, which keeps the registered ones in
  `connections_` and emits the `ClientState` signal. A client is taken out by
  `TcpServerManager::stop`, called by its own receive handler, or by
  `stopAll`, which `TcpServer::Impl::stop` calls, and with it `start` and
  `setOptions`.

  Clients are numbered in the order they are made. A client object outlives its
  registration for as long as a handler holds it, so its state is kept.
-/

namespace DeviceTester

open Async LTS

namespace TcpServer

/-! ### Clients -/

structure Client where
  do_run : Bool
  /-- The write side, with whether `socket_` is open. -/
  pump : Pump
  receives : Operations Unit (Except ErrorCode Bytes)
  /-- What `onReceive` has been called with. -/
  received : List Bytes

namespace Client

/-- A client is made with the open socket of an accept. -/
def new : Client where
  do_run := true
  pump := Pump.new true true
  receives := []
  received := []

def startRead (c : Client) : Client :=
  { c with
    receives :=
      if c.pump.is_open then c.receives.start ()
      else c.receives.startDone () (.error .bad_descriptor) }

def start (c : Client) : Client := startRead { c with do_run := true }

def stop (c : Client) : Client :=
  { c with
    do_run := false
    pump := { c.pump with is_open := false, sends := cancelAll c.pump.sends }
    receives := cancelAll c.receives }

/-- The branch of the receive handler for a successful receive. -/
def onChunk (c : Client) (chunk : Bytes) : Client :=
  let c := { c with received := c.received ++ [chunk] }
  if c.do_run then c.startRead else c

end Client

/-! ### The manager -/

inductive ClientState where
  | connected
  | disconnected
  deriving DecidableEq, Repr

structure Manager where
  /-- How many clients have been made. -/
  created : Nat
  clients : Nat → Client
  connections : Finset Nat
  /-- What the `ClientState` signal has been emitted with. -/
  events : List (ClientState × Nat)

namespace Manager

def new : Manager where
  created := 0
  clients := fun _ => Client.new
  connections := ∅
  events := []

def update (m : Manager) (c : Nat) (client : Client) : Manager :=
  { m with clients := Function.update m.clients c client }

/-- `start` of a client that has just been made. -/
def start (m : Manager) : Manager :=
  let c := m.created
  let m := { m with created := m.created + 1, connections := insert c m.connections }
  let m := m.update c Client.new.start
  { m with events := m.events ++ [(.connected, c)] }

def stop (m : Manager) (c : Nat) : Manager :=
  let m := m.update c (m.clients c).stop
  let m := { m with events := m.events ++ [(ClientState.disconnected, c)] }
  { m with connections := m.connections.erase c }

/-- The clients are closed and forgotten, and no signal is emitted. -/
def stopAll (m : Manager) : Manager :=
  { m with
    clients := fun c => if c ∈ m.connections then (m.clients c).stop else m.clients c
    connections := ∅ }

/-- The receive handler of a client. An abort is ignored, another error takes
    the client out if it has not been stopped. -/
def handleRead (m : Manager) (c : Nat) : Except ErrorCode Bytes → Manager
  | .ok chunk => m.update c ((m.clients c).onChunk chunk)
  | .error .operation_aborted => m
  | .error _ => if (m.clients c).do_run then m.stop c else m

theorem handleRead_error {m : Manager} {c : Nat} {ec : ErrorCode}
    (haborted : ec ≠ .operation_aborted) :
    m.handleRead c (.error ec) = if (m.clients c).do_run then m.stop c else m := by
  cases ec with
  | operation_aborted => exact absurd rfl haborted
  | _ => rfl

end Manager

/-! ### The server -/

structure Options where
  protocol : IpProtocol
  port : UInt16
  deriving DecidableEq, Repr

def Options.endpoint (opts : Options) : ListenEndpoint :=
  ⟨if opts.protocol = .ipv4 then .v4 else .v6, opts.port⟩

structure Acceptor where
  is_open : Bool
  bound : Option ListenEndpoint
  listening : Bool
  deriving DecidableEq, Repr

def Acceptor.closed : Acceptor := ⟨false, none, false⟩

/-- What the operating system answers to `open`, `bind` and `listen`. The first
    and the last throw when they fail. -/
inductive Answer where
  | granted
  | openFails
  | bindFails
  | listenFails
  deriving DecidableEq, Repr

structure Impl where
  opts : Options
  acceptor : Acceptor
  /-- The accepts whose handler has not run, each with the number of executions
      of `stop` before it was started. -/
  accepts : Operations Nat (Except ErrorCode Unit)
  manager : Manager
  /-- Executions of `stop`, which the program does not count. -/
  stops : Nat

namespace Impl

/-- The constructor does not set `opts_`. -/
def new (opts : Options) : Impl where
  opts := opts
  acceptor := .closed
  accepts := []
  manager := .new
  stops := 0

def isRunning (s : Impl) : Bool := s.acceptor.is_open

def stop (s : Impl) : Impl :=
  { s with
    acceptor := .closed
    accepts := if s.acceptor.is_open then cancelAll s.accepts else s.accepts
    manager := s.manager.stopAll
    stops := s.stops + 1 }

def startAccept (s : Impl) : Impl :=
  { s with
    accepts :=
      if s.acceptor.is_open then s.accepts.start s.stops
      else s.accepts.startDone s.stops (.error .bad_descriptor) }

/-- A failed `bind` is logged and leaves the acceptor open, and so does an
    exception of `listen`. -/
def start (s : Impl) (os : Answer) : Impl :=
  let s := s.stop
  if s.opts.protocol = .none then s
  else
    match os with
    | .openFails => s
    | .bindFails => { s with acceptor := ⟨true, none, false⟩ }
    | .listenFails => { s with acceptor := ⟨true, some s.opts.endpoint, false⟩ }
    | .granted => startAccept { s with acceptor := ⟨true, some s.opts.endpoint, true⟩ }

def setOptions (s : Impl) (opts : Options) (os : Answer) : Impl :=
  let s := { s with opts := opts }
  if s.isRunning then s.start os else s

/-- The accept handler only looks at whether the acceptor is open by now. -/
def handleAccept (s : Impl) (r : Except ErrorCode Unit) : Impl :=
  if s.acceptor.is_open then
    match r with
    | .ok _ => startAccept { s with manager := s.manager.start }
    | .error _ => s
  else s

end Impl

/-! ### The server as a system -/

inductive Label where
  | start (os : Answer)
  | stop
  | setOptions (opts : Options) (os : Answer)
  | acceptFinish (i : Nat) (r : Except ErrorCode Unit)
  | acceptDeliver (i : Nat)
  /-- The receives and sends of a client. -/
  | receiveFinish (c : Nat) (i : Nat) (r : Except ErrorCode Bytes)
  | receiveDeliver (c : Nat) (i : Nat)
  | write (c : Nat) (d : Bytes)
  | sendFinish (c : Nat) (i : Nat) (r : Except ErrorCode Nat)
  | sendDeliver (c : Nat) (i : Nat)

/-- A receive fills at most `rx_buffer_`. -/
def receiveReportable (r : Except ErrorCode Bytes) : Bool :=
  reportable r &&
    match r with
    | .ok chunk => decide (chunk.length ≤ 65535)
    | .error _ => true

/-- A step of the write side of a client that has been made. -/
def Manager.nextPump (m : Manager) (c : Nat) (l : PumpLabel) : Option Manager :=
  if c < m.created then
    ((m.clients c).pump.next .tcpServerClient l).map fun p =>
      m.update c { m.clients c with pump := p }
  else none

def Manager.nextReceiveFinish (m : Manager) (c : Nat) (i : Nat)
    (r : Except ErrorCode Bytes) : Option Manager :=
  ((m.clients c).receives.inProgress i).bind fun o =>
    if receiveReportable r then
      some (m.update c { m.clients c with receives := (m.clients c).receives.finish i o r })
    else none

def Manager.nextReceiveDeliver (m : Manager) (c : Nat) (i : Nat) : Option Manager :=
  ((m.clients c).receives.finished i).map fun x =>
    (m.update c { m.clients c with receives := (m.clients c).receives.remove i }).handleRead c x.2

def Impl.next (s : Impl) : Label → Option Impl
  | .start os => some (s.start os)
  | .stop => some s.stop
  | .setOptions opts os => some (s.setOptions opts os)
  | .acceptFinish i r =>
      (s.accepts.inProgress i).bind fun n =>
        if reportable r then some { s with accepts := s.accepts.finish i n r } else none
  | .acceptDeliver i =>
      (s.accepts.finished i).map fun x =>
        handleAccept { s with accepts := s.accepts.remove i } x.2
  | .receiveFinish c i r => (s.manager.nextReceiveFinish c i r).map fun m => { s with manager := m }
  | .receiveDeliver c i => (s.manager.nextReceiveDeliver c i).map fun m => { s with manager := m }
  | .write c d => (s.manager.nextPump c (.write d)).map fun m => { s with manager := m }
  | .sendFinish c i r => (s.manager.nextPump c (.finish i r)).map fun m => { s with manager := m }
  | .sendDeliver c i => (s.manager.nextPump c (.deliver i)).map fun m => { s with manager := m }

def system : System Impl Label where
  init := fun s => ∃ opts, s = Impl.new opts
  next := Impl.next

/-! ### What one step can do -/

namespace Impl

/-- The steps of the server, a constructor for each label. -/
inductive Step (s : Impl) : Label → Impl → Prop
  | start (os : Answer) : Step s (.start os) (s.start os)
  | stop : Step s .stop s.stop
  | setOptions (opts : Options) (os : Answer) :
      Step s (.setOptions opts os) (s.setOptions opts os)
  | acceptFinish {i n : Nat} {r : Except ErrorCode Unit}
      (hi : s.accepts.inProgress i = some n) (hr : reportable r = true) :
      Step s (.acceptFinish i r) { s with accepts := s.accepts.finish i n r }
  | acceptDeliver {i n : Nat} {r : Except ErrorCode Unit}
      (hf : s.accepts.finished i = some (n, r)) :
      Step s (.acceptDeliver i) (handleAccept { s with accepts := s.accepts.remove i } r)
  | receiveFinish {c i : Nat} {r : Except ErrorCode Bytes} {m : Manager}
      (hm : s.manager.nextReceiveFinish c i r = some m) :
      Step s (.receiveFinish c i r) { s with manager := m }
  | receiveDeliver {c i : Nat} {m : Manager} (hm : s.manager.nextReceiveDeliver c i = some m) :
      Step s (.receiveDeliver c i) { s with manager := m }
  | write {c : Nat} {d : Bytes} {m : Manager} (hm : s.manager.nextPump c (.write d) = some m) :
      Step s (.write c d) { s with manager := m }
  | sendFinish {c i : Nat} {r : Except ErrorCode Nat} {m : Manager}
      (hm : s.manager.nextPump c (.finish i r) = some m) :
      Step s (.sendFinish c i r) { s with manager := m }
  | sendDeliver {c i : Nat} {m : Manager} (hm : s.manager.nextPump c (.deliver i) = some m) :
      Step s (.sendDeliver c i) { s with manager := m }

theorem step_of_next {s s' : Impl} {l : Label} (hn : s.next l = some s') : s.Step l s' := by
  match l with
  | .start os => exact Option.some.inj hn ▸ .start os
  | .stop => exact Option.some.inj hn ▸ .stop
  | .setOptions opts os => exact Option.some.inj hn ▸ .setOptions opts os
  | .acceptFinish i r =>
    obtain ⟨n, hi, hn⟩ := Option.bind_eq_some_iff.mp hn
    obtain ⟨hr, heq⟩ := Option.ite_none_right_eq_some.mp hn
    exact Option.some.inj heq ▸ .acceptFinish hi hr
  | .acceptDeliver i =>
    obtain ⟨⟨n, r⟩, hf, rfl⟩ := Option.map_eq_some_iff.mp hn
    exact .acceptDeliver hf
  | .receiveFinish c i r =>
    obtain ⟨m, hm, rfl⟩ := Option.map_eq_some_iff.mp hn
    exact .receiveFinish hm
  | .receiveDeliver c i =>
    obtain ⟨m, hm, rfl⟩ := Option.map_eq_some_iff.mp hn
    exact .receiveDeliver hm
  | .write c d =>
    obtain ⟨m, hm, rfl⟩ := Option.map_eq_some_iff.mp hn
    exact .write hm
  | .sendFinish c i r =>
    obtain ⟨m, hm, rfl⟩ := Option.map_eq_some_iff.mp hn
    exact .sendFinish hm
  | .sendDeliver c i =>
    obtain ⟨m, hm, rfl⟩ := Option.map_eq_some_iff.mp hn
    exact .sendDeliver hm

/-- `start` begins with `stop`, and leaves the clients alone after that. -/
theorem start_manager (s : Impl) (os : Answer) : (s.start os).manager = s.manager.stopAll := by
  unfold Impl.start
  simp only
  split
  · rfl
  · cases os <;> rfl

end Impl

end TcpServer

end DeviceTester
