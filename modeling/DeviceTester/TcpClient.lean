import DeviceTester.WritePump

/-! # The TCP client

  `TcpClient::Impl` of `libcon/src/tcp_client.cpp`: `connect` resolves the
  server, the resolve handler starts the connect, its handler starts the first
  receive, and a receive is started again by its own handler. All of them act
  on the one socket of the object, and every handler that sees an error calls
  `disconnect`.

  An operation that has finished stays outstanding until its handler is run,
  and the handlers of different operations are run in any order. Calls of the
  API and handlers are atomic steps. The attempts of `asio::async_connect` on
  its endpoints are one operation.

  `History` is not part of the program. It counts the executions of
  `disconnect` and remembers which `connect` call things go back to, so that
  the properties of sessions can be stated.
-/

namespace DeviceTester

open Async LTS

namespace TcpClient

/-! ### State -/

structure Options where
  server : String
  service : String
  deriving DecidableEq, Repr

structure Endpoint where
  address : String
  port : UInt16
  deriving DecidableEq, Repr

/-- Where an operation comes from: the number of executions of `disconnect`
    before it was started, and before the `connect` call it goes back to. -/
structure Origin where
  started : Nat
  session : Nat
  deriving DecidableEq, Repr

/-- What `async_resolve` is asked for. -/
structure Lookup where
  origin : Origin
  server : String
  service : String
  deriving DecidableEq, Repr

/-- What `async_connect` is asked for. -/
structure Dial where
  origin : Origin
  endpoints : List Endpoint
  deriving DecidableEq, Repr

structure History where
  /-- Executions of `disconnect`. -/
  disconnects : Nat
  /-- `connect` has been called since the last of them. -/
  connect_called : Bool
  /-- The `connect` call the socket was last opened for, as in `Origin`. -/
  socket_session : Nat
  /-- A `handleConnect` has succeeded, and since then there has been neither a
      `disconnect` nor a failed completion. -/
  connected : Bool
  connects_started : Nat
  connects_succeeded : Nat
  reads_started : Nat
  deriving DecidableEq, Repr

structure Impl where
  opts : Options
  connection_str : String
  /-- The write side, with `should_run_` and whether `socket_` is open. -/
  pump : Pump
  resolves : Operations Lookup (Except ErrorCode (List Endpoint))
  connects : Operations Dial (Except ErrorCode Endpoint)
  receives : Operations Origin (Except ErrorCode Bytes)
  /-- What `onReceive` has been called with. -/
  received : List Bytes
  hist : History

namespace Impl

def new : Impl where
  opts := ⟨"", ""⟩
  connection_str := ""
  pump := Pump.new true false
  resolves := []
  connects := []
  receives := []
  received := []
  hist := ⟨0, false, 0, false, 0, 0, 0⟩

/-! ### The member functions -/

def isConnected (s : Impl) : Bool := s.pump.is_open

def connect (s : Impl) : Impl :=
  { s with
    resolves := s.resolves.start
      ⟨⟨s.hist.disconnects, s.hist.disconnects⟩, s.opts.server, s.opts.service⟩
    hist := { s.hist with connect_called := true } }

/-- `socket_.close()` finishes what is in progress on the socket. The resolver
    is not cancelled. -/
def disconnect (s : Impl) : Impl :=
  { s with
    pump := { s.pump with
      should_run := false
      is_open := false
      sends := cancelAll s.pump.sends }
    connects := cancelAll s.connects
    receives := cancelAll s.receives
    hist := { s.hist with
      disconnects := s.hist.disconnects + 1
      connect_called := false
      connected := false } }

/-- `asio::async_connect` on a range of endpoints closes the socket before it
    tries the first of them. -/
def asyncConnect (s : Impl) (session : Nat) (endpoints : List Endpoint) : Impl :=
  { s with
    pump := { s.pump with
      is_open := true
      sends := cancelAll s.pump.sends }
    connects := (cancelAll s.connects).start
      ⟨⟨s.hist.disconnects, session⟩, endpoints⟩
    receives := cancelAll s.receives
    hist := { s.hist with
      socket_session := session
      connects_started := s.hist.connects_started + 1 } }

/-- The handler of `async_resolve`. -/
def handleResolve (s : Impl) (l : Lookup) : Except ErrorCode (List Endpoint) → Impl
  | .ok endpoints => s.asyncConnect l.origin.session endpoints
  -- also an aborted resolve closes whatever socket is open by now
  | .error _ => s.disconnect

def startRead (s : Impl) (session : Nat) : Impl :=
  let origin : Origin := ⟨s.hist.disconnects, session⟩
  { s with
    receives :=
      if s.pump.is_open then s.receives.start origin
      else s.receives.startDone origin (.error .bad_descriptor)
    hist := { s.hist with reads_started := s.hist.reads_started + 1 } }

def handleConnect (s : Impl) (d : Dial) : Except ErrorCode Endpoint → Impl
  | .ok endpoint =>
      -- `should_run_` is not set here, nor anywhere after the constructor
      let str := "[tcp-client] " ++ endpoint.address ++ ":" ++ toString endpoint.port
      startRead
        { s with
          connection_str := str
          hist := { s.hist with
            connected := true
            connects_succeeded := s.hist.connects_succeeded + 1 } }
        d.origin.session
  | .error _ => s.disconnect

def handleRead (s : Impl) (o : Origin) : Except ErrorCode Bytes → Impl
  | .ok chunk =>
      let s := { s with received := s.received ++ [chunk] }
      if s.pump.should_run then s.startRead o.session else s
  -- also an aborted receive, whichever session it was started in
  | .error _ => s.disconnect

/-- `TcpClient::setOptions`. -/
def setOptions (s : Impl) (opts : Options) : Impl :=
  let s := { s with opts := opts }
  if s.isConnected then s.disconnect.connect else s

/-- What reaches the handler of `asio::async_connect`: if the socket has been
    closed since the attempt finished, the operation counts as aborted. -/
def connectResult (s : Impl) (r : Except ErrorCode Endpoint) : Except ErrorCode Endpoint :=
  if s.pump.is_open then r else .error .operation_aborted

end Impl

/-! ### The client as a system -/

inductive Label where
  | connect
  | disconnect
  | setOptions (opts : Options)
  | write (d : Bytes)
  /-- An operation in progress finishes, or the handler of a finished one is
      run. -/
  | sendFinish (i : Nat) (r : Except ErrorCode Nat)
  | sendDeliver (i : Nat)
  | resolveFinish (i : Nat) (r : Except ErrorCode (List Endpoint))
  | resolveDeliver (i : Nat)
  | connectFinish (i : Nat) (r : Except ErrorCode Endpoint)
  | connectDeliver (i : Nat)
  | receiveFinish (i : Nat) (r : Except ErrorCode Bytes)
  | receiveDeliver (i : Nat)

/-- A successful resolve passes at least one endpoint. -/
def resolveReportable (r : Except ErrorCode (List Endpoint)) : Bool :=
  reportable r && !(r matches .ok [])

/-- A successful connect names one of the endpoints it was given. -/
def connectReportable (d : Dial) (r : Except ErrorCode Endpoint) : Bool :=
  reportable r &&
    match r with
    | .ok endpoint => d.endpoints.contains endpoint
    | .error _ => true

/-- A receive fills at most `buffer_rx_`. -/
def receiveReportable (r : Except ErrorCode Bytes) : Bool :=
  reportable r &&
    match r with
    | .ok chunk => decide (chunk.length ≤ 65535)
    | .error _ => true

/-- A failed completion ends what `History.connected` stands for. -/
def Impl.afterSend (s : Impl) (r : Except ErrorCode Nat) (pump : Pump) : Impl :=
  { s with
    pump := pump
    hist := { s.hist with connected := s.hist.connected && (r matches .ok _) } }

def Impl.next (s : Impl) : Label → Option Impl
  | .connect => some s.connect
  | .disconnect => some s.disconnect
  | .setOptions opts => some (s.setOptions opts)
  | .write d => (s.pump.next .tcpClient (.write d)).map fun p => { s with pump := p }
  | .sendFinish i r => (s.pump.next .tcpClient (.finish i r)).map fun p => { s with pump := p }
  | .sendDeliver i =>
      (s.pump.sends.finished i).bind fun x =>
        (s.pump.next .tcpClient (.deliver i)).map fun p => s.afterSend x.2 p
  | .resolveFinish i r =>
      (s.resolves.inProgress i).bind fun l =>
        if resolveReportable r then some { s with resolves := s.resolves.finish i l r } else none
  | .resolveDeliver i =>
      (s.resolves.finished i).map fun x =>
        handleResolve { s with resolves := s.resolves.remove i } x.1 x.2
  | .connectFinish i r =>
      (s.connects.inProgress i).bind fun d =>
        if connectReportable d r then some { s with connects := s.connects.finish i d r } else none
  | .connectDeliver i =>
      (s.connects.finished i).map fun x =>
        handleConnect { s with connects := s.connects.remove i } x.1 (s.connectResult x.2)
  | .receiveFinish i r =>
      (s.receives.inProgress i).bind fun o =>
        if receiveReportable r then some { s with receives := s.receives.finish i o r } else none
  | .receiveDeliver i =>
      (s.receives.finished i).map fun x =>
        handleRead { s with receives := s.receives.remove i } x.1 x.2

def system : System Impl Label where
  init := fun s => s = Impl.new
  next := Impl.next

/-! ### What one step can do -/

namespace Impl

/-- The steps of the client, a constructor for each label. -/
inductive Step (s : Impl) : Label → Impl → Prop
  | connect : Step s .connect s.connect
  | disconnect : Step s .disconnect s.disconnect
  | setOptions (opts : Options) : Step s (.setOptions opts) (s.setOptions opts)
  | write {d : Bytes} {p : Pump} (hp : s.pump.next .tcpClient (.write d) = some p) :
      Step s (.write d) { s with pump := p }
  | sendFinish {i : Nat} {r : Except ErrorCode Nat} {p : Pump}
      (hp : s.pump.next .tcpClient (.finish i r) = some p) :
      Step s (.sendFinish i r) { s with pump := p }
  | sendDeliver {i : Nat} {b : Bytes} {r : Except ErrorCode Nat} {p : Pump}
      (hf : s.pump.sends.finished i = some (b, r))
      (hp : s.pump.next .tcpClient (.deliver i) = some p) :
      Step s (.sendDeliver i) (s.afterSend r p)
  | resolveFinish {i : Nat} {l : Lookup} {r : Except ErrorCode (List Endpoint)}
      (hi : s.resolves.inProgress i = some l) (hr : resolveReportable r = true) :
      Step s (.resolveFinish i r) { s with resolves := s.resolves.finish i l r }
  | resolveDeliver {i : Nat} {l : Lookup} {r : Except ErrorCode (List Endpoint)}
      (hf : s.resolves.finished i = some (l, r)) :
      Step s (.resolveDeliver i) (handleResolve { s with resolves := s.resolves.remove i } l r)
  | connectFinish {i : Nat} {d : Dial} {r : Except ErrorCode Endpoint}
      (hi : s.connects.inProgress i = some d) (hr : connectReportable d r = true) :
      Step s (.connectFinish i r) { s with connects := s.connects.finish i d r }
  | connectDeliver {i : Nat} {d : Dial} {r : Except ErrorCode Endpoint}
      (hf : s.connects.finished i = some (d, r)) :
      Step s (.connectDeliver i)
        (handleConnect { s with connects := s.connects.remove i } d (s.connectResult r))
  | receiveFinish {i : Nat} {o : Origin} {r : Except ErrorCode Bytes}
      (hi : s.receives.inProgress i = some o) (hr : receiveReportable r = true) :
      Step s (.receiveFinish i r) { s with receives := s.receives.finish i o r }
  | receiveDeliver {i : Nat} {o : Origin} {r : Except ErrorCode Bytes}
      (hf : s.receives.finished i = some (o, r)) :
      Step s (.receiveDeliver i) (handleRead { s with receives := s.receives.remove i } o r)

theorem step_of_next {s s' : Impl} {l : Label} (hn : s.next l = some s') : s.Step l s' := by
  match l with
  | .connect => exact Option.some.inj hn ▸ .connect
  | .disconnect => exact Option.some.inj hn ▸ .disconnect
  | .setOptions opts => exact Option.some.inj hn ▸ .setOptions opts
  | .write d =>
    obtain ⟨p, hp, rfl⟩ := Option.map_eq_some_iff.mp hn
    exact .write hp
  | .sendFinish i r =>
    obtain ⟨p, hp, rfl⟩ := Option.map_eq_some_iff.mp hn
    exact .sendFinish hp
  | .sendDeliver i =>
    obtain ⟨⟨b, r⟩, hf, hn⟩ := Option.bind_eq_some_iff.mp hn
    obtain ⟨p, hp, rfl⟩ := Option.map_eq_some_iff.mp hn
    exact .sendDeliver hf hp
  | .resolveFinish i r =>
    obtain ⟨l, hi, hn⟩ := Option.bind_eq_some_iff.mp hn
    obtain ⟨hr, heq⟩ := Option.ite_none_right_eq_some.mp hn
    exact Option.some.inj heq ▸ .resolveFinish hi hr
  | .resolveDeliver i =>
    obtain ⟨⟨l, r⟩, hf, rfl⟩ := Option.map_eq_some_iff.mp hn
    exact .resolveDeliver hf
  | .connectFinish i r =>
    obtain ⟨d, hi, hn⟩ := Option.bind_eq_some_iff.mp hn
    obtain ⟨hr, heq⟩ := Option.ite_none_right_eq_some.mp hn
    exact Option.some.inj heq ▸ .connectFinish hi hr
  | .connectDeliver i =>
    obtain ⟨⟨d, r⟩, hf, rfl⟩ := Option.map_eq_some_iff.mp hn
    exact .connectDeliver hf
  | .receiveFinish i r =>
    obtain ⟨o, hi, hn⟩ := Option.bind_eq_some_iff.mp hn
    obtain ⟨hr, heq⟩ := Option.ite_none_right_eq_some.mp hn
    exact Option.some.inj heq ▸ .receiveFinish hi hr
  | .receiveDeliver i =>
    obtain ⟨⟨o, r⟩, hf, rfl⟩ := Option.map_eq_some_iff.mp hn
    exact .receiveDeliver hf

end Impl

end TcpClient

end DeviceTester
