import DeviceTester.WritePump

/-! # The UDP connection

  `UdpConnection::Impl` of `libcon/src/udp_connection.cpp`. One socket is used
  for both directions. `startReceive` opens and binds it, `disconnect` only
  cancels what is in progress, and no statement before the destructor closes
  it.
-/

namespace DeviceTester

open Async LTS

namespace UdpConnection

/-! ### State -/

structure Options where
  write_address : String
  write_port : UInt16
  listen_protocol : IpProtocol
  listen_port : UInt16
  deriving DecidableEq, Repr

/-- The endpoint `startReceive` listens on, with its choice of the protocol. -/
def Options.listenEndpoint (opts : Options) : ListenEndpoint :=
  ⟨if opts.listen_protocol = .ipv4 then .v4 else .v6, opts.listen_port⟩

/-- What the operating system answers to `open` and `bind` of a socket that is
    not open. -/
inductive Answer where
  | granted
  | openFails
  | bindFails
  deriving DecidableEq, Repr

variable {Address : Type}

structure Impl (Address : Type) where
  opts : Options
  /-- The write side, with `should_run_` and whether `socket_` is open. -/
  pump : Pump
  /-- What `socket_` is bound to. -/
  bound : Option ListenEndpoint
  listen_endpoint : Option ListenEndpoint
  /-- `none` is the endpoint the constructor makes. -/
  write_endpoint : Option (Address × UInt16)
  should_receive : Bool
  receives : Operations Unit (Except ErrorCode Bytes)
  /-- What `onReceive` has been called with. -/
  received : List Bytes

namespace Impl

/-- The constructor does not set `opts_`. -/
def new (opts : Options) : Impl Address where
  opts := opts
  pump := Pump.new true false
  bound := none
  listen_endpoint := none
  write_endpoint := none
  should_receive := false
  receives := []
  received := []

/-! ### The member functions -/

def isReceiving (s : Impl Address) : Bool := s.should_receive

def startRead (s : Impl Address) : Impl Address :=
  { s with
    receives :=
      if s.pump.is_open then s.receives.start ()
      else s.receives.startDone () (.error .bad_descriptor) }

/-- `socket_.open` throws when the socket is open already. Whatever throws is
    caught, and a socket that could be opened but not bound stays open. -/
def startReceive (s : Impl Address) (os : Answer) : Impl Address :=
  if s.opts.listen_protocol = .none then s
  else
    let s := { s with should_receive := true, listen_endpoint := some s.opts.listenEndpoint }
    if s.pump.is_open then { s with should_receive := false }
    else
      match os with
      | .openFails => { s with should_receive := false }
      | .bindFails =>
          { s with pump := { s.pump with is_open := true }, should_receive := false }
      | .granted =>
          startRead { s with pump := { s.pump with is_open := true }, bound := s.listen_endpoint }

/-- `socket_.cancel`, which finishes the sends in progress as well. -/
def disconnect (s : Impl Address) : Impl Address :=
  { s with
    should_receive := false
    pump := { s.pump with sends := cancelAll s.pump.sends }
    receives := cancelAll s.receives }

/-- `make_address` throws when it cannot read the string, and then
    `write_endpoint_` stays as it is. -/
def setOptions (make_address : String → Option Address) (s : Impl Address) (opts : Options)
    (os : Answer) : Impl Address :=
  let s := { s with opts := opts }
  let s := if s.isReceiving then s.disconnect.startReceive os else s
  match make_address s.opts.write_address with
  | some address => { s with write_endpoint := some (address, opts.write_port) }
  | none => s

def setReceiving (s : Impl Address) (is_receiving : Bool) (os : Answer) : Impl Address :=
  if is_receiving then s.startReceive os else s.disconnect

def handleRead (s : Impl Address) : Except ErrorCode Bytes → Impl Address
  | .ok datagram =>
      let s := { s with received := s.received ++ [datagram] }
      if s.should_receive then s.startRead else s
  -- an aborted receive turns receiving off as well
  | .error _ => s.disconnect

end Impl

/-! ### The connection as a system -/

inductive Label where
  | setOptions (opts : Options) (os : Answer)
  | setReceiving (is_receiving : Bool) (os : Answer)
  | write (d : Bytes)
  | sendFinish (i : Nat) (r : Except ErrorCode Nat)
  | sendDeliver (i : Nat)
  | receiveFinish (i : Nat) (r : Except ErrorCode Bytes)
  | receiveDeliver (i : Nat)

/-- A receive fills at most `buffer_rx_`. -/
def receiveReportable (r : Except ErrorCode Bytes) : Bool :=
  reportable r &&
    match r with
    | .ok datagram => decide (datagram.length ≤ 65535)
    | .error _ => true

def Impl.next (make_address : String → Option Address) (s : Impl Address) :
    Label → Option (Impl Address)
  | .setOptions opts os => some (s.setOptions make_address opts os)
  | .setReceiving is_receiving os => some (s.setReceiving is_receiving os)
  | .write d => (s.pump.next .udpConnection (.write d)).map fun p => { s with pump := p }
  | .sendFinish i r => (s.pump.next .udpConnection (.finish i r)).map fun p => { s with pump := p }
  | .sendDeliver i => (s.pump.next .udpConnection (.deliver i)).map fun p => { s with pump := p }
  | .receiveFinish i r =>
      (s.receives.inProgress i).bind fun o =>
        if receiveReportable r then some { s with receives := s.receives.finish i o r } else none
  | .receiveDeliver i =>
      (s.receives.finished i).map fun x =>
        handleRead { s with receives := s.receives.remove i } x.2

def system (make_address : String → Option Address) : System (Impl Address) Label where
  init := fun s => ∃ opts, s = Impl.new opts
  next := Impl.next make_address

/-! ### What one step can do -/

namespace Impl

/-- The steps of the connection, a constructor for each label. -/
inductive Step (make_address : String → Option Address) (s : Impl Address) :
    Label → Impl Address → Prop
  | setOptions (opts : Options) (os : Answer) :
      Step make_address s (.setOptions opts os) (s.setOptions make_address opts os)
  | setReceiving (is_receiving : Bool) (os : Answer) :
      Step make_address s (.setReceiving is_receiving os) (s.setReceiving is_receiving os)
  | write {d : Bytes} {p : Pump} (hp : s.pump.next .udpConnection (.write d) = some p) :
      Step make_address s (.write d) { s with pump := p }
  | sendFinish {i : Nat} {r : Except ErrorCode Nat} {p : Pump}
      (hp : s.pump.next .udpConnection (.finish i r) = some p) :
      Step make_address s (.sendFinish i r) { s with pump := p }
  | sendDeliver {i : Nat} {p : Pump} (hp : s.pump.next .udpConnection (.deliver i) = some p) :
      Step make_address s (.sendDeliver i) { s with pump := p }
  | receiveFinish {i : Nat} {r : Except ErrorCode Bytes}
      (hi : s.receives.inProgress i = some ()) (hr : receiveReportable r = true) :
      Step make_address s (.receiveFinish i r) { s with receives := s.receives.finish i () r }
  | receiveDeliver {i : Nat} {r : Except ErrorCode Bytes}
      (hf : s.receives.finished i = some ((), r)) :
      Step make_address s (.receiveDeliver i)
        (handleRead { s with receives := s.receives.remove i } r)

theorem step_of_next {make_address : String → Option Address} {s s' : Impl Address} {l : Label}
    (hn : s.next make_address l = some s') : s.Step make_address l s' := by
  match l with
  | .setOptions opts os => exact Option.some.inj hn ▸ .setOptions opts os
  | .setReceiving is_receiving os => exact Option.some.inj hn ▸ .setReceiving is_receiving os
  | .write d =>
    obtain ⟨p, hp, rfl⟩ := Option.map_eq_some_iff.mp hn
    exact .write hp
  | .sendFinish i r =>
    obtain ⟨p, hp, rfl⟩ := Option.map_eq_some_iff.mp hn
    exact .sendFinish hp
  | .sendDeliver i =>
    obtain ⟨p, hp, rfl⟩ := Option.map_eq_some_iff.mp hn
    exact .sendDeliver hp
  | .receiveFinish i r =>
    obtain ⟨o, hi, hn⟩ := Option.bind_eq_some_iff.mp hn
    obtain ⟨hr, heq⟩ := Option.ite_none_right_eq_some.mp hn
    exact Option.some.inj heq ▸ .receiveFinish hi hr
  | .receiveDeliver i =>
    obtain ⟨⟨o, r⟩, hf, rfl⟩ := Option.map_eq_some_iff.mp hn
    exact .receiveDeliver hf

end Impl

end UdpConnection

end DeviceTester
