import DeviceTester.WritePump

/-! # The serial port

  `Serial::Impl` of `libcon/src/serial.cpp`. `open` and `close` post their work
  on the strand, `doOpen` begins with `doClose`, and the read handler posts the
  next `doRead` or calls `doClose`.

  The strand is a queue of the handlers that open, close and read. The posted
  calls of `startWrite` and the completion handlers of sends, which touch
  nothing of what these do, are steps of the pump and run at any time.
-/

namespace DeviceTester

open Async LTS

namespace Serial

/-! ### State -/

/-- A value of an `enum class` with three enumerators that is none of them. The
    members that the constructor does not set can have one. -/
abbrev Unnamed := { value : Int32 // value < 0 ∨ 2 < value }

inductive Parity where
  | none
  | odd
  | even
  | other (value : Unnamed)
  deriving DecidableEq, Repr

inductive FlowControl where
  | none
  | software
  | hardware
  | other (value : Unnamed)
  deriving DecidableEq, Repr

inductive StopBits where
  | one
  | onepointfive
  | two
  | other (value : Unnamed)
  deriving DecidableEq, Repr

structure Options where
  port : String
  baud_rate : UInt32
  character_size : UInt16
  parity : Parity
  flow_control : FlowControl
  stop_bits : StopBits
  deriving DecidableEq, Repr

/-- The types of `asio::serial_port_base`. -/
inductive PortParity where
  | none
  | odd
  | even
  deriving DecidableEq, Repr

inductive PortStopBits where
  | one
  | onepointfive
  | two
  deriving DecidableEq, Repr

inductive PortFlowControl where
  | none
  | software
  | hardware
  deriving DecidableEq, Repr

/-- The calls `doOpen` makes on `serial_`, with what they set. -/
inductive DeviceCall where
  | openPort (port : String)
  | baud_rate (value : UInt32)
  | character_size (value : UInt16)
  | parity (value : PortParity)
  | stop_bits (value : PortStopBits)
  | flow_control (value : PortFlowControl)
  deriving DecidableEq, Repr

/-- The option value can be constructed: `character_size` throws when it is not
    given 5, 6, 7 or 8. -/
def DeviceCall.constructible : DeviceCall → Bool
  | .character_size value => decide (5 ≤ value ∧ value ≤ 8)
  | _ => true

/-- The lambdas in `doOpen` that map the options to those of the port. -/
def portParity : Parity → PortParity
  | .none => .none
  | .odd => .even
  | .even => .even
  | .other _ => .none

def portStopBits : StopBits → PortStopBits
  | .one => .one
  | .onepointfive => .onepointfive
  | .two => .two
  | .other _ => .one

def portFlowControl : FlowControl → PortFlowControl
  | .none => .none
  | .software => .software
  | .hardware => .hardware
  | .other _ => .none

/-- The device calls of `doOpen`, in their order. -/
def Options.deviceCalls (opts : Options) : List DeviceCall :=
  [.openPort opts.port,
   .baud_rate opts.baud_rate,
   .character_size opts.character_size,
   .parity (portParity opts.parity),
   .stop_bits (portStopBits opts.stop_bits),
   .flow_control (portFlowControl opts.flow_control)]

/-- The handlers posted on the strand. -/
inductive Handler where
  | doOpen
  | doClose
  | doRead
  | handleRead (r : Except ErrorCode Bytes)

/-- The handler starts a read, or completes one. -/
def Handler.ofRead : Handler → Bool
  | .doRead => true
  | .handleRead _ => true
  | _ => false

/-- The two calls of the API. -/
inductive Request where
  | opening
  | closing
  deriving DecidableEq, Repr

/-- Not part of the program: the last call of the API, and whether the last
    `doOpen` that was run, if any, found no read of an earlier opening. -/
structure History where
  last_request : Option Request
  opened_clean : Bool
  deriving DecidableEq, Repr

structure Impl where
  opts : Options
  connection_str : String
  /-- The write side, with `should_run_` and whether `serial_` is open. -/
  pump : Pump
  /-- `is_open_` -/
  is_open : Bool
  /-- The calls that have succeeded since `serial_` was opened. -/
  device : List DeviceCall
  strand : List Handler
  /-- The reads that have not delivered their completion to the strand. -/
  reads : Operations Unit (Except ErrorCode Bytes)
  /-- What `onReceive` has been called with. -/
  received : List Bytes
  /-- An exception has left `io_context::run`. -/
  terminated : Bool
  hist : History

namespace Impl

/-- The constructor sets three of the options and leaves the others as they are. -/
def new (opts : Options) : Impl where
  opts := { opts with port := "COM3", character_size := 8, baud_rate := 115200 }
  connection_str := ""
  pump := Pump.new false false
  is_open := false
  device := []
  strand := []
  reads := []
  received := []
  terminated := false
  hist := ⟨none, true⟩

/-! ### The member functions -/

def post (s : Impl) (h : Handler) : Impl := { s with strand := s.strand ++ [h] }

/-- `Serial::Impl::open` -/
def requestOpen (s : Impl) : Impl :=
  { s.post .doOpen with hist := { s.hist with last_request := some .opening } }

/-- `Serial::Impl::close` clears `should_run_` at once. -/
def requestClose (s : Impl) : Impl :=
  { s.post .doClose with
    pump := { s.pump with should_run := false }
    hist := { s.hist with last_request := some .closing } }

def isOpen (s : Impl) : Bool := s.pump.is_open

/-- `cancel` and `close` finish what is in progress on the port. On a port that
    is not open nothing is. -/
def doClose (s : Impl) : Impl :=
  { s with
    is_open := false
    pump := { s.pump with
      should_run := false
      is_open := false
      sends := if s.pump.is_open then cancelAll s.pump.sends else s.pump.sends }
    reads := if s.pump.is_open then cancelAll s.reads else s.reads }

/-- What a device call that succeeds does. -/
def apply (s : Impl) (c : DeviceCall) : Impl :=
  match c with
  | .openPort _ => { s with pump := { s.pump with is_open := true }, device := [c] }
  | _ => { s with device := s.device ++ [c] }

/-- A device call throws when its value cannot be constructed, and when `dev`
    refuses it. -/
def call (dev : DeviceCall → Bool) (s : Impl) (c : DeviceCall) : Except Impl Impl :=
  if c.constructible && dev c then .ok (s.apply c) else .error s

/-- The end of `doOpen`, when nothing has been thrown. -/
def opened (s : Impl) : Impl :=
  post
    { s with
      pump := { s.pump with should_run := true }
      is_open := true
      connection_str := "serial://" ++ s.opts.port ++ "@" ++ toString s.opts.baud_rate }
    .doRead

/-- An exception leaves the state as the call that throws it has found it. -/
def doOpen (dev : DeviceCall → Bool) (s : Impl) : Except Impl Impl := do
  let s ← s.opts.deviceCalls.foldlM (call dev) s.doClose
  return s.opened

def doRead (s : Impl) : Impl :=
  { s with
    reads :=
      if s.pump.is_open then s.reads.start ()
      else s.reads.startDone () (.error .bad_descriptor) }

def handleRead (s : Impl) : Except ErrorCode Bytes → Impl
  | .ok chunk =>
      let s := { s with received := s.received ++ [chunk] }
      if s.pump.should_run then s.post .doRead else s
  | .error _ => s.doClose

/-- No read is outstanding, and no handler of one is posted. -/
def noRead (s : Impl) : Bool := s.reads.isEmpty && s.strand.all fun h => !h.ofRead

/-- The strand runs one handler. -/
def execute (dev : DeviceCall → Bool) (s : Impl) : Handler → Except Impl Impl
  | .doOpen => doOpen dev { s with hist := { s.hist with opened_clean := s.noRead } }
  | .doClose => .ok s.doClose
  | .doRead => .ok s.doRead
  | .handleRead r => .ok (s.handleRead r)

end Impl

/-! ### The port as a system -/

inductive Label where
  | opening
  | closing
  | setOptions (opts : Options)
  | write (d : Bytes)
  /-- The strand runs a posted `startWrite`. -/
  | startWrite
  | sendFinish (i : Nat) (r : Except ErrorCode Nat)
  | sendDeliver (i : Nat)
  /-- A read in progress finishes; a finished read delivers its completion to
      the strand. -/
  | readFinish (i : Nat) (r : Except ErrorCode Bytes)
  | readDeliver (i : Nat)
  /-- The strand runs the handler at the front. `dev` says which device calls
      succeed. -/
  | run (dev : DeviceCall → Bool)

/-- A read fills at most `buffer_rx_`. -/
def readReportable (r : Except ErrorCode Bytes) : Bool :=
  reportable r &&
    match r with
    | .ok chunk => decide (chunk.length ≤ 1024)
    | .error _ => true

def Impl.runNext (s : Impl) (dev : DeviceCall → Bool) : Option (Except Impl Impl) :=
  match s.strand with
  | [] => none
  | h :: rest => some (execute dev { s with strand := rest } h)

def Impl.next (s : Impl) (l : Label) : Option Impl :=
  -- nobody catches what a handler throws
  if s.terminated then none
  else
    match l with
    | .opening => some s.requestOpen
    | .closing => some s.requestClose
    | .setOptions opts => some { s with opts := opts }
    | .write d => (s.pump.next .serial (.write d)).map fun p => { s with pump := p }
    | .startWrite => (s.pump.next .serial .runPosted).map fun p => { s with pump := p }
    | .sendFinish i r => (s.pump.next .serial (.finish i r)).map fun p => { s with pump := p }
    | .sendDeliver i => (s.pump.next .serial (.deliver i)).map fun p => { s with pump := p }
    | .readFinish i r =>
        (s.reads.inProgress i).bind fun o =>
          if readReportable r then some { s with reads := s.reads.finish i o r } else none
    | .readDeliver i =>
        (s.reads.finished i).map fun x =>
          { s.post (.handleRead x.2) with reads := s.reads.remove i }
    | .run dev =>
        (s.runNext dev).map fun
          | .ok s' => s'
          | .error s' => { s' with terminated := true }

def system : System Impl Label where
  init := fun s => ∃ opts, s = Impl.new opts
  next := Impl.next

/-! ### What one step can do -/

namespace Impl

/-- The steps of the port, a constructor for each label, and two for running a
    handler: one that throws is the last thing that happens. -/
inductive Step (s : Impl) : Label → Impl → Prop
  | opening : Step s .opening s.requestOpen
  | closing : Step s .closing s.requestClose
  | setOptions (opts : Options) : Step s (.setOptions opts) { s with opts := opts }
  | write {d : Bytes} {p : Pump} (hp : s.pump.next .serial (.write d) = some p) :
      Step s (.write d) { s with pump := p }
  | startWrite {p : Pump} (hp : s.pump.next .serial .runPosted = some p) :
      Step s .startWrite { s with pump := p }
  | sendFinish {i : Nat} {r : Except ErrorCode Nat} {p : Pump}
      (hp : s.pump.next .serial (.finish i r) = some p) :
      Step s (.sendFinish i r) { s with pump := p }
  | sendDeliver {i : Nat} {p : Pump} (hp : s.pump.next .serial (.deliver i) = some p) :
      Step s (.sendDeliver i) { s with pump := p }
  | readFinish {i : Nat} {r : Except ErrorCode Bytes} (hi : s.reads.inProgress i = some ())
      (hr : readReportable r = true) :
      Step s (.readFinish i r) { s with reads := s.reads.finish i () r }
  | readDeliver {i : Nat} {r : Except ErrorCode Bytes} (hf : s.reads.finished i = some ((), r)) :
      Step s (.readDeliver i) { s.post (.handleRead r) with reads := s.reads.remove i }
  | run {dev : DeviceCall → Bool} {s' : Impl} (hrun : s.runNext dev = some (.ok s')) :
      Step s (.run dev) s'
  | throw {dev : DeviceCall → Bool} {s' : Impl} (hrun : s.runNext dev = some (.error s')) :
      Step s (.run dev) { s' with terminated := true }

theorem step_of_next {s s' : Impl} {l : Label} (hn : s.next l = some s') :
    s.terminated = false ∧ s.Step l s' := by
  unfold Impl.next at hn
  split at hn
  · cases hn
  · next hlive =>
    refine ⟨by simpa using hlive, ?_⟩
    match l with
    | .opening => exact Option.some.inj hn ▸ .opening
    | .closing => exact Option.some.inj hn ▸ .closing
    | .setOptions opts => exact Option.some.inj hn ▸ .setOptions opts
    | .write d =>
      obtain ⟨p, hp, rfl⟩ := Option.map_eq_some_iff.mp hn
      exact .write hp
    | .startWrite =>
      obtain ⟨p, hp, rfl⟩ := Option.map_eq_some_iff.mp hn
      exact .startWrite hp
    | .sendFinish i r =>
      obtain ⟨p, hp, rfl⟩ := Option.map_eq_some_iff.mp hn
      exact .sendFinish hp
    | .sendDeliver i =>
      obtain ⟨p, hp, rfl⟩ := Option.map_eq_some_iff.mp hn
      exact .sendDeliver hp
    | .readFinish i r =>
      obtain ⟨o, hi, hn⟩ := Option.bind_eq_some_iff.mp hn
      obtain ⟨hr, heq⟩ := Option.ite_none_right_eq_some.mp hn
      exact Option.some.inj heq ▸ .readFinish hi hr
    | .readDeliver i =>
      obtain ⟨⟨o, r⟩, hf, rfl⟩ := Option.map_eq_some_iff.mp hn
      exact .readDeliver hf
    | .run dev =>
      obtain ⟨result, hrun, rfl⟩ := Option.map_eq_some_iff.mp hn
      cases result with
      | ok t => exact .run hrun
      | error t => exact .throw hrun

end Impl

/-! ### What `doOpen` does -/

namespace Impl

theorem call_eq_ok {dev : DeviceCall → Bool} {s s' : Impl} {c : DeviceCall} :
    s.call dev c = .ok s' ↔ (c.constructible = true ∧ dev c = true) ∧ s' = s.apply c := by
  unfold call
  by_cases hc : (c.constructible && dev c) = true
  · rw [if_pos hc]
    have hboth := Bool.and_eq_true_iff.mp hc
    exact ⟨fun h => ⟨hboth, (Except.ok.inj h).symm⟩, fun h => h.2 ▸ rfl⟩
  · rw [if_neg hc]
    constructor
    · intro h
      cases h
    · rintro ⟨hboth, _⟩
      exact absurd (Bool.and_eq_true_iff.mpr hboth) hc

/-- A sequence of device calls succeeds exactly when each of them does. -/
theorem foldlM_call_eq_ok {dev : DeviceCall → Bool} {cs : List DeviceCall} {s s' : Impl} :
    cs.foldlM (call dev) s = .ok s' ↔
      (∀ c ∈ cs, c.constructible = true ∧ dev c = true) ∧ s' = cs.foldl apply s := by
  induction cs generalizing s with
  | nil =>
    show (Except.ok s : Except Impl Impl) = .ok s' ↔ _
    constructor
    · intro h
      exact ⟨by simp, (Except.ok.inj h).symm⟩
    · rintro ⟨_, rfl⟩
      rfl
  | cons c cs ih =>
    rw [List.foldlM_cons]
    simp only [List.foldl_cons, List.forall_mem_cons, and_assoc]
    cases hc : s.call dev c with
    | error t =>
      constructor
      · intro h
        cases h
      · rintro ⟨hcons, hdev, _⟩
        have hok : s.call dev c = .ok (s.apply c) := call_eq_ok.mpr ⟨⟨hcons, hdev⟩, rfl⟩
        rw [hc] at hok
        cases hok
    | ok t =>
      obtain ⟨⟨hcons, hdev⟩, rfl⟩ := call_eq_ok.mp hc
      show cs.foldlM (call dev) (s.apply c) = .ok s' ↔ _
      rw [ih]
      simp [hcons, hdev]

/-- The port with all device calls made. -/
def configured (s : Impl) : Impl :=
  { s with pump := { s.pump with is_open := true }, device := s.opts.deviceCalls }

/-- A `doOpen` that does not throw has closed the port, opened it again with
    the options, and posted the first read. -/
theorem doOpen_eq_ok {dev : DeviceCall → Bool} {s s' : Impl} :
    doOpen dev s = .ok s' ↔
      (∀ c ∈ s.opts.deviceCalls, c.constructible = true ∧ dev c = true) ∧
        s' = s.doClose.configured.opened := by
  have hfold : s.opts.deviceCalls.foldl apply s.doClose = s.doClose.configured := by
    simp [Options.deviceCalls, apply, configured, doClose]
  unfold doOpen
  cases hcalls : s.opts.deviceCalls.foldlM (call dev) s.doClose with
  | error t =>
    constructor
    · intro h
      cases h
    · rintro ⟨hall, _⟩
      have hok := foldlM_call_eq_ok (s := s.doClose).mpr ⟨hall, rfl⟩
      rw [hcalls] at hok
      cases hok
  | ok t =>
    obtain ⟨hall, rfl⟩ := foldlM_call_eq_ok.mp hcalls
    rw [hfold]
    exact ⟨fun h => ⟨hall, (Except.ok.inj h).symm⟩, fun h => h.2 ▸ rfl⟩

end Impl

end Serial

end DeviceTester
