import DeviceTester.CoapClient
import DeviceTester.Framework.SharedMutex
import DeviceTester.ReceiveBuffers

/-! # The Lua plugin

  `LuaPlugin` and the wrappers of `plugins/lua_base/src/lua_plugin.cpp`. The
  constructor runs the script, makes the connections it describes and calls its
  `setup`. A wrapper copies what its connection emits, and posts the call of the
  script's callback on the strand of the plugin, which takes `state_mtx_` for it.
  `put` posts a request.

  The callbacks of a connection are called with all it has emitted, in that order
  (`callbacks_in_order`). But the constructor does not take the mutex. So two
  threads are in the Lua state when a callback is called before `setup` has
  returned, and at no other time (`exclusive_iff`).
-/

namespace DeviceTester

open Async LTS Lock

namespace LuaPlugin

/-! ### Connections and their wrappers -/

/-- The connections a script can ask for. -/
inductive Connection where
  | coapClient (s : CoapClient.Impl)
  | serial (s : Serial.Impl)

inductive ConnectionLabel where
  | coapClient (l : CoapClient.Label)
  | serial (l : Serial.Label)

/-- What `callback_fnc` is called with. -/
inductive Arguments where
  | response (id : CoapClient.RequestId) (data : Bytes)
  | received (data : Bytes)
  deriving DecidableEq, Repr

namespace Connection

def next : Connection → ConnectionLabel → Option Connection
  | .coapClient s, .coapClient l => (s.next l).map .coapClient
  | .serial s, .serial l => (s.next l).map .serial
  | _, _ => none

/-- What the signal of the connection has been emitted with. -/
def emitted : Connection → List Arguments
  | .coapClient s => s.emitted.map fun x => .response x.1 x.2
  | .serial s => s.received.map .received

end Connection

/-- `ConnectionWrapper` and `CoapClientConnectionWrapper`, with whether
    `callback_fnc` is a function. -/
structure Wrapper where
  connection : Connection
  callback_fnc : Bool

/-- A table in `plugin.connections`. `port` is a number for a CoAP client, and
    the device for a serial port. -/
structure Description where
  type : String
  ip : String
  port : UInt16
  device : String
  baudrate : UInt32
  /-- There is a function under this name. -/
  onReceive : Bool
  deriving DecidableEq, Repr

/-- What a new CoAP client finds: an arbitrary `is_mcast_`, and a server for the
    options it is constructed with and for those it is given. -/
structure Found where
  is_mcast : Bool
  constructed : CoapClient.Lookup
  given : CoapClient.Lookup
  deriving DecidableEq, Repr

/-- One round of the loop in `setupConnections`. Other types are skipped. -/
def setupConnection (d : Description) (found : Found) : Option Wrapper :=
  if d.type = "coap-client" then
    let client := CoapClient.Impl.new found.is_mcast found.constructed
    some ⟨.coapClient (client.setOptions ⟨d.ip, d.port⟩ found.given), d.onReceive⟩
  else if d.type = "serial" then
    let opts : Serial.Options := ⟨d.device, d.baudrate, 8, .none, .none, .one⟩
    some ⟨.serial { Serial.Impl.new opts with opts := opts }, d.onReceive⟩
  else none

/-! ### The plugin -/

/-- The threads that enter the Lua state: the one of the windows, which also runs
    the constructor, and the strand. -/
inductive Agent where
  | gui
  | strand
  deriving DecidableEq, Repr

/-- What is posted on the strand by `onReceive` and `put` of a wrapper. -/
inductive Handler where
  | callback (wrapper : Nat) (arguments : Arguments)
  | put (wrapper : Nat) (id : CoapClient.RequestId) (path : String) (data : Bytes)
  deriving DecidableEq, Repr

/-- Where `drawGui` is. -/
inductive Drawing where
  | outside
  /-- Before it has got `state_mtx_`. -/
  | waiting
  | inside
  deriving DecidableEq, Repr

/-- Where the strand is. -/
inductive Running where
  | idle
  /-- The handler is a callback that has not got `state_mtx_`. -/
  | waiting (wrapper : Nat) (arguments : Arguments)
  | inside
  deriving DecidableEq, Repr

structure Impl where
  constructing : Bool
  wrappers : List Wrapper
  state_mtx_ : SharedMutex Agent
  drawing : Drawing
  strand : List Handler
  running : Running
  /-- Not part of the program: the callbacks that have been called and the
      requests that have been made. -/
  done : List Handler

/-- The constructor begins. -/
def new : Impl where
  constructing := true
  wrappers := []
  state_mtx_ := .free
  drawing := .outside
  strand := []
  running := .idle
  done := []

inductive Label where
  | setupConnection (d : Description) (found : Found)
  /-- `setup` has returned. -/
  | constructed
  /-- The connection of a wrapper does something. -/
  | connection (c : Nat) (l : ConnectionLabel)
  /-- Lua code calls `put` of a wrapper, with a text or with something else. -/
  | put (a : Agent) (c : Nat) (id : Int) (path : String) (data : Option Bytes)
  | drawGui
  /-- The strand takes the handler at the front. A request needs a token. -/
  | runNext (token : CoapClient.Token) (a : CoapClient.Allocation) (token_added : Bool)
  /-- Who waits for `state_mtx_` gets it. -/
  | lock (a : Agent)
  /-- The Lua code returns. -/
  | leave (a : Agent)

namespace Impl

/-- The thread runs Lua code. -/
def inLua (s : Impl) : Agent → Bool
  | .gui => s.constructing || decide (s.drawing = .inside)
  | .strand => decide (s.running = .inside)

/-- `onReceive` of the wrapper `c`, called with what its connection has emitted
    until it has become `k`. -/
def onReceive (c : Nat) (w : Wrapper) (k : Connection) : List Handler :=
  if w.callback_fnc then
    (k.emitted.drop w.connection.emitted.length).map fun arguments => .callback c arguments
  else []

def nextConnection (s : Impl) (c : Nat) (l : ConnectionLabel) : Option Impl :=
  (s.wrappers[c]?).bind fun w => (w.connection.next l).map fun k =>
    { s with
      wrappers := s.wrappers.set c { w with connection := k }
      strand := s.strand ++ onReceive c w k }

/-- The conversion of the `int` that Lua passes. -/
def requestId (id : Int) : CoapClient.RequestId := UInt32.ofNat (id % 4294967296).toNat

/-- `CoapClientConnectionWrapper::put` -/
def put (s : Impl) (c : Nat) (id : Int) (path : String) : Option Bytes → Impl
  | some data => { s with strand := s.strand ++ [.put c (requestId id) path data] }
  | none => s

/-- The strand runs one handler: a callback has to wait, a request is made. -/
def execute (s : Impl) (token : CoapClient.Token) (a : CoapClient.Allocation)
    (token_added : Bool) : Handler → Option Impl
  | .callback c arguments => some { s with running := .waiting c arguments }
  | .put c id path data =>
      (s.nextConnection c (.coapClient (.sendRequest .m_put id data token a token_added))).map
        fun s' => { s' with done := s'.done ++ [.put c id path data] }

def lockNext (s : Impl) : Agent → Option Impl
  | .gui =>
      if s.drawing = .waiting then
        (s.state_mtx_.lock .gui .exclusive).map fun m =>
          { s with state_mtx_ := m, drawing := .inside }
      else none
  | .strand =>
      match s.running with
      | .waiting c arguments =>
          (s.state_mtx_.lock .strand .exclusive).map fun m =>
            { s with
              state_mtx_ := m
              running := .inside
              done := s.done ++ [.callback c arguments] }
      | _ => none

def leaveNext (s : Impl) : Agent → Option Impl
  | .gui =>
      if s.drawing = .inside then
        some { s with state_mtx_ := s.state_mtx_.unlock .gui, drawing := .outside }
      else none
  | .strand =>
      if s.running = .inside then
        some { s with state_mtx_ := s.state_mtx_.unlock .strand, running := .idle }
      else none

def next (s : Impl) : Label → Option Impl
  | .setupConnection d found =>
      if s.constructing then
        some { s with wrappers := s.wrappers ++ (setupConnection d found).toList }
      else none
  | .constructed => if s.constructing then some { s with constructing := false } else none
  | .connection c l => s.nextConnection c l
  | .put a c id path data => if s.inLua a then some (s.put c id path data) else none
  | .drawGui =>
      if s.constructing = false ∧ s.drawing = .outside then some { s with drawing := .waiting }
      else none
  | .runNext token a token_added =>
      match s.running, s.strand with
      | .idle, h :: rest => execute { s with strand := rest } token a token_added h
      | _, _ => none
  | .lock a => s.lockNext a
  | .leave a => s.leaveNext a

end Impl

def system : System Impl Label where
  init := fun s => s = new
  next := Impl.next

/-! ### The properties -/

namespace Impl

/-- **(E)** One thread at most is in the Lua state. -/
def Exclusive (s : Impl) : Prop := ¬(s.inLua .gui = true ∧ s.inLua .strand = true)

/-- No callback is called before `setup` has returned. -/
def callsAfterSetup (s : Impl) : Label → Bool
  | .lock .strand => !s.constructing
  | _ => true

/-- A thread waits for `state_mtx_`. -/
def waits (s : Impl) : Agent → Bool
  | .gui => decide (s.drawing = .waiting)
  | .strand =>
      match s.running with
      | .waiting _ _ => true
      | _ => false

/-- Who waits gets the mutex at once, or as soon as the other one's Lua code has
    returned. -/
def Unblocked (s : Impl) : Prop :=
  ∀ a, s.waits a = true → (s.next (.lock a)).isSome = true ∨
    ∃ b s', s.next (.leave b) = some s' ∧ (s'.next (.lock a)).isSome = true

end Impl

/-! ### What one step can do -/

namespace Impl

/-- The connection of the wrapper `c` has become `k`, and what it has emitted is
    posted. -/
def moved (s : Impl) (c : Nat) (w : Wrapper) (k : Connection) : Impl :=
  { s with
    wrappers := s.wrappers.set c { w with connection := k }
    strand := s.strand ++ onReceive c w k }

theorem nextConnection_eq_some {s s' : Impl} {c : Nat} {l : ConnectionLabel} :
    s.nextConnection c l = some s' ↔
      ∃ w k, s.wrappers[c]? = some w ∧ w.connection.next l = some k ∧ s.moved c w k = s' := by
  unfold nextConnection
  constructor
  · intro h
    obtain ⟨w, hw, h⟩ := Option.bind_eq_some_iff.mp h
    obtain ⟨k, hk, h⟩ := Option.map_eq_some_iff.mp h
    exact ⟨w, k, hw, hk, h⟩
  · intro h
    obtain ⟨w, k, hw, hk, rfl⟩ := h
    rw [hw, Option.bind_some, hk, Option.map_some]
    rfl

/-- The steps of the plugin. The strand has two for running a handler, and each
    thread its own for getting the mutex and for returning. -/
inductive Step (s : Impl) : Label → Impl → Prop
  | setupConnection {d : Description} {found : Found} (hc : s.constructing = true) :
      Step s (.setupConnection d found)
        { s with wrappers := s.wrappers ++ (setupConnection d found).toList }
  | constructed (hc : s.constructing = true) : Step s .constructed { s with constructing := false }
  | connection {c : Nat} {l : ConnectionLabel} {w : Wrapper} {k : Connection}
      (hw : s.wrappers[c]? = some w) (hk : w.connection.next l = some k) :
      Step s (.connection c l) (s.moved c w k)
  | put {a : Agent} {c : Nat} {id : Int} {path : String} {data : Option Bytes}
      (ha : s.inLua a = true) : Step s (.put a c id path data) (s.put c id path data)
  | drawGui (hc : s.constructing = false) (hd : s.drawing = .outside) :
      Step s .drawGui { s with drawing := .waiting }
  | callback {token : CoapClient.Token} {a : CoapClient.Allocation} {token_added : Bool}
      {c : Nat} {arguments : Arguments} {rest : List Handler} (hr : s.running = .idle)
      (hs : s.strand = .callback c arguments :: rest) :
      Step s (.runNext token a token_added)
        { s with strand := rest, running := .waiting c arguments }
  | request {token : CoapClient.Token} {a : CoapClient.Allocation} {token_added : Bool}
      {c : Nat} {id : CoapClient.RequestId} {path : String} {data : Bytes} {rest : List Handler}
      {w : Wrapper} {k : Connection} (hr : s.running = .idle)
      (hs : s.strand = .put c id path data :: rest) (hw : s.wrappers[c]? = some w)
      (hk : w.connection.next (.coapClient (.sendRequest .m_put id data token a token_added)) =
        some k) :
      Step s (.runNext token a token_added)
        { ({ s with strand := rest } : Impl).moved c w k with
          done := s.done ++ [.put c id path data] }
  | lockGui {m : SharedMutex Agent} (hd : s.drawing = .waiting)
      (hm : s.state_mtx_.lock .gui .exclusive = some m) :
      Step s (.lock .gui) { s with state_mtx_ := m, drawing := .inside }
  | lockStrand {m : SharedMutex Agent} {c : Nat} {arguments : Arguments}
      (hr : s.running = .waiting c arguments)
      (hm : s.state_mtx_.lock .strand .exclusive = some m) :
      Step s (.lock .strand)
        { s with
          state_mtx_ := m
          running := .inside
          done := s.done ++ [.callback c arguments] }
  | leaveGui (hd : s.drawing = .inside) :
      Step s (.leave .gui) { s with state_mtx_ := s.state_mtx_.unlock .gui, drawing := .outside }
  | leaveStrand (hr : s.running = .inside) :
      Step s (.leave .strand) { s with state_mtx_ := s.state_mtx_.unlock .strand, running := .idle }

theorem step_of_next {s s' : Impl} {l : Label} (hn : s.next l = some s') : s.Step l s' := by
  match l with
  | .setupConnection d found =>
    obtain ⟨hc, heq⟩ := Option.ite_none_right_eq_some.mp hn
    exact Option.some.inj heq ▸ .setupConnection hc
  | .constructed =>
    obtain ⟨hc, heq⟩ := Option.ite_none_right_eq_some.mp hn
    exact Option.some.inj heq ▸ .constructed hc
  | .connection c l =>
    obtain ⟨w, k, hw, hk, rfl⟩ := nextConnection_eq_some.mp hn
    exact .connection hw hk
  | .put a c id path data =>
    obtain ⟨ha, heq⟩ := Option.ite_none_right_eq_some.mp hn
    exact Option.some.inj heq ▸ .put ha
  | .drawGui =>
    obtain ⟨⟨hc, hd⟩, heq⟩ := Option.ite_none_right_eq_some.mp hn
    exact Option.some.inj heq ▸ .drawGui hc hd
  | .runNext token a token_added =>
    simp only [next] at hn
    split at hn
    · next h rest hr hs =>
      cases h with
      | callback c arguments => exact Option.some.inj hn ▸ .callback hr hs
      | put c id path data =>
        obtain ⟨t, ht, rfl⟩ := Option.map_eq_some_iff.mp hn
        obtain ⟨w, k, hw, hk, rfl⟩ := nextConnection_eq_some.mp ht
        exact .request hr hs hw hk
    · cases hn
  | .lock .gui =>
    obtain ⟨hd, hn⟩ := Option.ite_none_right_eq_some.mp hn
    obtain ⟨m, hm, rfl⟩ := Option.map_eq_some_iff.mp hn
    exact .lockGui hd hm
  | .lock .strand =>
    simp only [next, lockNext] at hn
    split at hn
    · next c arguments hr =>
      obtain ⟨m, hm, rfl⟩ := Option.map_eq_some_iff.mp hn
      exact .lockStrand hr hm
    · cases hn
  | .leave .gui =>
    obtain ⟨hd, heq⟩ := Option.ite_none_right_eq_some.mp hn
    exact Option.some.inj heq ▸ .leaveGui hd
  | .leave .strand =>
    obtain ⟨hr, heq⟩ := Option.ite_none_right_eq_some.mp hn
    exact Option.some.inj heq ▸ .leaveStrand hr

/-! ### The mutex -/

/-- The owners of `state_mtx_` are the threads that are inside. -/
structure Guarded (s : Impl) : Prop where
  mutex : s.state_mtx_.Sound
  gui : s.drawing = .inside ↔ (.gui, .exclusive) ∈ s.state_mtx_.owners
  strand : s.running = .inside ↔ (.strand, .exclusive) ∈ s.state_mtx_.owners
  modes : ∀ o ∈ s.state_mtx_.owners, o.2 = .exclusive
  outside : s.constructing = true → s.drawing = .outside

theorem Guarded.new : LuaPlugin.new.Guarded where
  mutex := .free
  gui := by simp [LuaPlugin.new, SharedMutex.free]
  strand := by simp [LuaPlugin.new, SharedMutex.free]
  modes := by simp [LuaPlugin.new, SharedMutex.free]
  outside := fun _ => rfl

variable {s s' : Impl} {l : Label}

/-- A step that neither takes the mutex nor gives it back. -/
theorem Guarded.frame (h : s.Guarded) (hmutex : s'.state_mtx_ = s.state_mtx_)
    (hgui : s'.drawing = .inside ↔ s.drawing = .inside)
    (hstrand : s'.running = .inside ↔ s.running = .inside)
    (houtside : s'.constructing = true → s'.drawing = .outside) : s'.Guarded where
  mutex := hmutex ▸ h.mutex
  gui := by
    rw [hmutex, hgui]
    exact h.gui
  strand := by
    rw [hmutex, hstrand]
    exact h.strand
  modes := hmutex ▸ h.modes
  outside := houtside

/-- Whoever gets the mutex is the only owner. -/
theorem owners_of_lock {m m' : SharedMutex Agent} {a : Agent}
    (hm : m.lock a .exclusive = some m') : m.owners = [] ∧ m'.owners = [(a, .exclusive)] := by
  obtain ⟨hgrants, rfl⟩ := SharedMutex.lock_eq_some.mp hm
  have hnone : m.owners = [] := List.isEmpty_iff.mp hgrants
  exact ⟨hnone, by rw [hnone]⟩

/-- Whoever gives it back was the only owner. -/
theorem Guarded.owners_unlock (h : s.Guarded) {a : Agent}
    (ha : (a, .exclusive) ∈ s.state_mtx_.owners) : (s.state_mtx_.unlock a).owners = [] := by
  have hone := h.mutex _ ha rfl
  show s.state_mtx_.owners.filter _ = []
  rw [hone]
  simp

theorem Guarded.next (h : s.Guarded) (hn : s.next l = some s') : s'.Guarded := by
  cases step_of_next hn with
  | setupConnection hc => exact h.frame rfl Iff.rfl Iff.rfl h.outside
  | constructed hc =>
    refine h.frame rfl Iff.rfl Iff.rfl fun hnot => ?_
    cases hnot
  | connection hw hk => exact h.frame rfl Iff.rfl Iff.rfl h.outside
  | @put a c id path data ha =>
    cases data with
    | some data => exact h.frame rfl Iff.rfl Iff.rfl h.outside
    | none => exact h
  | drawGui hc hd =>
    refine h.frame rfl ?_ Iff.rfl fun hnot => ?_
    · simp [hd]
    · rw [hc] at hnot
      cases hnot
  | callback hr hs => exact h.frame rfl Iff.rfl (by simp [hr]) h.outside
  | request hr hs hw hk => exact h.frame rfl Iff.rfl Iff.rfl h.outside
  | lockGui hd hm =>
    obtain ⟨hnone, hone⟩ := owners_of_lock hm
    have hstrand : ¬s.running = .inside := by
      rw [h.strand, hnone]
      exact List.not_mem_nil
    refine ⟨.lock hm, ?_, ?_, ?_, fun hc => ?_⟩
    · simp [hone]
    · simp [hone, hstrand]
    · simp [hone]
    · have hout := h.outside hc
      rw [hd] at hout
      cases hout
  | lockStrand hr hm =>
    obtain ⟨hnone, hone⟩ := owners_of_lock hm
    have hgui : ¬s.drawing = .inside := by
      rw [h.gui, hnone]
      exact List.not_mem_nil
    refine ⟨.lock hm, ?_, ?_, ?_, h.outside⟩
    · simp [hone, hgui]
    · simp [hone]
    · simp [hone]
  | leaveGui hd =>
    have hnone := h.owners_unlock (h.gui.mp hd)
    have hone := h.mutex _ (h.gui.mp hd) rfl
    refine ⟨h.mutex.unlock _, ?_, ?_, ?_, fun _ => rfl⟩
    · simp [hnone]
    · rw [h.strand, hnone, hone]
      simp
    · simp [hnone]
  | leaveStrand hr =>
    have hnone := h.owners_unlock (h.strand.mp hr)
    have hone := h.mutex _ (h.strand.mp hr) rfl
    refine ⟨h.mutex.unlock _, ?_, ?_, ?_, h.outside⟩
    · rw [h.gui, hnone, hone]
      simp
    · simp [hnone]
    · simp [hnone]

/-! Who waits. -/

theorem lock_of_free (hfree : s.state_mtx_.owners = []) {a : Agent} (ha : s.waits a = true) :
    (s.next (.lock a)).isSome = true := by
  have hgrants : ∀ t, (s.state_mtx_.lock t .exclusive).isSome = true := by
    intro t
    simp [SharedMutex.lock, SharedMutex.grants, hfree]
  cases a with
  | gui =>
    simp only [waits, decide_eq_true_eq] at ha
    simp [Impl.next, lockNext, ha, hgrants]
  | strand =>
    simp only [waits] at ha
    split at ha
    · next c arguments hr => simp [Impl.next, lockNext, hr, hgrants]
    · cases ha

theorem Guarded.unblocked (h : s.Guarded) : s.Unblocked := by
  intro a ha
  by_cases hfree : s.state_mtx_.owners = []
  · exact .inl (lock_of_free hfree ha)
  · right
    -- the owner is the other thread, and its code can return
    obtain ⟨⟨b, mode⟩, hmem⟩ := List.exists_mem_of_ne_nil _ hfree
    obtain rfl := h.modes _ hmem
    have hnone := h.owners_unlock hmem
    cases b with
    | gui =>
      have hd := h.gui.mpr hmem
      refine ⟨.gui, _, if_pos hd, lock_of_free hnone ?_⟩
      cases a with
      | gui =>
        simp [waits, hd] at ha
      | strand => exact ha
    | strand =>
      have hr := h.strand.mpr hmem
      refine ⟨.strand, _, if_pos hr, lock_of_free hnone ?_⟩
      cases a with
      | gui => exact ha
      | strand => simp [waits, hr] at ha

/-! The constructor, which takes no mutex. -/

/-- No callback has been called before `setup` has returned. -/
structure Alone (s : Impl) : Prop extends s.Guarded where
  setup : s.constructing = true → s.running ≠ .inside

theorem Alone.new : LuaPlugin.new.Alone where
  toGuarded := .new
  setup := by
    intro _ hinside
    cases hinside

theorem Alone.exclusive (h : s.Alone) : s.Exclusive := by
  intro hboth
  obtain ⟨hgui, hstrand⟩ := hboth
  simp only [inLua, Bool.or_eq_true, decide_eq_true_eq] at hgui hstrand
  rcases hgui with hc | hd
  · exact h.setup hc hstrand
  · have hsame := h.mutex.alone (h.gui.mp hd) (h.strand.mp hstrand)
    cases hsame

theorem Alone.next (h : s.Alone) (hC : s.callsAfterSetup l = true) (hn : s.next l = some s') :
    s'.Alone := by
  refine ⟨h.toGuarded.next hn, ?_⟩
  cases step_of_next hn with
  | lockStrand hr hm =>
    intro hc
    simp only [callsAfterSetup, Bool.not_eq_true'] at hC
    have hnot : s.constructing = true := hc
    rw [hC] at hnot
    cases hnot
  | constructed hc =>
    intro hnot
    cases hnot
  | @put a c id path data ha =>
    cases data with
    | some data => exact h.setup
    | none => exact h.setup
  | callback hr hs =>
    intro _ hinside
    cases hinside
  | leaveStrand hr =>
    intro _ hinside
    cases hinside
  | _ => exact h.setup

/-- A callback that is called too early is not alone. -/
theorem Exclusive.exact (hn : s.next l = some s') (h : s'.Exclusive) :
    s.callsAfterSetup l = true := by
  cases step_of_next hn with
  | lockStrand hr hm =>
    simp only [callsAfterSetup, Bool.not_eq_true']
    by_contra hc
    exact h ⟨by simp [inLua, hc], by simp [inLua]⟩
  | _ => rfl

end Impl

/-- **One thread at most is in the Lua state exactly when no callback is called
    before `setup` has returned**, and whoever waits for the mutex gets it once
    the other one's code has returned. -/
theorem exclusive_iff {s : Impl} (r : Run system s) :
    (r.Throughout Impl.Exclusive ↔ r.EachStep fun s l => s.callsAfterSetup l = true) ∧
      r.Throughout Impl.Unblocked := by
  constructor
  · refine r.throughout_iff (I := Impl.Alone) ?_ ?_ ?_ ?_
    · intro s hs
      obtain rfl := hs
      exact .new
    · intro s h
      exact h.exclusive
    · intro s l s' h hC hn
      exact h.next hC hn
    · intro s l s' _ hn h
      exact h.exact hn
  · have hguarded : r.Throughout Impl.Guarded := by
      apply r.always
      · intro s hs
        obtain rfl := hs
        exact .new
      · intro s l s' h hn
        exact h.next hn
    exact hguarded.mono fun s h => h.unblocked

/-- `setup` sends a request, and the response arrives before it has returned. -/
example : system.check (fun _ _ => true) (fun s => s.inLua .gui && s.inLua .strand) new
    [.setupConnection ⟨"coap-client", "::1", 5683, "", 0, true⟩
        ⟨false, .notFound, .found false true⟩,
      .put .gui 0 1 "led" (some [1]),
      .runNext [1] .granted true,
      .connection 0 (.coapClient (.message 0 true ⟨.ack, 69, [1], some [7], none⟩)),
      .runNext [1] .granted true,
      .lock .strand] = true := by
  decide

/-! ### What the callbacks are called with -/

namespace Connection

theorem emitted_sendRequest (s : CoapClient.Impl) (n : Nat) (method : CoapClient.Method)
    (id : CoapClient.RequestId) (data : Bytes) (token : CoapClient.Token)
    (a : CoapClient.Allocation) (token_added : Bool) :
    (s.sendRequest n method id data token a token_added).emitted = s.emitted := by
  unfold CoapClient.Impl.sendRequest
  by_cases hdata : data.length > 0
  · simp [hdata]
  · simp [hdata]

theorem emitted_coapClient {s s' : CoapClient.Impl} {l : CoapClient.Label}
    (hn : s.next l = some s') : ∃ new, s'.emitted = s.emitted ++ new := by
  obtain ⟨_, hn⟩ := CoapClient.Impl.next_eq_some.mp hn
  cases l with
  | setOptions opts answer =>
    obtain rfl := Option.some.inj hn
    obtain ⟨_, _, _, hemitted, _⟩ := CoapClient.Impl.createSession_frame _ answer
    exact ⟨[], hemitted.trans (List.append_nil _).symm⟩
  | sendRequest method id data token a token_added =>
    obtain ⟨n, _, hn⟩ := Option.bind_eq_some_iff.mp hn
    obtain ⟨_, heq⟩ := Option.ite_none_right_eq_some.mp hn
    obtain rfl := Option.some.inj heq
    exact ⟨[], (emitted_sendRequest ..).trans (List.append_nil _).symm⟩
  | message session sent m =>
    obtain ⟨_, heq⟩ := Option.ite_none_right_eq_some.mp hn
    obtain rfl := Option.some.inj heq
    exact ⟨_, CoapClient.messageCallback_emitted s sent m⟩
  | freeLargeData key =>
    obtain rfl := Option.some.inj hn
    exact ⟨[], (List.append_nil _).symm⟩

/-- A connection only adds to what it has emitted. -/
theorem emitted_next {c k : Connection} {l : ConnectionLabel} (hn : c.next l = some k) :
    ∃ new, k.emitted = c.emitted ++ new := by
  cases c with
  | coapClient s =>
    cases l with
    | coapClient l =>
      obtain ⟨s', hs', rfl⟩ := Option.map_eq_some_iff.mp hn
      obtain ⟨new, hnew⟩ := emitted_coapClient hs'
      exact ⟨_, (congrArg (List.map _) hnew).trans List.map_append⟩
    | serial l => cases hn
  | serial s =>
    cases l with
    | coapClient l => cases hn
    | serial l =>
      obtain ⟨s', hs', rfl⟩ := Option.map_eq_some_iff.mp hn
      have hrecord := (Serial.Impl.receives_next hs').1.record
      exact ⟨_, (congrArg (List.map _) hrecord).trans List.map_append⟩

end Connection

/-- What the callback of the wrapper `c` is called with by the handler. -/
def Handler.toWrapper (c : Nat) : Handler → Option Arguments
  | .callback c' arguments => if c' = c then some arguments else none
  | .put _ _ _ _ => none

namespace Impl

/-- The handler that the strand has taken, as long as it waits for the mutex. -/
def taken (s : Impl) : List Handler :=
  match s.running with
  | .waiting c arguments => [.callback c arguments]
  | _ => []

/-- All that has been posted: what has been done, and what is still to be done. -/
def history (s : Impl) : List Handler := s.done ++ s.taken ++ s.strand

/-- What the step posts. -/
def posts (s : Impl) : Label → List Handler
  | .connection c l =>
      match s.wrappers[c]? with
      | some w => ((w.connection.next l).map (onReceive c w)).getD []
      | none => []
  | .put _ c id path (some data) => [.put c (requestId id) path data]
  | _ => []

/-- **(C)** The callback of each wrapper has been called, or will be, with what
    the connection has emitted. -/
def CallsBack (s : Impl) : Prop :=
  ∀ c w, s.wrappers[c]? = some w →
    s.history.filterMap (Handler.toWrapper c) =
      if w.callback_fnc then w.connection.emitted else []

variable {s s' : Impl} {l : Label}

/-! One step. -/

theorem onReceive_of_emitted {c : Nat} {w : Wrapper} {k : Connection}
    (hk : k.emitted = w.connection.emitted) : onReceive c w k = [] := by
  unfold onReceive
  rw [hk, List.drop_length]
  split
  · rfl
  · rfl

/-- A request emits nothing. -/
theorem onReceive_request {c : Nat} {w : Wrapper} {k : Connection} {id : CoapClient.RequestId}
    {data : Bytes} {token : CoapClient.Token} {a : CoapClient.Allocation} {token_added : Bool}
    (hk : w.connection.next (.coapClient (.sendRequest .m_put id data token a token_added)) =
      some k) : onReceive c w k = [] := by
  apply onReceive_of_emitted
  cases hw : w.connection with
  | serial t =>
    rw [hw] at hk
    cases hk
  | coapClient t =>
    rw [hw] at hk
    obtain ⟨t', ht', rfl⟩ := Option.map_eq_some_iff.mp hk
    obtain ⟨_, hn⟩ := CoapClient.Impl.next_eq_some.mp ht'
    obtain ⟨n, _, hn⟩ := Option.bind_eq_some_iff.mp hn
    obtain ⟨_, heq⟩ := Option.ite_none_right_eq_some.mp hn
    obtain rfl := Option.some.inj heq
    exact congrArg (List.map _) (Connection.emitted_sendRequest ..)

/-- What is posted comes to the end of the history, and nothing else changes it. -/
theorem history_next (hn : s.next l = some s') : s'.history = s.history ++ s.posts l := by
  have hsame : s.history = s.history ++ [] := (List.append_nil _).symm
  cases step_of_next hn with
  | setupConnection hc => exact hsame
  | constructed hc => exact hsame
  | @connection c l w k hw hk =>
    have hposts : s.posts (.connection c l) = onReceive c w k := by simp [posts, hw, hk]
    rw [hposts]
    exact (List.append_assoc ..).symm
  | @put a c id path data ha =>
    cases data with
    | some data => exact (List.append_assoc ..).symm
    | none => exact hsame
  | drawGui hc hd => exact hsame
  | callback hr hs =>
    refine Eq.trans ?_ hsame
    simp [history, taken, hr, hs]
  | request hr hs hw hk =>
    refine Eq.trans ?_ hsame
    simp [history, taken, hr, hs, moved, onReceive_request hk]
  | lockGui hd hm => exact hsame
  | lockStrand hr hm =>
    refine Eq.trans ?_ hsame
    simp [history, taken, hr]
  | leaveGui hd => exact hsame
  | leaveStrand hr =>
    refine Eq.trans ?_ hsame
    simp [history, taken, hr]

/-- A wrapper passes on what its own connection has emitted in a step. -/
theorem filterMap_onReceive (c c' : Nat) (w : Wrapper) {k : Connection} {new : List Arguments}
    (hnew : k.emitted = w.connection.emitted ++ new) :
    (onReceive c w k).filterMap (Handler.toWrapper c') =
      if c = c' then if w.callback_fnc then new else [] else [] := by
  unfold onReceive
  rw [hnew, List.drop_left]
  cases w.callback_fnc with
  | false => simp
  | true =>
    rw [if_pos rfl, List.filterMap_map]
    by_cases hc : c = c'
    · subst hc
      simp [Handler.toWrapper, Function.comp_def]
    · simp [Handler.toWrapper, Function.comp_def, hc]

/-- What is kept: every wrapper calls back, and no other one. -/
structure Faithful (s : Impl) : Prop where
  calls : s.CallsBack
  unknown : ∀ c, s.wrappers.length ≤ c → s.history.filterMap (Handler.toWrapper c) = []

theorem Faithful.new : LuaPlugin.new.Faithful where
  calls := by
    intro c w hw
    simp [LuaPlugin.new] at hw
  unknown := fun _ _ => rfl

/-- A step that leaves the wrappers alone and posts no callback. -/
theorem Faithful.frame (h : s.Faithful) (hwrappers : s'.wrappers = s.wrappers) {posted : List Handler}
    (hhistory : s'.history = s.history ++ posted)
    (hposted : ∀ c, posted.filterMap (Handler.toWrapper c) = []) : s'.Faithful := by
  have hcalls : ∀ c, s'.history.filterMap (Handler.toWrapper c) =
      s.history.filterMap (Handler.toWrapper c) := by
    intro c
    rw [hhistory, List.filterMap_append, hposted, List.append_nil]
  refine ⟨?_, ?_⟩
  · intro c w hw
    rw [hcalls, ← h.calls c w (hwrappers ▸ hw)]
  · intro c hc
    rw [hcalls]
    exact h.unknown c (hwrappers ▸ hc)

/-- A wrapper is new, and its connection has emitted nothing yet. -/
theorem emitted_setupConnection {d : Description} {found : Found} {w : Wrapper}
    (hw : setupConnection d found = some w) : w.connection.emitted = [] := by
  have hcreate : ∀ (t : CoapClient.Impl) (answer : CoapClient.Lookup),
      (t.createSession answer).emitted = t.emitted :=
    fun t answer => (t.createSession_frame answer).2.2.2.1
  unfold setupConnection at hw
  split at hw
  · obtain rfl := Option.some.inj hw
    simp [Connection.emitted, CoapClient.Impl.setOptions, CoapClient.Impl.new, hcreate]
  · split at hw
    · obtain rfl := Option.some.inj hw
      rfl
    · cases hw

theorem Faithful.setupConnection (h : s.Faithful) (d : Description) (found : Found) :
    ({ s with wrappers := s.wrappers ++ (LuaPlugin.setupConnection d found).toList } :
      Impl).Faithful := by
  cases hw : LuaPlugin.setupConnection d found with
  | none =>
    refine h.frame ?_ (List.append_nil _).symm fun _ => rfl
    exact List.append_nil _
  | some new =>
    refine ⟨?_, ?_⟩
    · intro c w hc
      have hc' : (s.wrappers ++ [new])[c]? = some w := hc
      show s.history.filterMap (Handler.toWrapper c) = _
      rcases Nat.lt_or_ge c s.wrappers.length with hlt | hge
      · rw [List.getElem?_append_left hlt] at hc'
        exact h.calls c w hc'
      · -- nobody has posted anything for it before
        have hmem : w = new := by
          have hlast := List.mem_of_getElem? (List.getElem?_append_right hge ▸ hc')
          exact List.mem_singleton.mp hlast
        rw [h.unknown c hge, hmem, emitted_setupConnection hw, ite_self]
    · intro c hc
      have hc' : (s.wrappers ++ [new]).length ≤ c := hc
      rw [List.length_append] at hc'
      exact h.unknown c (by omega)

theorem Faithful.moved (h : s.Faithful) {c : Nat} {w : Wrapper} {k : Connection}
    {l : ConnectionLabel} (hw : s.wrappers[c]? = some w) (hk : w.connection.next l = some k)
    (hhistory : s'.history = s.history ++ onReceive c w k)
    (hwrappers : s'.wrappers = s.wrappers.set c { w with connection := k }) : s'.Faithful := by
  obtain ⟨new, hnew⟩ := Connection.emitted_next hk
  have hcalls : ∀ c', s'.history.filterMap (Handler.toWrapper c') =
      s.history.filterMap (Handler.toWrapper c') ++
        if c = c' then if w.callback_fnc then new else [] else [] := by
    intro c'
    rw [hhistory, List.filterMap_append, filterMap_onReceive c c' w hnew]
  obtain ⟨hlt, _⟩ := List.getElem?_eq_some_iff.mp hw
  refine ⟨?_, ?_⟩
  · intro c' w' hw'
    rw [hcalls]
    rw [hwrappers] at hw'
    by_cases hc : c = c'
    · subst hc
      rw [List.getElem?_set_self hlt] at hw'
      obtain rfl := Option.some.inj hw'
      rw [if_pos rfl, h.calls c w hw, hnew]
      cases w.callback_fnc <;> rfl
    · rw [List.getElem?_set_ne hc] at hw'
      rw [if_neg hc, List.append_nil]
      exact h.calls c' w' hw'
  · intro c' hc'
    rw [hwrappers, List.length_set] at hc'
    have hne : c ≠ c' := by omega
    rw [hcalls, if_neg hne, List.append_nil]
    exact h.unknown c' hc'

theorem Faithful.next (h : s.Faithful) (hn : s.next l = some s') : s'.Faithful := by
  have hhistory := history_next hn
  cases step_of_next hn with
  | setupConnection hc => exact h.setupConnection _ _
  | @connection c l w k hw hk =>
    have hposts : s.posts (.connection c l) = onReceive c w k := by simp [posts, hw, hk]
    exact h.moved hw hk (hposts ▸ hhistory) rfl
  | @put a c id path data ha =>
    cases data with
    | some data => exact h.frame rfl hhistory fun _ => rfl
    | none => exact h
  | request hr hs hw hk =>
    have hhistory' := hhistory.trans (List.append_nil _)
    exact h.moved hw hk (by rw [hhistory', onReceive_request hk, List.append_nil]) rfl
  | _ => exact h.frame rfl hhistory fun _ => rfl

end Impl

/-- **The callbacks of a connection are called with all it has emitted, in that
    order**, whatever the threads do meanwhile: what they have been called with,
    followed by what waits on the strand, is what the connection has emitted. And
    all that has been posted, callbacks and requests, is run in the order it was
    posted in. -/
theorem callbacks_in_order {s : Impl} (r : Run system s) :
    r.Throughout Impl.CallsBack ∧ s.history = r.collect Impl.posts := by
  constructor
  · have hfaithful : r.Throughout Impl.Faithful := by
      apply r.always
      · intro s hs
        obtain rfl := hs
        exact .new
      · intro s l s' h hn
        exact h.next hn
    exact hfaithful.mono fun s h => h.calls
  · induction r with
    | start s hs =>
      obtain rfl := hs
      rfl
    | step r l s' hn ih =>
      rw [Impl.history_next hn, ih]
      rfl

end LuaPlugin

end DeviceTester
