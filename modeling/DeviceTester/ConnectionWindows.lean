import DeviceTester.Framework.Run
import DeviceTester.TcpServer
import Mathlib.Logic.Function.Basic

/-! # The windows of the connections

  `ConnectionManagerWin` of `gui-libcon/src/connection_manager_win.cpp`, with
  the windows it keeps in `connections_` and the consoles that these register
  with the `WindowManager`.

  The windows of a serial port, a TCP client and a UDP connection have a pointer
  to their console, the window of the TCP server has a map from its clients, by
  address, to theirs, and the window of the CoAP client opens none. The server is
  the one of `TcpServer`, whose `ClientState` notifications the window listens
  to.

  A slot is never disconnected by hand, so it is kept with the signal. Windows,
  consoles and clients are numbered in the order they are made.
-/

namespace DeviceTester

open LTS

/-- A `RawDataWin`. -/
abbrev Console := Nat

/-- What a pointer to a client is. -/
abbrev Address := Nat

/-! ### The windows -/

inductive PlainKind where
  | serial
  | tcp
  | udp
  | coap
  deriving DecidableEq, Repr

/-- `SerialWin`, `TcpClientWin`, `UdpConWin` or `CoapClientWin`, with its
    connection. -/
structure PlainWin where
  kind : PlainKind
  /-- Somebody else has a pointer to the connection. -/
  shared : Bool
  raw_win : Option Console
  /-- The slots on the signal of the connection, by the console they track. -/
  slots : List Console
  deriving DecidableEq, Repr

structure TcpServerWin where
  server : TcpServer.Impl
  /-- Where the clients have been allocated. -/
  address : Nat → Address
  client_wins : Address → Option Console
  /-- The slots on the signal of a client, by the console they have captured. -/
  slots : Nat → List Console

/-- A window that has been made, or what is left of it. -/
inductive Win where
  | plain (p : PlainWin)
  | server (sw : TcpServerWin)
  | gone

structure Gui where
  /-- How many windows have been made. -/
  created : Nat
  wins : Nat → Win
  connections : Finset Nat
  current : Option Nat
  /-- `windows_` of the `WindowManager`. -/
  windows : Finset Console
  /-- How many consoles have been made. -/
  consoles : Nat

def PlainWin.new (kind : PlainKind) (shared : Bool) : PlainWin := ⟨kind, shared, none, []⟩

def TcpServerWin.new (opts : TcpServer.Options) : TcpServerWin where
  server := .new opts
  address := fun _ => 0
  client_wins := fun _ => none
  slots := fun _ => []

namespace TcpServerWin

/-- The slot of the window for `ClientState`. -/
def onClientState (sw : TcpServerWin) (windows : Finset Console) :
    TcpServer.ClientState × Nat → TcpServerWin × Finset Console
  | (.connected, _) => (sw, windows)
  | (.disconnected, n) =>
      match sw.client_wins (sw.address n) with
      | some c =>
          ({ sw with client_wins := Function.update sw.client_wins (sw.address n) none },
            windows.erase c)
      | none => (sw, windows)

/-- The server after one of its handlers. A client that the handler has made is
    at `a`, and its signal has no slots. -/
def withServer (sw : TcpServerWin) (server : TcpServer.Impl) (a : Address) : TcpServerWin :=
  if sw.server.manager.created < server.manager.created then
    { sw with
      server := server
      address := Function.update sw.address sw.server.manager.created a
      slots := Function.update sw.slots sw.server.manager.created [] }
  else { sw with server := server }

/-- The notifications that the handler has emitted. -/
def emitted (sw : TcpServerWin) (server : TcpServer.Impl) : List (TcpServer.ClientState × Nat) :=
  server.manager.events.drop sw.server.manager.events.length

end TcpServerWin

/-- What is left when a window is deleted. The server goes with its window, and
    so does a connection that nobody else has a pointer to. -/
def Win.deleted : Win → Win
  | .plain p => if p.shared then .plain { p with raw_win := none } else .gone
  | _ => .gone

namespace Gui

def new : Gui where
  created := 0
  wins := fun _ => .gone
  connections := ∅
  current := none
  windows := ∅
  consoles := 0

def setWin (s : Gui) (w : Nat) (win : Win) : Gui :=
  { s with wins := Function.update s.wins w win }

/-- A window is made and put into `connections_`. -/
def emplace (s : Gui) (win : Win) : Gui :=
  { s.setWin s.created win with
    created := s.created + 1
    connections := insert s.created s.connections }

/-- The check box "Console" of the details tab. -/
def toggle (s : Gui) (w : Nat) (p : PlainWin) : Gui :=
  match p.raw_win with
  | none =>
      { s.setWin w (.plain { p with
            raw_win := some s.consoles, slots := p.slots ++ [s.consoles] }) with
        windows := insert s.consoles s.windows
        consoles := s.consoles + 1 }
  | some c =>
      { s.setWin w (.plain { p with raw_win := none }) with windows := s.windows.erase c }

/-- The check box "Console" of a client. -/
def toggleClient (s : Gui) (w : Nat) (sw : TcpServerWin) (n : Nat) : Gui :=
  match sw.client_wins (sw.address n) with
  | none =>
      { s.setWin w (.server { sw with
            client_wins := Function.update sw.client_wins (sw.address n) (some s.consoles)
            slots := Function.update sw.slots n (sw.slots n ++ [s.consoles]) }) with
        windows := insert s.consoles s.windows
        consoles := s.consoles + 1 }
  | some c =>
      { s.setWin w (.server { sw with
            client_wins := Function.update sw.client_wins (sw.address n) none }) with
        windows := s.windows.erase c }

/-- A handler of the server has been run, and the window has been told what it
    has emitted. -/
def notify (s : Gui) (w : Nat) (sw : TcpServerWin) (events : List (TcpServer.ClientState × Nat)) :
    Gui :=
  let told := events.foldl (fun x e => x.1.onClientState x.2 e) (sw, s.windows)
  { s.setWin w (.server told.1) with windows := told.2 }

/-- The button with the trash can. -/
def trash (s : Gui) (w : Nat) : Gui :=
  { s.setWin w ((s.wins w).deleted) with
    connections := s.connections.erase w
    current := none }

/-! ### The windows as a system -/

inductive Label where
  /-- The menu "Connection". -/
  | add (kind : PlainKind)
  /-- The options of a new server have not been set. -/
  | addServer (opts : TcpServer.Options)
  /-- `registerConnection`, which does nothing but for a serial port and a CoAP
      client. -/
  | register (kind : PlainKind)
  | registerServer
  | select (w : Nat)
  | console
  | clientConsole (n : Nat)
  /-- The buttons of the server, with the options displayed. -/
  | apply (opts : TcpServer.Options) (os : TcpServer.Answer)
  | stop
  | start (opts : TcpServer.Options) (os : TcpServer.Answer)
  /-- A handler of the server of a window is run, or something finishes that it
      has started. -/
  | server (w : Nat) (l : TcpServer.Label) (a : Address)
  | trash

/-- The steps of a server that its window does not take. -/
def isEvent : TcpServer.Label → Bool
  | .start _ => false
  | .stop => false
  | .setOptions _ _ => false
  | _ => true

/-- The window that is shown, when it is one of a server. -/
def shownServer (s : Gui) : Option (Nat × TcpServerWin) :=
  s.current.bind fun w =>
    match s.wins w with
    | .server sw => some (w, sw)
    | _ => none

def shownPlain (s : Gui) : Option (Nat × PlainWin) :=
  s.current.bind fun w =>
    match s.wins w with
    | .plain p => some (w, p)
    | _ => none

theorem shownServer_eq_some {s : Gui} {w : Nat} {sw : TcpServerWin} :
    s.shownServer = some (w, sw) ↔ s.current = some w ∧ s.wins w = .server sw := by
  unfold shownServer
  rw [Option.bind_eq_some_iff]
  constructor
  · rintro ⟨w', hcur, hw⟩
    split at hw
    · next sw' hsw =>
      obtain ⟨rfl, rfl⟩ := Prod.mk.inj (Option.some.inj hw)
      exact ⟨hcur, hsw⟩
    · cases hw
  · rintro ⟨hcur, hw⟩
    exact ⟨w, hcur, by rw [hw]⟩

theorem shownPlain_eq_some {s : Gui} {w : Nat} {p : PlainWin} :
    s.shownPlain = some (w, p) ↔ s.current = some w ∧ s.wins w = .plain p := by
  unfold shownPlain
  rw [Option.bind_eq_some_iff]
  constructor
  · rintro ⟨w', hcur, hw⟩
    split at hw
    · next p' hp =>
      obtain ⟨rfl, rfl⟩ := Prod.mk.inj (Option.some.inj hw)
      exact ⟨hcur, hp⟩
    · cases hw
  · rintro ⟨hcur, hw⟩
    exact ⟨w, hcur, by rw [hw]⟩

def setServer (s : Gui) (w : Nat) (sw : TcpServerWin) (server : TcpServer.Impl) : Gui :=
  s.setWin w (.server { sw with server := server })

def next (s : Gui) : Label → Option Gui
  | .add kind => some { s.emplace (.plain (.new kind false)) with current := some s.created }
  | .addServer opts => some { s.emplace (.server (.new opts)) with current := some s.created }
  | .register kind =>
      match kind with
      | .serial => some (s.emplace (.plain (.new .serial true)))
      | .coap => some (s.emplace (.plain (.new .coap true)))
      | _ => some s
  | .registerServer => some s
  | .select w => if w ∈ s.connections then some { s with current := some w } else none
  | .console =>
      s.shownPlain.bind fun x => if x.2.kind = .coap then none else some (s.toggle x.1 x.2)
  | .clientConsole n =>
      s.shownServer.bind fun x =>
        if n ∈ x.2.server.manager.connections then some (s.toggleClient x.1 x.2 n) else none
  | .apply opts os =>
      s.shownServer.map fun x => s.setServer x.1 x.2 (x.2.server.setOptions opts os)
  | .stop =>
      s.shownServer.bind fun x =>
        if x.2.server.isRunning then some (s.setServer x.1 x.2 x.2.server.stop) else none
  | .start opts os =>
      s.shownServer.bind fun x =>
        if x.2.server.isRunning then none
        else some (s.setServer x.1 x.2 ((x.2.server.setOptions opts os).start os))
  | .server w l a =>
      match s.wins w with
      | .server sw =>
          -- the new client is not where another one is
          if isEvent l = true ∧ ∀ n ∈ sw.server.manager.connections, sw.address n ≠ a then
            (sw.server.next l).map fun server =>
              s.notify w (sw.withServer server a) (sw.emitted server)
          else none
      | _ => none
  | .trash => s.current.map fun w => s.trash w

/-- The windows, of which there is none at the beginning. -/
def system : System Gui Label where
  init := fun s => s = Gui.new
  next := next

/-! ### What one step can do -/

inductive Step (s : Gui) : Label → Gui → Prop
  | add (kind : PlainKind) :
      Step s (.add kind) { s.emplace (.plain (.new kind false)) with current := some s.created }
  | addServer (opts : TcpServer.Options) :
      Step s (.addServer opts) { s.emplace (.server (.new opts)) with current := some s.created }
  | register (kind : PlainKind) : Step s (.register kind) (s.emplace (.plain (.new kind true)))
  | ignored (kind : PlainKind) : Step s (.register kind) s
  | registerServer : Step s .registerServer s
  | select {w : Nat} (hw : w ∈ s.connections) : Step s (.select w) { s with current := some w }
  | console {w : Nat} {p : PlainWin} (hcur : s.current = some w) (hw : s.wins w = .plain p) :
      Step s .console (s.toggle w p)
  | clientConsole {w n : Nat} {sw : TcpServerWin} (hcur : s.current = some w)
      (hw : s.wins w = .server sw) (hmem : n ∈ sw.server.manager.connections) :
      Step s (.clientConsole n) (s.toggleClient w sw n)
  | apply {w : Nat} {sw : TcpServerWin} (opts : TcpServer.Options) (os : TcpServer.Answer)
      (hcur : s.current = some w) (hw : s.wins w = .server sw) :
      Step s (.apply opts os) (s.setServer w sw (sw.server.setOptions opts os))
  | stop {w : Nat} {sw : TcpServerWin} (hcur : s.current = some w) (hw : s.wins w = .server sw) :
      Step s .stop (s.setServer w sw sw.server.stop)
  | start {w : Nat} {sw : TcpServerWin} (opts : TcpServer.Options) (os : TcpServer.Answer)
      (hcur : s.current = some w) (hw : s.wins w = .server sw) :
      Step s (.start opts os) (s.setServer w sw ((sw.server.setOptions opts os).start os))
  | server {w : Nat} {sw : TcpServerWin} {l : TcpServer.Label} {a : Address}
      {server : TcpServer.Impl} (hw : s.wins w = .server sw) (hl : isEvent l = true)
      (hfree : ∀ n ∈ sw.server.manager.connections, sw.address n ≠ a)
      (hn : sw.server.next l = some server) :
      Step s (.server w l a) (s.notify w (sw.withServer server a) (sw.emitted server))
  | trash {w : Nat} (hcur : s.current = some w) : Step s .trash (s.trash w)

theorem step_of_next {s s' : Gui} {l : Label} (hn : s.next l = some s') : s.Step l s' := by
  match l with
  | .add kind => exact Option.some.inj hn ▸ .add kind
  | .addServer opts => exact Option.some.inj hn ▸ .addServer opts
  | .register kind =>
    cases kind with
    | serial => exact Option.some.inj hn ▸ .register .serial
    | coap => exact Option.some.inj hn ▸ .register .coap
    | tcp => exact Option.some.inj hn ▸ .ignored .tcp
    | udp => exact Option.some.inj hn ▸ .ignored .udp
  | .registerServer => exact Option.some.inj hn ▸ .registerServer
  | .select w =>
    obtain ⟨hw, hn⟩ := Option.ite_none_right_eq_some.mp hn
    exact Option.some.inj hn ▸ .select hw
  | .console =>
    obtain ⟨⟨w, p⟩, hshown, hn⟩ := Option.bind_eq_some_iff.mp hn
    obtain ⟨hcur, hw⟩ := shownPlain_eq_some.mp hshown
    obtain ⟨_, hn⟩ := Option.ite_none_left_eq_some.mp hn
    exact Option.some.inj hn ▸ .console hcur hw
  | .clientConsole n =>
    obtain ⟨⟨w, sw⟩, hshown, hn⟩ := Option.bind_eq_some_iff.mp hn
    obtain ⟨hcur, hw⟩ := shownServer_eq_some.mp hshown
    obtain ⟨hmem, hn⟩ := Option.ite_none_right_eq_some.mp hn
    exact Option.some.inj hn ▸ .clientConsole hcur hw hmem
  | .apply opts os =>
    obtain ⟨⟨w, sw⟩, hshown, rfl⟩ := Option.map_eq_some_iff.mp hn
    obtain ⟨hcur, hw⟩ := shownServer_eq_some.mp hshown
    exact .apply opts os hcur hw
  | .stop =>
    obtain ⟨⟨w, sw⟩, hshown, hn⟩ := Option.bind_eq_some_iff.mp hn
    obtain ⟨hcur, hw⟩ := shownServer_eq_some.mp hshown
    obtain ⟨_, hn⟩ := Option.ite_none_right_eq_some.mp hn
    exact Option.some.inj hn ▸ .stop hcur hw
  | .start opts os =>
    obtain ⟨⟨w, sw⟩, hshown, hn⟩ := Option.bind_eq_some_iff.mp hn
    obtain ⟨hcur, hw⟩ := shownServer_eq_some.mp hshown
    obtain ⟨_, hn⟩ := Option.ite_none_left_eq_some.mp hn
    exact Option.some.inj hn ▸ .start opts os hcur hw
  | .server w l a =>
    unfold next at hn
    simp only at hn
    split at hn
    · next sw hw =>
      obtain ⟨⟨hl, hfree⟩, hn⟩ := Option.ite_none_right_eq_some.mp hn
      obtain ⟨server, hserver, rfl⟩ := Option.map_eq_some_iff.mp hn
      exact .server hw hl hfree hserver
    · cases hn
  | .trash =>
    obtain ⟨w, hcur, rfl⟩ := Option.map_eq_some_iff.mp hn
    exact .trash hcur

end Gui

end DeviceTester
