import DeviceTester.EachClient
import DeviceTester.Framework.Targets

/-! # Drawing the consoles

  `WindowManager::drawAll` goes through `windows_` in the thread of the GUI, and
  draws each console. The button "send" of a console emits its `send_sig_`, whose
  slot calls the connection, or the client of a server, that the console has been
  opened for. The slot has a bare pointer, and is never disconnected.

  Meanwhile the strand of a server takes out a client, and the slot of its
  window unregisters the console of that client, from the `windows_` that the
  loop is in.

  So two things are to hold: the loop is at a registered console, and whatever
  a registered console calls is there. `frames_safe_iff` says which steps break
  them. As in `ConnectionWindows`, the connection of a plain window has no state
  of its own here.
-/

namespace DeviceTester

open LTS Traversal

/-- The connection of the window, or a client that its server has. -/
def Win.Has : Win → Option Nat → Prop
  | .plain _, none => True
  | .server sw, some n => n ∈ sw.server.manager.connections
  | _, _ => False

namespace Gui

/-! ### The consoles with what they call -/

/-- The windows, and what the `send_sig_` of each console has been connected
    to. -/
structure Bound where
  gui : Gui
  target : Console → Option (Nat × Option Nat)

/-- What the console that the step opens is for. -/
def opens (s : Gui) : Label → Option (Nat × Option Nat)
  | .console => s.shownPlain.bind fun x => if x.2.raw_win.isNone then some (x.1, none) else none
  | .clientConsole n =>
      s.shownServer.bind fun x =>
        if (x.2.client_wins (x.2.address n)).isNone then some (x.1, some n) else none
  | _ => none

/-- `send` of a connection. -/
def send (s : Gui) (d : Bytes) : Nat × Option Nat → Option Gui
  | (w, none) =>
      match s.wins w with
      | .plain _ => some s
      | _ => none
  | (w, some n) =>
      match s.wins w with
      | .server sw =>
          if n ∈ sw.server.manager.connections then
            (sw.server.next (.write n d)).map (s.setServer w sw)
          else none
      | _ => none

namespace Bound

/-- `connectSend` is called for the console that the step has opened. -/
def connectSend (s : Bound) (l : Label) (gui : Gui) : Bound :=
  match s.gui.opens l with
  | some p => ⟨gui, Function.update s.target s.gui.consoles (some p)⟩
  | none => ⟨gui, s.target⟩

def next (s : Bound) (l : Label) : Option Bound := (s.gui.next l).map (s.connectSend l)

/-- `updateContent` of a console, with what is in `input_buf_` when the button is
    pressed. -/
def updateContent (s : Bound) (input_buf : Bytes) (c : Console) : Option Bound :=
  if input_buf.length > 0 then
    (s.target c).bind fun p => (s.gui.send input_buf p).map fun gui => { s with gui := gui }
  else some s

end Bound

def bound : System Bound Label where
  init := fun s => s.gui = Gui.new
  next := Bound.next

/-! ### The loop over the consoles -/

/-- The console that the step unregisters while the thread of the GUI is
    elsewhere. -/
def unregisters (s : Gui) : Label → Option Console
  | .server w l _ =>
      match s.wins w with
      | .server sw =>
          (sw.server.manager.takesOut l).bind fun n => sw.client_wins (sw.address n)
      | _ => none
  | _ => none

/-- The steps of other threads than the one of the GUI. -/
def isHandler : Label → Bool
  | .server _ _ _ => true
  | _ => false

theorem onClientState_windows (sw : TcpServerWin) (windows : Finset Console) (n : Nat)
    (c : Console) :
    c ∈ (sw.onClientState windows (.disconnected, n)).2 ↔
      c ∈ windows ∧ sw.client_wins (sw.address n) ≠ some c := by
  simp only [TcpServerWin.onClientState]
  cases sw.client_wins (sw.address n) with
  | none => simp
  | some c' =>
    simp only [Finset.mem_erase, ne_eq, Option.some.injEq]
    rw [and_comm, eq_comm]

/-- A console is registered until the client that it is for is taken out. -/
theorem registered_iff {s s' : Gui} {l : Label} {c : Console} (hl : isHandler l = true)
    (hn : s.next l = some s') (hc : c ∈ s.windows) :
    c ∈ s'.windows ↔ s.unregisters l ≠ some c := by
  cases step_of_next hn with
  | @server w sw l a server hw hevent hfree hserver =>
    simp only [unregisters, hw, notify, TcpServerWin.withServer, TcpServerWin.emitted]
    rcases TcpServer.registry_cases hevent hserver with
      ⟨hkept, _, hcreated, hevents⟩ | ⟨hkept, _, hcreated, hevents⟩ |
      ⟨n, htaken, _, hcreated, hevents⟩
    · rw [hkept, hevents, List.drop_length]
      exact iff_of_true hc (by simp)
    · rw [hkept, hevents, List.drop_left]
      exact iff_of_true hc (by simp)
    · rw [htaken, hcreated, hevents, if_neg (Nat.lt_irrefl _), List.drop_left]
      simp only [List.foldl_cons, List.foldl_nil, Option.bind_some]
      rw [onClientState_windows]
      exact and_iff_right hc
  | _ => cases hl

/-- Nothing changes here, or a client that is registered is sent something. -/
theorem send_cases {s s' : Gui} {d : Bytes} {p : Nat × Option Nat} (h : s.send d p = some s') :
    s' = s ∨ ∃ w n sw server, s.wins w = .server sw ∧
      sw.server.next (.write n d) = some server ∧ s' = s.setServer w sw server := by
  obtain ⟨w, q⟩ := p
  cases q with
  | none =>
    simp only [send] at h
    split at h
    · exact Or.inl (Option.some.inj h).symm
    · cases h
  | some n =>
    simp only [send] at h
    split at h
    · next sw hw =>
      obtain ⟨_, h⟩ := Option.ite_none_right_eq_some.mp h
      obtain ⟨server, hserver, rfl⟩ := Option.map_eq_some_iff.mp h
      exact Or.inr ⟨w, n, sw, server, hw, hserver, rfl⟩
    · cases h

/-- Drawing a console changes nothing but the server that it sends to. -/
theorem updateContent_cases {s s' : Bound} {input_buf : Bytes} {c : Console}
    (h : s.updateContent input_buf c = some s') :
    s' = s ∨ ∃ w n sw server, s.gui.wins w = .server sw ∧
      sw.server.next (.write n input_buf) = some server ∧
      s' = { s with gui := s.gui.setServer w sw server } := by
  unfold Bound.updateContent at h
  split at h
  · obtain ⟨p, _, h⟩ := Option.bind_eq_some_iff.mp h
    obtain ⟨gui, hsend, rfl⟩ := Option.map_eq_some_iff.mp h
    rcases send_cases hsend with rfl | ⟨w, n, sw, server, hw, hserver, rfl⟩
    · exact Or.inl rfl
    · exact Or.inr ⟨w, n, sw, server, hw, hserver, rfl⟩
  · exact Or.inl (Option.some.inj h).symm

theorem next_gui {s s' : Bound} {l : Label} (hn : s.next l = some s') :
    s.gui.next l = some s'.gui := by
  obtain ⟨gui, hgui, rfl⟩ := Option.map_eq_some_iff.mp hn
  rw [hgui]
  unfold Bound.connectSend
  split
  · rfl
  · rfl

/-- What the user has typed into each console and sends in a frame. -/
abbrev Input := Console → Bytes

def consoleLoops : Loops bound Input where
  set := fun s => s.gui.windows
  concurrent := isHandler
  run := fun input s c => s.updateContent (input c) c
  Inv := fun _ => True
  spares := fun s l c => decide (s.gui.unregisters l ≠ some c)
  init := fun _ _ => trivial
  next := fun _ _ _ _ _ => trivial
  stays_iff := by
    intro s l s' c _ hl hn hc
    rw [registered_iff hl (next_gui hn) hc, decide_eq_true_eq]
  run_inv := fun _ _ _ _ _ _ => trivial
  run_set := by
    intro input s c s' hrun
    rcases updateContent_cases hrun with rfl | ⟨w, n, sw, server, _, _, rfl⟩
    · rfl
    · rfl

/-! ### What the consoles call -/

/-- What a console that is registered calls is there. -/
def Bound.SendsLive (s : Bound) : Prop :=
  ∀ c ∈ s.gui.windows, ∃ p, s.target c = some p ∧ (s.gui.wins p.1).Has p.2

/-- No window with a console is deleted, unless somebody else has its connection,
    and no server stopped or restarted while a client has a console. -/
def KeepsTargets (s : Gui) : Label → Prop
  | .trash => ∀ w, s.current = some w →
      (∃ p, s.wins w = .plain p ∧ p.shared = true) ∨ ∀ c, ¬(s.wins w).Owns c
  | .stop => ∀ w sw, s.shownServer = some (w, sw) → ∀ a, sw.client_wins a = none
  | .start _ _ => ∀ w sw, s.shownServer = some (w, sw) → ∀ a, sw.client_wins a = none
  | .apply _ _ =>
      ∀ w sw, s.shownServer = some (w, sw) → sw.server.isRunning = true →
        ∀ a, sw.client_wins a = none
  | _ => True

namespace Bound

/-- The consoles as views of places. A plain window that has been deleted has
    left its connection to others. -/
def targets (s : Bound) : Targets (Nat × Option Nat) Console where
  registered := s.gui.windows
  view := fun p => (s.gui.wins p.1).view p.2
  target := s.target
  left := fun p => p.1 ∉ s.gui.connections ∧ p.2 = none ∧ ∃ x, s.gui.wins p.1 = .plain x

structure Inv (s : Bound) : Prop where
  sound : s.targets.Sound
  server : ∀ w sw, s.gui.wins w = .server sw → sw.Sound
  made : ∀ c ∈ s.gui.windows, c < s.gui.consoles
  unmade : ∀ w, s.gui.created ≤ w → s.gui.wins w = .gone
  current : ∀ w, s.gui.current = some w → w ∈ s.gui.connections

variable {s s' : Bound}

theorem has_of_view {win : Win} {q : Option Nat} {c : Console} (h : win.view q = some c) :
    win.Has q := by
  cases win with
  | plain p =>
    cases q with
    | none => trivial
    | some n => cases h
  | server sw =>
    cases q with
    | none => cases h
    | some n => exact (Option.ite_none_right_eq_some.mp h).1
  | gone => cases h

theorem Inv.sendsLive (h : s.Inv) : s.SendsLive := by
  intro c hc
  obtain ⟨⟨w, q⟩, hcall, hplace⟩ := h.sound.anchored c hc
  refine ⟨(w, q), hcall, ?_⟩
  rcases hplace with ⟨_, hq, x, hx⟩ | hview
  · show (s.gui.wins w).Has q
    have hq' : q = none := hq
    have hx' : s.gui.wins w = .plain x := hx
    rw [hq', hx']
    trivial
  · exact has_of_view hview

/-! ### One window changes -/

theorem view_update {w : Nat} {q : Option Nat} {x : Option Console} {win : Win}
    (hwins : s'.gui.wins = Function.update s.gui.wins w win)
    (hview : win.view = Function.update (s.gui.wins w).view q x) :
    s'.targets.view = Function.update s.targets.view (w, q) x := by
  show (fun p : Nat × Option Nat => (s'.gui.wins p.1).view p.2) = _
  rw [hwins]
  exact places_update Win.view s.gui.wins hview

theorem view_same {w : Nat} {win : Win} (hwins : s'.gui.wins = Function.update s.gui.wins w win)
    (hview : win.view = (s.gui.wins w).view) : s'.targets.view = s.targets.view := by
  show (fun p : Nat × Option Nat => (s'.gui.wins p.1).view p.2) = _
  rw [hwins]
  exact places_same Win.view s.gui.wins hview

/-- The connection of the window has been left neither before nor after. -/
theorem left_same {w : Nat} {win : Win} (hwins : s'.gui.wins = Function.update s.gui.wins w win)
    (hothers : ∀ w', w' ≠ w → (w' ∈ s'.gui.connections ↔ w' ∈ s.gui.connections))
    (hold : w ∈ s.gui.connections ∨ ∀ x, s.gui.wins w ≠ .plain x)
    (hnew : w ∈ s'.gui.connections ∨ ∀ x, win ≠ .plain x) : s'.targets.left = s.targets.left := by
  funext ⟨w', q⟩
  apply propext
  show (w' ∉ s'.gui.connections ∧ q = none ∧ ∃ x, s'.gui.wins w' = .plain x) ↔
    (w' ∉ s.gui.connections ∧ q = none ∧ ∃ x, s.gui.wins w' = .plain x)
  rw [hwins]
  by_cases heq : w' = w
  · subst heq
    rw [Function.update_self]
    constructor
    · intro ⟨hno, _, x, hx⟩
      exact absurd hx (hnew.resolve_left hno x)
    · intro ⟨hno, _, x, hx⟩
      exact absurd hx (hold.resolve_left hno x)
  · rw [Function.update_of_ne heq, hothers w' heq]

theorem Inv.changes (h : s.Inv) {w : Nat} {win : Win}
    (hwins : s'.gui.wins = Function.update s.gui.wins w win) (hsound : s'.targets.Sound)
    (hserver : ∀ sw, win = .server sw → sw.Sound)
    (hmade : ∀ c ∈ s'.gui.windows, c < s'.gui.consoles)
    (hunmade : ∀ w', s'.gui.created ≤ w' → s.gui.created ≤ w' ∧ (w' = w → win = .gone))
    (hcurrent : ∀ w', s'.gui.current = some w' → w' ∈ s'.gui.connections) : s'.Inv where
  sound := hsound
  server := by
    intro w' sw hw'
    rw [hwins] at hw'
    by_cases heq : w' = w
    · rw [heq, Function.update_self] at hw'
      exact hserver sw hw'
    · rw [Function.update_of_ne heq] at hw'
      exact h.server w' sw hw'
  made := hmade
  unmade := by
    intro w' hle
    obtain ⟨hle, hgone⟩ := hunmade w' hle
    rw [hwins]
    by_cases heq : w' = w
    · rw [heq, Function.update_self]
      exact hgone heq
    · rw [Function.update_of_ne heq]
      exact h.unmade w' hle
  current := hcurrent

/-- A window changes that has been made. -/
theorem Inv.update (h : s.Inv) {w : Nat} {win : Win} (hw : s.gui.wins w ≠ .gone)
    (hwins : s'.gui.wins = Function.update s.gui.wins w win)
    (hcreated : s'.gui.created = s.gui.created)
    (hconnections : s'.gui.connections = s.gui.connections)
    (hcurrent : s'.gui.current = s.gui.current) (hsound : s'.targets.Sound)
    (hserver : ∀ sw, win = .server sw → sw.Sound)
    (hmade : ∀ c ∈ s'.gui.windows, c < s'.gui.consoles) : s'.Inv := by
  refine h.changes hwins hsound hserver hmade ?_ ?_
  · intro w' hle
    rw [hcreated] at hle
    exact ⟨hle, fun heq => absurd (heq ▸ h.unmade w' hle) hw⟩
  · rw [hcurrent, hconnections]
    exact h.current

/-- The window of a server changes, but not its consoles. -/
theorem Inv.unseen (h : s.Inv) {w : Nat} {sw sw' : TcpServerWin} (hw : s.gui.wins w = .server sw)
    (hview : (Win.server sw').view = (Win.server sw).view) (hsw : sw'.Sound) :
    Inv { s with gui := s.gui.setWin w (.server sw') } := by
  have hsame : targets { s with gui := s.gui.setWin w (.server sw') } = s.targets := by
    refine Targets.ext rfl (view_same rfl (by rw [hw, hview])) rfl (left_same rfl ?_ ?_ ?_)
    · intro w' _
      rfl
    · exact Or.inr fun x hx => by simp [hw] at hx
    · exact Or.inr fun x hx => by cases hx
  refine h.update (by simp [hw]) rfl rfl rfl rfl (hsame ▸ h.sound) ?_ h.made
  intro sw'' heq
  cases heq
  exact hsw

/-- A console is opened for a place of the window that is shown. -/
theorem Inv.opens (h : s.Inv) {w : Nat} {q : Option Nat} {win : Win}
    (hcur : s.gui.current = some w) (hw : s.gui.wins w ≠ .gone)
    (hclosed : (s.gui.wins w).view q = none)
    (hview : win.view = Function.update (s.gui.wins w).view q (some s.gui.consoles))
    (hserver : ∀ sw, win = .server sw → sw.Sound) :
    Inv ⟨{ s.gui.setWin w win with
        windows := insert s.gui.consoles s.gui.windows, consoles := s.gui.consoles + 1 },
      Function.update s.target s.gui.consoles (some (w, q))⟩ := by
  have hlisted := h.current w hcur
  have hfresh : s.gui.consoles ∉ s.gui.windows :=
    fun hmem => Nat.lt_irrefl _ (h.made _ hmem)
  refine h.update hw rfl rfl rfl rfl ?_ hserver ?_
  · exact h.sound.opened (p := (w, q)) hclosed hfresh rfl (view_update rfl hview) rfl
      (left_same rfl (fun _ _ => Iff.rfl) (Or.inl hlisted) (Or.inl hlisted))
  · intro c hc
    rcases Finset.mem_insert.mp hc with rfl | hc
    · exact Nat.lt_succ_self _
    · exact Nat.lt_succ_of_lt (h.made c hc)

/-- The console of a place is closed. -/
theorem Inv.closes (h : s.Inv) {w : Nat} {q : Option Nat} {c : Console} {win : Win}
    (hopen : (s.gui.wins w).view q = some c)
    (hview : win.view = Function.update (s.gui.wins w).view q none)
    (hold : w ∈ s.gui.connections ∨ ∀ x, s.gui.wins w ≠ .plain x)
    (hnew : w ∈ s.gui.connections ∨ ∀ x, win ≠ .plain x)
    (hserver : ∀ sw, win = .server sw → sw.Sound) :
    Inv { s with gui := { s.gui.setWin w win with windows := s.gui.windows.erase c } } := by
  have hw : s.gui.wins w ≠ .gone := by
    intro hgone
    rw [hgone] at hopen
    cases hopen
  refine h.update hw rfl rfl rfl rfl ?_ hserver ?_
  · exact h.sound.closed (p := (w, q)) hopen rfl (view_update rfl hview) rfl
      (left_same rfl (fun _ _ => Iff.rfl) hold hnew)
  · intro c' hc'
    exact h.made c' (Finset.mem_of_mem_erase hc')

/-! ### The check boxes -/

theorem Inv.console (h : s.Inv) {w : Nat} {p : PlainWin} (hcur : s.gui.current = some w)
    (hw : s.gui.wins w = .plain p) : (s.connectSend .console (s.gui.toggle w p)).Inv := by
  have hshown := shownPlain_eq_some.mpr ⟨hcur, hw⟩
  have hnot : ∀ {x : PlainWin} (sw : TcpServerWin), Win.plain x = .server sw → sw.Sound := by
    intro x sw heq
    cases heq
  unfold connectSend Gui.toggle
  simp only [Gui.opens, hshown, Option.bind_some]
  cases hraw : p.raw_win with
  | none =>
    refine h.opens (q := none) hcur (by simp [hw]) ?_ ?_ hnot
    · rw [hw]
      exact hraw
    · rw [hw]
      exact view_plain p _ _
  | some c =>
    have hlisted := h.current w hcur
    refine h.closes (q := none) (c := c) ?_ ?_ (Or.inl hlisted) (Or.inl hlisted) hnot
    · rw [hw]
      exact hraw
    · rw [hw]
      exact view_plain p none p.slots

/-- The entry of a registered client may change. -/
theorem sound_client {sw : TcpServerWin} (h : sw.Sound) {n : Nat}
    (hn : n ∈ sw.server.manager.connections) (x : Option Console) (slots : Nat → List Console) :
    TcpServerWin.Sound { sw with
      client_wins := Function.update sw.client_wins (sw.address n) x, slots := slots } where
  live := h.live
  distinct := h.distinct
  belongs := by
    intro a c hc
    by_cases ha : a = sw.address n
    · exact ⟨n, hn, ha.symm⟩
    · exact h.belongs a c (by simpa [Function.update_of_ne ha] using hc)

theorem Inv.clientConsole (h : s.Inv) {w n : Nat} {sw : TcpServerWin}
    (hcur : s.gui.current = some w) (hw : s.gui.wins w = .server sw)
    (hn : n ∈ sw.server.manager.connections) :
    (s.connectSend (.clientConsole n) (s.gui.toggleClient w sw n)).Inv := by
  have hshown := shownServer_eq_some.mpr ⟨hcur, hw⟩
  have hsw := h.server w sw hw
  have hclient : (Win.server sw).view (some n) = sw.client_wins (sw.address n) := if_pos hn
  unfold connectSend Gui.toggleClient
  simp only [Gui.opens, hshown, Option.bind_some]
  cases hopen : sw.client_wins (sw.address n) with
  | none =>
    refine h.opens (q := some n) hcur (by simp [hw]) ?_ ?_ ?_
    · rw [hw, hclient, hopen]
    · rw [hw]
      exact view_client hsw hn _ _
    · intro sw' heq
      cases heq
      exact sound_client hsw hn _ _
  | some c =>
    have hlisted := h.current w hcur
    refine h.closes (q := some n) (c := c) ?_ ?_ (Or.inl hlisted) (Or.inl hlisted) ?_
    · rw [hw, hclient, hopen]
    · rw [hw]
      exact view_client hsw hn none sw.slots
    · intro sw' heq
      cases heq
      exact sound_client hsw hn none sw.slots

/-! ### The server -/

/-- The server changes, but not its clients. -/
theorem Inv.setServer (h : s.Inv) {w : Nat} {sw : TcpServerWin} (hw : s.gui.wins w = .server sw)
    {server : TcpServer.Impl} (hlive : server.manager.Live)
    (hsame : server.manager.connections = sw.server.manager.connections) :
    Inv { s with gui := s.gui.setServer w sw server } := by
  have hsw := h.server w sw hw
  refine h.unseen hw ?_ ⟨hlive, ?_, ?_⟩
  · funext q
    cases q with
    | none => rfl
    | some n => simp only [Win.view, hsame]
  · show ∀ n ∈ server.manager.connections, ∀ m ∈ server.manager.connections, _
    rw [hsame]
    exact hsw.distinct
  · show ∀ a c, _ → ∃ n ∈ server.manager.connections, _
    rw [hsame]
    exact hsw.belongs

/-- All clients are gone, of which none has a console. -/
theorem Inv.restart (h : s.Inv) {w : Nat} {sw : TcpServerWin} (hw : s.gui.wins w = .server sw)
    {server : TcpServer.Impl} (hlive : server.manager.Live)
    (hgone : server.manager.connections = ∅) (hnone : ∀ a, sw.client_wins a = none) :
    Inv { s with gui := s.gui.setServer w sw server } := by
  refine h.unseen hw ?_ ⟨hlive, ?_, ?_⟩
  · funext q
    cases q with
    | none => rfl
    | some n => simp [Win.view, hgone, hnone]
  · show ∀ n ∈ server.manager.connections, _
    rw [hgone]
    intro n hn
    exact absurd hn (Finset.notMem_empty n)
  · intro a c hc
    have hc' : sw.client_wins a = some c := hc
    rw [hnone a] at hc'
    cases hc'

theorem Inv.connected (h : s.Inv) {w : Nat} {sw : TcpServerWin} (hw : s.gui.wins w = .server sw)
    {server : TcpServer.Impl} {a : Address} (hlive : server.manager.Live)
    (hfree : ∀ n ∈ sw.server.manager.connections, sw.address n ≠ a)
    (hmade : server.manager.connections =
      insert sw.server.manager.created sw.server.manager.connections) :
    Inv { s with gui := s.gui.setWin w (.server { sw with
      server := server
      address := Function.update sw.address sw.server.manager.created a
      slots := Function.update sw.slots sw.server.manager.created [] }) } := by
  have hsw := h.server w sw hw
  have hnew : sw.server.manager.created ∉ sw.server.manager.connections := by
    intro hmem
    exact Nat.lt_irrefl _ (hsw.live.known _ hmem)
  have hat : ∀ n ∈ sw.server.manager.connections,
      Function.update sw.address sw.server.manager.created a n = sw.address n := by
    intro n hn
    have hne : n ≠ sw.server.manager.created := fun heq => hnew (heq ▸ hn)
    exact Function.update_of_ne hne _ _
  -- nobody has been at the address, so there is no entry for it
  have hnone : sw.client_wins a = none := by
    cases hopen : sw.client_wins a with
    | none => rfl
    | some c =>
      obtain ⟨n, hn, ha⟩ := hsw.belongs a c hopen
      exact absurd ha (hfree n hn)
  refine h.unseen hw ?_ ⟨hlive, ?_, ?_⟩
  · funext q
    cases q with
    | none => rfl
    | some n =>
      by_cases hn : n = sw.server.manager.created
      · subst hn
        simp [Win.view, hmade, hnew, hnone]
      · simp [Win.view, hmade, hn]
  · show ∀ n ∈ server.manager.connections, ∀ m ∈ server.manager.connections,
      Function.update sw.address _ a n = Function.update sw.address _ a m → n = m
    rw [hmade]
    intro n hn m hm heq
    rcases Finset.mem_insert.mp hn with rfl | hn <;> rcases Finset.mem_insert.mp hm with rfl | hm
    · rfl
    · rw [Function.update_self, hat m hm] at heq
      exact absurd heq.symm (hfree m hm)
    · rw [Function.update_self, hat n hn] at heq
      exact absurd heq (hfree n hn)
    · rw [hat n hn, hat m hm] at heq
      exact hsw.distinct n hn m hm heq
  · intro a' c hc
    obtain ⟨n, hn, ha⟩ := hsw.belongs a' c hc
    refine ⟨n, ?_, (hat n hn).trans ha⟩
    show n ∈ server.manager.connections
    rw [hmade]
    exact Finset.mem_insert_of_mem hn

theorem Inv.disconnected (h : s.Inv) {w n : Nat} {sw : TcpServerWin}
    (hw : s.gui.wins w = .server sw) {server : TcpServer.Impl} (hlive : server.manager.Live)
    (hn : n ∈ sw.server.manager.connections)
    (hgone : server.manager.connections = sw.server.manager.connections.erase n) :
    Inv { s with gui := s.gui.notify w { sw with server := server } [(.disconnected, n)] } := by
  have hsw := h.server w sw hw
  have hclient : (Win.server sw).view (some n) = sw.client_wins (sw.address n) := if_pos hn
  simp only [notify, List.foldl_cons, List.foldl_nil, TcpServerWin.onClientState]
  cases hopen : sw.client_wins (sw.address n) with
  | none =>
    -- there is no entry for the client, before and after
    have hview : (Win.server { sw with server := server }).view =
        Function.update (Win.server sw).view (some n) none :=
      view_disconnected hsw hn hgone fun _ _ => rfl
    have hclosed : Function.update (Win.server sw).view (some n) none = (Win.server sw).view := by
      rw [← hopen, ← hclient]
      exact Function.update_eq_self _ _
    exact h.unseen hw (hview.trans hclosed)
      (sound_disconnected hsw hlive hgone hopen fun _ _ => rfl)
  | some c =>
    have hothers : ∀ a, a ≠ sw.address n →
        Function.update sw.client_wins (sw.address n) none a = sw.client_wins a :=
      fun a ha => Function.update_of_ne ha _ _
    refine h.closes (q := some n) (c := c) ?_ ?_ ?_ ?_ ?_
    · rw [hw, hclient, hopen]
    · rw [hw]
      exact view_disconnected hsw hn hgone hothers
    · exact Or.inr fun x hx => by simp [hw] at hx
    · exact Or.inr fun x hx => by cases hx
    · intro sw' heq
      cases heq
      exact sound_disconnected hsw hlive hgone (Function.update_self _ _ _) hothers

theorem Inv.notify (h : s.Inv) {w : Nat} {sw : TcpServerWin} {l : TcpServer.Label} {a : Address}
    {server : TcpServer.Impl} (hw : s.gui.wins w = .server sw) (hl : isEvent l = true)
    (hfree : ∀ n ∈ sw.server.manager.connections, sw.address n ≠ a)
    (hn : sw.server.next l = some server) :
    Inv { s with gui := s.gui.notify w (sw.withServer server a) (sw.emitted server) } := by
  have hlive := (h.server w sw hw).live
  have hlive' := TcpServer.live_next hlive hn
  unfold TcpServerWin.withServer TcpServerWin.emitted
  rcases TcpServer.event_cases hlive hl hn with
    ⟨hconn, hcreated, hevents⟩ | ⟨hconn, hcreated, hevents⟩ | ⟨n, hmem, hconn, hcreated, hevents⟩
  · rw [hcreated, hevents, if_neg (Nat.lt_irrefl _), List.drop_length]
    exact h.setServer hw hlive' hconn
  · rw [hcreated, hevents, if_pos (Nat.lt_succ_self _), List.drop_left]
    exact h.connected hw hlive' hfree hconn
  · rw [hcreated, hevents, if_neg (Nat.lt_irrefl _), List.drop_left]
    exact h.disconnected hw hlive' hmem hconn

/-- The buttons of the server. -/
theorem Inv.apply (h : s.Inv) {w : Nat} {sw : TcpServerWin} (hw : s.gui.wins w = .server sw)
    (opts : TcpServer.Options) (os : TcpServer.Answer)
    (hnone : sw.server.isRunning = true → ∀ a, sw.client_wins a = none) :
    Inv { s with gui := s.gui.setServer w sw (sw.server.setOptions opts os) } := by
  have hlive : (sw.server.setOptions opts os).manager.Live :=
    TcpServer.live_next (l := .setOptions opts os) (h.server w sw hw).live rfl
  by_cases hrun : sw.server.isRunning = true
  · refine h.restart hw hlive ?_ (hnone hrun)
    have heq : sw.server.setOptions opts os = TcpServer.Impl.start { sw.server with opts := opts } os :=
      if_pos hrun
    rw [heq]
    exact start_connections _ os
  · refine h.setServer hw hlive ?_
    have heq : sw.server.setOptions opts os = { sw.server with opts := opts } := if_neg hrun
    rw [heq]

theorem Inv.start (h : s.Inv) {w : Nat} {sw : TcpServerWin} (hw : s.gui.wins w = .server sw)
    (opts : TcpServer.Options) (os : TcpServer.Answer) (hnone : ∀ a, sw.client_wins a = none) :
    Inv { s with gui := s.gui.setServer w sw ((sw.server.setOptions opts os).start os) } := by
  have hset : (sw.server.setOptions opts os).manager.Live :=
    TcpServer.live_next (l := .setOptions opts os) (h.server w sw hw).live rfl
  have hlive : ((sw.server.setOptions opts os).start os).manager.Live :=
    TcpServer.live_next (l := .start os) hset rfl
  exact h.restart hw hlive (start_connections _ os) hnone

theorem Inv.stop (h : s.Inv) {w : Nat} {sw : TcpServerWin} (hw : s.gui.wins w = .server sw)
    (hnone : ∀ a, sw.client_wins a = none) :
    Inv { s with gui := s.gui.setServer w sw sw.server.stop } := by
  have hlive : sw.server.stop.manager.Live :=
    TcpServer.live_next (l := .stop) (h.server w sw hw).live rfl
  exact h.restart hw hlive rfl hnone

/-! ### The list of windows -/

/-- A window without a console is made. -/
theorem Inv.emplace (h : s.Inv) {win : Win} {current : Option Nat}
    (hcurrent : current = s.gui.current ∨ current = some s.gui.created)
    (hview : win.view = fun _ => none) (hserver : ∀ sw, win = .server sw → sw.Sound) :
    Inv { s with gui := { s.gui.emplace win with current := current } } := by
  have hgone : s.gui.wins s.gui.created = .gone := h.unmade _ (Nat.le_refl _)
  have hsame : targets { s with gui := { s.gui.emplace win with current := current } } =
      s.targets := by
    refine Targets.ext rfl (view_same rfl ?_) rfl (left_same rfl ?_ ?_ ?_)
    · rw [hgone, hview]
      rfl
    · intro w hw
      exact Finset.mem_insert.trans (or_iff_right hw)
    · exact Or.inr fun x hx => by simp [hgone] at hx
    · exact Or.inl (Finset.mem_insert_self _ _)
  refine h.changes rfl (hsame ▸ h.sound) hserver h.made ?_ ?_
  · intro w hw
    have hlt : s.gui.created < w := hw
    exact ⟨Nat.le_of_lt hlt, fun heq => absurd heq (Nat.ne_of_gt hlt)⟩
  · intro w hw
    have hw' : current = some w := hw
    rcases hcurrent with heq | heq
    · rw [heq] at hw'
      exact Finset.mem_insert_of_mem (h.current w hw')
    · obtain rfl := Option.some.inj (heq.symm.trans hw')
      exact Finset.mem_insert_self _ _

theorem Inv.emplacePlain (h : s.Inv) (kind : PlainKind) (shared : Bool) {current : Option Nat}
    (hcurrent : current = s.gui.current ∨ current = some s.gui.created) :
    Inv { s with gui := { s.gui.emplace (.plain (.new kind shared)) with current := current } } := by
  refine h.emplace hcurrent ?_ (fun sw heq => by cases heq)
  funext q
  cases q <;> rfl

theorem Inv.emplaceServer (h : s.Inv) (opts : TcpServer.Options) {current : Option Nat}
    (hcurrent : current = s.gui.current ∨ current = some s.gui.created) :
    Inv { s with gui := { s.gui.emplace (.server (.new opts)) with current := current } } := by
  have hnobody : ∀ n, n ∉ (TcpServerWin.new opts).server.manager.connections :=
    fun n => Finset.notMem_empty n
  refine h.emplace hcurrent ?_ ?_
  · funext q
    cases q with
    | none => rfl
    | some n => simp [Win.view, hnobody n]
  · intro sw heq
    cases heq
    exact sound_new opts

/-- Nothing is left of a window whose connection nobody else has. -/
theorem deleted_eq_gone {win : Win} (h : ¬∃ p, win = .plain p ∧ p.shared = true) :
    win.deleted = .gone := by
  cases win with
  | plain p => exact if_neg fun hshared => h ⟨p, rfl, hshared⟩
  | server sw => rfl
  | gone => rfl

theorem Inv.trash (h : s.Inv) {w : Nat} (hcur : s.gui.current = some w)
    (hC : (∃ p, s.gui.wins w = .plain p ∧ p.shared = true) ∨ ∀ c, ¬(s.gui.wins w).Owns c) :
    Inv { s with gui := s.gui.trash w } := by
  have hlisted := h.current w hcur
  have hothers : ∀ w', w' ≠ w → (w' ∈ s.gui.connections.erase w ↔ w' ∈ s.gui.connections) :=
    fun w' hne => Finset.mem_erase.trans (and_iff_right hne)
  have hsound : (targets { s with gui := s.gui.trash w }).Sound := by
    by_cases hshared : ∃ p, s.gui.wins w = .plain p ∧ p.shared = true
    · -- the console stays registered, and so does what it calls
      obtain ⟨p, hw, hshared⟩ := hshared
      have hdeleted : (s.gui.wins w).deleted = .plain { p with raw_win := none } := by
        rw [hw]
        exact if_pos hshared
      refine h.sound.leave (p := (w, none)) rfl (view_update rfl ?_) rfl ?_
      · rw [hdeleted, hw]
        exact view_plain p none p.slots
      · intro ⟨w', q⟩
        show (w' ∉ s.gui.connections.erase w ∧ q = none ∧
            ∃ x, Function.update s.gui.wins w (s.gui.wins w).deleted w' = .plain x) ↔
          (w', q) = (w, none) ∨ (w' ∉ s.gui.connections ∧ q = none ∧ ∃ x, s.gui.wins w' = .plain x)
        by_cases heq : w' = w
        · subst heq
          simp [hdeleted, hlisted]
        · rw [hothers w' heq, Function.update_of_ne heq]
          simp [heq]
    · have hnone := hC.resolve_left hshared
      have hclosed : (s.gui.wins w).view = fun _ => none := by
        funext q
        cases hq : (s.gui.wins w).view q with
        | none => rfl
        | some c => exact absurd (owns_of_view hq) (hnone c)
      have hgone := deleted_eq_gone hshared
      have hsame : targets { s with gui := s.gui.trash w } = s.targets := by
        refine Targets.ext rfl (view_same rfl ?_) rfl (left_same rfl hothers (Or.inl hlisted) ?_)
        · rw [hgone, hclosed]
          rfl
        · rw [hgone]
          exact Or.inr fun x hx => by cases hx
      exact hsame ▸ h.sound
  refine h.changes rfl hsound ?_ h.made ?_ ?_
  · intro sw hdeleted
    rcases deleted_cases (s.gui.wins w) with ⟨p, hp, _⟩ | hgone
    · rw [hp] at hdeleted
      cases hdeleted
    · rw [hgone] at hdeleted
      cases hdeleted
  · intro w' hle
    refine ⟨hle, fun heq => ?_⟩
    rw [← heq, h.unmade w' hle]
    rfl
  · intro w' hcur'
    cases hcur'

/-! ### One step -/

theorem Inv.new {target : Console → Option (Nat × Option Nat)} : Inv ⟨Gui.new, target⟩ where
  sound := by
    constructor
    · intro p x hx
      cases hx
    · intro x hx
      exact absurd hx (Finset.notMem_empty x)
  server := fun w sw hw => by cases hw
  made := fun c hc => absurd hc (Finset.notMem_empty c)
  unmade := fun _ _ => rfl
  current := fun w hcur => by cases hcur

theorem Inv.next (h : s.Inv) {l : Label} (hC : s.gui.KeepsTargets l) (hn : s.next l = some s') :
    s'.Inv := by
  obtain ⟨gui, hgui, rfl⟩ := Option.map_eq_some_iff.mp hn
  cases step_of_next hgui with
  | add kind => exact h.emplacePlain kind false (Or.inr rfl)
  | addServer opts => exact h.emplaceServer opts (Or.inr rfl)
  | register kind => exact h.emplacePlain kind true (Or.inl rfl)
  | ignored => exact h
  | registerServer => exact h
  | select hw =>
    refine ⟨h.sound, h.server, h.made, h.unmade, fun w' hcur => ?_⟩
    cases hcur
    exact hw
  | console hcur hw => exact h.console hcur hw
  | clientConsole hcur hw hmem => exact h.clientConsole hcur hw hmem
  | apply opts os hcur hw =>
    exact h.apply hw opts os (hC _ _ (shownServer_eq_some.mpr ⟨hcur, hw⟩))
  | stop hcur hw => exact h.stop hw (hC _ _ (shownServer_eq_some.mpr ⟨hcur, hw⟩))
  | start opts os hcur hw =>
    exact h.start hw opts os (hC _ _ (shownServer_eq_some.mpr ⟨hcur, hw⟩))
  | server hw hl hfree hserver => exact h.notify hw hl hfree hserver
  | trash hcur => exact h.trash hcur (hC _ hcur)

/-- Whatever the user sends from a console goes to a client of a server or
    nowhere. -/
theorem Inv.updateContent (h : s.Inv) {input_buf : Bytes} {c : Console}
    (hdraw : s.updateContent input_buf c = some s') : s'.Inv := by
  rcases updateContent_cases hdraw with rfl | ⟨w, n, sw, server, hw, hserver, rfl⟩
  · exact h
  · have hrun : (TcpServer.Body.sendToAll input_buf).run sw.server n = some server := hserver
    exact h.setServer hw
      (TcpServer.live_next (l := .write n input_buf) (h.server w sw hw).live hserver)
      (TcpServer.Body.run_connections hrun)

/-! What the steps break. -/

theorem Inv.view_of_owns (h : s.Inv) {w : Nat} {c : Console} (ho : (s.gui.wins w).Owns c) :
    ∃ q, (s.gui.wins w).view q = some c := by
  cases hw : s.gui.wins w with
  | plain p =>
    rw [hw] at ho
    exact ⟨none, ho⟩
  | server sw =>
    rw [hw] at ho
    obtain ⟨a, ha⟩ := ho
    obtain ⟨n, hn, rfl⟩ := (h.server w sw hw).belongs a c ha
    exact ⟨some n, (if_pos hn).trans ha⟩
  | gone =>
    rw [hw] at ho
    cases ho

/-- A console of a window still calls its place after the window has changed. -/
theorem Inv.has_of_owns (h : s.Inv) {w : Nat} {c : Console} {win : Win} {gui : Gui}
    (hlive : SendsLive ⟨gui, s.target⟩) (hwins : gui.wins = Function.update s.gui.wins w win)
    (hwindows : gui.windows = s.gui.windows) (ho : (s.gui.wins w).Owns c) :
    ∃ q, (s.gui.wins w).view q = some c ∧ win.Has q := by
  obtain ⟨q, hq⟩ := h.view_of_owns ho
  obtain ⟨hmem, hcall⟩ := h.sound.viewed (w, q) c hq
  obtain ⟨p, hcall', hhas⟩ := hlive c (hwindows ▸ hmem)
  obtain rfl := Option.some.inj (hcall.symm.trans hcall')
  have hhas' : (gui.wins w).Has q := hhas
  rw [hwins, Function.update_self] at hhas'
  exact ⟨q, hq, hhas'⟩

theorem Inv.restart_exact (h : s.Inv) {w : Nat} {sw : TcpServerWin}
    (hw : s.gui.wins w = .server sw) {server : TcpServer.Impl}
    (hgone : server.manager.connections = ∅)
    (hlive : SendsLive { s with gui := s.gui.setServer w sw server }) (a : Address) :
    sw.client_wins a = none := by
  cases hopen : sw.client_wins a with
  | none => rfl
  | some c =>
    have ho : (s.gui.wins w).Owns c := by
      rw [hw]
      exact ⟨a, hopen⟩
    obtain ⟨q, _, hhas⟩ := h.has_of_owns hlive rfl rfl ho
    cases q with
    | none => cases hhas
    | some n =>
      have hn : n ∈ server.manager.connections := hhas
      rw [hgone] at hn
      exact absurd hn (Finset.notMem_empty n)

theorem Inv.trash_exact (h : s.Inv) {w : Nat}
    (hlive : SendsLive { s with gui := s.gui.trash w }) :
    (∃ p, s.gui.wins w = .plain p ∧ p.shared = true) ∨ ∀ c, ¬(s.gui.wins w).Owns c := by
  by_cases hshared : ∃ p, s.gui.wins w = .plain p ∧ p.shared = true
  · exact Or.inl hshared
  · right
    intro c ho
    obtain ⟨q, _, hhas⟩ := h.has_of_owns hlive rfl rfl ho
    rw [deleted_eq_gone hshared] at hhas
    cases hhas

theorem Inv.exact (h : s.Inv) {l : Label} (hn : s.next l = some s') (hlive : s'.SendsLive) :
    s.gui.KeepsTargets l := by
  obtain ⟨gui, hgui, rfl⟩ := Option.map_eq_some_iff.mp hn
  cases step_of_next hgui with
  | @apply w sw opts os hcur hw =>
    intro w' sw' hshown hrun
    rw [shownServer_eq_some.mpr ⟨hcur, hw⟩] at hshown
    cases hshown
    refine h.restart_exact hw ?_ hlive
    have heq : sw.server.setOptions opts os = TcpServer.Impl.start { sw.server with opts := opts } os :=
      if_pos hrun
    rw [heq]
    exact start_connections _ os
  | stop hcur hw =>
    intro w' sw' hshown
    rw [shownServer_eq_some.mpr ⟨hcur, hw⟩] at hshown
    cases hshown
    exact h.restart_exact hw rfl hlive
  | start opts os hcur hw =>
    intro w' sw' hshown
    rw [shownServer_eq_some.mpr ⟨hcur, hw⟩] at hshown
    cases hshown
    exact h.restart_exact hw (start_connections _ os) hlive
  | trash hcur =>
    intro w' hcur'
    obtain rfl := Option.some.inj (hcur.symm.trans hcur')
    exact h.trash_exact hlive
  | _ => trivial

end Bound

/-! ### Every run -/

/-- The loop is at a registered console, and what a registered console calls is
    there. -/
def FramesSafe (s : Looping Bound Input) : Prop :=
  consoleLoops.Valid s ∧ s.state.SendsLive

/-- No client is taken out whose console is being drawn, and what the consoles
    call is left alone. -/
def KeepsFramesSafe (s : Looping Bound Input) (l : LoopLabel Label Input) : Prop :=
  consoleLoops.Spares s l ∧
    match l with
    | .other l => s.state.gui.KeepsTargets l
    | _ => True

/-- **Drawing the consoles is safe** throughout a run exactly when no client is
    taken out while its console is being drawn, no window with a console is
    deleted whose connection nobody else has, and no server stopped or restarted
    while one of its clients has a console. And in any run, a frame draws no
    console twice, and each one that has been registered all the time. -/
theorem frames_safe_iff {s : Looping Bound Input} (r : Run consoleLoops.looping s) :
    (r.Throughout FramesSafe ↔ r.EachStep KeepsFramesSafe) ∧ r.Ensures Loops.CallsAll := by
  refine ⟨?_, Loops.calls_all r⟩
  apply r.throughout_iff (I := fun s => consoleLoops.Valid s ∧ s.state.Inv)
  · intro s hs
    obtain ⟨⟨gui, target⟩, loop⟩ := s
    obtain ⟨hgui, hloop⟩ := hs
    have hnew : gui = Gui.new := hgui
    rw [hnew]
    exact ⟨Loops.valid_of_no_loop hloop, Bound.Inv.new⟩
  · intro s h
    exact ⟨h.1, h.2.sendsLive⟩
  · intro s l s' h hC hn
    refine ⟨(Loops.valid_next trivial h.1 hn).mpr hC.1, ?_⟩
    cases Loops.step_of_next hn with
    | other hl ht => exact h.2.next hC.2 ht
    | visit _ _ _ _ hrun => exact h.2.updateContent hrun
    | _ => exact h.2
  · intro s l s' h hn hsafe
    refine ⟨(Loops.valid_next trivial h.1 hn).mp hsafe.1, ?_⟩
    cases Loops.step_of_next hn with
    | other hl ht => exact h.2.exact ht hsafe.2
    | _ => trivial

/-- The client whose console is being drawn disconnects. -/
example : (consoleLoops.looping.exec ⟨⟨Gui.new, fun _ => none⟩, none⟩
      (clientOpened.map .other ++
        [.enter (fun _ => []) id, .other (.server 0 (.receiveFinish 0 0 (.error (.other 0))) 9),
          .other (.server 0 (.receiveDeliver 0 0) 9)])).map
    (fun s => (s.loop.map fun x => x.pass.current, s.state.gui.windows)) =
      some (some (some (toLex (0, 0))), ∅) := by
  decide

end Gui

end DeviceTester
