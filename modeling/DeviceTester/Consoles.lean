import DeviceTester.Framework.Views
import DeviceTester.ConnectionWindows
import DeviceTester.ServerReads

/-! # Consoles and what they show

  The consoles that are registered with the `WindowManager` are to be the ones
  that the windows in `connections_` have, each for a connection or a client
  that still exists, whose only connected slot is the one of its console.

  Three steps break that. Deleting a window leaves its consoles registered. When
  a server is stopped or restarted nobody is told that the clients are gone. And
  the slot of a client's console has captured the console, so it stays connected
  when the console is closed. The other steps keep it (`consoles_iff`).
-/

namespace DeviceTester

open Async LTS

/-! ### The property -/

/-- The console is the one of a window's connection, or of an entry of
    `client_wins_`. -/
def Win.Owns : Win → Console → Prop
  | .plain p, c => p.raw_win = some c
  | .server sw, c => ∃ a, sw.client_wins a = some c
  | .gone, _ => False

/-- The open console of the connection of a window (`none`), or of a registered
    client of its server. -/
def Win.view : Win → Option Nat → Option Console
  | .plain p, none => p.raw_win
  | .server sw, some n =>
      if n ∈ sw.server.manager.connections then sw.client_wins (sw.address n) else none
  | _, _ => none

/-- The slots that have been connected to it, by their consoles. -/
def Win.slotsOf : Win → Option Nat → List Console
  | .plain p, none => p.slots
  | .server sw, some n => if n ∈ sw.server.manager.connections then sw.slots n else []
  | _, _ => []

namespace Gui

/-- A window in `connections_` has the console. -/
def Owned (s : Gui) (c : Console) : Prop := ∃ w ∈ s.connections, (s.wins w).Owns c

/-- There is a strong reference to the console. The slots of the clients of a
    server have captured theirs. -/
def Held (s : Gui) (c : Console) : Prop :=
  c ∈ s.windows ∨ s.Owned c ∨ ∃ w n, c ∈ (s.wins w).slotsOf (some n)

/-- **(K)** The consoles are in step with what they show. -/
structure InStep (s : Gui) : Prop where
  registered : ∀ c, c ∈ s.windows ↔ s.Owned c
  /-- A console belongs to a connection or a client that exists. -/
  exist : ∀ w ∈ s.connections, ∀ c, (s.wins w).Owns c → ∃ q, (s.wins w).view q = some c
  /-- The slots still connected are the one of the open console. -/
  connected : ∀ w q, ((s.wins w).slotsOf q).Nodup ∧
    ∀ c, c ∈ (s.wins w).slotsOf q ∧ s.Held c ↔ (s.wins w).view q = some c

/-- No window with consoles is deleted, no server stopped or restarted while a
    client has a console, and no console of a client is closed. -/
def KeepsInStep (s : Gui) : Label → Prop
  | .trash => ∀ w, s.current = some w → ∀ c, ¬(s.wins w).Owns c
  | .clientConsole n =>
      ∀ w sw, s.shownServer = some (w, sw) → sw.client_wins (sw.address n) = none
  | .stop => ∀ w sw, s.shownServer = some (w, sw) → ∀ a, sw.client_wins a = none
  | .start _ _ => ∀ w sw, s.shownServer = some (w, sw) → ∀ a, sw.client_wins a = none
  | .apply _ _ =>
      ∀ w sw, s.shownServer = some (w, sw) → sw.server.isRunning = true →
        ∀ a, sw.client_wins a = none
  | _ => True

/-! ### The windows as views of places -/

/-- A place is the connection of a window, or a client of its server. -/
def views (s : Gui) : Views (Nat × Option Nat) Console where
  registered := s.windows
  view := fun p => (s.wins p.1).view p.2
  slots := fun p => (s.wins p.1).slotsOf p.2
  captures := fun p => p.2.isSome

end Gui

/-- What keeps the window of a server right, apart from its consoles. -/
structure TcpServerWin.Sound (sw : TcpServerWin) : Prop where
  live : sw.server.manager.Live
  /-- The clients that exist are at different addresses. -/
  distinct : ∀ n ∈ sw.server.manager.connections, ∀ m ∈ sw.server.manager.connections,
    sw.address n = sw.address m → n = m
  belongs : ∀ a c, sw.client_wins a = some c →
    ∃ n ∈ sw.server.manager.connections, sw.address n = a

namespace Gui

structure Inv (s : Gui) : Prop where
  sound : s.views.Sound
  server : ∀ w sw, s.wins w = .server sw → sw.Sound
  /-- A window that has been deleted, or not made, has no console. -/
  listed : ∀ w, w ∉ s.connections → ∀ c, ¬(s.wins w).Owns c
  fresh : ∀ c, s.consoles ≤ c → s.views.Fresh c
  unmade : ∀ w, s.created ≤ w → s.wins w = .gone
  current : ∀ w, s.current = some w → w ∈ s.connections

variable {s s' : Gui}

/-- A console of a place is one of its window. -/
theorem owns_of_view {win : Win} {q : Option Nat} {c : Console} (h : win.view q = some c) :
    win.Owns c := by
  cases win with
  | plain p =>
    cases q with
    | none => exact h
    | some n => cases h
  | server sw =>
    cases q with
    | none => cases h
    | some n =>
      obtain ⟨_, h⟩ := Option.ite_none_right_eq_some.mp h
      exact ⟨_, h⟩
  | gone => cases h

theorem Inv.view_of_owns (h : s.Inv) {w : Nat} {c : Console} (ho : (s.wins w).Owns c) :
    ∃ q, (s.wins w).view q = some c := by
  cases hw : s.wins w with
  | plain p =>
    rw [hw] at ho
    exact ⟨none, ho⟩
  | server sw =>
    rw [hw] at ho
    obtain ⟨a, ha⟩ := ho
    obtain ⟨n, hn, rfl⟩ := (h.server w sw hw).belongs a c ha
    exact ⟨some n, by simp [Win.view, hn, ha]⟩
  | gone =>
    rw [hw] at ho
    cases ho

/-- Where the windows are in step, so are the views, and the other way round. -/
theorem held_iff (hviewed : ∀ c, s.Owned c ↔ ∃ p, s.views.view p = some c) {c : Console} :
    s.Held c ↔ s.views.Held c := by
  unfold Held Views.Held
  rw [hviewed]
  constructor
  · rintro (hreg | hview | ⟨w, n, hmem⟩)
    · exact Or.inl hreg
    · exact Or.inr (Or.inl hview)
    · exact Or.inr (Or.inr ⟨(w, some n), rfl, hmem⟩)
  · rintro (hreg | hview | ⟨⟨w, q⟩, hcap, hmem⟩)
    · exact Or.inl hreg
    · exact Or.inr (Or.inl hview)
    · obtain ⟨n, rfl⟩ := Option.isSome_iff_exists.mp hcap
      exact Or.inr (Or.inr ⟨w, n, hmem⟩)

theorem owned_iff (hlisted : ∀ w, w ∉ s.connections → ∀ c, ¬(s.wins w).Owns c)
    (hexist : ∀ w ∈ s.connections, ∀ c, (s.wins w).Owns c → ∃ q, (s.wins w).view q = some c)
    (c : Console) : s.Owned c ↔ ∃ p, s.views.view p = some c := by
  constructor
  · rintro ⟨w, hw, ho⟩
    obtain ⟨q, hq⟩ := hexist w hw c ho
    exact ⟨(w, q), hq⟩
  · rintro ⟨⟨w, q⟩, hq⟩
    have ho := owns_of_view hq
    exact ⟨w, by_contra fun hw => hlisted w hw c ho, ho⟩

theorem Inv.inStep (h : s.Inv) : s.InStep := by
  have hviewed := owned_iff h.listed fun _ _ _ ho => h.view_of_owns ho
  refine ⟨fun c => ?_, fun _ _ _ ho => h.view_of_owns ho, fun w q => ?_⟩
  · rw [hviewed]
    exact h.sound.registered c
  · obtain ⟨hnodup, hconn⟩ := h.sound.connected (w, q)
    refine ⟨hnodup, fun c => ?_⟩
    rw [held_iff hviewed]
    exact hconn c

theorem InStep.agree (h : s.InStep) (hlisted : ∀ w, w ∉ s.connections → ∀ c, ¬(s.wins w).Owns c) :
    s.views.Agree := by
  have hviewed := owned_iff hlisted h.exist
  refine ⟨fun c => (h.registered c).trans (hviewed c), fun ⟨w, q⟩ => ?_⟩
  obtain ⟨hnodup, hconn⟩ := h.connected w q
  exact ⟨hnodup, fun c => (and_congr_right fun _ => (held_iff hviewed).symm).trans (hconn c)⟩

/-! ### One window changes -/

/-- What is read of one place changes. -/
theorem places_update {β : Type} (f : Win → Option Nat → β) (wins : Nat → Win) {w : Nat}
    {q : Option Nat} {win : Win} {x : β} (h : f win = Function.update (f (wins w)) q x) :
    (fun p : Nat × Option Nat => f (Function.update wins w win p.1) p.2) =
      Function.update (fun p => f (wins p.1) p.2) (w, q) x := by
  funext ⟨w', q'⟩
  by_cases hw : w' = w
  · subst hw
    simp only [Function.update_self, h]
    by_cases hq : q' = q
    · subst hq
      simp
    · have hne : (w', q') ≠ (w', q) := fun heq => hq (Prod.mk.inj heq).2
      rw [Function.update_of_ne hq, Function.update_of_ne hne]
  · have hne : (w', q') ≠ (w, q) := fun heq => hw (Prod.mk.inj heq).1
    simp only [Function.update_of_ne hw, Function.update_of_ne hne]

/-- What is read of the places stays. -/
theorem places_same {β : Type} (f : Win → Option Nat → β) (wins : Nat → Win) {w : Nat} {win : Win}
    (h : f win = f (wins w)) :
    (fun p : Nat × Option Nat => f (Function.update wins w win p.1) p.2) =
      fun p => f (wins p.1) p.2 := by
  funext ⟨w', q'⟩
  by_cases hw : w' = w
  · subst hw
    simp only [Function.update_self, h]
  · simp only [Function.update_of_ne hw]

/-- A window changes, and with it what is registered. -/
theorem views_eq {w : Nat} {win : Win} {v : Views (Nat × Option Nat) Console}
    (hwins : s'.wins = Function.update s.wins w win) (hwindows : s'.windows = v.registered)
    (hview : (fun p : Nat × Option Nat => (Function.update s.wins w win p.1).view p.2) = v.view)
    (hslots : (fun p : Nat × Option Nat => (Function.update s.wins w win p.1).slotsOf p.2) =
      v.slots)
    (hcap : s'.views.captures = v.captures) : s'.views = v := by
  rw [← hwins] at hview hslots
  exact Views.ext hwindows hview hslots hcap

theorem views_same {w : Nat} {win : Win} (hwins : s'.wins = Function.update s.wins w win)
    (hwindows : s'.windows = s.windows) (hview : win.view = (s.wins w).view)
    (hslots : win.slotsOf = (s.wins w).slotsOf) : s'.views = s.views :=
  views_eq hwins hwindows (places_same Win.view s.wins hview)
    (places_same Win.slotsOf s.wins hslots) rfl

theorem views_start {w : Nat} {q : Option Nat} {c : Console} {win : Win}
    (hwins : s'.wins = Function.update s.wins w win) (hwindows : s'.windows = insert c s.windows)
    (hview : win.view = Function.update (s.wins w).view q (some c))
    (hslots : win.slotsOf =
      Function.update (s.wins w).slotsOf q ((s.wins w).slotsOf q ++ [c])) :
    s'.views = s.views.start (w, q) c :=
  views_eq hwins hwindows (places_update Win.view s.wins hview)
    (places_update Win.slotsOf s.wins hslots) rfl

theorem views_close {w : Nat} {q : Option Nat} {c : Console} {win : Win}
    (hwins : s'.wins = Function.update s.wins w win) (hwindows : s'.windows = s.windows.erase c)
    (hview : win.view = Function.update (s.wins w).view q none)
    (hslots : win.slotsOf = (s.wins w).slotsOf) : s'.views = s.views.close (w, q) c :=
  views_eq hwins hwindows (places_update Win.view s.wins hview)
    (places_same Win.slotsOf s.wins hslots) rfl

theorem views_takeAway {w : Nat} {q : Option Nat} {win : Win}
    (hwins : s'.wins = Function.update s.wins w win)
    (hwindows : s'.windows = (s.views.takeAway (w, q)).registered)
    (hview : win.view = Function.update (s.wins w).view q none)
    (hslots : win.slotsOf = Function.update (s.wins w).slotsOf q []) :
    s'.views = s.views.takeAway (w, q) :=
  views_eq hwins hwindows (places_update Win.view s.wins hview)
    (places_update Win.slotsOf s.wins hslots) rfl

/-- A window changes, and perhaps which windows there are. -/
theorem Inv.changes (h : s.Inv) {w : Nat} {win : Win}
    (hwins : s'.wins = Function.update s.wins w win) (hsound : s'.views.Sound)
    (hfresh : ∀ c, s'.consoles ≤ c → s'.views.Fresh c)
    (hserver : ∀ sw, win = .server sw → sw.Sound)
    (hlisted : w ∉ s'.connections → ∀ c, ¬win.Owns c)
    (hothers : ∀ w', w' ≠ w → w' ∈ s.connections → w' ∈ s'.connections)
    (hunmade : ∀ w', s'.created ≤ w' → s.created ≤ w' ∧ (w' = w → win = .gone))
    (hcurrent : ∀ w', s'.current = some w' → w' ∈ s'.connections) : s'.Inv where
  sound := hsound
  server := by
    intro w' sw hw'
    rw [hwins] at hw'
    by_cases heq : w' = w
    · rw [heq, Function.update_self] at hw'
      exact hserver sw hw'
    · rw [Function.update_of_ne heq] at hw'
      exact h.server w' sw hw'
  listed := by
    intro w' hw'
    rw [hwins]
    by_cases heq : w' = w
    · rw [heq, Function.update_self]
      exact hlisted (heq ▸ hw')
    · rw [Function.update_of_ne heq]
      exact h.listed w' fun hmem => hw' (hothers w' heq hmem)
  fresh := hfresh
  unmade := by
    intro w' hle
    obtain ⟨hle, hgone⟩ := hunmade w' hle
    rw [hwins]
    by_cases heq : w' = w
    · rw [heq, Function.update_self]
      exact hgone heq
    · rw [Function.update_of_ne heq]
      exact h.unmade w' hle
  current := hcurrent

/-- A window changes that is listed, or that has no console then. -/
theorem Inv.update (h : s.Inv) {w : Nat} {win : Win} (hw : s.wins w ≠ .gone)
    (hwins : s'.wins = Function.update s.wins w win) (hcreated : s'.created = s.created)
    (hconnections : s'.connections = s.connections) (hcurrent : s'.current = s.current)
    (hsound : s'.views.Sound) (hfresh : ∀ c, s'.consoles ≤ c → s'.views.Fresh c)
    (hserver : ∀ sw, win = .server sw → sw.Sound)
    (hlisted : w ∉ s.connections → ∀ c, ¬win.Owns c) : s'.Inv := by
  refine h.changes hwins hsound hfresh hserver (hconnections ▸ hlisted) ?_ ?_ ?_
  · intro w' _ hmem
    rwa [hconnections]
  · intro w' hle
    rw [hcreated] at hle
    exact ⟨hle, fun heq => absurd (heq ▸ h.unmade w' hle) hw⟩
  · rw [hcurrent, hconnections]
    exact h.current

/-- A window changes, but not its consoles and slots. -/
theorem Inv.unseen (h : s.Inv) {w : Nat} {win : Win} (hw : s.wins w ≠ .gone)
    (hviews : (s.setWin w win).views = s.views) (hserver : ∀ sw, win = .server sw → sw.Sound)
    (hlisted : w ∉ s.connections → ∀ c, ¬win.Owns c) : (s.setWin w win).Inv := by
  refine h.update hw rfl rfl rfl rfl (hviews ▸ h.sound) ?_ hserver hlisted
  intro c hc
  rw [hviews]
  exact h.fresh c hc

/-! ### The check boxes -/

/-- A console is opened for a place of the window that is shown. -/
theorem Inv.opens (h : s.Inv) {w : Nat} {q : Option Nat} {win : Win} (hcur : s.current = some w)
    (hw : s.wins w ≠ .gone) (hclosed : (s.wins w).view q = none)
    (hview : win.view = Function.update (s.wins w).view q (some s.consoles))
    (hslots : win.slotsOf =
      Function.update (s.wins w).slotsOf q ((s.wins w).slotsOf q ++ [s.consoles]))
    (hserver : ∀ sw, win = .server sw → sw.Sound) :
    Inv { s.setWin w win with
      windows := insert s.consoles s.windows, consoles := s.consoles + 1 } := by
  have hviews : views { s.setWin w win with
      windows := insert s.consoles s.windows, consoles := s.consoles + 1 } =
      s.views.start (w, q) s.consoles :=
    views_start rfl rfl hview hslots
  refine h.update hw rfl rfl rfl rfl ?_ ?_ hserver ?_
  · rw [hviews]
    exact h.sound.start hclosed (h.fresh _ (Nat.le_refl s.consoles))
  · intro c hc
    have hlt : s.consoles < c := hc
    rw [hviews]
    exact (h.fresh c (Nat.le_of_lt hlt)).start (Nat.ne_of_gt hlt)
  · intro hno
    exact absurd (h.current w hcur) hno

theorem view_plain (p : PlainWin) (x : Option Console) (slots : List Console) :
    (Win.plain { p with raw_win := x, slots := slots }).view =
      Function.update (Win.plain p).view none x := by
  funext q
  cases q <;> rfl

theorem slotsOf_plain (p : PlainWin) (x : Option Console) (slots : List Console) :
    (Win.plain { p with raw_win := x, slots := slots }).slotsOf =
      Function.update (Win.plain p).slotsOf none slots := by
  funext q
  cases q <;> rfl

theorem Inv.toggle (h : s.Inv) {w : Nat} {p : PlainWin} (hcur : s.current = some w)
    (hw : s.wins w = .plain p) : (s.toggle w p).Inv := by
  have hmade : s.wins w ≠ .gone := by simp [hw]
  unfold Gui.toggle
  cases hraw : p.raw_win with
  | none =>
    refine h.opens (q := none) hcur hmade ?_ ?_ ?_ ?_
    · rw [hw]
      exact hraw
    · rw [hw]
      exact view_plain p _ _
    · rw [hw]
      exact slotsOf_plain p _ _
    · intro sw heq
      cases heq
  | some c =>
    have hopen : s.views.view (w, none) = some c := by
      show (s.wins w).view none = some c
      rw [hw]
      exact hraw
    have hviews : views { s.setWin w (.plain { p with raw_win := none }) with
        windows := s.windows.erase c } = s.views.close (w, none) c := by
      refine views_close rfl rfl ?_ ?_
      · rw [hw]
        exact view_plain p none p.slots
      · rw [hw]
        funext q
        cases q <;> rfl
    refine h.update hmade rfl rfl rfl rfl ?_ ?_ ?_ ?_
    · rw [hviews]
      exact h.sound.close hopen rfl
    · intro c' hc'
      rw [hviews]
      exact (h.fresh c' hc').close
    · intro sw heq
      cases heq
    · intro _ c' ho
      cases ho

/-- The entry of a client changes. -/
theorem view_client {sw : TcpServerWin} (h : sw.Sound) {n : Nat}
    (hn : n ∈ sw.server.manager.connections) (x : Option Console) (slots : Nat → List Console) :
    (Win.server { sw with
        client_wins := Function.update sw.client_wins (sw.address n) x, slots := slots }).view =
      Function.update (Win.server sw).view (some n) x := by
  funext q
  cases q with
  | none => rfl
  | some m =>
    by_cases hm : m ∈ sw.server.manager.connections
    · by_cases hmn : m = n
      · subst hmn
        simp [Win.view, hm]
      · -- another client is at another address
        have ha : sw.address m ≠ sw.address n := fun heq => hmn (h.distinct m hm n hn heq)
        simp [Win.view, hm, hmn, ha]
    · have hmn : m ≠ n := fun heq => hm (heq ▸ hn)
      simp [Win.view, hm, hmn]

theorem slotsOf_client {sw : TcpServerWin} {n : Nat} (hn : n ∈ sw.server.manager.connections)
    (client_wins : Address → Option Console) (slots : List Console) :
    (Win.server { sw with
        client_wins := client_wins, slots := Function.update sw.slots n slots }).slotsOf =
      Function.update (Win.server sw).slotsOf (some n) slots := by
  funext q
  cases q with
  | none => rfl
  | some m =>
    by_cases hmn : m = n
    · subst hmn
      simp [Win.slotsOf, hn]
    · simp [Win.slotsOf, hmn]

/-- The console of a client is opened. -/
theorem Inv.toggleClient (h : s.Inv) {w n : Nat} {sw : TcpServerWin} (hcur : s.current = some w)
    (hw : s.wins w = .server sw) (hn : n ∈ sw.server.manager.connections)
    (hclosed : sw.client_wins (sw.address n) = none) : (s.toggleClient w sw n).Inv := by
  have hsw := h.server w sw hw
  have hslots : (Win.server sw).slotsOf (some n) = sw.slots n := by simp [Win.slotsOf, hn]
  unfold Gui.toggleClient
  rw [hclosed]
  refine h.opens (q := some n) hcur (by simp [hw]) ?_ ?_ ?_ ?_
  · simp [hw, Win.view, hn, hclosed]
  · rw [hw]
    exact view_client hsw hn _ _
  · rw [hw, hslots]
    exact slotsOf_client hn _ _
  · intro sw' heq
    cases heq
    refine ⟨hsw.live, hsw.distinct, fun a c hc => ?_⟩
    by_cases ha : a = sw.address n
    · exact ⟨n, hn, ha.symm⟩
    · exact hsw.belongs a c (by simpa [Function.update_of_ne ha] using hc)

/-! ### The buttons of the server -/

/-- The server changes, but not what its window sees of it. -/
theorem Inv.setServer (h : s.Inv) {w : Nat} {sw : TcpServerWin} (hw : s.wins w = .server sw)
    {server : TcpServer.Impl} (hlive : server.manager.Live)
    (hsame : server.manager.connections = sw.server.manager.connections) :
    (s.setServer w sw server).Inv := by
  have hsw := h.server w sw hw
  have hviews : (s.setServer w sw server).views = s.views := by
    refine views_same rfl rfl ?_ ?_
    · rw [hw]
      funext q
      cases q with
      | none => rfl
      | some n => simp only [Win.view, hsame]
    · rw [hw]
      funext q
      cases q with
      | none => rfl
      | some n => simp only [Win.slotsOf, hsame]
  refine h.unseen (by simp [hw]) hviews ?_ ?_
  · intro sw' heq
    cases heq
    refine ⟨hlive, ?_, ?_⟩
    · show ∀ n ∈ server.manager.connections, ∀ m ∈ server.manager.connections, _
      rw [hsame]
      exact hsw.distinct
    · show ∀ a c, _ → ∃ n ∈ server.manager.connections, _
      rw [hsame]
      exact hsw.belongs
  · intro hno c ho
    have hold := h.listed w hno c
    rw [hw] at hold
    exact hold ho

/-- All clients are gone, of which none has a console. -/
theorem Inv.restart (h : s.Inv) {w : Nat} {sw : TcpServerWin} (hw : s.wins w = .server sw)
    {server : TcpServer.Impl} (hlive : server.manager.Live)
    (hgone : server.manager.connections = ∅) (hnone : ∀ a, sw.client_wins a = none) :
    (s.setServer w sw server).Inv := by
  have hclosed : ∀ q, (Win.server sw).view q = none := by
    intro q
    cases q with
    | none => rfl
    | some n => simp [Win.view, hnone]
  have hviews : (s.setServer w sw server).views = s.views := by
    refine views_same rfl rfl ?_ ?_
    · rw [hw]
      funext q
      rw [hclosed q]
      cases q with
      | none => rfl
      | some n => simp [Win.view, hgone]
    · rw [hw]
      funext q
      cases q with
      | none => rfl
      | some n =>
        -- a client without a console has no slots
        have hslots := h.sound.slots_eq_nil (p := (w, some n)) rfl (by
          show (s.wins w).view (some n) = none
          rw [hw]
          exact hclosed _)
        have hold : (Win.server sw).slotsOf (some n) = [] := hw ▸ hslots
        rw [hold]
        simp [Win.slotsOf, hgone]
  refine h.unseen (by simp [hw]) hviews ?_ ?_
  · intro sw' heq
    cases heq
    refine ⟨hlive, ?_, ?_⟩
    · intro n hn
      have hn' : n ∈ server.manager.connections := hn
      rw [hgone] at hn'
      exact absurd hn' (Finset.notMem_empty n)
    · intro a c hc
      have hc' : sw.client_wins a = some c := hc
      rw [hnone a] at hc'
      cases hc'
  · rintro hno c ⟨a, ha⟩
    have ha' : sw.client_wins a = some c := ha
    rw [hnone a] at ha'
    cases ha'

/-! ### The handlers of the server -/

end Gui

namespace TcpServer

/-- What a receive handler does to the registry. -/
theorem Manager.handleRead_registry {m : Manager} {c : Nat} (r : Except ErrorCode Bytes)
    (hrun : (m.clients c).do_run = true → c ∈ m.connections) :
    ((m.handleRead c r).connections = m.connections ∧ (m.handleRead c r).created = m.created ∧
      (m.handleRead c r).events = m.events) ∨
    (c ∈ m.connections ∧ (m.handleRead c r).connections = m.connections.erase c ∧
      (m.handleRead c r).created = m.created ∧
      (m.handleRead c r).events = m.events ++ [(.disconnected, c)]) := by
  cases r with
  | ok chunk => exact Or.inl ⟨rfl, rfl, rfl⟩
  | error ec =>
    by_cases haborted : ec = .operation_aborted
    · subst haborted
      exact Or.inl ⟨rfl, rfl, rfl⟩
    · have heq : m.handleRead c (.error ec) = if (m.clients c).do_run then m.stop c else m := by
        cases ec with
        | operation_aborted => exact absurd rfl haborted
        | _ => rfl
      rw [heq]
      by_cases hdo : (m.clients c).do_run = true
      · rw [if_pos hdo]
        exact Or.inr ⟨hrun hdo, rfl, rfl, rfl⟩
      · rw [if_neg hdo]
        exact Or.inl ⟨rfl, rfl, rfl⟩

/-- A handler keeps the registry, or makes a client, or takes one out. -/
theorem event_cases {s s' : Impl} {l : Label} (h : s.manager.Live) (hl : Gui.isEvent l = true)
    (hn : s.next l = some s') :
    (s'.manager.connections = s.manager.connections ∧ s'.manager.created = s.manager.created ∧
      s'.manager.events = s.manager.events) ∨
    (s'.manager.connections = insert s.manager.created s.manager.connections ∧
      s'.manager.created = s.manager.created + 1 ∧
      s'.manager.events = s.manager.events ++ [(.connected, s.manager.created)]) ∨
    ∃ n ∈ s.manager.connections, s'.manager.connections = s.manager.connections.erase n ∧
      s'.manager.created = s.manager.created ∧
      s'.manager.events = s.manager.events ++ [(.disconnected, n)] := by
  have hpump : ∀ {c l m}, s.manager.nextPump c l = some m →
      m.connections = s.manager.connections ∧ m.created = s.manager.created ∧
        m.events = s.manager.events := by
    intro c l m hm
    obtain ⟨_, hm⟩ := Option.ite_none_right_eq_some.mp hm
    obtain ⟨p, _, rfl⟩ := Option.map_eq_some_iff.mp hm
    exact ⟨rfl, rfl, rfl⟩
  cases Impl.step_of_next hn with
  | start => cases hl
  | stop => cases hl
  | setOptions => cases hl
  | acceptFinish => exact Or.inl ⟨rfl, rfl, rfl⟩
  | @acceptDeliver i n r hf =>
    simp only [Impl.handleAccept]
    split
    · cases r with
      | ok a => exact Or.inr (Or.inl ⟨rfl, rfl, rfl⟩)
      | error ec => exact Or.inl ⟨rfl, rfl, rfl⟩
    · exact Or.inl ⟨rfl, rfl, rfl⟩
  | receiveFinish hm =>
    obtain ⟨o, _, hm⟩ := Option.bind_eq_some_iff.mp hm
    obtain ⟨_, heq⟩ := Option.ite_none_right_eq_some.mp hm
    cases heq
    exact Or.inl ⟨rfl, rfl, rfl⟩
  | @receiveDeliver c i m hm =>
    obtain ⟨⟨o, r⟩, hf, rfl⟩ := Option.map_eq_some_iff.mp hm
    -- a client that is running has not been taken out
    have hrun : (s.manager.clients c).do_run = true → c ∈ s.manager.connections := by
      intro hrun
      have hmade := h.made (List.ne_nil_of_mem (Operations.mem_of_finished hf))
      rcases Manager.registered_or_removed hmade with hreg | hremoved
      · exact hreg
      · rw [(h.removed c hremoved).1] at hrun
        cases hrun
    rcases Manager.handleRead_registry (m := s.manager.update c { s.manager.clients c with
        receives := (s.manager.clients c).receives.remove i }) (c := c) r
        (fun hdo => hrun (by simpa [Manager.update] using hdo)) with hsame | ⟨hreg, hgone⟩
    · exact Or.inl hsame
    · exact Or.inr (Or.inr ⟨c, hreg, hgone⟩)
  | write hm => exact Or.inl (hpump hm)
  | sendFinish hm => exact Or.inl (hpump hm)
  | sendDeliver hm => exact Or.inl (hpump hm)

end TcpServer

namespace Gui

variable {s s' : Gui}

/-- A client connects. It has no console yet, wherever it has been allocated. -/
theorem Inv.connected (h : s.Inv) {w : Nat} {sw : TcpServerWin} (hw : s.wins w = .server sw)
    {server : TcpServer.Impl} {a : Address} (hlive : server.manager.Live)
    (hfree : ∀ n ∈ sw.server.manager.connections, sw.address n ≠ a)
    (hmade : server.manager.connections =
      insert sw.server.manager.created sw.server.manager.connections) :
    (s.setWin w (.server { sw with
      server := server
      address := Function.update sw.address sw.server.manager.created a
      slots := Function.update sw.slots sw.server.manager.created [] })).Inv := by
  have hsw := h.server w sw hw
  have hnew : sw.server.manager.created ∉ sw.server.manager.connections := by
    intro hmem
    exact absurd (hsw.live.known _ hmem) (Nat.lt_irrefl _)
  have hold : ∀ n ∈ sw.server.manager.connections, n ≠ sw.server.manager.created :=
    fun n hn heq => hnew (heq ▸ hn)
  have hnone : sw.client_wins a = none := by
    cases hc : sw.client_wins a with
    | none => rfl
    | some c =>
      obtain ⟨n, hn, ha⟩ := hsw.belongs a c hc
      exact absurd ha (hfree n hn)
  have hviews : (s.setWin w (.server { sw with
      server := server
      address := Function.update sw.address sw.server.manager.created a
      slots := Function.update sw.slots sw.server.manager.created [] })).views = s.views := by
    refine views_same rfl rfl ?_ ?_
    · rw [hw]
      funext q
      cases q with
      | none => rfl
      | some n =>
        by_cases hn : n = sw.server.manager.created
        · subst hn
          simp [Win.view, hmade, hnew, hnone]
        · simp [Win.view, hmade, hn]
    · rw [hw]
      funext q
      cases q with
      | none => rfl
      | some n =>
        by_cases hn : n = sw.server.manager.created
        · subst hn
          simp [Win.slotsOf, hmade, hnew]
        · simp [Win.slotsOf, hmade, hn]
  refine h.unseen (by simp [hw]) hviews ?_ ?_
  · intro sw' heq
    cases heq
    refine ⟨hlive, ?_, ?_⟩
    · show ∀ n ∈ server.manager.connections, ∀ m ∈ server.manager.connections,
        Function.update sw.address _ a n = Function.update sw.address _ a m → n = m
      rw [hmade]
      intro n hn m hm heq
      rcases Finset.mem_insert.mp hn with rfl | hn <;> rcases Finset.mem_insert.mp hm with rfl | hm
      · rfl
      · rw [Function.update_self, Function.update_of_ne (hold m hm)] at heq
        exact absurd heq.symm (hfree m hm)
      · rw [Function.update_self, Function.update_of_ne (hold n hn)] at heq
        exact absurd heq (hfree n hn)
      · rw [Function.update_of_ne (hold n hn), Function.update_of_ne (hold m hm)] at heq
        exact hsw.distinct n hn m hm heq
    · intro a' c hc
      obtain ⟨n, hn, ha⟩ := hsw.belongs a' c hc
      refine ⟨n, ?_, ?_⟩
      · show n ∈ server.manager.connections
        rw [hmade]
        exact Finset.mem_insert_of_mem hn
      · show Function.update sw.address _ a n = a'
        rw [Function.update_of_ne (hold n hn)]
        exact ha
  · intro hno c ho
    have hnot := h.listed w hno c
    rw [hw] at hnot
    exact hnot ho

/-- The client is not there any more, and neither is an entry for it. -/
theorem view_disconnected {sw : TcpServerWin} (h : sw.Sound) {n : Nat} {server : TcpServer.Impl}
    {client_wins : Address → Option Console} (hn : n ∈ sw.server.manager.connections)
    (hgone : server.manager.connections = sw.server.manager.connections.erase n)
    (hothers : ∀ a, a ≠ sw.address n → client_wins a = sw.client_wins a) :
    (Win.server { sw with server := server, client_wins := client_wins }).view =
      Function.update (Win.server sw).view (some n) none := by
  funext q
  cases q with
  | none => rfl
  | some m =>
    by_cases hmn : m = n
    · subst hmn
      simp [Win.view, hgone]
    · by_cases hm : m ∈ sw.server.manager.connections
      · have ha : sw.address m ≠ sw.address n := fun heq => hmn (h.distinct m hm n hn heq)
        simp [Win.view, hgone, hmn, hm, hothers _ ha]
      · simp [Win.view, hgone, hmn, hm]

theorem slotsOf_disconnected {sw : TcpServerWin} {n : Nat} {server : TcpServer.Impl}
    (client_wins : Address → Option Console)
    (hgone : server.manager.connections = sw.server.manager.connections.erase n) :
    (Win.server { sw with server := server, client_wins := client_wins }).slotsOf =
      Function.update (Win.server sw).slotsOf (some n) [] := by
  funext q
  cases q with
  | none => rfl
  | some m =>
    by_cases hmn : m = n
    · subst hmn
      simp [Win.slotsOf, hgone]
    · simp [Win.slotsOf, hgone, hmn]

theorem sound_disconnected {sw : TcpServerWin} (h : sw.Sound) {n : Nat} {server : TcpServer.Impl}
    {client_wins : Address → Option Console} (hlive : server.manager.Live)
    (hgone : server.manager.connections = sw.server.manager.connections.erase n)
    (hnone : client_wins (sw.address n) = none)
    (hothers : ∀ a, a ≠ sw.address n → client_wins a = sw.client_wins a) :
    TcpServerWin.Sound { sw with server := server, client_wins := client_wins } := by
  have hmem : ∀ m, m ∈ server.manager.connections ↔ m ≠ n ∧ m ∈ sw.server.manager.connections := by
    intro m
    rw [hgone, Finset.mem_erase]
  refine ⟨hlive, ?_, ?_⟩
  · intro m hm m' hm' heq
    exact h.distinct m ((hmem m).mp hm).2 m' ((hmem m').mp hm').2 heq
  · intro a c hc
    have hc' : client_wins a = some c := hc
    have ha : a ≠ sw.address n := by
      intro heq
      rw [heq, hnone] at hc'
      cases hc'
    rw [hothers a ha] at hc'
    obtain ⟨m, hm, rfl⟩ := h.belongs a c hc'
    exact ⟨m, (hmem m).mpr ⟨fun heq => ha (congrArg sw.address heq), hm⟩, rfl⟩

/-- A client disconnects, and its console goes with it. -/
theorem Inv.removed (h : s.Inv) {w n : Nat} {sw : TcpServerWin} (hw : s.wins w = .server sw)
    {server : TcpServer.Impl} {client_wins : Address → Option Console} {windows : Finset Console}
    (hlive : server.manager.Live) (hn : n ∈ sw.server.manager.connections)
    (hgone : server.manager.connections = sw.server.manager.connections.erase n)
    (hnone : client_wins (sw.address n) = none)
    (hothers : ∀ a, a ≠ sw.address n → client_wins a = sw.client_wins a)
    (hwindows : windows = (s.views.takeAway (w, some n)).registered) :
    Inv { s.setWin w (.server { sw with server := server, client_wins := client_wins }) with
      windows := windows } := by
  have hsw := h.server w sw hw
  have hviews : views { s.setWin w (.server { sw with
        server := server, client_wins := client_wins }) with windows := windows } =
      s.views.takeAway (w, some n) := by
    refine views_takeAway rfl hwindows ?_ ?_
    · rw [hw]
      exact view_disconnected hsw hn hgone hothers
    · rw [hw]
      exact slotsOf_disconnected client_wins hgone
  refine h.update (by simp [hw]) rfl rfl rfl rfl ?_ ?_ ?_ ?_
  · rw [hviews]
    exact h.sound.takeAway _
  · intro c hc
    rw [hviews]
    exact (h.fresh c hc).takeAway
  · intro sw' heq
    cases heq
    exact sound_disconnected hsw hlive hgone hnone hothers
  · rintro hno c ⟨a, ha⟩
    have hnot := h.listed w hno c
    rw [hw] at hnot
    have ha' : client_wins a = some c := ha
    by_cases haddr : a = sw.address n
    · rw [haddr, hnone] at ha'
      cases ha'
    · rw [hothers a haddr] at ha'
      exact hnot ⟨a, ha'⟩

/-- The window is told that a client has disconnected. -/
theorem Inv.disconnected (h : s.Inv) {w n : Nat} {sw : TcpServerWin} (hw : s.wins w = .server sw)
    {server : TcpServer.Impl} (hlive : server.manager.Live)
    (hn : n ∈ sw.server.manager.connections)
    (hgone : server.manager.connections = sw.server.manager.connections.erase n) :
    (s.notify w { sw with server := server } [(.disconnected, n)]).Inv := by
  have hview : s.views.view (w, some n) = sw.client_wins (sw.address n) := by
    show (s.wins w).view (some n) = _
    rw [hw]
    simp [Win.view, hn]
  unfold notify
  simp only [List.foldl_cons, List.foldl_nil, TcpServerWin.onClientState]
  cases hc : sw.client_wins (sw.address n) with
  | none =>
    refine h.removed hw hlive hn hgone hc (fun _ _ => rfl) ?_
    unfold Views.takeAway
    rw [hview, hc]
    rfl
  | some c =>
    refine h.removed hw hlive hn hgone (Function.update_self _ _ _)
      (fun a ha => Function.update_of_ne ha _ _) ?_
    unfold Views.takeAway
    rw [hview, hc]
    rfl

theorem Inv.notify (h : s.Inv) {w : Nat} {sw : TcpServerWin} {l : TcpServer.Label} {a : Address}
    {server : TcpServer.Impl} (hw : s.wins w = .server sw) (hl : isEvent l = true)
    (hfree : ∀ n ∈ sw.server.manager.connections, sw.address n ≠ a)
    (hn : sw.server.next l = some server) :
    (s.notify w (sw.withServer server a) (sw.emitted server)).Inv := by
  have hlive := (h.server w sw hw).live
  have hlive' := (TcpServer.reads_next hlive hn).1
  unfold TcpServerWin.withServer TcpServerWin.emitted
  rcases TcpServer.event_cases hlive hl hn with
    ⟨hconn, hcreated, hevents⟩ | ⟨hconn, hcreated, hevents⟩ | ⟨n, hmem, hconn, hcreated, hevents⟩
  · rw [hcreated, hevents, if_neg (Nat.lt_irrefl _), List.drop_length]
    exact h.setServer hw hlive' hconn
  · rw [hcreated, hevents, if_pos (Nat.lt_succ_self _), List.drop_left]
    exact h.connected hw hlive' hfree hconn
  · rw [hcreated, hevents, if_neg (Nat.lt_irrefl _), List.drop_left]
    exact h.disconnected hw hlive' hmem hconn

/-! ### The list of windows -/

/-- A window without a console is made. -/
theorem Inv.emplace (h : s.Inv) {win : Win} {current : Option Nat}
    (hcurrent : current = s.current ∨ current = some s.created)
    (hview : win.view = fun _ => none) (hslots : win.slotsOf = fun _ => [])
    (hserver : ∀ sw, win = .server sw → sw.Sound) :
    Inv { s.emplace win with current := current } := by
  have hgone : s.wins s.created = .gone := h.unmade _ (Nat.le_refl _)
  have hviews : views { s.emplace win with current := current } = s.views := by
    refine views_same rfl rfl ?_ ?_
    · rw [hgone, hview]
      rfl
    · rw [hgone, hslots]
      rfl
  refine h.changes rfl (hviews ▸ h.sound) ?_ hserver ?_ ?_ ?_ ?_
  · intro c hc
    rw [hviews]
    exact h.fresh c hc
  · intro hno
    exact absurd (Finset.mem_insert_self _ _) hno
  · intro w _ hmem
    exact Finset.mem_insert_of_mem hmem
  · intro w hw
    have hlt : s.created < w := hw
    exact ⟨Nat.le_of_lt hlt, fun heq => absurd heq (Nat.ne_of_gt hlt)⟩
  · intro w hw
    have hw' : current = some w := hw
    rcases hcurrent with heq | heq
    · rw [heq] at hw'
      exact Finset.mem_insert_of_mem (h.current w hw')
    · rw [heq] at hw'
      cases hw'
      exact Finset.mem_insert_self _ _

theorem Inv.emplacePlain (h : s.Inv) (kind : PlainKind) (shared : Bool) {current : Option Nat}
    (hcurrent : current = s.current ∨ current = some s.created) :
    Inv { s.emplace (.plain (.new kind shared)) with current := current } := by
  refine h.emplace hcurrent ?_ ?_ (fun sw heq => by cases heq)
  · funext q
    cases q <;> rfl
  · funext q
    cases q <;> rfl

theorem sound_new (opts : TcpServer.Options) : (TcpServerWin.new opts).Sound where
  live := TcpServer.Manager.Live.new
  distinct := fun n hn => absurd hn (Finset.notMem_empty n)
  belongs := fun a c hc => by cases hc

theorem Inv.emplaceServer (h : s.Inv) (opts : TcpServer.Options) {current : Option Nat}
    (hcurrent : current = s.current ∨ current = some s.created) :
    Inv { s.emplace (.server (.new opts)) with current := current } := by
  have hnobody : ∀ n, n ∉ (TcpServerWin.new opts).server.manager.connections :=
    fun n => Finset.notMem_empty n
  refine h.emplace hcurrent ?_ ?_ ?_
  · funext q
    cases q with
    | none => rfl
    | some n => simp [Win.view, hnobody n]
  · funext q
    cases q with
    | none => rfl
    | some n => simp [Win.slotsOf, hnobody n]
  · intro sw heq
    cases heq
    exact sound_new opts

/-- The places of a window without consoles, when it is deleted. -/
theorem Inv.views_trash (h : s.Inv) {w : Nat} (hnone : ∀ c, ¬(s.wins w).Owns c) :
    (s.trash w).views = s.views ∨ (s.trash w).views = s.views.takeAway (w, none) := by
  have hclosed : ∀ q, (s.wins w).view q = none := by
    intro q
    cases hq : (s.wins w).view q with
    | none => rfl
    | some c => exact absurd (owns_of_view hq) (hnone c)
  cases hw : s.wins w with
  | plain p =>
    have hraw : p.raw_win = none := by
      have hview := hclosed none
      rw [hw] at hview
      exact hview
    by_cases hshared : p.shared = true
    · left
      have hdeleted : (s.wins w).deleted = s.wins w := by
        rw [hw]
        show (if p.shared then Win.plain { p with raw_win := none } else .gone) = _
        rw [if_pos hshared, ← hraw]
      exact views_same rfl rfl (congrArg Win.view hdeleted) (congrArg Win.slotsOf hdeleted)
    · right
      have hdeleted : (s.wins w).deleted = .gone := by
        rw [hw]
        exact if_neg hshared
      have hview : (s.wins w).view = fun _ => none := funext hclosed
      have hnoview : s.views.view (w, none) = none := hclosed none
      refine views_takeAway rfl ?_ ?_ ?_
      · unfold Views.takeAway
        rw [hnoview]
        rfl
      · rw [hdeleted, hview]
        funext q
        cases q <;> rfl
      · rw [hdeleted, hw]
        funext q
        cases q <;> rfl
  | server sw =>
    left
    have hdeleted : (s.wins w).deleted = .gone := by
      rw [hw]
      rfl
    refine views_same rfl rfl ?_ ?_
    · rw [hdeleted, funext hclosed]
      rfl
    · rw [hdeleted]
      funext q
      cases q with
      | none =>
        rw [hw]
        rfl
      | some n => exact (h.sound.slots_eq_nil (p := (w, some n)) rfl (hclosed _)).symm
  | gone =>
    left
    have hdeleted : (s.wins w).deleted = s.wins w := by
      rw [hw]
      rfl
    exact views_same rfl rfl (congrArg Win.view hdeleted) (congrArg Win.slotsOf hdeleted)

/-- Nothing is left of a server, and no console of anything. -/
theorem deleted_cases (win : Win) :
    (∃ p, win.deleted = .plain p ∧ p.raw_win = none) ∨ win.deleted = .gone := by
  cases win with
  | plain p =>
    by_cases hshared : p.shared = true
    · exact Or.inl ⟨_, if_pos hshared, rfl⟩
    · exact Or.inr (if_neg hshared)
  | server sw => exact Or.inr rfl
  | gone => exact Or.inr rfl

theorem Inv.trash (h : s.Inv) {w : Nat} (hnone : ∀ c, ¬(s.wins w).Owns c) : (s.trash w).Inv := by
  have hviews : (s.trash w).views.Sound ∧ ∀ c, s.consoles ≤ c → (s.trash w).views.Fresh c := by
    rcases h.views_trash hnone with heq | heq
    · rw [heq]
      exact ⟨h.sound, h.fresh⟩
    · rw [heq]
      exact ⟨h.sound.takeAway _, fun c hc => (h.fresh c hc).takeAway⟩
  refine h.changes rfl hviews.1 hviews.2 ?_ ?_ ?_ ?_ ?_
  · intro sw hdeleted
    rcases deleted_cases (s.wins w) with ⟨p, hp, _⟩ | hgone
    · rw [hp] at hdeleted
      cases hdeleted
    · rw [hgone] at hdeleted
      cases hdeleted
  · intro _ c ho
    rcases deleted_cases (s.wins w) with ⟨p, hp, hraw⟩ | hgone
    · rw [hp] at ho
      have hopen : p.raw_win = some c := ho
      rw [hraw] at hopen
      cases hopen
    · rw [hgone] at ho
      cases ho
  · intro w' hne hmem
    exact Finset.mem_erase.mpr ⟨hne, hmem⟩
  · intro w' hle
    refine ⟨hle, fun heq => ?_⟩
    rw [← heq, h.unmade w' hle]
    rfl
  · intro w' hcur
    cases hcur

/-! ### One step -/

theorem Inv.new : Gui.new.Inv where
  sound :=
    ⟨⟨fun c => by simp [views, Gui.new, Win.view], fun p => by
      constructor
      · exact List.nodup_nil
      · intro c
        constructor
        · rintro ⟨hmem, _⟩
          cases hmem
        · intro hview
          cases hview⟩, fun p q c hmem => by cases hmem⟩
  server := fun w sw hw => by cases hw
  listed := fun w _ c ho => by cases ho
  fresh := fun c _ => ⟨Finset.notMem_empty c, fun p hmem => by cases hmem⟩
  unmade := fun _ _ => rfl
  current := fun w hcur => by cases hcur

/-- Every client is gone when the server is started. -/
theorem start_connections (server : TcpServer.Impl) (os : TcpServer.Answer) :
    (server.start os).manager.connections = ∅ := by
  rw [TcpServer.Impl.start_manager]
  rfl

theorem Inv.apply (h : s.Inv) {w : Nat} {sw : TcpServerWin} (hw : s.wins w = .server sw)
    (opts : TcpServer.Options) (os : TcpServer.Answer)
    (hnone : sw.server.isRunning = true → ∀ a, sw.client_wins a = none) :
    (s.setServer w sw (sw.server.setOptions opts os)).Inv := by
  have hlive : (sw.server.setOptions opts os).manager.Live :=
    (TcpServer.reads_next (l := .setOptions opts os) (h.server w sw hw).live rfl).1
  by_cases hrun : sw.server.isRunning = true
  · refine h.restart hw hlive ?_ (hnone hrun)
    have heq : sw.server.setOptions opts os = TcpServer.Impl.start { sw.server with opts := opts } os :=
      if_pos hrun
    rw [heq]
    exact start_connections _ os
  · refine h.setServer hw hlive ?_
    have heq : sw.server.setOptions opts os = { sw.server with opts := opts } := if_neg hrun
    rw [heq]

theorem Inv.start (h : s.Inv) {w : Nat} {sw : TcpServerWin} (hw : s.wins w = .server sw)
    (opts : TcpServer.Options) (os : TcpServer.Answer) (hnone : ∀ a, sw.client_wins a = none) :
    (s.setServer w sw ((sw.server.setOptions opts os).start os)).Inv := by
  have hset : (sw.server.setOptions opts os).manager.Live :=
    (TcpServer.reads_next (l := .setOptions opts os) (h.server w sw hw).live rfl).1
  have hlive : ((sw.server.setOptions opts os).start os).manager.Live :=
    (TcpServer.reads_next (l := .start os) hset rfl).1
  exact h.restart hw hlive (start_connections _ os) hnone

theorem Inv.stop (h : s.Inv) {w : Nat} {sw : TcpServerWin} (hw : s.wins w = .server sw)
    (hnone : ∀ a, sw.client_wins a = none) : (s.setServer w sw sw.server.stop).Inv := by
  have hlive : sw.server.stop.manager.Live :=
    (TcpServer.reads_next (l := .stop) (h.server w sw hw).live rfl).1
  exact h.restart hw hlive rfl hnone

theorem Inv.next (h : s.Inv) {l : Label} (hC : s.KeepsInStep l) (hn : s.next l = some s') :
    s'.Inv := by
  cases step_of_next hn with
  | add kind => exact h.emplacePlain kind false (Or.inr rfl)
  | addServer opts => exact h.emplaceServer opts (Or.inr rfl)
  | register kind => exact h.emplacePlain kind true (Or.inl rfl)
  | ignored => exact h
  | registerServer => exact h
  | select hw =>
    refine ⟨h.sound, h.server, h.listed, h.fresh, h.unmade, fun w' hcur => ?_⟩
    cases hcur
    exact hw
  | console hcur hw => exact h.toggle hcur hw
  | clientConsole hcur hw hmem =>
    exact h.toggleClient hcur hw hmem (hC _ _ (shownServer_eq_some.mpr ⟨hcur, hw⟩))
  | apply opts os hcur hw =>
    exact h.apply hw opts os (hC _ _ (shownServer_eq_some.mpr ⟨hcur, hw⟩))
  | stop hcur hw => exact h.stop hw (hC _ _ (shownServer_eq_some.mpr ⟨hcur, hw⟩))
  | start opts os hcur hw =>
    exact h.start hw opts os (hC _ _ (shownServer_eq_some.mpr ⟨hcur, hw⟩))
  | server hw hl hfree hserver => exact h.notify hw hl hfree hserver
  | trash hcur => exact h.trash (hC _ hcur)

/-- The consoles of a window that is deleted stay registered. -/
theorem Inv.trash_exact (h : s.Inv) {w : Nat} (hcur : s.current = some w)
    (hin : (s.trash w).InStep) (c : Console) : ¬(s.wins w).Owns c := by
  intro ho
  have hreg : c ∈ s.windows := (h.inStep.registered c).mpr ⟨w, h.current w hcur, ho⟩
  obtain ⟨w', hw', ho'⟩ := (hin.registered c).mp hreg
  obtain ⟨hne, _⟩ := Finset.mem_erase.mp hw'
  have hother : (s.wins w').Owns c := by
    have hwin : (Function.update s.wins w (s.wins w).deleted w').Owns c := ho'
    rwa [Function.update_of_ne hne] at hwin
  -- no other window has the same console
  obtain ⟨q, hq⟩ := h.view_of_owns ho
  obtain ⟨q', hq'⟩ := h.view_of_owns hother
  exact hne (congrArg Prod.fst (h.sound.view_inj (p := (w', q')) (q := (w, q)) hq' hq))

/-- The entries of `client_wins_` are not for anybody when the clients are gone. -/
theorem Inv.restart_exact (h : s.Inv) {w : Nat} {sw : TcpServerWin} (hcur : s.current = some w)
    {server : TcpServer.Impl} (hgone : server.manager.connections = ∅)
    (hin : (s.setServer w sw server).InStep) (a : Address) : sw.client_wins a = none := by
  cases hc : sw.client_wins a with
  | none => rfl
  | some c =>
    have hwin : (s.setServer w sw server).wins w = .server { sw with server := server } :=
      Function.update_self _ _ _
    obtain ⟨q, hq⟩ := hin.exist w (h.current w hcur) c (by
      rw [hwin]
      exact ⟨a, hc⟩)
    rw [hwin] at hq
    cases q with
    | none => cases hq
    | some n => simp [Win.view, hgone] at hq

/-- The slot of a client's console stays connected when the console is closed. -/
theorem Inv.client_exact (h : s.Inv) {w n : Nat} {sw : TcpServerWin}
    (hw : s.wins w = .server sw) (hn : n ∈ sw.server.manager.connections)
    (hin : (s.toggleClient w sw n).InStep) : sw.client_wins (sw.address n) = none := by
  cases hc : sw.client_wins (sw.address n) with
  | none => rfl
  | some c =>
    have hopen : s.views.view (w, some n) = some c := by
      show (s.wins w).view (some n) = some c
      rw [hw]
      simp [Win.view, hn, hc]
    have htoggled : s.toggleClient w sw n = { s.setWin w (.server { sw with
        client_wins := Function.update sw.client_wins (sw.address n) none }) with
        windows := s.windows.erase c } := by
      unfold Gui.toggleClient
      rw [hc]
    rw [htoggled] at hin
    have hlisted : ∀ w', w' ∉ s.connections → ∀ c', ¬(Function.update s.wins w (.server { sw with
        client_wins := Function.update sw.client_wins (sw.address n) none }) w').Owns c' := by
      intro w' hw' c' ho
      have hnot := h.listed w' hw' c'
      by_cases heq : w' = w
      · rw [heq, Function.update_self] at ho
        obtain ⟨a, ha⟩ := ho
        rw [heq, hw] at hnot
        by_cases haddr : a = sw.address n
        · simp [haddr] at ha
        · exact hnot ⟨a, by simpa [haddr] using ha⟩
      · rw [Function.update_of_ne heq] at ho
        exact hnot ho
    have hviews : views { s.setWin w (.server { sw with
        client_wins := Function.update sw.client_wins (sw.address n) none }) with
        windows := s.windows.erase c } = s.views.close (w, some n) c := by
      refine views_close rfl rfl ?_ ?_
      · rw [hw]
        exact view_client (h.server w sw hw) hn none sw.slots
      · rw [hw]
        funext q
        cases q <;> rfl
    have hagree := hin.agree hlisted
    rw [hviews] at hagree
    exact absurd hagree (Views.not_agree_close h.sound.toAgree hopen rfl)

theorem Inv.exact (h : s.Inv) {l : Label} (hn : s.next l = some s') (hin : s'.InStep) :
    s.KeepsInStep l := by
  cases step_of_next hn with
  | clientConsole hcur hw hmem =>
    intro w' sw' hshown
    rw [shownServer_eq_some.mpr ⟨hcur, hw⟩] at hshown
    cases hshown
    exact h.client_exact hw hmem hin
  | @apply w sw opts os hcur hw =>
    intro w' sw' hshown hrun
    rw [shownServer_eq_some.mpr ⟨hcur, hw⟩] at hshown
    cases hshown
    refine h.restart_exact hcur ?_ hin
    have heq : sw.server.setOptions opts os = TcpServer.Impl.start { sw.server with opts := opts } os :=
      if_pos hrun
    rw [heq]
    exact start_connections _ os
  | stop hcur hw =>
    intro w' sw' hshown
    rw [shownServer_eq_some.mpr ⟨hcur, hw⟩] at hshown
    cases hshown
    exact h.restart_exact hcur rfl hin
  | start opts os hcur hw =>
    intro w' sw' hshown
    rw [shownServer_eq_some.mpr ⟨hcur, hw⟩] at hshown
    cases hshown
    exact h.restart_exact hcur (start_connections _ os) hin
  | trash hcur =>
    intro w' hcur'
    rw [hcur] at hcur'
    cases hcur'
    exact h.trash_exact hcur hin
  | _ => trivial

/-! ### Every run -/

/-- **The consoles are in step with what they show** throughout a run exactly
    when no window with a console is deleted, no server is stopped or restarted
    while one of its clients has a console, and no console of a client is closed
    by hand. -/
theorem consoles_iff {s : Gui} (r : Run system s) :
    r.Throughout InStep ↔ r.EachStep KeepsInStep := by
  apply Run.throughout_iff (I := Inv)
  · intro s hs
    rw [hs]
    exact .new
  · intro s h
    exact h.inStep
  · intro s l s' h hC hn
    exact h.next hC hn
  · intro s l s' h hn hin
    exact h.exact hn hin

/-- The window of a server is shown and its server is started, a client connects
    and its console is opened. -/
def clientOpened : List Label :=
  [.addServer ⟨.ipv4, 5000⟩, .start ⟨.ipv4, 5000⟩ .granted, .server 0 (.acceptFinish 0 (.ok ())) 7,
    .server 0 (.acceptDeliver 0) 7, .clientConsole 0]

/-- The window of a serial port is deleted and its console is still registered.
    A server is stopped and the console of its client is still there. And the
    console of a client is closed and its slot is still connected. -/
theorem consoles_out_of_step :
    (∃ (s : Gui) (r : Run system s), s.connections = ∅ ∧ 0 ∈ s.windows ∧
      ¬ r.Throughout InStep) ∧
    (∃ (s : Gui) (r : Run system s) (sw : TcpServerWin), s.shownServer = some (0, sw) ∧
      sw.server.manager.connections = ∅ ∧ sw.client_wins 7 = some 0 ∧ 0 ∈ s.windows ∧
      ¬ r.Throughout InStep) ∧
    (∃ (s : Gui) (r : Run system s) (sw : TcpServerWin), s.shownServer = some (0, sw) ∧
      0 ∈ sw.server.manager.connections ∧ sw.client_wins (sw.address 0) = none ∧
      0 ∈ sw.slots 0 ∧ ¬ r.Throughout InStep) := by
  refine ⟨?_, ?_, ?_⟩
  · obtain ⟨s, r, _, hs⟩ := Run.exists_of_check system rfl [.add .serial, .console, .trash]
      (fun _ _ => true) (fun s => decide (s.connections = ∅) && decide (0 ∈ s.windows)) (by decide)
    simp only [Bool.and_eq_true, decide_eq_true_eq] at hs
    obtain ⟨hnone, hreg⟩ := hs
    refine ⟨s, r, hnone, hreg, fun h => ?_⟩
    obtain ⟨w, hw, _⟩ := (h.last.registered 0).mp hreg
    rw [hnone] at hw
    exact absurd hw (Finset.notMem_empty w)
  · obtain ⟨s, r, _, hs⟩ := Run.exists_of_check system rfl (clientOpened ++ [.stop])
      (fun _ _ => true) (fun s => s.shownServer.any fun (x : Nat × TcpServerWin) =>
        decide (x.1 = 0) && decide (x.2.server.manager.connections = ∅) &&
        decide (x.2.client_wins 7 = some 0) &&
        decide (0 ∈ s.connections) && decide (0 ∈ s.windows)) (by decide)
    obtain ⟨⟨w, sw⟩, hshown, hsw⟩ := (Option.any_eq_true _ _).mp hs
    simp only [Bool.and_eq_true, decide_eq_true_eq] at hsw
    obtain ⟨⟨⟨⟨rfl, hgone⟩, hopen⟩, hlisted⟩, hreg⟩ := hsw
    obtain ⟨_, hw⟩ := shownServer_eq_some.mp hshown
    refine ⟨s, r, sw, hshown, hgone, hopen, hreg, fun h => ?_⟩
    obtain ⟨q, hq⟩ := h.last.exist 0 hlisted 0 (by
      rw [hw]
      exact ⟨7, hopen⟩)
    rw [hw] at hq
    cases q with
    | none => cases hq
    | some n => simp [Win.view, hgone] at hq
  · obtain ⟨s, r, _, hs⟩ := Run.exists_of_check system rfl (clientOpened ++ [.clientConsole 0])
      (fun _ _ => true) (fun s => s.shownServer.any fun (x : Nat × TcpServerWin) =>
        decide (x.1 = 0) && decide (0 ∈ x.2.server.manager.connections) &&
        decide (x.2.client_wins (x.2.address 0) = none) && decide (0 ∈ x.2.slots 0)) (by decide)
    obtain ⟨⟨w, sw⟩, hshown, hsw⟩ := (Option.any_eq_true _ _).mp hs
    simp only [Bool.and_eq_true, decide_eq_true_eq] at hsw
    obtain ⟨⟨⟨rfl, hn⟩, hclosed⟩, hslot⟩ := hsw
    obtain ⟨_, hw⟩ := shownServer_eq_some.mp hshown
    refine ⟨s, r, sw, hshown, hn, hclosed, hslot, fun h => ?_⟩
    have hmem : 0 ∈ (s.wins 0).slotsOf (some 0) := by simpa [hw, Win.slotsOf, hn] using hslot
    -- the slot itself holds the console
    have hview := ((h.last.connected 0 (some 0)).2 0).mp ⟨hmem, Or.inr (Or.inr ⟨0, 0, hmem⟩)⟩
    simp [hw, Win.view, hn, hclosed] at hview

end Gui

end DeviceTester
