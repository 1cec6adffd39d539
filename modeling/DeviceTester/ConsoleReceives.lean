import DeviceTester.Consoles

/-! # What the consoles are passed

  The slot that a console is given its data by calls `addData` of `raw_win_`,
  for which it has captured the window of the connection, and not the console.
  It only tracks the console. So it is there for as long as the console, which the
  `WindowManager` keeps when the window is deleted.

  Where nobody else has the connection the slot is gone with it. Where somebody
  has, as a plugin, what comes in is passed to a window that is not there any more
  (`receives_live_iff`). The slots of the clients of a server have captured their
  console.
-/

namespace DeviceTester

open LTS

/-- The console has been opened for the window. -/
def Win.Mentions : Win → Console → Prop
  | .plain p, c => c ∈ p.slots
  | .server sw, c => (∃ a, sw.client_wins a = some c) ∨ ∃ n, c ∈ sw.slots n
  | .gone, _ => False

namespace Gui

/-! ### The property -/

/-- **(A)** A slot that is connected to the connection of a window passes on to the
    console that the window has open, and the window is there. -/
def ReceivesLive (s : Gui) : Prop :=
  ∀ w p c, s.wins w = .plain p → c ∈ p.slots → s.Held c →
    w ∈ s.connections ∧ p.raw_win = some c

/-- No window is deleted that has a console, if somebody else has its
    connection. -/
def KeepsReceives (s : Gui) : Label → Prop
  | .trash => ∀ w p, s.current = some w → s.wins w = .plain p → p.shared = true →
      p.raw_win = none
  | _ => True

/-! ### The invariant -/

/-- The open console of a plain window is registered, and none of the former
    ones. -/
structure Current (windows : Finset Console) (p : PlainWin) : Prop where
  opened : ∀ c, p.raw_win = some c → c ∈ p.slots ∧ c ∈ windows
  only : ∀ c ∈ p.slots, c ∈ windows → p.raw_win = some c

structure Tracked (s : Gui) : Prop where
  plain : ∀ w p, s.wins w = .plain p → Current s.windows p
  /-- A window that has been deleted has no console. -/
  deleted : ∀ w p, s.wins w = .plain p → w ∉ s.connections → p.raw_win = none
  /-- No two windows have opened the same console. -/
  apart : ∀ w w' c, (s.wins w).Mentions c → (s.wins w').Mentions c → w = w'
  mentioned : ∀ w c, (s.wins w).Mentions c → c < s.consoles
  registered : ∀ c ∈ s.windows, c < s.consoles
  unmade : ∀ w, s.created ≤ w → s.wins w = .gone
  current : ∀ w, s.current = some w → w ∈ s.connections

variable {s s' : Gui}

theorem Tracked.mentions_of_owns (h : s.Tracked) {w : Nat} {c : Console}
    (ho : (s.wins w).Owns c) : (s.wins w).Mentions c := by
  cases hw : s.wins w with
  | plain p =>
    rw [hw] at ho
    exact ((h.plain w p hw).opened c ho).1
  | server sw =>
    rw [hw] at ho
    exact Or.inl ho
  | gone =>
    rw [hw] at ho
    cases ho

/-- Whoever else refers to a console, it is registered if its slot is at a plain
    window. -/
theorem Tracked.registered_of_held (h : s.Tracked) {w : Nat} {p : PlainWin} {c : Console}
    (hw : s.wins w = .plain p) (hc : c ∈ p.slots) (hheld : s.Held c) : c ∈ s.windows := by
  have hmentions : (s.wins w).Mentions c := by
    rw [hw]
    exact hc
  rcases hheld with hreg | ⟨w', _, ho⟩ | ⟨w', n, hslot⟩
  · exact hreg
  · obtain rfl := h.apart w w' c hmentions (h.mentions_of_owns ho)
    rw [hw] at ho
    exact ((h.plain w p hw).opened c ho).2
  · -- the slots of clients are at the window of a server
    have hother : (s.wins w').Mentions c := by
      cases hw' : s.wins w' with
      | plain p' =>
        rw [hw'] at hslot
        cases hslot
      | server sw =>
        rw [hw'] at hslot
        simp only [Win.slotsOf] at hslot
        split at hslot
        · exact Or.inr ⟨n, hslot⟩
        · cases hslot
      | gone =>
        rw [hw'] at hslot
        cases hslot
    obtain rfl := h.apart w w' c hmentions hother
    rw [hw] at hslot
    cases hslot

theorem Tracked.receivesLive (h : s.Tracked) : s.ReceivesLive := by
  intro w p c hw hc hheld
  have hopen := (h.plain w p hw).only c hc (h.registered_of_held hw hc hheld)
  refine ⟨?_, hopen⟩
  by_contra hno
  rw [h.deleted w p hw hno] at hopen
  cases hopen

/-! ### One window changes -/

/-- A window changes, and with it what is registered. It may open the next
    console, and close those that it has opened. -/
theorem Tracked.changes (h : s.Tracked) {w : Nat} {win : Win}
    (hwins : s'.wins = Function.update s.wins w win) (hconsoles : s.consoles ≤ s'.consoles)
    (hmentions : ∀ c, win.Mentions c → (s.wins w).Mentions c ∨ (c = s.consoles ∧ c < s'.consoles))
    (hopened : ∀ c ∈ s'.windows, c ∈ s.windows ∨ (c = s.consoles ∧ c < s'.consoles))
    (hclosed : ∀ c ∈ s.windows, c ∉ s'.windows → (s.wins w).Mentions c)
    (hplain : ∀ p, win = .plain p → Current s'.windows p ∧ (w ∉ s'.connections → p.raw_win = none))
    (hothers : ∀ w', w' ≠ w → (w' ∈ s'.connections ↔ w' ∈ s.connections))
    (hunmade : ∀ w', s'.created ≤ w' → s.created ≤ w' ∧ (w' = w → win = .gone))
    (hcurrent : ∀ w', s'.current = some w' → w' ∈ s'.connections) : s'.Tracked := by
  have hself : s'.wins w = win := by
    rw [hwins]
    exact Function.update_self _ _ _
  have hother : ∀ w', w' ≠ w → s'.wins w' = s.wins w' := by
    intro w' hne
    rw [hwins]
    exact Function.update_of_ne hne _ _
  -- the next console has not been opened for any window
  have hnew : ∀ w', ¬(s.wins w').Mentions s.consoles :=
    fun w' hm => Nat.lt_irrefl _ (h.mentioned w' _ hm)
  refine ⟨?_, ?_, ?_, ?_, ?_, ?_, hcurrent⟩
  · intro w' p hw'
    by_cases hne : w' = w
    · rw [hne, hself] at hw'
      exact (hplain p hw').1
    · rw [hother w' hne] at hw'
      have hmentioned : ∀ c ∈ p.slots, (s.wins w').Mentions c := by
        intro c hc
        rw [hw']
        exact hc
      obtain ⟨hopen, honly⟩ := h.plain w' p hw'
      constructor
      · intro c hc
        obtain ⟨hslot, hreg⟩ := hopen c hc
        refine ⟨hslot, ?_⟩
        by_contra hno
        exact hne (h.apart w' w c (hmentioned c hslot) (hclosed c hreg hno))
      · intro c hslot hreg
        rcases hopened c hreg with hreg | ⟨rfl, _⟩
        · exact honly c hslot hreg
        · exact absurd (hmentioned _ hslot) (hnew w')
  · intro w' p hw' hno
    by_cases hne : w' = w
    · rw [hne] at hw' hno
      rw [hself] at hw'
      exact (hplain p hw').2 hno
    · rw [hother w' hne] at hw'
      rw [hothers w' hne] at hno
      exact h.deleted w' p hw' hno
  · have hback : ∀ w' c, (s'.wins w').Mentions c →
        (s.wins w').Mentions c ∨ (w' = w ∧ c = s.consoles) := by
      intro w' c hm
      by_cases hne : w' = w
      · rw [hne, hself] at hm
        rcases hmentions c hm with hold | ⟨hc, _⟩
        · exact Or.inl (hne ▸ hold)
        · exact Or.inr ⟨hne, hc⟩
      · rw [hother w' hne] at hm
        exact Or.inl hm
    intro w₁ w₂ c hm₁ hm₂
    rcases hback w₁ c hm₁ with hold₁ | ⟨hw₁, rfl⟩
    · rcases hback w₂ c hm₂ with hold₂ | ⟨_, rfl⟩
      · exact h.apart w₁ w₂ c hold₁ hold₂
      · exact absurd hold₁ (hnew w₁)
    · rcases hback w₂ s.consoles hm₂ with hold₂ | ⟨hw₂, _⟩
      · exact absurd hold₂ (hnew w₂)
      · rw [hw₁, hw₂]
  · intro w' c hm
    by_cases hne : w' = w
    · rw [hne, hself] at hm
      rcases hmentions c hm with hold | ⟨_, hlt⟩
      · exact Nat.lt_of_lt_of_le (h.mentioned w c hold) hconsoles
      · exact hlt
    · rw [hother w' hne] at hm
      exact Nat.lt_of_lt_of_le (h.mentioned w' c hm) hconsoles
  · intro c hreg
    rcases hopened c hreg with hreg | ⟨_, hlt⟩
    · exact Nat.lt_of_lt_of_le (h.registered c hreg) hconsoles
    · exact hlt
  · intro w' hle
    obtain ⟨hle, hgone⟩ := hunmade w' hle
    by_cases hne : w' = w
    · rw [hne, hself]
      exact hgone hne
    · rw [hother w' hne]
      exact h.unmade w' hle

/-- The window that changes has been made, and stays where it is. -/
theorem Tracked.update (h : s.Tracked) {w : Nat} {win : Win} (hw : s.wins w ≠ .gone)
    (hwins : s'.wins = Function.update s.wins w win) (hcreated : s'.created = s.created)
    (hconnections : s'.connections = s.connections) (hcurrent : s'.current = s.current)
    (hconsoles : s.consoles ≤ s'.consoles)
    (hmentions : ∀ c, win.Mentions c → (s.wins w).Mentions c ∨ (c = s.consoles ∧ c < s'.consoles))
    (hopened : ∀ c ∈ s'.windows, c ∈ s.windows ∨ (c = s.consoles ∧ c < s'.consoles))
    (hclosed : ∀ c ∈ s.windows, c ∉ s'.windows → (s.wins w).Mentions c)
    (hplain : ∀ p, win = .plain p →
      Current s'.windows p ∧ (w ∉ s.connections → p.raw_win = none)) : s'.Tracked := by
  refine h.changes hwins hconsoles hmentions hopened hclosed ?_ ?_ ?_ ?_
  · rw [hconnections]
    exact hplain
  · intro w' _
    rw [hconnections]
  · intro w' hle
    rw [hcreated] at hle
    exact ⟨hle, fun heq => absurd (heq ▸ h.unmade w' hle) hw⟩
  · rw [hcurrent, hconnections]
    exact h.current

/-- The window of a server changes, which opens no console for it and may close
    some. -/
theorem Tracked.serverChanges (h : s.Tracked) {w : Nat} {sw sw' : TcpServerWin}
    {windows : Finset Console} (hw : s.wins w = .server sw)
    (hmentions : ∀ c, (Win.server sw').Mentions c → (Win.server sw).Mentions c)
    (hopened : windows ⊆ s.windows)
    (hclosed : ∀ c ∈ s.windows, c ∉ windows → (Win.server sw).Mentions c) :
    Tracked { s.setWin w (.server sw') with windows := windows } := by
  refine h.update (by simp [hw]) rfl rfl rfl rfl (Nat.le_refl _) ?_ ?_ ?_ ?_
  · intro c hc
    rw [hw]
    exact Or.inl (hmentions c hc)
  · intro c hc
    exact Or.inl (hopened hc)
  · rw [hw]
    exact hclosed
  · intro p heq
    cases heq

/-! ### The steps -/

/-- What holds at a place of an updated function holds of the new value or held
    there before. -/
theorem of_update {α β : Type} [DecidableEq α] {f : α → β} {k a : α} {x : β} (P : β → Prop)
    (h : P (Function.update f k x a)) : P x ∨ P (f a) := by
  by_cases ha : a = k
  · rw [ha, Function.update_self] at h
    exact Or.inl h
  · rw [Function.update_of_ne ha] at h
    exact Or.inr h

theorem Tracked.toggle (h : s.Tracked) {w : Nat} {p : PlainWin} (hcur : s.current = some w)
    (hw : s.wins w = .plain p) : (s.toggle w p).Tracked := by
  have hlisted := h.current w hcur
  have hmade : s.wins w ≠ .gone := by simp [hw]
  obtain ⟨hopen, honly⟩ := h.plain w p hw
  unfold Gui.toggle
  cases hraw : p.raw_win with
  | none =>
    refine h.update hmade rfl rfl rfl rfl (Nat.le_succ _) ?_ ?_ ?_ ?_
    · intro c hc
      rw [hw]
      rcases List.mem_append.mp hc with hold | hlast
      · exact Or.inl hold
      · exact Or.inr ⟨List.mem_singleton.mp hlast, List.mem_singleton.mp hlast ▸ Nat.lt_succ_self _⟩
    · intro c hc
      rcases Finset.mem_insert.mp hc with rfl | hold
      · exact Or.inr ⟨rfl, Nat.lt_succ_self _⟩
      · exact Or.inl hold
    · intro c hc hno
      exact absurd (Finset.mem_insert_of_mem hc) hno
    · intro p' heq
      cases heq
      refine ⟨⟨?_, ?_⟩, fun hno => absurd hlisted hno⟩
      · intro c hc
        obtain rfl := Option.some.inj hc
        exact ⟨List.mem_append.mpr (Or.inr (List.mem_singleton.mpr rfl)),
          Finset.mem_insert_self _ _⟩
      · intro c hslot hreg
        rcases Finset.mem_insert.mp hreg with rfl | hreg
        · rfl
        · rcases List.mem_append.mp hslot with hold | hlast
          -- a former console that is registered would be the open one
          · have hopen' := honly c hold hreg
            rw [hraw] at hopen'
            cases hopen'
          · rw [List.mem_singleton.mp hlast]
  | some c =>
    refine h.update hmade rfl rfl rfl rfl (Nat.le_refl _) ?_ ?_ ?_ ?_
    · intro c' hc'
      rw [hw]
      exact Or.inl hc'
    · intro c' hc'
      exact Or.inl (Finset.mem_of_mem_erase hc')
    · intro c' hc' hno
      rw [hw]
      have heq : c' = c := by
        by_contra hne
        exact hno (Finset.mem_erase.mpr ⟨hne, hc'⟩)
      rw [heq]
      exact (hopen c hraw).1
    · intro p' heq
      cases heq
      refine ⟨⟨?_, ?_⟩, fun _ => rfl⟩
      · intro c' hc'
        cases hc'
      · intro c' hslot hreg
        obtain ⟨hne, hreg⟩ := Finset.mem_erase.mp hreg
        have hopen' := honly c' hslot hreg
        rw [hraw] at hopen'
        exact absurd (Option.some.inj hopen').symm hne

theorem Tracked.toggleClient (h : s.Tracked) {w n : Nat} {sw : TcpServerWin}
    (hw : s.wins w = .server sw) : (s.toggleClient w sw n).Tracked := by
  unfold Gui.toggleClient
  cases hopen : sw.client_wins (sw.address n) with
  | none =>
    refine h.update (by simp [hw]) rfl rfl rfl rfl (Nat.le_succ _) ?_ ?_ ?_ ?_
    · intro c hc
      rw [hw]
      rcases hc with ⟨a, ha⟩ | ⟨m, hm⟩
      · rcases of_update (· = some c) ha with hnew | hold
        · obtain rfl := Option.some.inj hnew
          exact Or.inr ⟨rfl, Nat.lt_succ_self _⟩
        · exact Or.inl (Or.inl ⟨a, hold⟩)
      · rcases of_update (c ∈ ·) hm with hnew | hold
        · rcases List.mem_append.mp hnew with hold | hlast
          · exact Or.inl (Or.inr ⟨n, hold⟩)
          · obtain rfl := List.mem_singleton.mp hlast
            exact Or.inr ⟨rfl, Nat.lt_succ_self _⟩
        · exact Or.inl (Or.inr ⟨m, hold⟩)
    · intro c hc
      rcases Finset.mem_insert.mp hc with rfl | hold
      · exact Or.inr ⟨rfl, Nat.lt_succ_self _⟩
      · exact Or.inl hold
    · intro c hc hno
      exact absurd (Finset.mem_insert_of_mem hc) hno
    · intro p heq
      cases heq
  | some c =>
    refine h.serverChanges hw ?_ (Finset.erase_subset _ _) ?_
    · intro c' hc'
      rcases hc' with ⟨a, ha⟩ | hslot
      · rcases of_update (· = some c') ha with hnew | hold
        · cases hnew
        · exact Or.inl ⟨a, hold⟩
      · exact Or.inr hslot
    · intro c' hc' hno
      have heq : c' = c := by
        by_contra hne
        exact hno (Finset.mem_erase.mpr ⟨hne, hc'⟩)
      rw [heq]
      exact Or.inl ⟨sw.address n, hopen⟩

/-- What one notification does to the window of the server. -/
theorem onClientState_spec (sw : TcpServerWin) (windows : Finset Console)
    (e : TcpServer.ClientState × Nat) :
    (sw.onClientState windows e).1.slots = sw.slots ∧
    (∀ a c, (sw.onClientState windows e).1.client_wins a = some c → sw.client_wins a = some c) ∧
    (sw.onClientState windows e).2 ⊆ windows ∧
    ∀ c ∈ windows, c ∉ (sw.onClientState windows e).2 → ∃ a, sw.client_wins a = some c := by
  have hsame : ∀ c ∈ windows, c ∉ windows → ∃ a, sw.client_wins a = some c :=
    fun c hc hno => absurd hc hno
  obtain ⟨state, n⟩ := e
  cases state with
  | connected => exact ⟨rfl, fun _ _ hc => hc, Finset.Subset.refl _, hsame⟩
  | disconnected =>
    simp only [TcpServerWin.onClientState]
    split
    · next c hopen =>
      refine ⟨rfl, ?_, Finset.erase_subset _ _, ?_⟩
      · intro a c' hc'
        exact (of_update (· = some c') hc').resolve_left fun hnew => by cases hnew
      · intro c' hc' hno
        have heq : c' = c := by
          by_contra hne
          exact hno (Finset.mem_erase.mpr ⟨hne, hc'⟩)
        rw [heq]
        exact ⟨sw.address n, hopen⟩
    · exact ⟨rfl, fun _ _ hc => hc, Finset.Subset.refl _, hsame⟩

/-- And all of them. -/
theorem told_spec (events : List (TcpServer.ClientState × Nat)) (sw : TcpServerWin)
    (windows : Finset Console) :
    let told := events.foldl (fun x e => x.1.onClientState x.2 e) (sw, windows)
    told.1.slots = sw.slots ∧
    (∀ a c, told.1.client_wins a = some c → sw.client_wins a = some c) ∧
    told.2 ⊆ windows ∧ ∀ c ∈ windows, c ∉ told.2 → ∃ a, sw.client_wins a = some c := by
  induction events generalizing sw windows with
  | nil => exact ⟨rfl, fun _ _ hc => hc, Finset.Subset.refl _, fun c hc hno => absurd hc hno⟩
  | cons e events ih =>
    obtain ⟨hslots, hclients, hsub, hclosed⟩ := onClientState_spec sw windows e
    obtain ⟨hslots', hclients', hsub', hclosed'⟩ :=
      ih (sw.onClientState windows e).1 (sw.onClientState windows e).2
    refine ⟨hslots'.trans hslots, fun a c hc => hclients a c (hclients' a c hc),
      hsub'.trans hsub, ?_⟩
    intro c hc hno
    by_cases hfirst : c ∈ (sw.onClientState windows e).2
    · obtain ⟨a, ha⟩ := hclosed' c hfirst hno
      exact ⟨a, hclients a c ha⟩
    · exact hclosed c hc hfirst

/-- A client that has just connected has no slots yet. -/
theorem mentions_withServer {sw : TcpServerWin} {server : TcpServer.Impl} {a : Address}
    {c : Console} (hc : (Win.server (sw.withServer server a)).Mentions c) :
    (Win.server sw).Mentions c := by
  unfold TcpServerWin.withServer at hc
  split at hc
  · rcases hc with hopen | ⟨n, hslot⟩
    · exact Or.inl hopen
    · rcases of_update (c ∈ ·) hslot with hnew | hold
      · cases hnew
      · exact Or.inr ⟨n, hold⟩
  · exact hc

theorem Tracked.notify (h : s.Tracked) {w : Nat} {sw : TcpServerWin} {server : TcpServer.Impl}
    {a : Address} {events : List (TcpServer.ClientState × Nat)} (hw : s.wins w = .server sw) :
    (s.notify w (sw.withServer server a) events).Tracked := by
  obtain ⟨hslots, hclients, hsub, hclosed⟩ := told_spec events (sw.withServer server a) s.windows
  refine h.serverChanges hw ?_ hsub ?_
  · intro c hc
    have hbefore : (Win.server (sw.withServer server a)).Mentions c := by
      rcases hc with ⟨x, hx⟩ | ⟨n, hn⟩
      · exact Or.inl ⟨x, hclients x c hx⟩
      · rw [hslots] at hn
        exact Or.inr ⟨n, hn⟩
    exact mentions_withServer hbefore
  · intro c hc hno
    exact mentions_withServer (Or.inl (hclosed c hc hno))

theorem Tracked.emplace (h : s.Tracked) {win : Win} {current : Option Nat}
    (hcurrent : current = s.current ∨ current = some s.created) (hnone : ∀ c, ¬win.Mentions c)
    (hplain : ∀ p, win = .plain p → p.raw_win = none) :
    Tracked { s.emplace win with current := current } := by
  refine h.changes (w := s.created) rfl (Nat.le_refl _) ?_ (fun c hc => Or.inl hc) ?_ ?_ ?_ ?_ ?_
  · intro c hc
    exact absurd hc (hnone c)
  · intro c hc hno
    exact absurd hc hno
  · intro p heq
    refine ⟨⟨?_, ?_⟩, fun _ => hplain p heq⟩
    · intro c hc
      rw [hplain p heq] at hc
      cases hc
    · intro c hslot
      have hmentions : win.Mentions c := by
        rw [heq]
        exact hslot
      exact absurd hmentions (hnone c)
  · intro w hne
    exact Finset.mem_insert.trans (or_iff_right hne)
  · intro w hle
    have hlt : s.created < w := hle
    exact ⟨Nat.le_of_lt hlt, fun heq => absurd heq (Nat.ne_of_gt hlt)⟩
  · intro w hw
    have hw' : current = some w := hw
    rcases hcurrent with heq | heq
    · rw [heq] at hw'
      exact Finset.mem_insert_of_mem (h.current w hw')
    · obtain rfl := Option.some.inj (heq.symm.trans hw')
      exact Finset.mem_insert_self _ _

theorem Tracked.emplacePlain (h : s.Tracked) (kind : PlainKind) (shared : Bool)
    {current : Option Nat} (hcurrent : current = s.current ∨ current = some s.created) :
    Tracked { s.emplace (.plain (.new kind shared)) with current := current } := by
  refine h.emplace hcurrent ?_ ?_
  · intro c hc
    cases hc
  · intro p heq
    cases heq
    rfl

theorem Tracked.emplaceServer (h : s.Tracked) (opts : TcpServer.Options) {current : Option Nat}
    (hcurrent : current = s.current ∨ current = some s.created) :
    Tracked { s.emplace (.server (.new opts)) with current := current } := by
  refine h.emplace hcurrent ?_ ?_
  · intro c hc
    rcases hc with ⟨a, ha⟩ | ⟨n, hn⟩
    · cases ha
    · cases hn
  · intro p heq
    cases heq

theorem Tracked.trash (h : s.Tracked) {w : Nat} (hC : s.KeepsReceives .trash)
    (hcur : s.current = some w) : (s.trash w).Tracked := by
  have hwins : (s.trash w).wins = Function.update s.wins w (s.wins w).deleted := rfl
  refine h.changes hwins (Nat.le_refl _) ?_
    (fun c hc => Or.inl hc) (fun c hc hno => absurd hc hno) ?_ ?_ ?_ ?_
  · intro c hc
    left
    cases hw : s.wins w with
    | plain p =>
      rw [hw] at hc
      simp only [Win.deleted] at hc
      split at hc
      · exact hc
      · cases hc
    | server sw =>
      rw [hw] at hc
      cases hc
    | gone =>
      rw [hw] at hc
      cases hc
  · intro p' heq
    cases hw : s.wins w with
    | plain p =>
      rw [hw] at heq
      simp only [Win.deleted] at heq
      split at heq
      · next hshared =>
        -- the window has had no console before either
        have hraw := hC w p hcur hw hshared
        obtain ⟨_, honly⟩ := h.plain w p hw
        cases heq
        refine ⟨⟨?_, ?_⟩, fun _ => rfl⟩
        · intro c hc
          cases hc
        · intro c hslot hreg
          rw [← hraw]
          exact honly c hslot hreg
      · cases heq
    | server sw =>
      rw [hw] at heq
      cases heq
    | gone =>
      rw [hw] at heq
      cases heq
  · intro w' hne
    exact Finset.mem_erase.trans (and_iff_right hne)
  · intro w' hle
    refine ⟨hle, fun heq => ?_⟩
    rw [← heq, h.unmade w' hle]
    rfl
  · intro w' hcur'
    cases hcur'

theorem Tracked.new : Gui.new.Tracked where
  plain := fun w p hw => by cases hw
  deleted := fun w p hw => by cases hw
  apart := fun w w' c hm => by cases hm
  mentioned := fun w c hm => by cases hm
  registered := fun c hc => absurd hc (Finset.notMem_empty c)
  unmade := fun _ _ => rfl
  current := fun w hcur => by cases hcur

theorem Tracked.next (h : s.Tracked) {l : Label} (hC : s.KeepsReceives l)
    (hn : s.next l = some s') : s'.Tracked := by
  have hserver : ∀ {w : Nat} {sw : TcpServerWin} (server : TcpServer.Impl),
      s.wins w = .server sw → (s.setServer w sw server).Tracked := by
    intro w sw server hw
    exact h.serverChanges hw (fun _ hc => hc) (Finset.Subset.refl _) fun c hc hno => absurd hc hno
  cases step_of_next hn with
  | add kind => exact h.emplacePlain kind false (Or.inr rfl)
  | addServer opts => exact h.emplaceServer opts (Or.inr rfl)
  | register kind => exact h.emplacePlain kind true (Or.inl rfl)
  | ignored => exact h
  | registerServer => exact h
  | select hw =>
    refine ⟨h.plain, h.deleted, h.apart, h.mentioned, h.registered, h.unmade, fun w' hcur => ?_⟩
    cases hcur
    exact hw
  | console hcur hw => exact h.toggle hcur hw
  | clientConsole hcur hw hmem => exact h.toggleClient hw
  | apply opts os hcur hw => exact hserver _ hw
  | stop hcur hw => exact hserver _ hw
  | start opts os hcur hw => exact hserver _ hw
  | server hw hl hfree hn => exact h.notify hw
  | trash hcur => exact h.trash hC hcur

/-- The console of a window that is deleted stays registered, and its slot
    connected to the connection that somebody else has. -/
theorem Tracked.exact (h : s.Tracked) {l : Label} (hn : s.next l = some s')
    (hlive : s'.ReceivesLive) : s.KeepsReceives l := by
  cases step_of_next hn with
  | @trash w hcur =>
    intro w' p hcur' hw hshared
    obtain rfl := Option.some.inj (hcur.symm.trans hcur')
    cases hraw : p.raw_win with
    | none => rfl
    | some c =>
      obtain ⟨hslot, hreg⟩ := (h.plain w p hw).opened c hraw
      have hdeleted : (s.trash w).wins w = .plain { p with raw_win := none } := by
        show Function.update s.wins w (s.wins w).deleted w = _
        rw [Function.update_self, hw]
        exact if_pos hshared
      have hthere := (hlive w _ c hdeleted hslot (Or.inl hreg)).1
      exact absurd rfl (Finset.mem_erase.mp hthere).1
  | _ => trivial

/-! ### Every run -/

/-- **What comes in is passed to the open console of a window that is there**
    throughout a run exactly when no window with a console is deleted whose
    connection somebody else has. -/
theorem receives_live_iff {s : Gui} (r : Run system s) :
    r.Throughout ReceivesLive ↔ r.EachStep KeepsReceives := by
  apply r.throughout_iff (I := Tracked)
  · intro s hs
    exact hs ▸ .new
  · intro s h
    exact h.receivesLive
  · intro s l s' h hC hn
    exact h.next hC hn
  · intro s l s' h hn hlive
    exact h.exact hn hlive

/-- The window of a serial port that a plugin has is deleted, and its console is
    not. -/
example : (system.exec Gui.new [.register .serial, .select 0, .console, .trash]).map
    (fun s => (decide (0 ∈ s.connections), s.windows, (s.wins 0).slotsOf none)) =
      some (false, {0}, [0]) := by
  decide

end Gui

end DeviceTester
