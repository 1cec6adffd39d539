import DeviceTester.ConnectionWindows
import DeviceTester.Framework.Views

/-! # What a console shows

  `RawDataWin` of `gui-libcon/src/raw_data_win.cpp`, and the window of a serial
  port, a TCP client or a UDP connection that opens and closes it. Each chunk
  the connection receives is added once, by the slot of the open console.

  In each frame the console draws what it has, in a memory editor or as text.
  As text it leaves out the last byte: `TextUnformatted` draws up to its second
  argument, which is the address of that byte. So a console shows what has been
  received in the memory editor, and while there is nothing to show
  (`console_shows_iff`).
-/

namespace DeviceTester

open LTS

/-! ### The console -/

structure RawDataWin where
  data : Bytes
  use_mem_editor : Bool
  visible : Bool
  deriving DecidableEq, Repr

/-- What is clicked on in the popup "Options". -/
structure Clicks where
  clear : Bool
  memory_editor : Bool
  deriving DecidableEq, Repr

/-- What `Begin` and the user do to a window in one frame. -/
structure Frame where
  /-- The button in the title bar is clicked on. -/
  closed : Bool
  /-- `Begin` returns true: the window is not collapsed. -/
  begun : Bool
  /-- The popup, when it is open. -/
  options : Option Clicks
  deriving DecidableEq, Repr

/-- The bytes from `text` up to `text_end`. -/
def textUnformatted (data : Bytes) (text text_end : Nat) : Bytes :=
  (data.drop text).take (text_end - text)

/-- The first `mem_size` bytes. -/
def drawContents (data : Bytes) (mem_size : Nat) : Bytes := data.take mem_size

namespace RawDataWin

def new : RawDataWin where
  data := []
  use_mem_editor := true
  visible := true

def addData (w : RawDataWin) (data : Bytes) : RawDataWin := { w with data := w.data ++ data }

def options (w : RawDataWin) (c : Clicks) : RawDataWin :=
  let w := if c.clear then { w with data := [] } else w
  if c.memory_editor then { w with use_mem_editor := !w.use_mem_editor } else w

/-- What the scrolling region draws. -/
def draw (w : RawDataWin) : Bytes :=
  if w.data.length > 0 then
    -- the end of the text is the address of the last byte
    if !w.use_mem_editor then textUnformatted w.data 0 (w.data.length - 1)
    else drawContents w.data w.data.length
  else []

/-- The popup comes before the scrolling region. -/
def updateContent (w : RawDataWin) (options : Option Clicks) : RawDataWin × Bytes :=
  match options with
  | some c => (w.options c, (w.options c).draw)
  | none => (w, w.draw)

/-- `Window::update`, with what is drawn if it comes to that. -/
def update (w : RawDataWin) (f : Frame) : RawDataWin × Option Bytes :=
  if !w.visible then (w, none)
  else
    -- a window that is closed is drawn once more
    let w := if f.closed then { w with visible := false } else w
    if !f.begun then (w, none)
    else ((w.updateContent f.options).1, some (w.updateContent f.options).2)

end RawDataWin

/-! ### The window that opens it -/

/-- The window of a connection with its consoles. -/
structure ConsoleTab where
  win : PlainWin
  /-- The consoles among `windows_` of the `WindowManager`. -/
  windows : Finset Console
  /-- How many consoles have been made. -/
  consoles : Nat
  content : Console → RawDataWin
  /-- Not part of the program: what the connection has received since the
      console was opened or cleared last. -/
  since : Bytes

namespace ConsoleTab

def new (kind : PlainKind) (shared : Bool) : ConsoleTab where
  win := .new kind shared
  windows := ∅
  consoles := 0
  content := fun _ => .new
  since := []

/-- The check box "Console" of the details tab. -/
def toggle (s : ConsoleTab) : ConsoleTab :=
  match s.win.raw_win with
  | none =>
      { win := { s.win with raw_win := some s.consoles, slots := s.win.slots ++ [s.consoles] }
        windows := insert s.consoles s.windows
        consoles := s.consoles + 1
        content := Function.update s.content s.consoles .new
        since := [] }
  | some c => { s with win := { s.win with raw_win := none }, windows := s.windows.erase c }

/-- There is a pointer to the console that keeps it. -/
def alive (s : ConsoleTab) (c : Console) : Bool :=
  decide (c ∈ s.windows) || decide (s.win.raw_win = some c)

/-- The slot calls `addData` on whatever `raw_win_` points to by then, and with
    `none` on nothing. -/
def slot (s : ConsoleTab) (d : Bytes) : Option ConsoleTab :=
  s.win.raw_win.map fun c =>
    { s with content := Function.update s.content c ((s.content c).addData d) }

/-- A slot whose console is no more is not called. -/
def onReceive (s : ConsoleTab) (d : Bytes) : Option ConsoleTab :=
  (s.win.slots.filter s.alive).foldlM (fun s _ => s.slot d) { s with since := s.since ++ d }

/-- What a console draws in a frame. -/
def drawn (s : ConsoleTab) (f : Console → Frame) (c : Console) : Option Bytes :=
  if c ∈ s.windows then ((s.content c).update (f c)).2 else none

/-- "Clear" is clicked on in the popup of the open console. -/
def clears (s : ConsoleTab) (f : Console → Frame) : Bool :=
  match s.win.raw_win with
  | some c => (s.drawn f c).isSome && (f c).options.any (·.clear)
  | none => false

def drawAll (s : ConsoleTab) (f : Console → Frame) : ConsoleTab :=
  { s with
    content := fun c => if c ∈ s.windows then ((s.content c).update (f c)).1 else s.content c
    since := if s.clears f then [] else s.since }

inductive Label where
  /-- The check box. -/
  | console
  | receive (d : Bytes)
  | frame (f : Console → Frame)

def next (s : ConsoleTab) : Label → Option ConsoleTab
  | .console => if s.win.kind = .coap then none else some s.toggle
  | .receive d => s.onReceive d
  | .frame f => some (s.drawAll f)

end ConsoleTab

/-- The system of a window, with no console at the beginning. -/
def consoleTab : System ConsoleTab ConsoleTab.Label where
  init := fun s => ∃ kind shared, s = ConsoleTab.new kind shared
  next := ConsoleTab.next

/-! ### The property -/

namespace ConsoleTab

/-- What the open console draws is what has been received since it was opened
    or cleared last. -/
def ShowsReceived (s : ConsoleTab) (l : Label) (s' : ConsoleTab) : Prop :=
  ∀ f c b, l = .frame f → s.win.raw_win = some c → s.drawn f c = some b → b = s'.since

/-- The open console would draw the same in both views. -/
def ViewsAgree (s : ConsoleTab) (l : Label) (s' : ConsoleTab) : Prop :=
  ∀ f c b, l = .frame f → s.win.raw_win = some c → s.drawn f c = some b →
    RawDataWin.draw { s'.content c with use_mem_editor := false } =
      RawDataWin.draw { s'.content c with use_mem_editor := true }

end ConsoleTab

namespace RawDataWin

/-- There is something to show in the frame. -/
def shows (w : RawDataWin) (f : Frame) : Bool :=
  w.visible && f.begun && !w.data.isEmpty && !f.options.any (·.clear)

/-- The frame draws text: the check box of the memory editor is clear, or is
    cleared in the frame. -/
def inText (w : RawDataWin) (f : Frame) : Bool :=
  w.use_mem_editor == f.options.any (·.memory_editor)

end RawDataWin

namespace ConsoleTab

/-- No frame shows anything as text. -/
def showsInEditor (s : ConsoleTab) : Label → Prop
  | .frame f =>
      ∀ c, s.win.raw_win = some c → (s.content c).shows (f c) = true →
        (s.content c).inText (f c) = false
  | _ => True

/-- No frame shows anything. -/
def showsNothing (s : ConsoleTab) : Label → Prop
  | .frame f => ∀ c, s.win.raw_win = some c → (s.content c).shows (f c) = false
  | _ => True

end ConsoleTab

/-! ### One frame of a console -/

namespace RawDataWin

/-- As text, the last byte is left out. -/
theorem draw_text (w : RawDataWin) (h : w.use_mem_editor = false) : w.draw = w.data.dropLast := by
  unfold draw textUnformatted
  by_cases hpos : w.data.length > 0
  · rw [if_pos hpos, h]
    simp [List.dropLast_eq_take]
  · have hnil : w.data = [] := List.eq_nil_of_length_eq_zero (by omega)
    simp [hnil]

theorem draw_memory (w : RawDataWin) (h : w.use_mem_editor = true) : w.draw = w.data := by
  unfold draw drawContents
  by_cases hpos : w.data.length > 0
  · rw [if_pos hpos, h]
    simp
  · have hnil : w.data = [] := List.eq_nil_of_length_eq_zero (by omega)
    simp [hnil]

theorem dropLast_eq_self {data : Bytes} : data.dropLast = data ↔ data = [] := by
  constructor
  · intro h
    have hlen := congrArg List.length h
    rw [List.length_dropLast] at hlen
    exact List.eq_nil_of_length_eq_zero (by omega)
  · intro h
    rw [h]
    rfl

theorem draw_eq_data_iff (w : RawDataWin) :
    w.draw = w.data ↔ (w.data ≠ [] → w.use_mem_editor = true) := by
  cases h : w.use_mem_editor with
  | true =>
    rw [w.draw_memory h]
    simp
  | false =>
    rw [w.draw_text h, dropLast_eq_self]
    simp

@[simp] theorem options_data (w : RawDataWin) (c : Clicks) :
    (w.options c).data = if c.clear then [] else w.data := by
  unfold options
  by_cases hclear : c.clear = true
  · by_cases heditor : c.memory_editor = true <;> simp [hclear, heditor]
  · by_cases heditor : c.memory_editor = true <;> simp [hclear, heditor]

@[simp] theorem options_use_mem_editor (w : RawDataWin) (c : Clicks) :
    (w.options c).use_mem_editor = (w.use_mem_editor != c.memory_editor) := by
  unfold options
  by_cases hclear : c.clear = true
  · by_cases heditor : c.memory_editor = true <;> simp [hclear, heditor]
  · by_cases heditor : c.memory_editor = true <;> simp [hclear, heditor]

/-- The scrolling region draws what the popup has left. -/
theorem updateContent_eq (w : RawDataWin) (o : Option Clicks) :
    (w.updateContent o).2 = (w.updateContent o).1.draw ∧
    (w.updateContent o).1.data = (if o.any (·.clear) then [] else w.data) ∧
    (w.updateContent o).1.use_mem_editor = (w.use_mem_editor != o.any (·.memory_editor)) := by
  cases o with
  | none => simp [updateContent]
  | some c => simp [updateContent]

/-- A window that is hidden or collapsed draws nothing and keeps its bytes. -/
theorem update_hidden {w : RawDataWin} {f : Frame} (h : (w.visible && f.begun) = false) :
    (w.update f).2 = none ∧ (w.update f).1.data = w.data := by
  unfold update
  by_cases hvisible : w.visible = true
  · have hbegun : f.begun = false := by simpa [hvisible] using h
    by_cases hclosed : f.closed = true <;> simp [hvisible, hbegun, hclosed]
  · simp [hvisible]

theorem update_drawn {w : RawDataWin} {f : Frame} (h : (w.visible && f.begun) = true) :
    (w.update f).2 = some (w.update f).1.draw ∧
    (w.update f).1.data = (if f.options.any (·.clear) then [] else w.data) ∧
    (w.update f).1.use_mem_editor = (w.use_mem_editor != f.options.any (·.memory_editor)) := by
  obtain ⟨hvisible, hbegun⟩ := Bool.and_eq_true_iff.mp h
  unfold update
  by_cases hclosed : f.closed = true
  · obtain ⟨hdraw, hdata, heditor⟩ := updateContent_eq { w with visible := false } f.options
    simp [hvisible, hbegun, hclosed, hdraw, hdata, heditor]
  · obtain ⟨hdraw, hdata, heditor⟩ := updateContent_eq w f.options
    simp [hvisible, hbegun, hclosed, hdraw, hdata, heditor]

/-- What is drawn is all there is, in the editor or when there is nothing. -/
theorem update_draw_eq_data_iff {w : RawDataWin} {f : Frame} (h : (w.visible && f.begun) = true) :
    (w.update f).1.draw = (w.update f).1.data ↔ (w.shows f = true → w.inText f = false) := by
  obtain ⟨_, hdata, heditor⟩ := w.update_drawn h
  rw [draw_eq_data_iff, hdata, heditor]
  unfold shows inText
  rw [h]
  -- the popup may clear the bytes and change the view in the same frame
  cases f.options.any (·.clear) <;> cases w.use_mem_editor <;>
    cases f.options.any (·.memory_editor) <;> simp

/-- The two views of what there is differ unless there is nothing. -/
theorem views_agree_iff (w : RawDataWin) :
    draw { w with use_mem_editor := false } = draw { w with use_mem_editor := true } ↔
      w.data = [] := by
  rw [draw_text _ rfl, draw_memory _ rfl]
  exact dropLast_eq_self

theorem update_data_eq_nil_iff {w : RawDataWin} {f : Frame} (h : (w.visible && f.begun) = true) :
    (w.update f).1.data = [] ↔ w.shows f = false := by
  obtain ⟨_, hdata, _⟩ := w.update_drawn h
  rw [hdata]
  unfold shows
  rw [h]
  cases f.options.any (·.clear) <;> simp

end RawDataWin

/-! ### The slots -/

namespace ConsoleTab

/-- The consoles as views of one place, whose slots capture nothing. -/
def views (s : ConsoleTab) : Views Unit Console where
  registered := s.windows
  view := fun _ => s.win.raw_win
  slots := fun _ => s.win.slots
  captures := fun _ => false

/-- The open console has received what there was to receive, and its slot is
    the only one left. -/
structure Inv (s : ConsoleTab) : Prop where
  sound : s.views.Sound
  fresh : ∀ c, s.consoles ≤ c → s.views.Fresh c
  data : ∀ c, s.win.raw_win = some c → (s.content c).data = s.since

variable {s s' : ConsoleTab}

theorem alive_iff {c : Console} : s.alive c = true ↔ s.views.Held c := by
  unfold alive Views.Held views
  simp

/-- The open console is drawn. -/
theorem Inv.mem_windows (h : s.Inv) {c : Console} (hraw : s.win.raw_win = some c) :
    c ∈ s.windows :=
  (h.sound.registered c).mpr ⟨(), hraw⟩

theorem Inv.mem_connected (h : s.Inv) {c : Console} :
    c ∈ s.win.slots.filter s.alive ↔ s.win.raw_win = some c := by
  rw [List.mem_filter, alive_iff]
  exact (h.sound.connected ()).2 c

/-- One slot is called while a console is open, and none otherwise. -/
theorem Inv.connected (h : s.Inv) : s.win.slots.filter s.alive = s.win.raw_win.toList := by
  have hnodup : (s.win.slots.filter s.alive).Nodup := (h.sound.connected ()).1.filter _
  -- the slots of consoles that were closed are still there, but nothing keeps their consoles
  cases hraw : s.win.raw_win with
  | none =>
    apply List.eq_nil_iff_forall_not_mem.mpr
    intro c hc
    have hopen := h.mem_connected.mp hc
    rw [hraw] at hopen
    cases hopen
  | some c =>
    have hperm : (s.win.slots.filter s.alive).Perm [c] := by
      rw [List.perm_ext_iff_of_nodup hnodup (List.nodup_singleton c)]
      intro x
      rw [h.mem_connected, hraw, List.mem_singleton, Option.some.injEq, eq_comm]
    exact List.perm_singleton.mp hperm

/-- A chunk is added to the open console, once. -/
theorem Inv.onReceive (h : s.Inv) (d : Bytes) :
    s.onReceive d = some { s with
      since := s.since ++ d
      content := match s.win.raw_win with
        | some c => Function.update s.content c ((s.content c).addData d)
        | none => s.content } := by
  unfold ConsoleTab.onReceive
  rw [h.connected]
  cases hraw : s.win.raw_win with
  | none => rfl
  | some c => simp [slot, hraw]

/-! ### The steps -/

theorem Inv.new (kind : PlainKind) (shared : Bool) : (ConsoleTab.new kind shared).Inv where
  sound := by
    refine ⟨⟨fun c => ?_, fun p => ⟨List.nodup_nil, fun c => ?_⟩⟩, fun p q c hp => by cases hp⟩
    · simp [views, ConsoleTab.new, PlainWin.new]
    · simp [views, ConsoleTab.new, PlainWin.new]
  fresh := by
    intro c _
    simp [Views.Fresh, views, ConsoleTab.new, PlainWin.new]
  data := by
    intro c hc
    cases hc

theorem Inv.toggle (h : s.Inv) : s.toggle.Inv := by
  unfold ConsoleTab.toggle
  -- the slots of the program are those of the abstract views, which starting and closing keep
  cases hraw : s.win.raw_win with
  | none =>
    have hstart : views
        { win := { s.win with
            raw_win := some s.consoles, slots := s.win.slots ++ [s.consoles] }
          windows := insert s.consoles s.windows
          consoles := s.consoles + 1
          content := Function.update s.content s.consoles .new
          since := [] } = s.views.start () s.consoles := by
      refine Views.ext rfl ?_ ?_ rfl
      · funext p
        simp [views, Views.start]
      · funext p
        simp [views, Views.start]
    constructor
    case sound =>
      rw [hstart]
      exact h.sound.start hraw (h.fresh _ (Nat.le_refl s.consoles))
    case fresh =>
      intro c hc
      have hlt : s.consoles < c := hc
      rw [hstart]
      exact (h.fresh c (Nat.le_of_lt hlt)).start (Nat.ne_of_gt hlt)
    case data =>
      intro c hc
      have hnew : s.consoles = c := Option.some.inj hc
      subst hnew
      simp [RawDataWin.new]
  | some c =>
    have hclose : views { s with
        win := { s.win with raw_win := none }, windows := s.windows.erase c } =
        s.views.close () c := by
      refine Views.ext rfl ?_ rfl rfl
      funext p
      simp [views, Views.close]
    constructor
    case sound =>
      rw [hclose]
      exact h.sound.close hraw rfl
    case fresh =>
      intro c' hc'
      rw [hclose]
      exact (h.fresh c' hc').close
    case data =>
      intro c' hc'
      cases hc'

/-- The contents of the consoles and what has been received do not concern the
    slots. -/
theorem Inv.contents (h : s.Inv) (content : Console → RawDataWin) (since : Bytes)
    (hdata : ∀ c, s.win.raw_win = some c → (content c).data = since) :
    Inv { s with content := content, since := since } where
  sound := h.sound
  fresh := h.fresh
  data := hdata

theorem Inv.receive (h : s.Inv) {d : Bytes} (hn : s.onReceive d = some s') : s'.Inv := by
  rw [h.onReceive d, Option.some.injEq] at hn
  subst hn
  apply h.contents
  intro c hraw
  rw [hraw]
  simp [RawDataWin.addData, h.data c hraw]

/-- What a frame leaves in the open console, and what it draws of it. -/
theorem Inv.frame (h : s.Inv) (f : Console → Frame) {c : Console} (hraw : s.win.raw_win = some c) :
    ((s.drawAll f).content c = ((s.content c).update (f c)).1) ∧
    s.drawn f c = ((s.content c).update (f c)).2 ∧
    (s.drawAll f).since = ((s.content c).update (f c)).1.data := by
  have hreg := h.mem_windows hraw
  have hdrawn : s.drawn f c = ((s.content c).update (f c)).2 := if_pos hreg
  refine ⟨if_pos hreg, hdrawn, ?_⟩
  show (if s.clears f then [] else s.since) = _
  unfold clears
  rw [hraw]
  simp only [hdrawn]
  -- a popup can only be clicked on in a window that is drawn
  cases hopen : (s.content c).visible && (f c).begun with
  | false =>
    obtain ⟨hnone, hdata⟩ := RawDataWin.update_hidden hopen
    simp [hnone, hdata, h.data c hraw]
  | true =>
    obtain ⟨hsome, hdata, _⟩ := RawDataWin.update_drawn hopen
    simp [hsome, hdata, h.data c hraw]

theorem Inv.drawAll (h : s.Inv) (f : Console → Frame) : (s.drawAll f).Inv := by
  apply h.contents
  intro c hraw
  obtain ⟨hcontent, _, hsince⟩ := h.frame f hraw
  exact (congrArg RawDataWin.data hcontent).trans hsince.symm

theorem Inv.next (h : s.Inv) {l : Label} (hn : s.next l = some s') : s'.Inv := by
  cases l with
  | console =>
    obtain ⟨_, heq⟩ := Option.ite_none_left_eq_some.mp hn
    exact Option.some.inj heq ▸ h.toggle
  | receive d => exact h.receive hn
  | frame f => exact Option.some.inj hn ▸ h.drawAll f

/-- A frame in which the open console is drawn. -/
theorem Inv.drawn_eq_some (h : s.Inv) {f : Console → Frame} {c : Console}
    (hraw : s.win.raw_win = some c) :
    s.drawn f c = (if (s.content c).visible && (f c).begun
      then some ((s.drawAll f).content c).draw else none) := by
  obtain ⟨hcontent, hdrawn, _⟩ := h.frame f hraw
  rw [hdrawn, hcontent]
  cases hopen : (s.content c).visible && (f c).begun with
  | false => exact (RawDataWin.update_hidden hopen).1
  | true => exact (RawDataWin.update_drawn hopen).1

/-- What is not drawn shows nothing. -/
theorem shows_of_hidden {w : RawDataWin} {f : Frame} (h : (w.visible && f.begun) = false) :
    w.shows f = false := by
  unfold RawDataWin.shows
  rw [h]
  rfl

/-- A step that is no frame draws nothing. -/
theorem showsReceived_of_not_frame {l : Label} (hl : ∀ f, l ≠ .frame f) : ShowsReceived s l s' :=
  fun f _ _ heq => absurd heq (hl f)

theorem viewsAgree_of_not_frame {l : Label} (hl : ∀ f, l ≠ .frame f) : ViewsAgree s l s' :=
  fun f _ _ heq => absurd heq (hl f)

theorem Inv.showsReceived_iff (h : s.Inv) {l : Label} (hn : s.next l = some s') :
    ShowsReceived s l s' ↔ s.showsInEditor l := by
  cases l with
  | console => exact iff_of_true (showsReceived_of_not_frame (by intro f hf; cases hf)) trivial
  | receive d => exact iff_of_true (showsReceived_of_not_frame (by intro f hf; cases hf)) trivial
  | frame f =>
    obtain rfl := Option.some.inj hn
    -- what the console draws is what its own frame leaves in it
    constructor
    · intro hR c hraw hshows
      obtain ⟨hcontent, _, hsince⟩ := h.frame f hraw
      have hopen : ((s.content c).visible && (f c).begun) = true := by
        by_contra hhidden
        rw [shows_of_hidden (Bool.eq_false_iff.mpr hhidden)] at hshows
        cases hshows
      have hdrawn := h.drawn_eq_some (f := f) hraw
      rw [if_pos hopen] at hdrawn
      have heq := hR f c _ rfl hraw hdrawn
      rw [hcontent, hsince] at heq
      exact (RawDataWin.update_draw_eq_data_iff hopen).mp heq hshows
    · intro hC g c b hg hraw hdrawn
      cases hg
      obtain ⟨hcontent, _, hsince⟩ := h.frame f hraw
      rw [h.drawn_eq_some hraw] at hdrawn
      obtain ⟨hopen, heq⟩ := Option.ite_none_right_eq_some.mp hdrawn
      rw [← Option.some.inj heq, hcontent, hsince]
      exact (RawDataWin.update_draw_eq_data_iff hopen).mpr (hC c hraw)

theorem Inv.viewsAgree_iff (h : s.Inv) {l : Label} (hn : s.next l = some s') :
    ViewsAgree s l s' ↔ s.showsNothing l := by
  cases l with
  | console => exact iff_of_true (viewsAgree_of_not_frame (by intro f hf; cases hf)) trivial
  | receive d => exact iff_of_true (viewsAgree_of_not_frame (by intro f hf; cases hf)) trivial
  | frame f =>
    obtain rfl := Option.some.inj hn
    constructor
    · intro hR c hraw
      obtain ⟨hcontent, _, _⟩ := h.frame f hraw
      -- a console that is not drawn agrees with anything
      cases hopen : (s.content c).visible && (f c).begun with
      | false => exact shows_of_hidden hopen
      | true =>
        have hdrawn := h.drawn_eq_some (f := f) hraw
        rw [if_pos hopen] at hdrawn
        have hagree := hR f c _ rfl hraw hdrawn
        rw [RawDataWin.views_agree_iff, hcontent] at hagree
        exact (RawDataWin.update_data_eq_nil_iff hopen).mp hagree
    · intro hC g c b hg hraw hdrawn
      cases hg
      obtain ⟨hcontent, _, _⟩ := h.frame f hraw
      rw [h.drawn_eq_some hraw] at hdrawn
      obtain ⟨hopen, _⟩ := Option.ite_none_right_eq_some.mp hdrawn
      rw [RawDataWin.views_agree_iff, hcontent]
      exact (RawDataWin.update_data_eq_nil_iff hopen).mpr (hC c hraw)

theorem showsInEditor_of_showsNothing {l : Label} (h : s.showsNothing l) : s.showsInEditor l := by
  cases l with
  | frame f =>
    intro c hraw hshows
    rw [h c hraw] at hshows
    cases hshows
  | _ => trivial

/-- The check box does to the windows of the program what it does in the model
    of all of them. -/
theorem toggle_gui (s : ConsoleTab) {g : Gui} (w : Nat) (hwindows : g.windows = s.windows)
    (hconsoles : g.consoles = s.consoles) :
    (g.toggle w s.win).wins w = .plain s.toggle.win ∧
    (g.toggle w s.win).windows = s.toggle.windows ∧
    (g.toggle w s.win).consoles = s.toggle.consoles := by
  unfold Gui.toggle ConsoleTab.toggle
  cases hraw : s.win.raw_win with
  | none => simp [Gui.setWin, hwindows, hconsoles]
  | some c => simp [Gui.setWin, hwindows, hconsoles]

end ConsoleTab

/-! ### The frames of a run -/

/-- **A console shows exactly what has been received** in all frames of a run
    exactly when each frame that shows anything is drawn by the memory editor.
    Its two views are never the same but when there is nothing to show. Every
    chunk that is received is taken. -/
theorem console_shows_iff {s : ConsoleTab} (r : Run consoleTab s) :
    (r.Ensures (fun s l s' => s.ShowsReceived l s' ∧ s.ViewsAgree l s') ↔
      r.EachStep ConsoleTab.showsNothing) ∧
    (r.Ensures ConsoleTab.ShowsReceived ↔ r.EachStep ConsoleTab.showsInEditor) ∧
    (r.Throughout fun s => ∀ d, (s.onReceive d).isSome = true) := by
  have hinit : ∀ s, consoleTab.init s → s.Inv := by
    intro s hs
    obtain ⟨kind, shared, rfl⟩ := hs
    exact .new kind shared
  have hstep : ∀ s l s', ConsoleTab.Inv s → consoleTab.next s l = some s' → s'.Inv :=
    fun s l s' h hn => h.next hn
  refine ⟨?_, ?_, ?_⟩
  · apply Run.ensures_iff hinit (fun s l s' h _ hn => hstep s l s' h hn)
    intro s l s' h hn
    rw [h.viewsAgree_iff hn, h.showsReceived_iff hn]
    -- where the views agree there is nothing to show, and then all of it is shown
    constructor
    · intro hboth
      exact hboth.2
    · intro hnothing
      exact ⟨ConsoleTab.showsInEditor_of_showsNothing hnothing, hnothing⟩
  · apply Run.ensures_iff hinit (fun s l s' h _ hn => hstep s l s' h hn)
    intro s l s' h hn
    exact h.showsReceived_iff hn
  · apply (r.always hinit hstep).mono
    intro s h d
    rw [h.onReceive d]
    rfl

/-- The console of a serial port is switched to text after two bytes have come
    in, and draws the first one. -/
theorem last_byte_not_drawn :
    ∃ (s : ConsoleTab) (r : Run consoleTab s), ¬ r.Ensures ConsoleTab.ShowsReceived := by
  apply Run.exists_not_ensures consoleTab ⟨.serial, false, rfl⟩
    [.console, .receive [0x41, 0x42]] (.frame fun _ => ⟨false, true, some ⟨false, true⟩⟩)
    (fun s s' => decide (s.win.raw_win = some 0) && decide (s'.since = [0x41, 0x42]) &&
      decide (s.drawn (fun _ => ⟨false, true, some ⟨false, true⟩⟩) 0 = some [0x41]))
  · intro s s' hv hR
    simp only [Bool.and_eq_true, decide_eq_true_eq] at hv
    have hall := hR _ 0 _ rfl hv.1.1 hv.2
    rw [hv.1.2] at hall
    cases hall
  · decide

end DeviceTester
