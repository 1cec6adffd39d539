import DeviceTester.Framework.Pipes
import DeviceTester.RawDataWin
import DeviceTester.ReceiveBuffers

/-! # From the network to the console

  A connection reads into its one buffer, its handler passes on what it finds
  there, and the slot of the open console adds it to what is shown. Here the
  three are put together: a connection with its receive buffer, in a pipe with the
  window that listens to it.

  What has come in from the network is then what the console shows, after what it
  has shown before it was cleared or closed or what has come while there was none,
  and before what waits for its handler: byte for byte and in this order, as long
  as no two reads of the connection get into each other's way.
-/

namespace DeviceTester

open LTS SharedBuffer Pipes

/-! ### What the window does with the bytes -/

namespace ConsoleTab

/-- The chunk that the step adds. -/
def Label.receives : Label → List Bytes
  | .receive d => [d]
  | _ => []

/-- The bytes of the open console. -/
def shown (s : ConsoleTab) : Bytes :=
  match s.win.raw_win with
  | some c => (s.content c).data
  | none => []

/-- What nobody is shown any more after the step. -/
def dropped (s : ConsoleTab) : Label → Bytes
  | .console => s.shown
  | .receive d => if s.win.raw_win.isSome then [] else d
  | .frame f => if s.clears f then s.shown else []

variable {s s' : ConsoleTab}

theorem shown_toggle (s : ConsoleTab) : s.shown ++ s.toggle.shown = s.shown := by
  unfold toggle shown
  cases hraw : s.win.raw_win with
  | none => simp [RawDataWin.new]
  | some c => simp

theorem Inv.shown_receive (h : s.Inv) {d : Bytes} (hn : s.onReceive d = some s') :
    s.dropped (.receive d) ++ s'.shown = s.shown ++ d := by
  rw [h.onReceive d, Option.some.injEq] at hn
  subst hn
  unfold dropped shown
  cases hraw : s.win.raw_win with
  | none => simp
  | some c => simp [RawDataWin.addData]

theorem Inv.shown_drawAll (h : s.Inv) (f : Console → Frame) :
    (s.drawAll f).shown = if s.clears f then [] else s.shown := by
  cases hraw : s.win.raw_win with
  | none =>
    have hnone : (s.drawAll f).win.raw_win = none := hraw
    have hkept : s.clears f = false := by simp [clears, hraw]
    simp [shown, hraw, hnone, hkept]
  | some c =>
    -- the console has what has been received, before the frame and after it
    have hopen : (s.drawAll f).win.raw_win = some c := hraw
    have hafter := (h.drawAll f).data c hopen
    have hbefore := h.data c hraw
    unfold shown
    simp only [hraw, hopen, hafter, hbefore]
    rfl

/-- What is shown after a step is what has been shown and what it adds, less what
    it drops in front. -/
theorem Inv.dropped_append (h : s.Inv) {l : Label} (hn : s.next l = some s') :
    s.dropped l ++ s'.shown = s.shown ++ l.receives.flatten := by
  cases l with
  | console =>
    obtain ⟨_, heq⟩ := Option.ite_none_left_eq_some.mp hn
    obtain rfl := Option.some.inj heq
    exact s.shown_toggle.trans (List.append_nil _).symm
  | receive d =>
    rw [h.shown_receive hn]
    simp [Label.receives]
  | frame f =>
    obtain rfl := Option.some.inj hn
    rw [h.shown_drawAll f]
    unfold dropped
    by_cases hclears : s.clears f = true
    · simp [hclears, Label.receives]
    · simp [hclears, Label.receives]

/-- The open console draws all of its bytes in the memory editor, and all but the
    last one as text. -/
def Draws (s : ConsoleTab) (l : Label) (s' : ConsoleTab) : Prop :=
  ∀ f c b, l = .frame f → s.win.raw_win = some c → s.drawn f c = some b →
    b = if (s'.content c).use_mem_editor then s'.shown else s'.shown.dropLast

theorem Inv.draws (h : s.Inv) {l : Label} (hn : s.next l = some s') : Draws s l s' := by
  intro f c b hl hraw hb
  subst hl
  obtain rfl := Option.some.inj hn
  rw [h.drawn_eq_some hraw] at hb
  obtain ⟨_, hb⟩ := Option.ite_none_right_eq_some.mp hb
  have hshown : (s.drawAll f).shown = ((s.drawAll f).content c).data := by
    have hopen : (s.drawAll f).win.raw_win = some c := hraw
    simp [shown, hopen]
  rw [← Option.some.inj hb, hshown]
  cases heditor : ((s.drawAll f).content c).use_mem_editor with
  | true => exact RawDataWin.draw_memory _ heditor
  | false => exact RawDataWin.draw_text _ heditor

theorem Inv.of_init {s : ConsoleTab} (h : consoleTab.init s) : s.Inv := by
  obtain ⟨kind, shared, rfl⟩ := h
  exact .new kind shared

/-- What has been dropped and what is shown are what has been received. -/
theorem dropped_shown {s : ConsoleTab} (r : Run consoleTab s) :
    r.collect dropped ++ s.shown = (r.collect fun _ l => l.receives).flatten := by
  rw [← Run.collect_flatten]
  refine Run.conservation (I := Inv) ?_ ?_ ?_ r
  · intro s hs
    refine ⟨Inv.of_init hs, ?_⟩
    obtain ⟨kind, shared, rfl⟩ := hs
    rfl
  · intro s l s' h hn
    exact h.next hn
  · intro s l s' h hn
    exact h.dropped_append hn

end ConsoleTab

/-! ### A connection and its window -/

variable {State Label : Type} {sys : System State Label}

/-- What the handlers pass on is given to the window. -/
def console (R : Reads sys UInt8) : Pipe R.buffered consoleTab Bytes where
  out := R.reading
  take := .receive
  taken := ConsoleTab.Label.receives
  taken_take := fun _ => rfl

/-- What has come in from the network. -/
def arrivals (R : Reads sys UInt8) {s : Buffered State UInt8 × ConsoleTab}
    (r : Run (console R).system s) : List Bytes :=
  ((console R).source.run r).collect fun b l => (R.arrives b.state l).toList

structure ReachesConsole (R : Reads sys UInt8) {s : Buffered State UInt8 × ConsoleTab}
    (r : Run (console R).system s) : Prop where
  /-- What is shown is what has come in, from what has been cleared, closed or not
      been taken by anybody to what waits for its handler. -/
  bytes : ((console R).sink.run r).collect ConsoleTab.dropped ++ s.2.shown ++
    (R.waiting s.1.state).flatten = (arrivals R r).flatten
  draws : r.Ensures fun s l s' => ∀ l', l = .inr l' → ConsoleTab.Draws s.2 l' s'.2
  /-- The window never holds up the connection. -/
  taken : ∀ l, (R.buffered.next s.1 l).isSome = true →
    ((console R).system.next s (.inl l)).isSome = true

/-- What each handler of a connection gets reaches the console, if it is its own. -/
theorem reachesConsole_of_passesAll (R : Reads sys UInt8)
    {s : Buffered State UInt8 × ConsoleTab} (r : Run (console R).system s)
    (h : R.PassesAll ((console R).source.run r)) : ReachesConsole R r := by
  have hstep : ∀ b l b', ConsoleTab.Inv b → consoleTab.next b l = some b' → b'.Inv :=
    fun b l b' hI hn => hI.next hn
  constructor
  case bytes =>
    have hwindow := ConsoleTab.dropped_shown ((console R).sink.run r)
    have hpassed : s.1.passed = ((console R).source.run r).collect R.reading :=
      Reads.passed_eq _
    have htaken := (console R).collect_taken r
    have hall := h.all
    calc ((console R).sink.run r).collect ConsoleTab.dropped ++ s.2.shown ++
          (R.waiting s.1.state).flatten
        = s.1.passed.flatten ++ (R.waiting s.1.state).flatten := by
          rw [hpassed]
          exact congrArg (· ++ _) (hwindow.trans (congrArg List.flatten htaken))
      _ = (s.1.passed ++ R.waiting s.1.state).flatten := List.flatten_append.symm
      _ = (arrivals R r).flatten := congrArg List.flatten hall
  case draws =>
    exact (console R).sink_ensures (fun _ hb => ConsoleTab.Inv.of_init hb) hstep
      (fun _ _ _ hI hn => hI.draws hn) r
  case taken =>
    intro l hl
    have hI : s.2.Inv :=
      ((console R).sink.run r).invariant (fun _ hb => ConsoleTab.Inv.of_init hb) hstep
    apply (console R).takes_all hstep _ hI hl
    intro b d hb
    show (b.onReceive d).isSome = true
    rw [hb.onReceive d]
    rfl

/-! ### The connections -/

/-- **What comes in from the network is what is shown**: for a UDP connection in
    every run, for a TCP client and a serial port in the runs where no connect
    and no open finds a read still going on. -/
theorem arrivals_shown {Address : Type} (make_address : String → Option Address) :
    (∀ s (r : Run (console (UdpConnection.reads make_address)).system s), ReachesConsole _ r) ∧
    (∀ s (r : Run (console TcpClient.reads).system s),
      (r.EachStep fun s l => Pipe.atSource (fun b l => b.state.connectsQuiet l) s l = true) →
      ReachesConsole _ r) ∧
    (∀ s (r : Run (console Serial.bufferReads).system s),
      (r.EachStep fun s l => Pipe.atSource (fun b l => b.state.opensQuiet l) s l = true) →
      ReachesConsole _ r) := by
  refine ⟨fun s r => ?_, fun s r h => ?_, fun s r h => ?_⟩
  · apply reachesConsole_of_passesAll
    apply Reads.passes_all_of_alone
    intro s l s' hI hn
    exact UdpConnection.arrives_alone hI hn
  · apply reachesConsole_of_passesAll
    exact TcpClient.passes_all_of_quiet _ ((console _).source_eachStep r h)
  · apply reachesConsole_of_passesAll
    exact Serial.passes_all_of_quiet _ ((console _).source_eachStep r h)

/-- Three chunks come in over TCP, and three over a serial port, the last of them
    when the connection has been closed and opened again, and are shown in order. -/
theorem arrivals_shown_in_order :
    (∃ s, ∃ r : Run (console TcpClient.reads).system s,
      s.2.shown = [7, 8, 9, 10] ∧ ReachesConsole _ r) ∧
    ∃ s, ∃ r : Run (console Serial.bufferReads).system s,
      s.2.shown = [7, 8, 9, 10] ∧ ReachesConsole _ r := by
  obtain ⟨_, htcp, hserial⟩ := arrivals_shown fun _ => (none : Option Unit)
  constructor
  · let receive : Bytes → List TcpClient.Label := fun chunk =>
      [.receiveFinish 0 (.ok chunk), .receiveDeliver 0]
    let again : List TcpClient.Label :=
      [.disconnect, .receiveDeliver 0] ++ TcpClient.connectLabels
    obtain ⟨s, r, hquiet, hs⟩ := Run.exists_of_check (console TcpClient.reads).system
      (s := (⟨TcpClient.Impl.new, [], []⟩, .new .tcp false)) ⟨⟨rfl, rfl⟩, _, _, rfl⟩
      (.inr .console :: (TcpClient.connectLabels ++ receive [7, 8] ++ receive [9] ++ again ++
        receive [10]).map .inl)
      (Pipe.atSource fun b l => b.state.connectsQuiet l)
      (fun s => decide (s.2.shown = [7, 8, 9, 10])) (by decide)
    exact ⟨s, r, of_decide_eq_true hs, htcp s r hquiet⟩
  · -- the strand runs the read handler and the read it posts
    let read : Bytes → List Serial.Label := fun chunk =>
      [.readFinish 0 (.ok chunk), .readDeliver 0, .run fun _ => true, .run fun _ => true]
    let again : List Serial.Label :=
      [.closing, .run fun _ => true, .readDeliver 0, .run fun _ => true] ++ Serial.openAndRun
    obtain ⟨s, r, hquiet, hs⟩ := Run.exists_of_check (console Serial.bufferReads).system
      (s := (⟨Serial.Impl.new ⟨"", 0, 8, .none, .none, .one⟩, [], []⟩, .new .serial false))
      ⟨⟨⟨_, rfl⟩, rfl⟩, _, _, rfl⟩
      (.inr .console :: (Serial.openAndRun ++ read [7, 8] ++ read [9] ++ again ++
        read [10]).map .inl)
      (Pipe.atSource fun b l => b.state.opensQuiet l)
      (fun s => decide (s.2.shown = [7, 8, 9, 10])) (by decide)
    exact ⟨s, r, of_decide_eq_true hs, hserial s r hquiet⟩

end DeviceTester
