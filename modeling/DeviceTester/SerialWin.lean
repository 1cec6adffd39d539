import DeviceTester.Serial

/-! # The settings of the serial window

  `SerialWin` of `gui-libcon/src/serial_win.cpp`. The window keeps a copy of the
  options, taken when it is made, and its settings tab edits that copy. The
  button "Connect" opens the connection with the options the connection has:
  nothing takes the edits there, as `setOptions` does in the windows of the
  other connections. And `doOpen` makes an even parity of an odd one.

  The constructor of the connection leaves the parity, the stop bits and the flow
  control as they are. Where such a member is none of the enumerators, the window
  shows "unknown" and `doOpen` takes a default.

  So the device gets the settings that are displayed exactly when these agree
  with the stored ones anyway (`settings_reach_iff`).
-/

namespace DeviceTester

open LTS

namespace SerialWin

/-! ### The window -/

/-- The window, with the connection it shows. -/
structure Window where
  connection : Serial.Impl
  opts : Serial.Options

/-- The constructors copy the options of the connection. -/
def new (connection : Serial.Impl) : Window := ⟨connection, connection.opts⟩

/-- The casts of an index of `kNamesParity`, `kNamesStopBits` and
    `kNamesFlowControl`. -/
def parityOf : Fin 3 → Serial.Parity
  | 0 => .none
  | 1 => .odd
  | 2 => .even

def stopBitsOf : Fin 3 → Serial.StopBits
  | 0 => .one
  | 1 => .onepointfive
  | 2 => .two

def flowControlOf : Fin 3 → Serial.FlowControl
  | 0 => .none
  | 1 => .software
  | 2 => .hardware

/-- What the widgets of `drawTabSettings` set. The combo boxes offer the names. -/
inductive Edit where
  | port (value : String)
  | baud_rate (value : UInt32)
  | character_size (value : UInt16)
  | parity (i : Fin 3)
  | stop_bits (i : Fin 3)
  | flow_control (i : Fin 3)

def edit (opts : Serial.Options) : Edit → Serial.Options
  | .port value => { opts with port := value }
  | .baud_rate value => { opts with baud_rate := value }
  | .character_size value => { opts with character_size := value }
  | .parity i => { opts with parity := parityOf i }
  | .stop_bits i => { opts with stop_bits := stopBitsOf i }
  | .flow_control i => { opts with flow_control := flowControlOf i }

inductive Label where
  | edit (e : Edit)
  /-- The two buttons, of which one is drawn. -/
  | connect
  | disconnect
  /-- A step of the connection, which other owners may use as well. -/
  | connection (l : Serial.Label)

def Window.next (w : Window) : Label → Option Window
  | .edit e => some { w with opts := SerialWin.edit w.opts e }
  | .connect =>
      if w.connection.isOpen then none
      else (w.connection.next .opening).map fun c => { w with connection := c }
  | .disconnect =>
      if w.connection.isOpen then (w.connection.next .closing).map fun c => { w with connection := c }
      else none
  | .connection l => (w.connection.next l).map fun c => { w with connection := c }

/-- A call of `doOpen` waits on the strand. -/
def opening (c : Serial.Impl) : Bool :=
  c.strand.any fun h => match h with
    | .doOpen => true
    | _ => false

/-- The settings are edited before "Connect" is pressed and not while the
    connection is about to be opened, and it is opened by the window only. -/
def editsFirst (w : Window) : Label → Bool
  | .edit _ => !opening w.connection
  | .connection .opening => false
  | _ => true

/-- The window of a connection in any state that it can be in. -/
def window : System Window Label where
  init := fun w => ∃ (c : Serial.Impl) (_ : Run Serial.system c), w = new c
  next := Window.next

def connecting : System Window Label := window.restrict editsFirst

/-! ### The property -/

/-- What the label of a combo box says. The label "unknown" says nothing. -/
def shownParity : Serial.Parity → Option Serial.PortParity
  | .none => some .none
  | .odd => some .odd
  | .even => some .even
  | .other _ => none

def shownStopBits : Serial.StopBits → Option Serial.PortStopBits
  | .one => some .one
  | .onepointfive => some .onepointfive
  | .two => some .two
  | .other _ => none

def shownFlowControl : Serial.FlowControl → Option Serial.PortFlowControl
  | .none => some .none
  | .software => some .software
  | .hardware => some .hardware
  | .other _ => none

/-- The displayed settings as the calls that bring them to the device. -/
def settings (opts : Serial.Options) : Option (List Serial.DeviceCall) := do
  let parity ← shownParity opts.parity
  let stop_bits ← shownStopBits opts.stop_bits
  let flow_control ← shownFlowControl opts.flow_control
  return [.openPort opts.port, .baud_rate opts.baud_rate, .character_size opts.character_size,
    .parity parity, .stop_bits stop_bits, .flow_control flow_control]

/-- The strand runs `doOpen`, and every device call succeeds. -/
def opens (c : Serial.Impl) (dev : Serial.DeviceCall → Bool) : Bool :=
  match c.strand with
  | .doOpen :: _ => c.opts.deviceCalls.all fun call => call.constructible && dev call
  | _ => false

/-- The displayed character size is one a port can have. -/
def sizeInRange (opts : Serial.Options) : Bool :=
  decide (5 ≤ opts.character_size ∧ opts.character_size ≤ 8)

/-- **(D)** The device is configured with what is displayed, and the connection
    is named after it. -/
def Reaches (w : Window) (l : Label) (w' : Window) : Prop :=
  match l with
  | .connection (.run dev) =>
      opens w.connection dev = true → sizeInRange w.opts = true →
        settings w.opts = some w'.connection.device ∧
        w'.connection.connection_str =
          "serial://" ++ w.opts.port ++ "@" ++ toString w.opts.baud_rate
  | _ => True

/-- The parity is displayed as none, and stored as that or as none of the
    enumerators, or displayed as even and stored as odd or even. -/
def parityAgrees (stored : Serial.Parity) : (displayed : Serial.Parity) → Bool
  | .none => match stored with
    | .none | .other _ => true
    | .odd | .even => false
  | .even => match stored with
    | .odd | .even => true
    | .none | .other _ => false
  | .odd | .other _ => false

/-- The stop bits are displayed as they are stored, or as one and stored as none
    of the enumerators. -/
def stopBitsAgree (stored : Serial.StopBits) : (displayed : Serial.StopBits) → Bool
  | .one => match stored with
    | .one | .other _ => true
    | .onepointfive | .two => false
  | .onepointfive => decide (stored = .onepointfive)
  | .two => decide (stored = .two)
  | .other _ => false

/-- The same for the flow control, which may be displayed as none. -/
def flowControlAgrees (stored : Serial.FlowControl) : (displayed : Serial.FlowControl) → Bool
  | .none => match stored with
    | .none | .other _ => true
    | .software | .hardware => false
  | .software => decide (stored = .software)
  | .hardware => decide (stored = .hardware)
  | .other _ => false

/-- The options of the connection agree with the displayed ones. -/
def agrees (stored displayed : Serial.Options) : Bool :=
  decide (stored.port = displayed.port ∧ stored.baud_rate = displayed.baud_rate ∧
    stored.character_size = displayed.character_size) &&
  parityAgrees stored.parity displayed.parity &&
  stopBitsAgree stored.stop_bits displayed.stop_bits &&
  flowControlAgrees stored.flow_control displayed.flow_control

/-- The connection is opened when its options agree with the displayed ones. -/
def opensAsDisplayed (w : Window) : Label → Bool
  | .connection (.run dev) =>
      !(opens w.connection dev && sizeInRange w.opts) || agrees w.connection.opts w.opts
  | _ => true

/-! ### Opening -/

theorem shownParity_eq_iff (stored displayed : Serial.Parity) :
    shownParity displayed = some (Serial.portParity stored) ↔
      parityAgrees stored displayed = true := by
  cases stored <;> cases displayed <;> simp [shownParity, Serial.portParity, parityAgrees]

theorem shownStopBits_eq_iff (stored displayed : Serial.StopBits) :
    shownStopBits displayed = some (Serial.portStopBits stored) ↔
      stopBitsAgree stored displayed = true := by
  cases stored <;> cases displayed <;> simp [shownStopBits, Serial.portStopBits, stopBitsAgree]

theorem shownFlowControl_eq_iff (stored displayed : Serial.FlowControl) :
    shownFlowControl displayed = some (Serial.portFlowControl stored) ↔
      flowControlAgrees stored displayed = true := by
  cases stored <;> cases displayed <;>
    simp [shownFlowControl, Serial.portFlowControl, flowControlAgrees]

/-- What is displayed is a list of calls when each label says something. -/
theorem settings_eq_some {opts : Serial.Options} {calls : List Serial.DeviceCall} :
    settings opts = some calls ↔
      ∃ parity stop_bits flow_control, shownParity opts.parity = some parity ∧
        shownStopBits opts.stop_bits = some stop_bits ∧
        shownFlowControl opts.flow_control = some flow_control ∧
        calls = [.openPort opts.port, .baud_rate opts.baud_rate,
          .character_size opts.character_size, .parity parity, .stop_bits stop_bits,
          .flow_control flow_control] := by
  simp only [settings, Option.bind_eq_bind, Option.bind_eq_some_iff, Option.pure_def,
    Option.some.injEq]
  constructor
  · rintro ⟨parity, hparity, stop_bits, hstop, flow_control, hflow, rfl⟩
    exact ⟨parity, stop_bits, flow_control, hparity, hstop, hflow, rfl⟩
  · rintro ⟨parity, stop_bits, flow_control, hparity, hstop, hflow, rfl⟩
    exact ⟨parity, hparity, stop_bits, hstop, flow_control, hflow, rfl⟩

/-- The calls of `doOpen` are the displayed settings when the options agree. -/
theorem settings_eq_deviceCalls (stored displayed : Serial.Options) :
    settings displayed = some stored.deviceCalls ↔ agrees stored displayed = true := by
  simp only [settings_eq_some, agrees, Bool.and_eq_true, decide_eq_true_eq,
    ← shownParity_eq_iff, ← shownStopBits_eq_iff, ← shownFlowControl_eq_iff]
  constructor
  · rintro ⟨parity, stop_bits, flow_control, hparity, hstop, hflow, hcalls⟩
    simp only [Serial.Options.deviceCalls, List.cons.injEq, Serial.DeviceCall.openPort.injEq,
      Serial.DeviceCall.baud_rate.injEq, Serial.DeviceCall.character_size.injEq,
      Serial.DeviceCall.parity.injEq, Serial.DeviceCall.stop_bits.injEq,
      Serial.DeviceCall.flow_control.injEq, and_true] at hcalls
    obtain ⟨hport, hbaud, hsize, rfl, rfl, rfl⟩ := hcalls
    exact ⟨⟨⟨⟨hport, hbaud, hsize⟩, hparity⟩, hstop⟩, hflow⟩
  · rintro ⟨⟨⟨⟨hport, hbaud, hsize⟩, hparity⟩, hstop⟩, hflow⟩
    refine ⟨_, _, _, hparity, hstop, hflow, ?_⟩
    rw [Serial.Options.deviceCalls, hport, hbaud, hsize]

theorem shownParity_injective {p q : Serial.Parity} (h : shownParity p = shownParity q)
    (hshown : shownParity p ≠ none) : p = q := by
  cases p <;> cases q <;> simp_all [shownParity]

theorem shownStopBits_injective {p q : Serial.StopBits} (h : shownStopBits p = shownStopBits q)
    (hshown : shownStopBits p ≠ none) : p = q := by
  cases p <;> cases q <;> simp_all [shownStopBits]

theorem shownFlowControl_injective {p q : Serial.FlowControl}
    (h : shownFlowControl p = shownFlowControl q) (hshown : shownFlowControl p ≠ none) :
    p = q := by
  cases p <;> cases q <;> simp_all [shownFlowControl]

/-- The settings that are displayed, none of them as "unknown", tell the options. -/
theorem settings_injective {opts opts' : Serial.Options} {calls : List Serial.DeviceCall}
    (h : settings opts = some calls) (h' : settings opts' = some calls) : opts = opts' := by
  obtain ⟨parity, stop_bits, flow_control, hparity, hstop, hflow, rfl⟩ := settings_eq_some.mp h
  obtain ⟨_, _, _, hparity', hstop', hflow', hcalls⟩ := settings_eq_some.mp h'
  simp only [List.cons.injEq, Serial.DeviceCall.openPort.injEq,
    Serial.DeviceCall.baud_rate.injEq, Serial.DeviceCall.character_size.injEq,
    Serial.DeviceCall.parity.injEq, Serial.DeviceCall.stop_bits.injEq,
    Serial.DeviceCall.flow_control.injEq, and_true] at hcalls
  obtain ⟨hport, hbaud, hsize, rfl, rfl, rfl⟩ := hcalls
  obtain ⟨port, baud_rate, character_size, p, f, b⟩ := opts
  obtain ⟨port', baud_rate', character_size', p', f', b'⟩ := opts'
  rw [Serial.Options.mk.injEq]
  exact ⟨hport, hbaud, hsize,
    shownParity_injective (hparity.trans hparity'.symm) (by simp [hparity]),
    shownFlowControl_injective (hflow.trans hflow'.symm) (by simp [hflow]),
    shownStopBits_injective (hstop.trans hstop'.symm) (by simp [hstop])⟩

/-- A `doOpen` whose device calls succeed applies the stored options. -/
theorem device_of_opens {c c' : Serial.Impl} {dev : Serial.DeviceCall → Bool}
    (hn : c.next (.run dev) = some c') (hopens : opens c dev = true) :
    c'.device = c.opts.deviceCalls ∧
      c'.connection_str = "serial://" ++ c.opts.port ++ "@" ++ toString c.opts.baud_rate := by
  unfold opens at hopens
  split at hopens
  · next rest hstrand =>
    have hall : ∀ call ∈ c.opts.deviceCalls, call.constructible = true ∧ dev call = true := by
      intro call hcall
      exact Bool.and_eq_true_iff.mp (List.all_eq_true.mp hopens call hcall)
    have hopen : ∀ s : Serial.Impl, s.opts = c.opts →
        Serial.Impl.doOpen dev s = .ok s.doClose.configured.opened := by
      intro s hs
      exact Serial.Impl.doOpen_eq_ok.mpr ⟨hs ▸ hall, rfl⟩
    have hrun : ∃ t, c.runNext dev = some (.ok t) ∧ t.device = c.opts.deviceCalls ∧
        t.connection_str = "serial://" ++ c.opts.port ++ "@" ++ toString c.opts.baud_rate := by
      simp only [Serial.Impl.runNext, hstrand, Serial.Impl.execute]
      exact ⟨_, congrArg some (hopen _ rfl), rfl, rfl⟩
    obtain ⟨t, hrun, hdevice, hname⟩ := hrun
    obtain ⟨_, hstep⟩ := Serial.Impl.step_of_next hn
    cases hstep with
    | run hrun' =>
      rw [hrun] at hrun'
      cases hrun'
      exact ⟨hdevice, hname⟩
    | throw hrun' =>
      rw [hrun] at hrun'
      cases hrun'
  · cases hopens

/-- One step of the window. -/
theorem reaches_next {w w' : Window} {l : Label} (hn : w.next l = some w') :
    Reaches w l w' ↔ opensAsDisplayed w l = true := by
  cases l with
  | connection l =>
    cases l with
    | run dev =>
      obtain ⟨c, hc, rfl⟩ := Option.map_eq_some_iff.mp hn
      simp only [Reaches, opensAsDisplayed]
      by_cases hopens : opens w.connection dev = true
      · obtain ⟨hdevice, hname⟩ := device_of_opens hc hopens
        rw [hdevice, hname, settings_eq_deviceCalls, hopens]
        by_cases hsize : sizeInRange w.opts = true
        · simp only [hsize, true_implies, Bool.and_self, Bool.not_true, Bool.false_or,
            and_iff_left_iff_imp]
          -- agreeing options have the same port and rate
          intro hagrees
          simp only [agrees, Bool.and_eq_true, decide_eq_true_eq] at hagrees
          obtain ⟨⟨⟨⟨hport, hbaud, _⟩, _⟩, _⟩, _⟩ := hagrees
          rw [hport, hbaud]
        · simp [hsize]
      · simp [hopens]
    | _ => exact ⟨fun _ => rfl, fun _ => trivial⟩
  | _ => exact ⟨fun _ => rfl, fun _ => trivial⟩

/-- **The displayed settings reach the device** throughout a run exactly when
    the connection is only opened while its options agree with the displayed
    ones. Two runs that open it so with different settings open differently
    configured devices. -/
theorem settings_reach_iff {w : Window} (r : Run connecting w) :
    (r.Ensures Reaches ↔ r.EachStep fun w l => opensAsDisplayed w l = true) ∧
    ∀ {v : Window} (_ : Run connecting v) {dev dev' : Serial.DeviceCall → Bool} {w' v' : Window},
      connecting.next w (.connection (.run dev)) = some w' → opens w.connection dev = true →
      connecting.next v (.connection (.run dev')) = some v' → opens v.connection dev' = true →
      agrees w.connection.opts w.opts = true → agrees v.connection.opts v.opts = true →
      w.opts ≠ v.opts → w'.connection.device ≠ v'.connection.device := by
  constructor
  · apply Run.ensures_iff (I := fun _ => True)
    · intro _ _
      trivial
    · intro _ _ _ _ _ _
      trivial
    · intro w l w' _ hn
      exact reaches_next (System.restrict_next.mp hn).2
  · intro v _ dev dev' w' v' hw hopens hv hopens' hagrees hagrees' hne hsame
    obtain ⟨c, hc, rfl⟩ := Option.map_eq_some_iff.mp (System.restrict_next.mp hw).2
    obtain ⟨d, hd, rfl⟩ := Option.map_eq_some_iff.mp (System.restrict_next.mp hv).2
    have hdevice := (device_of_opens hc hopens).1
    have hdevice' := (device_of_opens hd hopens').1
    have hshown := (settings_eq_deviceCalls _ _).mpr hagrees
    have hshown' := (settings_eq_deviceCalls _ _).mpr hagrees'
    rw [← hdevice] at hshown
    rw [← hdevice', ← hsame] at hshown'
    exact hne (settings_injective hshown hshown')

/-- A port without parity, at some rate. -/
def plain (baud_rate : UInt32) : Serial.Options where
  port := "COM3"
  baud_rate := baud_rate
  character_size := 8
  parity := .none
  flow_control := .none
  stop_bits := .one

/-- The window of a connection that has got these options. -/
def shown (opts : Serial.Options) : Window :=
  new { Serial.Impl.new opts with opts := opts }

theorem shown_init (opts : Serial.Options) : connecting.init (shown opts) := by
  have hnew : Run Serial.system (Serial.Impl.new opts) := .start _ ⟨opts, rfl⟩
  exact ⟨_, hnew.step (.setOptions opts) _ rfl, rfl⟩

/-- "Connect" has been pressed in it. -/
def pressed (opts : Serial.Options) : Window :=
  { shown opts with connection := (shown opts).connection.requestOpen }

def press (opts : Serial.Options) : Run connecting (pressed opts) :=
  (Run.start (shown opts) (shown_init opts)).step .connect _ rfl

theorem next_pressed (baud_rate : UInt32) :
    ∃ w, connecting.next (pressed (plain baud_rate)) (.connection (.run fun _ => true)) = some w :=
  ⟨_, rfl⟩

theorem settings_reach_two_rates :
    ((press (plain 9600)).EachStep fun w l => opensAsDisplayed w l = true) ∧
    ∃ w v : Window,
      connecting.next (pressed (plain 9600)) (.connection (.run fun _ => true)) = some w ∧
      connecting.next (pressed (plain 115200)) (.connection (.run fun _ => true)) = some v ∧
      w.connection.device ≠ v.connection.device := by
  obtain ⟨w, hw⟩ := next_pressed 9600
  obtain ⟨v, hv⟩ := next_pressed 115200
  have hensures : (press (plain 9600)).Ensures Reaches := ⟨trivial, trivial⟩
  refine ⟨(settings_reach_iff _).1.mp hensures, w, v, hw, hv, ?_⟩
  exact (settings_reach_iff (press _)).2 (press _) hw (by decide) hv (by decide) (by decide)
    (by decide) (by decide)

/-- What the device call of a step would have to be is not what it is. -/
def misses (dev : Serial.DeviceCall → Bool) (w w' : Window) : Bool :=
  opens w.connection dev && sizeInRange w.opts &&
    !decide (settings w.opts = some w'.connection.device)

theorem not_reaches_of_misses {dev : Serial.DeviceCall → Bool} {w w' : Window}
    (h : misses dev w w' = true) : ¬ Reaches w (.connection (.run dev)) w' := by
  simp only [misses, Bool.and_eq_true, Bool.not_eq_true', decide_eq_false_iff_not] at h
  obtain ⟨⟨hopens, hsize⟩, hne⟩ := h
  exact fun hreaches => hne (hreaches hopens hsize).1

def oddParity : Serial.Options := { plain 9600 with parity := .odd }

/-- The port is edited and another one is opened. Where odd parity is displayed
    and stored, the device gets even parity. -/
theorem edits_do_not_arrive :
    (∃ (w : Window) (r : Run connecting w), w.opts.port = "COM7" ∧
      w.connection.device.head? = some (.openPort "COM3") ∧ ¬ r.Ensures Reaches) ∧
    (∃ (w : Window) (r : Run connecting w), w.opts.parity = .odd ∧ w.connection.opts = w.opts ∧
      Serial.DeviceCall.parity .even ∈ w.connection.device ∧ ¬ r.Ensures Reaches) := by
  constructor
  · have hinit : connecting.init (new (Serial.Impl.new oddParity)) :=
      ⟨_, .start _ ⟨oddParity, rfl⟩, rfl⟩
    obtain ⟨w, r, _, hw⟩ := Run.exists_of_check connecting hinit
      [.edit (.port "COM7"), .connect] (fun _ _ => true)
      (fun w => (connecting.next w (.connection (.run fun _ => true))).any fun w' =>
        misses (fun _ => true) w w' && decide (w'.opts.port = "COM7") &&
          decide (w'.connection.device.head? = some (.openPort "COM3"))) (by decide)
    obtain ⟨w', hnext, hw'⟩ := (Option.any_eq_true _ _).mp hw
    simp only [Bool.and_eq_true, decide_eq_true_eq] at hw'
    obtain ⟨⟨hmisses, hport⟩, hhead⟩ := hw'
    exact ⟨w', r.step _ w' hnext, hport, hhead, fun h => not_reaches_of_misses hmisses h.2⟩
  · obtain ⟨w, r, _, hw⟩ := Run.exists_of_check connecting (shown_init oddParity) [.connect]
      (fun _ _ => true)
      (fun w => (connecting.next w (.connection (.run fun _ => true))).any fun w' =>
        misses (fun _ => true) w w' && decide (w'.opts.parity = .odd) &&
          decide (w'.connection.opts = w'.opts) &&
          decide (Serial.DeviceCall.parity .even ∈ w'.connection.device)) (by decide)
    obtain ⟨w', hnext, hw'⟩ := (Option.any_eq_true _ _).mp hw
    simp only [Bool.and_eq_true, decide_eq_true_eq] at hw'
    obtain ⟨⟨⟨hmisses, hparity⟩, hsame⟩, heven⟩ := hw'
    exact ⟨w', r.step _ w' hnext, hparity, hsame, heven,
      fun h => not_reaches_of_misses hmisses h.2⟩

end SerialWin

end DeviceTester
