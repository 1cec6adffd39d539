import DeviceTester.Serial

/-! # When a device call of `doOpen` throws

  Between `serial_.open` and the flags that `doOpen` sets at its end there are
  five `set_option` calls, and nothing catches what one of the six throws. So
  `doOpen` is all or nothing exactly when all of its calls succeed
  (`open_all_or_nothing_iff`). A call that throws leaves the port with the calls
  before it made, closed only if the first one throws (`doOpen_eq_error`), and
  ends the thread that runs the handler (`run_doOpen`).
-/

namespace DeviceTester

open Async LTS

namespace Serial

/-- The call does not throw. -/
def DeviceCall.succeeds (dev : DeviceCall → Bool) (c : DeviceCall) : Prop :=
  c.constructible = true ∧ dev c = true

/-- The call opens the port. -/
def DeviceCall.opens : DeviceCall → Bool
  | .openPort _ => true
  | _ => false

namespace Impl

/-! ### The property -/

/-- The port is closed, and everything says so. -/
structure Closed (s : Impl) : Prop where
  device : s.isOpen = false
  flag : s.is_open = false
  should_run : s.pump.should_run = false

/-- The port is open, and everything says so. -/
structure Opened (s : Impl) : Prop where
  device : s.isOpen = true
  flag : s.is_open = true
  should_run : s.pump.should_run = true

/-- **(A)** The handler does not throw. It posts one read on an open port, or
    leaves a closed port and posts nothing. -/
def AllOrNothing (dev : DeviceCall → Bool) (s : Impl) : Prop :=
  ∃ s', doOpen dev s = .ok s' ∧
    ((∀ c ∈ s.opts.deviceCalls, c.succeeds dev) →
      s'.Opened ∧ s'.strand = s.strand ++ [.doRead]) ∧
    ((∃ c ∈ s.opts.deviceCalls, ¬ c.succeeds dev) → s'.Closed ∧ s'.strand = s.strand)

/-! ### The calls before the one that throws -/

theorem call_eq_error {dev : DeviceCall → Bool} {s s' : Impl} {c : DeviceCall} :
    s.call dev c = .error s' ↔ ¬ c.succeeds dev ∧ s' = s := by
  unfold call DeviceCall.succeeds
  by_cases hc : (c.constructible && dev c) = true
  · rw [if_pos hc]
    constructor
    · intro h
      cases h
    · intro h
      exact absurd (Bool.and_eq_true_iff.mp hc) h.1
  · rw [if_neg hc]
    rw [Bool.and_eq_true_iff] at hc
    constructor
    · intro h
      exact ⟨hc, (Except.error.inj h).symm⟩
    · intro h
      rw [h.2]

/-- A sequence of device calls throws what its first failing call throws, after
    all the calls before it. -/
theorem foldlM_call_eq_error {dev : DeviceCall → Bool} {cs : List DeviceCall} {s s' : Impl} :
    cs.foldlM (call dev) s = .error s' ↔
      ∃ before c after, cs = before ++ c :: after ∧ (∀ d ∈ before, d.succeeds dev) ∧
        ¬ c.succeeds dev ∧ s' = before.foldl apply s := by
  induction cs generalizing s with
  | nil =>
    show (Except.ok s : Except Impl Impl) = .error s' ↔ _
    constructor
    · intro h
      cases h
    · intro h
      obtain ⟨before, c, after, hcs, _⟩ := h
      simp at hcs
  | cons c cs ih =>
    rw [List.foldlM_cons]
    by_cases hc : c.succeeds dev
    · have hok : s.call dev c = .ok (s.apply c) := call_eq_ok.mpr ⟨hc, rfl⟩
      rw [hok]
      show cs.foldlM (call dev) (s.apply c) = .error s' ↔ _
      rw [ih]
      constructor
      · intro h
        obtain ⟨before, d, after, hcs, hbefore, hd, hs'⟩ := h
        refine ⟨c :: before, d, after, by rw [hcs, List.cons_append], ?_, hd, hs'⟩
        exact List.forall_mem_cons.mpr ⟨hc, hbefore⟩
      · intro h
        obtain ⟨before, d, after, hcs, hbefore, hd, hs'⟩ := h
        cases before with
        | nil =>
          -- the failing call would be `c`
          rw [List.nil_append, List.cons.injEq] at hcs
          exact absurd (hcs.1 ▸ hc) hd
        | cons b before =>
          rw [List.cons_append, List.cons.injEq] at hcs
          obtain ⟨rfl, hcs⟩ := hcs
          exact ⟨before, d, after, hcs, (List.forall_mem_cons.mp hbefore).2, hd, hs'⟩
    · have herr : s.call dev c = .error s := call_eq_error.mpr ⟨hc, rfl⟩
      rw [herr]
      show (Except.error s : Except Impl Impl) = .error s' ↔ _
      constructor
      · intro h
        exact ⟨[], c, cs, rfl, by simp, hc, (Except.error.inj h).symm⟩
      · intro h
        obtain ⟨before, d, after, hcs, hbefore, hd, hs'⟩ := h
        cases before with
        | nil => rw [hs', List.foldl_nil]
        | cons b before =>
          rw [List.cons_append, List.cons.injEq] at hcs
          have hb := (List.forall_mem_cons.mp hbefore).1
          exact absurd (hcs.1 ▸ hb) hc

/-! ### What the device calls leave alone -/

@[simp] theorem apply_is_open (s : Impl) (c : DeviceCall) : (s.apply c).is_open = s.is_open := by
  cases c <;> rfl

@[simp] theorem apply_should_run (s : Impl) (c : DeviceCall) :
    (s.apply c).pump.should_run = s.pump.should_run := by
  cases c <;> rfl

@[simp] theorem apply_strand (s : Impl) (c : DeviceCall) : (s.apply c).strand = s.strand := by
  cases c <;> rfl

theorem apply_isOpen (s : Impl) (c : DeviceCall) :
    (s.apply c).isOpen = (s.isOpen || c.opens) := by
  cases c with
  | openPort port => exact (Bool.or_true _).symm
  | _ => exact (Bool.or_false _).symm

/-- The flags and the strand are those of before, and the port is open if one
    of the calls has opened it. -/
theorem foldl_apply (cs : List DeviceCall) (s : Impl) :
    (cs.foldl apply s).is_open = s.is_open ∧
    (cs.foldl apply s).pump.should_run = s.pump.should_run ∧
    (cs.foldl apply s).strand = s.strand ∧
    (cs.foldl apply s).isOpen = (s.isOpen || cs.any DeviceCall.opens) := by
  induction cs generalizing s with
  | nil => simp
  | cons c cs ih =>
    obtain ⟨hflag, hrun, hstrand, hopen⟩ := ih (s.apply c)
    rw [List.foldl_cons]
    refine ⟨?_, ?_, ?_, ?_⟩
    · rw [hflag, apply_is_open]
    · rw [hrun, apply_should_run]
    · rw [hstrand, apply_strand]
    · rw [hopen, apply_isOpen, List.any_cons, Bool.or_assoc]

/-! ### A failing `doOpen` -/

/-- A `doOpen` that throws has closed the port and made the calls before the
    one that throws. -/
theorem doOpen_eq_error {dev : DeviceCall → Bool} {s s' : Impl} :
    doOpen dev s = .error s' ↔
      ∃ before c after, s.opts.deviceCalls = before ++ c :: after ∧
        (∀ d ∈ before, d.succeeds dev) ∧ ¬ c.succeeds dev ∧
        s' = before.foldl apply s.doClose := by
  rw [← foldlM_call_eq_error]
  unfold doOpen
  cases s.opts.deviceCalls.foldlM (call dev) s.doClose with
  | error t => exact Iff.rfl
  | ok t =>
    constructor
    · intro h
      cases h
    · intro h
      cases h

/-- The flags say closed and nothing is posted, but the port is open unless it
    was the opening that failed. -/
theorem failed_open {dev : DeviceCall → Bool} {s s' : Impl} (h : doOpen dev s = .error s') :
    s'.is_open = false ∧ s'.pump.should_run = false ∧ s'.strand = s.strand ∧
    (s'.isOpen = true ↔ (DeviceCall.openPort s.opts.port).succeeds dev) := by
  obtain ⟨before, c, after, hcalls, hbefore, hc, rfl⟩ := doOpen_eq_error.mp h
  obtain ⟨hflag, hrun, hstrand, hopen⟩ := foldl_apply before s.doClose
  have hclosed : s.doClose.isOpen = false := rfl
  refine ⟨hflag, hrun, hstrand, ?_⟩
  rw [hopen, hclosed, Bool.false_or]
  -- the first of the calls is the one that opens the port
  cases before with
  | nil =>
    rw [List.nil_append, Options.deviceCalls, List.cons.injEq] at hcalls
    rw [hcalls.1]
    simp [hc]
  | cons b before =>
    rw [List.cons_append, Options.deviceCalls, List.cons.injEq] at hcalls
    rw [hcalls.1]
    have hb := (List.forall_mem_cons.mp hbefore).1
    simp [← hcalls.1, DeviceCall.opens, hcalls.1 ▸ hb]

/-- Opening is all or nothing exactly when no device call throws. -/
theorem open_all_or_nothing_iff (dev : DeviceCall → Bool) (s : Impl) :
    s.AllOrNothing dev ↔ ∀ c ∈ s.opts.deviceCalls, c.succeeds dev := by
  constructor
  · intro h
    obtain ⟨s', hok, _⟩ := h
    exact (doOpen_eq_ok.mp hok).1
  · intro hall
    refine ⟨_, doOpen_eq_ok.mpr ⟨hall, rfl⟩, fun _ => ⟨⟨rfl, rfl, rfl⟩, rfl⟩, ?_⟩
    intro hfail
    obtain ⟨c, hc, hthrows⟩ := hfail
    exact absurd (hall c hc) hthrows

/-- Nine bits to a character. -/
def nineBits : Options where
  port := "/dev/ttyUSB0"
  baud_rate := 9600
  character_size := 9
  parity := .none
  flow_control := .none
  stop_bits := .one

/-- A device that refuses nothing: the port is left open, and the exception
    escapes. -/
theorem open_nine_bits :
    ¬ AllOrNothing (fun _ => true) { Impl.new nineBits with opts := nineBits } ∧
    ∃ s', doOpen (fun _ => true) { Impl.new nineBits with opts := nineBits } = .error s' ∧
      s'.isOpen = true ∧ s'.is_open = false := by
  constructor
  · intro h
    obtain ⟨s', hok, _⟩ := h
    have hall := (doOpen_eq_ok.mp hok).1
    have hnine := hall (.character_size 9) (by simp [Options.deviceCalls, nineBits])
    exact absurd hnine.1 (by decide)
  · exact ⟨_, rfl, rfl, rfl⟩

/-! ### The thread that runs the handler -/

/-- The thread goes on exactly when no device call throws. -/
theorem run_doOpen {dev : DeviceCall → Bool} {s s' : Impl} {rest : List Handler}
    (hstrand : s.strand = .doOpen :: rest) (hn : s.next (.run dev) = some s') :
    s'.terminated = false ↔ ∀ c ∈ s.opts.deviceCalls, c.succeeds dev := by
  obtain ⟨hlive, hstep⟩ := step_of_next hn
  cases hstep with
  | run hrun =>
    unfold runNext at hrun
    rw [hstrand, Option.some.injEq] at hrun
    obtain ⟨hall, rfl⟩ := doOpen_eq_ok.mp hrun
    constructor
    · exact fun _ => hall
    · exact fun _ => hlive
  | throw hrun =>
    -- nothing catches what the handler throws
    unfold runNext at hrun
    rw [hstrand, Option.some.injEq] at hrun
    obtain ⟨before, c, after, hcalls, _, hc, _⟩ := doOpen_eq_error.mp hrun
    constructor
    · intro h
      cases h
    · intro hall
      have hmem : c ∈ before ++ c :: after := by simp
      exact absurd (hall c (hcalls ▸ hmem)) hc

end Impl

end Serial

end DeviceTester
