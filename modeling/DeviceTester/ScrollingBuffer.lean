import DeviceTester.Framework.Run
import DeviceTester.Framework.Windows

/-! # The scrolling buffer of the plots

  `ScrollingBuffer` of `plugins/lua_base/src/lua_gui_bindings.cpp`, which Lua
  scripts construct with any `int` and call in any order. `ImVector` is a list,
  and an access outside of it is a fault, as is a division by zero. Nothing is
  said of a script after its first fault.

  With at least one place the buffer shows the most recent points
  (`plots_most_recent`). A script is safe exactly when it adds points to no
  buffer without places, and plots no empty buffer (`script_safe_iff`).
-/

namespace DeviceTester

open LTS

/-- A point with coordinates in `float`, of which nothing is computed. -/
structure ImVec2 (F : Type) where
  x : F
  y : F
  deriving DecidableEq, Repr

/-- What a script must not do. -/
inductive Fault where
  | outOfRange
  | divisionByZero
  deriving DecidableEq, Repr

variable {F : Type}

/-! ### `ImVector` and `int` -/

namespace ImVector

/-- `data[i]` -/
def load (data : List (ImVec2 F)) (i : Int) : Except Fault (ImVec2 F) :=
  match if 0 ≤ i then data[i.toNat]? else none with
  | some p => .ok p
  | none => .error .outOfRange

/-- `data[i] = p` -/
def store (data : List (ImVec2 F)) (i : Int) (p : ImVec2 F) : Except Fault (List (ImVec2 F)) :=
  if 0 ≤ i ∧ i < data.length then .ok (data.set i.toNat p) else .error .outOfRange

end ImVector

/-- `a % b` -/
def modulo (a b : Int) : Except Fault Int :=
  if b = 0 then .error .divisionByZero else .ok (a.tmod b)

/-! ### `ScrollingBuffer` -/

structure ScrollingBuffer (F : Type) where
  MaxSize : Int
  Offset : Int
  Data : List (ImVec2 F)
  deriving DecidableEq, Repr

namespace ScrollingBuffer

/-- `reserve` changes no size. -/
def new (max_size : Int) : ScrollingBuffer F where
  MaxSize := max_size
  Offset := 0
  Data := []

def addPoint (s : ScrollingBuffer F) (x y : F) : Except Fault (ScrollingBuffer F) :=
  if s.Data.length < s.MaxSize then
    .ok { s with Data := s.Data ++ [⟨x, y⟩] }
  else do
    let Data ← ImVector.store s.Data s.Offset ⟨x, y⟩
    let Offset ← modulo (s.Offset + 1) s.MaxSize
    return { s with Data := Data, Offset := Offset }

def erase (s : ScrollingBuffer F) : ScrollingBuffer F :=
  if s.Data.length > 0 then { s with Data := [], Offset := 0 } else s

/-- The points as ImPlot reads them: as many as there are, from `Offset` on. -/
def plotted (s : ScrollingBuffer F) : List (ImVec2 F) := Window.readFrom s.Data s.Offset.toNat

/-- The address of `Data[0]` is taken for each of the coordinates. -/
def plotLine (s : ScrollingBuffer F) : Except Fault (List (ImVec2 F)) := do
  let _ ← ImVector.load s.Data 0
  return s.plotted

end ScrollingBuffer

/-! ### Scripts -/

/-- A script with its buffer. -/
structure Script (F : Type) where
  buffer : ScrollingBuffer F
  /-- What has stopped it. -/
  fault : Option Fault
  /-- Not part of the program: the points added since the construction or the
      last `erase`. -/
  added : List (ImVec2 F)

namespace Script

def new (max_size : Int) : Script F := ⟨.new max_size, none, []⟩

inductive Label (F : Type) where
  | addPoint (x y : F)
  | erase
  | plotLine

def next (s : Script F) (l : Label F) : Option (Script F) :=
  if s.fault.isSome then none
  else
    match l with
    | .addPoint x y =>
        match s.buffer.addPoint x y with
        | .ok b => some { s with buffer := b, added := s.added ++ [⟨x, y⟩] }
        | .error f => some { s with fault := some f }
    | .erase => some { s with buffer := s.buffer.erase, added := [] }
    | .plotLine =>
        match s.buffer.plotLine with
        | .ok _ => some s
        | .error f => some { s with fault := some f }

end Script

/-- The scripts that construct a buffer with `max_size`. -/
def script (F : Type) (max_size : Int) : System (Script F) (Script.Label F) where
  init := fun s => s = Script.new max_size
  next := Script.next

/-! ### What the calls do -/

namespace ScrollingBuffer

variable {s : ScrollingBuffer F}

/-- The buffer shows the window of the points `added`. -/
structure Shows (s : ScrollingBuffer F) (added : List (ImVec2 F)) : Prop where
  places : 1 ≤ s.MaxSize
  bounded : s.Data.length ≤ s.MaxSize
  offset : 0 ≤ s.Offset ∧ s.Offset < s.MaxSize
  growing : s.Data.length < s.MaxSize → s.Offset = 0
  window : s.Data.rotate s.Offset.toNat = added.rtake s.MaxSize.toNat

theorem Shows.new {max_size : Int} (h : 1 ≤ max_size) :
    (ScrollingBuffer.new max_size : ScrollingBuffer F).Shows [] where
  places := h
  bounded := by
    show (0 : Int) ≤ max_size
    omega
  offset := by
    show (0 : Int) ≤ 0 ∧ 0 < max_size
    omega
  growing := fun _ => rfl
  window := by simp [ScrollingBuffer.new]

theorem Shows.plotted {added : List (ImVec2 F)} (h : s.Shows added) :
    s.plotted = added.rtake s.MaxSize.toNat := by
  unfold ScrollingBuffer.plotted
  rw [Window.readFrom_eq_rotate, h.window]

/-- The buffer takes every point. -/
theorem Shows.addPoint {added : List (ImVec2 F)} (h : s.Shows added) (x y : F) :
    ∃ s', s.addPoint x y = .ok s' ∧ s'.MaxSize = s.MaxSize ∧ s'.Shows (added ++ [⟨x, y⟩]) := by
  have hplaces := h.places
  have hbounded := h.bounded
  have hoffset := h.offset
  have hpush := Window.push_rtake s.MaxSize.toNat added (ImVec2.mk x y)
  rw [← h.window] at hpush
  unfold ScrollingBuffer.addPoint
  by_cases hroom : s.Data.length < s.MaxSize
  · -- the window grows at its end, which is the end of the array
    have hzero := h.growing hroom
    rw [if_pos hroom]
    refine ⟨_, rfl, rfl, hplaces, ?_, hoffset, fun _ => hzero, ?_⟩
    · show ((s.Data ++ [ImVec2.mk x y]).length : Int) ≤ s.MaxSize
      rw [List.length_append, List.length_singleton]
      omega
    · have hlt : s.Data.length < s.MaxSize.toNat := by omega
      show (s.Data ++ [ImVec2.mk x y]).rotate s.Offset.toNat = _
      rw [hzero, Int.toNat_zero, List.rotate_zero, Window.push_eq_append hlt] at hpush
      rw [hzero, Int.toNat_zero, List.rotate_zero, ← hpush]
  · -- the oldest point is overwritten, and the window starts behind it
    have hfull : s.Data.length = s.MaxSize.toNat := by omega
    have hin : 0 ≤ s.Offset ∧ s.Offset < s.Data.length := by omega
    have hdiv : s.MaxSize ≠ 0 := by omega
    have hmod : ((s.Offset + 1).tmod s.MaxSize).toNat = (s.Offset.toNat + 1) % s.Data.length := by
      have hnonneg : 0 ≤ s.Offset + 1 := by omega
      have hsucc : (s.Offset + 1).toNat = s.Offset.toNat + 1 := by omega
      rw [Int.tmod_eq_emod_of_nonneg hnonneg, Int.toNat_emod hnonneg (by omega), hsucc, hfull]
    have hrange : 0 ≤ (s.Offset + 1).tmod s.MaxSize ∧ (s.Offset + 1).tmod s.MaxSize < s.MaxSize := by
      rw [Int.tmod_eq_emod_of_nonneg (by omega)]
      exact ⟨Int.emod_nonneg _ hdiv, Int.emod_lt_of_pos _ (by omega)⟩
    rw [if_neg hroom, ImVector.store, if_pos hin, modulo, if_neg hdiv]
    refine ⟨_, rfl, rfl, hplaces, ?_, hrange, ?_, ?_⟩
    · show ((s.Data.set s.Offset.toNat (ImVec2.mk x y)).length : Int) ≤ s.MaxSize
      rw [List.length_set]
      exact hbounded
    · -- it stays full
      intro hlt
      have hlt' : ((s.Data.set s.Offset.toNat (ImVec2.mk x y)).length : Int) < s.MaxSize := hlt
      rw [List.length_set] at hlt'
      exact absurd hlt' hroom
    · have hk : s.Offset.toNat < s.Data.length := by omega
      show (s.Data.set s.Offset.toNat (ImVec2.mk x y)).rotate
        ((s.Offset + 1).tmod s.MaxSize).toNat = _
      rw [hmod, Window.push_of_full hk, hfull]
      exact hpush

@[simp] theorem erase_maxSize (s : ScrollingBuffer F) : s.erase.MaxSize = s.MaxSize := by
  unfold ScrollingBuffer.erase
  by_cases hsome : s.Data.length > 0
  · rw [if_pos hsome]
  · rw [if_neg hsome]

@[simp] theorem erase_data (s : ScrollingBuffer F) : s.erase.Data = [] := by
  unfold ScrollingBuffer.erase
  by_cases hsome : s.Data.length > 0
  · rw [if_pos hsome]
  · rw [if_neg hsome]
    exact List.eq_nil_of_length_eq_zero (by omega)

theorem Shows.erase {added : List (ImVec2 F)} (h : s.Shows added) : s.erase.Shows [] := by
  have hplaces := h.places
  have hzero : s.erase.Offset = 0 := by
    unfold ScrollingBuffer.erase
    by_cases hsome : s.Data.length > 0
    · rw [if_pos hsome]
    · -- nothing to erase, and an empty buffer is not full
      rw [if_neg hsome]
      exact h.growing (by omega)
  constructor
  case places => rwa [erase_maxSize]
  case bounded =>
    rw [erase_data, erase_maxSize, List.length_nil]
    omega
  case offset =>
    rw [hzero, erase_maxSize]
    omega
  case growing => exact fun _ => hzero
  case window => rw [erase_data, List.rotate_nil, List.rtake_nil]

/-- Without places the first point is already written outside. -/
theorem addPoint_of_no_place (h : s.MaxSize < 1) (hempty : s.Data = []) (x y : F) :
    s.addPoint x y = .error .outOfRange := by
  have hfull : ¬ s.Data.length < s.MaxSize := by
    rw [hempty, List.length_nil]
    omega
  have hout : ¬ (0 ≤ s.Offset ∧ s.Offset < s.Data.length) := by
    rw [hempty, List.length_nil]
    omega
  unfold ScrollingBuffer.addPoint ImVector.store
  rw [if_neg hfull, if_neg hout]
  rfl

theorem plotLine_of_nil (hempty : s.Data = []) : s.plotLine = .error .outOfRange := by
  unfold ScrollingBuffer.plotLine ImVector.load
  rw [hempty]
  rfl

theorem plotLine_of_ne_nil (hsome : s.Data ≠ []) : s.plotLine = .ok s.plotted := by
  obtain ⟨p, ps, hdata⟩ := List.exists_cons_of_ne_nil hsome
  unfold ScrollingBuffer.plotLine ImVector.load
  rw [hdata]
  rfl

end ScrollingBuffer

/-! ### What a script does in one step -/

namespace Script

variable {s s' : Script F}

theorem next_unstopped {l : Label F} (h : s.next l = some s') : s.fault = none := by
  unfold next at h
  by_cases hf : s.fault.isSome
  · rw [if_pos hf] at h
    cases h
  · simpa using hf

theorem next_addPoint {x y : F} (h : s.next (.addPoint x y) = some s') :
    (∃ b, s.buffer.addPoint x y = .ok b ∧
      s' = { s with buffer := b, added := s.added ++ [⟨x, y⟩] }) ∨
    ∃ f, s.buffer.addPoint x y = .error f ∧ s' = { s with fault := some f } := by
  have hnone := next_unstopped h
  cases hadd : s.buffer.addPoint x y with
  | ok b =>
    simp only [next, hnone, Option.isSome_none, hadd] at h
    exact .inl ⟨b, rfl, by simpa [hnone] using h.symm⟩
  | error f =>
    simp only [next, hnone, Option.isSome_none, hadd] at h
    exact .inr ⟨f, rfl, by simpa [hnone] using h.symm⟩

theorem next_erase (h : s.next .erase = some s') :
    s' = { s with buffer := s.buffer.erase, added := [] } := by
  have hnone := next_unstopped h
  simp only [next, hnone, Option.isSome_none] at h
  simpa [hnone] using h.symm

/-- Plotting stops the script or changes nothing. -/
theorem next_plotLine (h : s.next .plotLine = some s') :
    (s.buffer.Data ≠ [] ∧ s' = s) ∨
    (s.buffer.Data = [] ∧ s' = { s with fault := some .outOfRange }) := by
  have hnone := next_unstopped h
  by_cases hempty : s.buffer.Data = []
  · simp only [next, hnone, Option.isSome_none, ScrollingBuffer.plotLine_of_nil hempty] at h
    exact .inr ⟨hempty, by simpa [hnone] using h.symm⟩
  · simp only [next, hnone, Option.isSome_none, ScrollingBuffer.plotLine_of_ne_nil hempty] at h
    exact .inl ⟨hempty, by simpa [hnone] using h.symm⟩

/-- The script has a buffer with places, and it shows what was added. -/
structure Plots (max_size : Int) (s : Script F) : Prop where
  size : s.buffer.MaxSize = max_size
  shows : s.buffer.Shows s.added

theorem Plots.new {max_size : Int} (hmax : 1 ≤ max_size) : (new max_size : Script F).Plots max_size :=
  ⟨rfl, .new hmax⟩

theorem Plots.next {max_size : Int} {l : Label F} (hI : s.Plots max_size)
    (h : s.next l = some s') : s'.Plots max_size := by
  cases l with
  | addPoint x y =>
    obtain ⟨b, hok, hsize, hshows⟩ := hI.shows.addPoint x y
    rcases next_addPoint h with ⟨b', hb', rfl⟩ | ⟨f, hf, rfl⟩
    · rw [hok, Except.ok.injEq] at hb'
      subst hb'
      exact ⟨hsize.trans hI.size, hshows⟩
    · rw [hok] at hf
      cases hf
  | erase =>
    rw [next_erase h]
    exact ⟨s.buffer.erase_maxSize.trans hI.size, hI.shows.erase⟩
  | plotLine =>
    rcases next_plotLine h with ⟨_, rfl⟩ | ⟨_, rfl⟩
    · exact hI
    · exact ⟨hI.size, hI.shows⟩

/-- Only plotting an empty buffer stops such a script. -/
theorem Plots.unstopped {max_size : Int} {l : Label F} (hI : s.Plots max_size)
    (h : s.next l = some s') (hf : s'.fault.isSome) : l = .plotLine ∧ s.buffer.Data = [] := by
  have hnone := next_unstopped h
  cases l with
  | addPoint x y =>
    obtain ⟨b, hok, _, _⟩ := hI.shows.addPoint x y
    rcases next_addPoint h with ⟨b', _, rfl⟩ | ⟨f, herr, rfl⟩
    · simp [hnone] at hf
    · rw [hok] at herr
      cases herr
  | erase =>
    rw [next_erase h] at hf
    simp [hnone] at hf
  | plotLine =>
    rcases next_plotLine h with ⟨_, rfl⟩ | ⟨hempty, rfl⟩
    · simp [hnone] at hf
    · exact ⟨rfl, hempty⟩

end Script

/-! ### The most recent points -/

/-- With at least one place, ImPlot gets the last points added, the oldest of
    them first, and adding and erasing never fails. -/
theorem plots_most_recent {max_size : Int} (hmax : 1 ≤ max_size) {s : Script F}
    (r : Run (script F max_size) s) :
    (r.Throughout fun s =>
      s.buffer.plotted = s.added.rtake max_size.toNat ∧
      (s.buffer.Data ≠ [] → s.buffer.plotLine = .ok (s.added.rtake max_size.toNat)) ∧
      (s.buffer.Data.length < max_size → s.buffer.Offset = 0) ∧
      0 ≤ s.buffer.Offset ∧ s.buffer.Offset < max_size) ∧
    (r.Ensures fun s l s' => s'.fault.isSome → l = .plotLine ∧ s.buffer.Data = []) := by
  have hinit : ∀ s : Script F, (script F max_size).init s → s.Plots max_size := by
    intro s hs
    exact hs ▸ .new hmax
  constructor
  · refine (r.always hinit fun s l s' hI hn => Script.Plots.next hI hn).mono ?_
    intro s hI
    have hplotted := hI.shows.plotted
    rw [hI.size] at hplotted
    refine ⟨hplotted, ?_, hI.size ▸ hI.shows.growing, hI.size ▸ hI.shows.offset⟩
    intro hsome
    rw [ScrollingBuffer.plotLine_of_ne_nil hsome, hplotted]
  · exact r.ensures hinit (fun s l s' hI hn => Script.Plots.next hI hn)
      fun s l s' hI hn hf => hI.unstopped hn hf

/-- Of three points the two last are plotted, after the array has wrapped. -/
theorem plots_most_recent_of_three :
    ∃ (s : Script Nat) (r : Run (script Nat 2) s),
      s.buffer.Offset = 1 ∧ s.buffer.plotted = [⟨1, 1⟩, ⟨2, 4⟩] ∧
      (r.Throughout fun s => s.buffer.plotted = s.added.rtake 2) := by
  obtain ⟨s, r, _, hs⟩ := Run.exists_of_check (script Nat 2) rfl
    [.addPoint 0 0, .addPoint 1 1, .addPoint 2 4] (fun _ _ => true)
    (fun s => s.buffer.Offset = 1 && s.buffer.plotted = [⟨1, 1⟩, ⟨2, 4⟩]) (by decide)
  have hrun := plots_most_recent (by decide) r
  simp only [Bool.and_eq_true, decide_eq_true_eq] at hs
  exact ⟨s, r, hs.1, hs.2, hrun.1.mono fun s h => h.1⟩

/-! ### Safe scripts -/

namespace Script

/-- The step adds no point to a buffer without places and plots no empty
    buffer. -/
def safe (s : Script F) : Label F → Prop
  | .addPoint _ _ => 1 ≤ s.buffer.MaxSize
  | .erase => True
  | .plotLine => s.buffer.Data ≠ []

variable {s s' : Script F}

/-- Nothing has stopped the script. A buffer without places stays empty. -/
structure Unstopped (s : Script F) : Prop where
  fault : s.fault = none
  shows : 1 ≤ s.buffer.MaxSize → s.buffer.Shows s.added
  empty : s.buffer.MaxSize < 1 → s.buffer.Data = []

theorem Unstopped.new (max_size : Int) : (new max_size : Script F).Unstopped :=
  ⟨rfl, .new, fun _ => rfl⟩

theorem Unstopped.next {l : Label F} (hI : s.Unstopped) (hsafe : s.safe l)
    (h : s.next l = some s') : s'.Unstopped := by
  cases l with
  | addPoint x y =>
    obtain ⟨b, hok, hsize, hshows⟩ := (hI.shows hsafe).addPoint x y
    rcases next_addPoint h with ⟨b', hb', rfl⟩ | ⟨f, hf, rfl⟩
    · rw [hok, Except.ok.injEq] at hb'
      subst hb'
      have hplaces : 1 ≤ b.MaxSize := hsize ▸ hsafe
      exact ⟨hI.fault, fun _ => hshows, fun hlt => absurd hplaces (Int.not_le.mpr hlt)⟩
    · rw [hok] at hf
      cases hf
  | erase =>
    rw [next_erase h]
    refine ⟨hI.fault, ?_, ?_⟩
    · intro hplaces
      rw [s.buffer.erase_maxSize] at hplaces
      exact (hI.shows hplaces).erase
    · intro _
      exact s.buffer.erase_data
  | plotLine =>
    rcases next_plotLine h with ⟨_, rfl⟩ | ⟨hempty, _⟩
    · exact hI
    · exact absurd hempty hsafe

/-- What does not stop the script was safe. -/
theorem Unstopped.safe_of_next {l : Label F} (hI : s.Unstopped) (h : s.next l = some s')
    (hnone : s'.fault = none) : s.safe l := by
  cases l with
  | addPoint x y =>
    by_contra hsmall
    -- without places the buffer is empty, and the write is outside of it
    have hsmall' : s.buffer.MaxSize < 1 := Int.not_le.mp hsmall
    have herr := ScrollingBuffer.addPoint_of_no_place hsmall' (hI.empty hsmall') x y
    rcases next_addPoint h with ⟨b, hb, _⟩ | ⟨f, _, rfl⟩
    · rw [herr] at hb
      cases hb
    · cases hnone
  | erase => trivial
  | plotLine =>
    rcases next_plotLine h with ⟨hsome, _⟩ | ⟨_, rfl⟩
    · exact hsome
    · cases hnone

end Script

/-- A script accesses nothing outside of the data, and divides by nothing that
    is zero, exactly when all of its steps are safe. -/
theorem script_safe_iff {max_size : Int} {s : Script F} (r : Run (script F max_size) s) :
    (r.Throughout fun s => s.fault = none) ↔ r.EachStep Script.safe := by
  refine r.throughout_iff (I := Script.Unstopped) ?_ (fun s hI => hI.fault)
    (fun s l s' hI hsafe hn => Script.Unstopped.next hI hsafe hn)
    fun s l s' hI hn hnone => hI.safe_of_next hn hnone
  intro s hs
  exact hs ▸ .new max_size

/-- No place at all, fewer than none, and a buffer to which nothing was added
    yet. -/
theorem script_unsafe :
    (∃ (s : Script Nat) (r : Run (script Nat 0) s), ¬ r.Throughout fun s => s.fault = none) ∧
    (∃ (s : Script Nat) (r : Run (script Nat (-1)) s), ¬ r.Throughout fun s => s.fault = none) ∧
    (∃ (s : Script Nat) (r : Run (script Nat 1000) s),
      ¬ r.Throughout fun s => s.fault = none) := by
  refine ⟨?_, ?_, ?_⟩
  · obtain ⟨s, r, _, hs⟩ := Run.exists_of_check (script Nat 0) rfl [.addPoint 1 1]
      (fun _ _ => true) (fun s => s.fault = some .outOfRange) (by decide)
    exact ⟨s, r, fun h => by simp [h.last] at hs⟩
  · obtain ⟨s, r, _, hs⟩ := Run.exists_of_check (script Nat (-1)) rfl [.addPoint 1 1]
      (fun _ _ => true) (fun s => s.fault = some .outOfRange) (by decide)
    exact ⟨s, r, fun h => by simp [h.last] at hs⟩
  · obtain ⟨s, r, _, hs⟩ := Run.exists_of_check (script Nat 1000) rfl [.plotLine]
      (fun _ _ => true) (fun s => s.fault = some .outOfRange) (by decide)
    exact ⟨s, r, fun h => by simp [h.last] at hs⟩

end DeviceTester
