import DeviceTester.Framework.Run
import Mathlib.Data.Fintype.Basic

/-! # The threads of the manager

  `ManagerImpl` of `libcon/src/manager_impl.cpp` has ten threads, which run
  `io_` for as long as `run_` is set. Everything that the connections start is
  finished by a handler that one of them runs. A guard keeps `io_` from stopping
  while there is nothing to do.

  The destructor clears `run_`, resets the guard, and joins the threads. A thread
  that is in `io_.run` stays there until nothing is left, but one that looks at
  `run_` only then does not run anything. So whatever is unfinished when `run_`
  is cleared is run if some thread is in `io_.run` by then (`threads_serve_iff`).

  Users of the manager do not call it any more when it is destroyed, but handlers
  may. A handler that throws is left out.
-/

namespace DeviceTester

open LTS

/-- A thread of `runners_`. -/
inductive Runner where
  /-- It has not begun, or comes to the test of `run_`. -/
  | testing
  /-- In `io_.run`, between two handlers. -/
  | running
  | handling (h : Nat)
  | finished
  deriving DecidableEq, Repr

def Runner.isHandling : Runner → Bool
  | .handling _ => true
  | _ => false

/-- The thread is in `io_.run`. -/
def Runner.inRun : Runner → Bool
  | .running => true
  | .handling _ => true
  | _ => false

/-- How much there is to be done before the thread can be joined. -/
def Runner.rank : Runner → Nat
  | .testing => 1
  | .running => 2
  | .handling _ => 3
  | .finished => 0

/-- How far the destructor is. -/
inductive Destructor where
  | uncalled
  /-- `run_` is cleared. -/
  | cleared
  /-- The guard is reset, and the threads are joined. -/
  | joining
  | returned
  deriving DecidableEq, Repr

def Destructor.rank : Destructor → Nat
  | .uncalled => 3
  | .cleared => 2
  | .joining => 1
  | .returned => 0

structure ManagerImpl where
  run_ : Bool
  guard_ : Bool
  /-- `io_` has stopped. -/
  stopped : Bool
  /-- Operations that have been started and have not finished. -/
  pending : Nat
  /-- Handlers that are ready to be run. -/
  ready : List Nat
  runners_ : Fin 10 → Runner
  destructor : Destructor

namespace ManagerImpl

def new : ManagerImpl where
  run_ := true
  guard_ := true
  stopped := false
  pending := 0
  ready := []
  runners_ := fun _ => .testing
  destructor := .uncalled

/-- Nothing is unfinished. -/
def Idle (s : ManagerImpl) : Prop :=
  s.pending = 0 ∧ s.ready = [] ∧ ∀ i, (s.runners_ i).isHandling = false

instance (s : ManagerImpl) : Decidable s.Idle := inferInstanceAs (Decidable (_ ∧ _ ∧ _))

def setRunner (s : ManagerImpl) (i : Fin 10) (x : Runner) : ManagerImpl :=
  { s with runners_ := Function.update s.runners_ i x }

/-- `io_` stops when it is out of work, of which the guard is some. -/
def workFinished (s : ManagerImpl) : ManagerImpl :=
  if s.guard_ = false ∧ s.Idle then { s with stopped := true } else s

inductive Label where
  /-- A handler is posted, or an operation started, by a handler that a thread
      runs, or by somebody else. -/
  | post (caller : Option (Fin 10)) (h : Nat)
  | async (caller : Option (Fin 10))
  /-- An operation finishes, and its handler is ready. -/
  | finish (h : Nat)
  /-- `while (run_)`. -/
  | test (i : Fin 10)
  | begin (i : Fin 10)
  | done (i : Fin 10)
  /-- `io_.run` returns. -/
  | leave (i : Fin 10)
  /-- The parts of the destructor. -/
  | clearRun
  | resetGuard
  | join
  deriving DecidableEq, Repr

/-- Who can post handlers and start operations. -/
def mayCall (s : ManagerImpl) : Option (Fin 10) → Bool
  | none => decide (s.destructor = .uncalled)
  | some i => (s.runners_ i).isHandling

def next (s : ManagerImpl) : Label → Option ManagerImpl
  | .post caller h =>
      if s.mayCall caller then some { s with ready := s.ready ++ [h] } else none
  | .async caller => if s.mayCall caller then some { s with pending := s.pending + 1 } else none
  | .finish h =>
      if 0 < s.pending then some { s with pending := s.pending - 1, ready := s.ready ++ [h] }
      else none
  | .test i =>
      if s.runners_ i = .testing then
        if s.run_ then
          -- `io_.run` returns at once when `io_` has stopped
          some (if s.stopped then s else s.setRunner i .running)
        else some (s.setRunner i .finished)
      else none
  | .begin i =>
      if s.runners_ i = .running ∧ s.stopped = false then
        match s.ready with
        | h :: rest => some ({ s with ready := rest }.setRunner i (.handling h))
        | [] => none
      else none
  | .done i =>
      if (s.runners_ i).isHandling then some (s.setRunner i .running).workFinished else none
  | .leave i =>
      if s.runners_ i = .running ∧ s.stopped = true then some (s.setRunner i .testing) else none
  | .clearRun =>
      if s.destructor = .uncalled then some { s with run_ := false, destructor := .cleared }
      else none
  | .resetGuard =>
      if s.destructor = .cleared then
        some ({ s with guard_ := false, destructor := .joining } : ManagerImpl).workFinished
      else none
  | .join =>
      if s.destructor = .joining ∧ ∀ i, s.runners_ i = .finished then
        some { s with destructor := .returned }
      else none

def system : System ManagerImpl Label where
  init := fun s => s = new
  next := next

/-! ### What one step can do -/

inductive Step (s : ManagerImpl) : Label → ManagerImpl → Prop
  | post {caller : Option (Fin 10)} (h : Nat) (hcall : s.mayCall caller = true) :
      Step s (.post caller h) { s with ready := s.ready ++ [h] }
  | async {caller : Option (Fin 10)} (hcall : s.mayCall caller = true) :
      Step s (.async caller) { s with pending := s.pending + 1 }
  | finish (h : Nat) (hpending : 0 < s.pending) :
      Step s (.finish h) { s with pending := s.pending - 1, ready := s.ready ++ [h] }
  | enter {i : Fin 10} (hi : s.runners_ i = .testing) (hrun : s.run_ = true)
      (hstopped : s.stopped = false) : Step s (.test i) (s.setRunner i .running)
  | again {i : Fin 10} (hi : s.runners_ i = .testing) (hrun : s.run_ = true)
      (hstopped : s.stopped = true) : Step s (.test i) s
  | exit {i : Fin 10} (hi : s.runners_ i = .testing) (hrun : s.run_ = false) :
      Step s (.test i) (s.setRunner i .finished)
  | begin {i : Fin 10} {h : Nat} {rest : List Nat} (hi : s.runners_ i = .running)
      (hstopped : s.stopped = false) (hready : s.ready = h :: rest) :
      Step s (.begin i) ({ s with ready := rest }.setRunner i (.handling h))
  | done {i : Fin 10} (hi : (s.runners_ i).isHandling = true) :
      Step s (.done i) (s.setRunner i .running).workFinished
  | leave {i : Fin 10} (hi : s.runners_ i = .running) (hstopped : s.stopped = true) :
      Step s (.leave i) (s.setRunner i .testing)
  | clearRun (hd : s.destructor = .uncalled) :
      Step s .clearRun { s with run_ := false, destructor := .cleared }
  | resetGuard (hd : s.destructor = .cleared) :
      Step s .resetGuard
        ({ s with guard_ := false, destructor := .joining } : ManagerImpl).workFinished
  | join (hd : s.destructor = .joining) (hall : ∀ i, s.runners_ i = .finished) :
      Step s .join { s with destructor := .returned }

theorem step_of_next {s s' : ManagerImpl} {l : Label} (hn : s.next l = some s') : s.Step l s' := by
  cases l with
  | post caller h =>
    obtain ⟨hcall, heq⟩ := Option.ite_none_right_eq_some.mp hn
    exact Option.some.inj heq ▸ .post h hcall
  | async caller =>
    obtain ⟨hcall, heq⟩ := Option.ite_none_right_eq_some.mp hn
    exact Option.some.inj heq ▸ .async hcall
  | finish h =>
    obtain ⟨hpending, heq⟩ := Option.ite_none_right_eq_some.mp hn
    exact Option.some.inj heq ▸ .finish h hpending
  | test i =>
    obtain ⟨hi, hn⟩ := Option.ite_none_right_eq_some.mp hn
    split at hn
    · next hrun =>
      split at hn
      · next hstopped => exact Option.some.inj hn ▸ .again hi hrun hstopped
      · next hstopped =>
        exact Option.some.inj hn ▸ .enter hi hrun (Bool.eq_false_of_not_eq_true hstopped)
    · next hrun => exact Option.some.inj hn ▸ .exit hi (Bool.eq_false_of_not_eq_true hrun)
  | begin i =>
    obtain ⟨⟨hi, hstopped⟩, hn⟩ := Option.ite_none_right_eq_some.mp hn
    split at hn
    · next h rest hready => exact Option.some.inj hn ▸ .begin hi hstopped hready
    · cases hn
  | done i =>
    obtain ⟨hi, heq⟩ := Option.ite_none_right_eq_some.mp hn
    exact Option.some.inj heq ▸ .done hi
  | leave i =>
    obtain ⟨⟨hi, hstopped⟩, heq⟩ := Option.ite_none_right_eq_some.mp hn
    exact Option.some.inj heq ▸ .leave hi hstopped
  | clearRun =>
    obtain ⟨hd, heq⟩ := Option.ite_none_right_eq_some.mp hn
    exact Option.some.inj heq ▸ .clearRun hd
  | resetGuard =>
    obtain ⟨hd, heq⟩ := Option.ite_none_right_eq_some.mp hn
    exact Option.some.inj heq ▸ .resetGuard hd
  | join =>
    obtain ⟨⟨hd, hall⟩, heq⟩ := Option.ite_none_right_eq_some.mp hn
    exact Option.some.inj heq ▸ .join hd hall

/-! ### The invariant -/

/-- What holds of the flags. In particular `io_` stops when it is out of work and
    not before. -/
structure Inv (s : ManagerImpl) : Prop where
  run_ : s.run_ = true ↔ s.destructor = .uncalled
  guard_ : s.guard_ = true ↔ s.destructor = .uncalled ∨ s.destructor = .cleared
  stopped : s.stopped = true ↔ s.guard_ = false ∧ s.Idle
  finished : ∀ i, s.runners_ i = .finished → s.run_ = false
  joined : s.destructor = .returned → ∀ i, s.runners_ i = .finished

variable {s s' : ManagerImpl} {l : Label}

theorem Inv.new : ManagerImpl.new.Inv where
  run_ := iff_of_true rfl rfl
  guard_ := iff_of_true rfl (Or.inl rfl)
  stopped := by
    constructor
    · intro h
      cases h
    · intro h
      cases h.1
  finished := fun i h => by cases h
  joined := fun h => by cases h

/-- The thread is at another place, but in a handler if and only if it was. -/
theorem idle_setRunner {i : Fin 10} {x : Runner}
    (hx : x.isHandling = (s.runners_ i).isHandling) : (s.setRunner i x).Idle ↔ s.Idle := by
  have hsame : ∀ j, ((s.setRunner i x).runners_ j).isHandling = (s.runners_ j).isHandling := by
    intro j
    show (Function.update s.runners_ i x j).isHandling = _
    by_cases hj : j = i
    · rw [hj, Function.update_self, hx]
    · rw [Function.update_of_ne hj]
  show _ ∧ _ ∧ (∀ j, ((s.setRunner i x).runners_ j).isHandling = false) ↔ _
  simp only [hsame]
  rfl

/-- Somebody who calls is in a handler, or the manager is not being destroyed. -/
theorem Inv.not_stopped (h : s.Inv) {caller : Option (Fin 10)} (hcall : s.mayCall caller = true) :
    s.stopped = false := by
  apply Bool.eq_false_of_not_eq_true
  intro hstopped
  obtain ⟨hguard, hidle⟩ := h.stopped.mp hstopped
  cases caller with
  | none =>
    have hguard' := h.guard_.mpr (Or.inl (of_decide_eq_true hcall))
    rw [hguard] at hguard'
    cases hguard'
  | some i =>
    have hnot := hidle.2.2 i
    rw [show (s.runners_ i).isHandling = true from hcall] at hnot
    cases hnot

/-- There is something unfinished, so `io_` has not stopped. -/
theorem Inv.busy (h : s.Inv) (hbusy : ¬s.Idle) : s.stopped = false :=
  Bool.eq_false_of_not_eq_true fun hstopped => hbusy (h.stopped.mp hstopped).2

theorem not_idle_of_handling {i : Fin 10} (hi : (s.runners_ i).isHandling = true) : ¬s.Idle := by
  intro hidle
  rw [hidle.2.2 i] at hi
  cases hi

/-- Work is added, or handed on. -/
theorem Inv.works (h : s.Inv) (hstopped : s.stopped = false) {pending : Nat} {ready : List Nat}
    {runners_ : Fin 10 → Runner}
    (hbusy : ¬Idle { s with pending := pending, ready := ready, runners_ := runners_ })
    (hfinished : ∀ i, runners_ i = .finished → s.runners_ i = .finished)
    (hjoined : s.destructor = .returned → ∀ i, runners_ i = .finished) :
    Inv { s with pending := pending, ready := ready, runners_ := runners_ } where
  run_ := h.run_
  guard_ := h.guard_
  stopped := by
    constructor
    · intro hs
      have hs' : s.stopped = true := hs
      rw [hstopped] at hs'
      cases hs'
    · intro hidle
      exact absurd hidle.2 hbusy
  finished := fun i hi => h.finished i (hfinished i hi)
  joined := hjoined

/-- A thread moves on, but not from or to a handler. -/
theorem Inv.moves (h : s.Inv) {i : Fin 10} {x : Runner} (hnot : s.runners_ i ≠ .finished)
    (hx : x.isHandling = (s.runners_ i).isHandling) (hfinished : x = .finished → s.run_ = false) :
    (s.setRunner i x).Inv where
  run_ := h.run_
  guard_ := h.guard_
  stopped := by
    rw [idle_setRunner hx]
    exact h.stopped
  finished := by
    intro j hj
    by_cases hji : j = i
    · have hj' : Function.update s.runners_ i x j = .finished := hj
      rw [hji, Function.update_self] at hj'
      exact hfinished hj'
    · have hj' : Function.update s.runners_ i x j = .finished := hj
      rw [Function.update_of_ne hji] at hj'
      exact h.finished j hj'
  joined := fun hd => absurd (h.joined hd i) hnot

theorem workFinished_eq (s : ManagerImpl) :
    s.workFinished = { s with stopped := s.stopped || decide (s.guard_ = false ∧ s.Idle) } := by
  unfold workFinished
  split
  · next hout => simp [hout]
  · next hwork => simp [hwork]

/-- `io_` stops if the last work has been finished. -/
theorem Inv.workFinished (hstopped : s.stopped = false)
    (hrun : s.run_ = true ↔ s.destructor = .uncalled)
    (hguard : s.guard_ = true ↔ s.destructor = .uncalled ∨ s.destructor = .cleared)
    (hfinished : ∀ i, s.runners_ i = .finished → s.run_ = false)
    (hjoined : s.destructor = .returned → ∀ i, s.runners_ i = .finished) :
    s.workFinished.Inv := by
  rw [workFinished_eq, hstopped, Bool.false_or]
  exact ⟨hrun, hguard, decide_eq_true_iff, hfinished, hjoined⟩

theorem Inv.next (h : s.Inv) (hn : s.next l = some s') : s'.Inv := by
  cases step_of_next hn with
  | post x hcall =>
    refine h.works (h.not_stopped hcall) ?_ (fun _ hi => hi) h.joined
    intro hidle
    exact List.append_ne_nil_of_right_ne_nil _ (List.cons_ne_nil _ _) hidle.2.1
  | async hcall =>
    refine h.works (h.not_stopped hcall) ?_ (fun _ hi => hi) h.joined
    intro hidle
    exact Nat.succ_ne_zero _ hidle.1
  | finish x hpending =>
    refine h.works (h.busy ?_) ?_ (fun _ hi => hi) h.joined
    · intro hidle
      exact Nat.ne_of_gt hpending hidle.1
    · intro hidle
      exact List.append_ne_nil_of_right_ne_nil _ (List.cons_ne_nil _ _) hidle.2.1
  | enter hi hrun hstopped =>
    refine h.moves ?_ ?_ (fun heq => by cases heq)
    · rw [hi]
      intro heq
      cases heq
    · rw [hi]
      rfl
  | again => exact h
  | exit hi hrun =>
    refine h.moves ?_ ?_ (fun _ => hrun)
    · rw [hi]
      intro heq
      cases heq
    · rw [hi]
      rfl
  | @begin i x rest hi hstopped hready =>
    refine h.works hstopped ?_ ?_ ?_
    · apply not_idle_of_handling (i := i)
      show (Function.update s.runners_ i (.handling x) i).isHandling = true
      rw [Function.update_self]
      rfl
    · intro j hj
      by_cases hji : j = i
      · rw [hji, Function.update_self] at hj
        cases hj
      · rwa [Function.update_of_ne hji] at hj
    · intro hd
      have hi' := h.joined hd i
      rw [hi] at hi'
      cases hi'
  | @done i hi =>
    have hnot : s.runners_ i ≠ .finished := by
      intro heq
      rw [heq] at hi
      cases hi
    refine Inv.workFinished (h.busy (not_idle_of_handling hi)) h.run_ h.guard_ ?_ ?_
    · intro j hj
      have hj' : Function.update s.runners_ i .running j = .finished := hj
      by_cases hji : j = i
      · rw [hji, Function.update_self] at hj'
        cases hj'
      · rw [Function.update_of_ne hji] at hj'
        exact h.finished j hj'
    · intro hd
      exact absurd (h.joined hd i) hnot
  | leave hi hstopped =>
    refine h.moves ?_ ?_ (fun heq => by cases heq)
    · rw [hi]
      intro heq
      cases heq
    · rw [hi]
      rfl
  | clearRun hd =>
    refine ⟨?_, ?_, h.stopped, fun _ _ => rfl, fun heq => by cases heq⟩
    · exact iff_of_false (fun heq => by cases heq) (fun heq => by cases heq)
    · exact iff_of_true (h.guard_.mpr (Or.inl hd)) (Or.inr rfl)
  | resetGuard hd =>
    have hguard := h.guard_.mpr (Or.inr hd)
    have hrun : s.run_ = false := by
      apply Bool.eq_false_of_not_eq_true
      intro hrun
      rw [h.run_.mp hrun] at hd
      cases hd
    refine Inv.workFinished ?_ ?_ ?_ (fun _ _ => hrun) (fun heq => by cases heq)
    · apply Bool.eq_false_of_not_eq_true
      intro hstopped
      rw [(h.stopped.mp hstopped).1] at hguard
      cases hguard
    · show s.run_ = true ↔ _
      rw [hrun]
      exact iff_of_false (fun heq => by cases heq) (fun heq => by cases heq)
    · refine iff_of_false (fun heq => by cases heq) ?_
      intro heq
      rcases heq with heq | heq
      · cases heq
      · cases heq
  | join hd hall =>
    refine ⟨?_, ?_, h.stopped, h.finished, fun _ => hall⟩
    · rw [h.run_, hd]
      exact iff_of_false (fun heq => by cases heq) (fun heq => by cases heq)
    · rw [h.guard_, hd]
      simp

/-! ### Who runs what is unfinished -/

/-- The thread is in `io_.run`, or gets there. -/
def Serves (s : ManagerImpl) (i : Fin 10) : Prop :=
  (s.runners_ i).inRun = true ∨ (s.runners_ i = .testing ∧ s.run_ = true)

/-- **(W)** Nothing is unfinished, or there is a thread to run it. -/
def Served (s : ManagerImpl) : Prop := s.Idle ∨ ∃ i, s.Serves i

/-- `run_` is cleared when a thread is in `io_.run`, or nothing is unfinished. -/
def KeepsServed (s : ManagerImpl) : Label → Prop
  | .clearRun => s.Idle ∨ ∃ i, (s.runners_ i).inRun = true
  | _ => True

/-- A thread leaves `io_.run` when the guard has been reset and nothing is
    unfinished, and not before. -/
def LeavesIdle (_ : ManagerImpl) (l : Label) (s' : ManagerImpl) : Prop :=
  match l with
  | .leave _ => s'.guard_ = false ∧ s'.Idle
  | _ => True

theorem inRun_of_isHandling {x : Runner} (hx : x.isHandling = true) : x.inRun = true := by
  cases x with
  | handling h => rfl
  | _ => cases hx

/-- While `run_` is set no thread has finished. -/
theorem Inv.serves_of_run (h : s.Inv) (hrun : s.run_ = true) : ∃ i, s.Serves i := by
  refine ⟨0, ?_⟩
  cases hi : s.runners_ 0 with
  | testing => exact Or.inr ⟨hi, hrun⟩
  | finished =>
    rw [h.finished 0 hi] at hrun
    cases hrun
  | running => exact Or.inl (by rw [hi]; rfl)
  | handling x => exact Or.inl (by rw [hi]; rfl)

theorem Inv.serves_of_call (h : s.Inv) {caller : Option (Fin 10)}
    (hcall : s.mayCall caller = true) : ∃ i, s.Serves i := by
  cases caller with
  | none => exact h.serves_of_run (h.run_.mpr (of_decide_eq_true hcall))
  | some i => exact ⟨i, Or.inl (inRun_of_isHandling hcall)⟩

/-- A thread that is in `io_.run` after the step. -/
theorem served_setRunner {i : Fin 10} {x : Runner} (hx : x.inRun = true) :
    (s.setRunner i x).Served := by
  refine Or.inr ⟨i, Or.inl ?_⟩
  show (Function.update s.runners_ i x i).inRun = true
  rwa [Function.update_self]

theorem workFinished_served (s : ManagerImpl) : s.workFinished.Served ↔ s.Served := by
  rw [workFinished_eq]
  rfl

/-- A thread that runs nothing any more makes no difference. -/
theorem served_exit {i : Fin 10} (hi : s.runners_ i = .testing) (hrun : s.run_ = false) :
    (s.setRunner i .finished).Served ↔ s.Served := by
  have hidle : (s.setRunner i .finished).Idle ↔ s.Idle := by
    apply idle_setRunner
    rw [hi]
    rfl
  refine or_congr hidle (exists_congr fun j => ?_)
  show (Function.update s.runners_ i .finished j).inRun = true ∨ _ ∧ s.run_ = true ↔
    (s.runners_ j).inRun = true ∨ s.runners_ j = .testing ∧ s.run_ = true
  by_cases hji : j = i
  · rw [hji, Function.update_self, hi, hrun]
    simp [Runner.inRun]
  · rw [Function.update_of_ne hji, hrun]
    simp

/-- From where what is unfinished is served, only clearing `run_` can change
    that. -/
theorem Inv.served_next (h : s.Inv) (hserved : s.Served) (hn : s.next l = some s') :
    s'.Served ↔ s.KeepsServed l := by
  cases step_of_next hn with
  | post x hcall => exact iff_of_true (Or.inr (h.serves_of_call hcall)) trivial
  | async hcall => exact iff_of_true (Or.inr (h.serves_of_call hcall)) trivial
  | finish x hpending =>
    have hbusy : ¬s.Idle := fun hidle => Nat.ne_of_gt hpending hidle.1
    exact iff_of_true (Or.inr (hserved.resolve_left hbusy)) trivial
  | enter hi hrun hstopped => exact iff_of_true (served_setRunner rfl) trivial
  | again => exact iff_of_true hserved trivial
  | exit hi hrun => exact iff_of_true ((served_exit hi hrun).mpr hserved) trivial
  | begin hi hstopped hready => exact iff_of_true (served_setRunner rfl) trivial
  | done hi => exact iff_of_true ((workFinished_served _).mpr (served_setRunner rfl)) trivial
  | leave hi hstopped =>
    refine iff_of_true (Or.inl ?_) trivial
    rw [idle_setRunner (by rw [hi]; rfl)]
    exact (h.stopped.mp hstopped).2
  | clearRun hd =>
    -- a thread that comes to the test of `run_` now does not enter any more
    refine or_congr Iff.rfl (exists_congr fun i => ?_)
    exact or_iff_left fun htest => Bool.false_ne_true htest.2
  | resetGuard hd => exact iff_of_true ((workFinished_served _).mpr hserved) trivial
  | join hd hall => exact iff_of_true hserved trivial

/-- What nobody serves is never served again. -/
theorem Inv.served_back (h : s.Inv) (hn : s.next l = some s') (hserved : s'.Served) :
    s.Served := by
  cases step_of_next hn with
  | post x hcall => exact Or.inr (h.serves_of_call hcall)
  | async hcall => exact Or.inr (h.serves_of_call hcall)
  | finish x hpending =>
    rcases hserved with hidle | hserves
    · exact absurd hidle.2.1 (List.append_ne_nil_of_right_ne_nil _ (List.cons_ne_nil _ _))
    · exact Or.inr hserves
  | enter hi hrun hstopped => exact Or.inr (h.serves_of_run hrun)
  | again => exact hserved
  | exit hi hrun => exact (served_exit hi hrun).mp hserved
  | @begin i x rest hi hstopped hready => exact Or.inr ⟨i, Or.inl (by rw [hi]; rfl)⟩
  | @done i hi => exact Or.inr ⟨i, Or.inl (inRun_of_isHandling hi)⟩
  | @leave i hi hstopped => exact Or.inr ⟨i, Or.inl (by rw [hi]; rfl)⟩
  | clearRun hd => exact Or.inr (h.serves_of_run (h.run_.mpr hd))
  | resetGuard hd =>
    have hbefore := (workFinished_served _).mp hserved
    exact hbefore
  | join hd hall => exact hserved

/-- When the destructor has returned there is no thread. -/
theorem Inv.served_of_returned (h : s.Inv) (hd : s.destructor = .returned) :
    s.Served ↔ s.Idle := by
  refine or_iff_left ?_
  intro ⟨i, hi⟩
  rcases hi with hi | ⟨hi, _⟩
  · rw [h.joined hd i] at hi
    cases hi
  · rw [h.joined hd i] at hi
    cases hi

theorem Inv.leavesIdle (h : s.Inv) (hn : s.next l = some s') : LeavesIdle s l s' := by
  cases step_of_next hn with
  | leave hi hstopped =>
    obtain ⟨hguard, hidle⟩ := h.stopped.mp hstopped
    refine ⟨hguard, (idle_setRunner ?_).mpr hidle⟩
    rw [hi]
    rfl
  | _ => trivial

theorem inv_next (s : ManagerImpl) (l : Label) (s' : ManagerImpl) (h : s.Inv)
    (hn : system.next s l = some s') : s'.Inv := h.next hn

theorem inv_init (s : ManagerImpl) (hs : system.init s) : s.Inv := hs ▸ .new

/-- **What is unfinished is served** at the end of a run exactly when `run_` has
    not been cleared in it while something was unfinished and no thread was in
    `io_.run`. When the destructor has returned nothing is unfinished, under the
    same condition. And in any run, a thread leaves `io_.run` only when the guard
    has been reset and nothing is unfinished. -/
theorem threads_serve_iff {s : ManagerImpl} (r : Run system s) :
    (s.Served ↔ r.EachStep KeepsServed) ∧
      (s.destructor = .returned → (s.Idle ↔ r.EachStep KeepsServed)) ∧ r.Ensures LeavesIdle := by
  have hserved : s.Served ↔ r.EachStep KeepsServed := by
    apply r.last_iff (I := Inv)
    · intro s hs
      have h := inv_init s hs
      exact ⟨h, Or.inr (h.serves_of_run (hs ▸ rfl))⟩
    · exact inv_next
    · intro s l s' h hold hn
      exact h.served_next hold hn
    · intro s l s' h hn hnew
      exact h.served_back hn hnew
  refine ⟨hserved, ?_, r.ensures inv_init inv_next fun s l s' h hn => h.leavesIdle hn⟩
  intro hd
  have h := r.invariant inv_init inv_next
  exact (h.served_of_returned hd).symm.trans hserved

/-- The manager is destroyed before its threads have begun, and a handler that has
    been posted is left. -/
theorem destroyed_before_begun :
    ∃ (s : ManagerImpl) (r : Run system s), s.destructor = .returned ∧ s.ready = [0] ∧
      ¬ r.EachStep KeepsServed := by
  obtain ⟨s, r, _, hs⟩ := Run.exists_of_check system rfl
    ([.post none 0, .clearRun, .resetGuard] ++ (List.finRange 10).map .test ++ [.join])
    (fun _ _ => true) (fun s => decide (s.destructor = .returned) && decide (s.ready = [0]))
    (by decide)
  simp only [Bool.and_eq_true, decide_eq_true_eq] at hs
  obtain ⟨hreturned, hready⟩ := hs
  refine ⟨s, r, hreturned, hready, fun hkept => ?_⟩
  have hidle := ((threads_serve_iff r).2.1 hreturned).mpr hkept
  rw [hidle.2.1] at hready
  cases hready

/-! ### The handlers -/

/-- The handler that a thread begins with. -/
def begun (s : ManagerImpl) : Label → List Nat
  | .begin _ => s.ready.take 1
  | _ => []

/-- The handler that is ready after the step. -/
def added (_ : ManagerImpl) : Label → List Nat
  | .post _ h => [h]
  | .finish h => [h]
  | _ => []

theorem workFinished_ready (s : ManagerImpl) : s.workFinished.ready = s.ready := by
  rw [workFinished_eq]

/-- Handlers are begun in the order in which they have become ready, each of them
    once: on every run, what has been begun, followed by what is ready, is what has
    become ready. -/
theorem handlers_in_order {s : ManagerImpl} (r : Run system s) :
    r.collect begun ++ s.ready = r.collect added := by
  refine r.conservation (I := fun _ => True) ?_ ?_ ?_
  · intro s hs
    exact ⟨trivial, hs ▸ rfl⟩
  · intro s l s' _ _
    trivial
  · intro s l s' _ hn
    cases step_of_next hn with
    | begin hi hstopped hready =>
      show s.ready.take 1 ++ _ = s.ready ++ []
      rw [hready, List.append_nil]
      rfl
    | done hi =>
      show [] ++ (s.setRunner _ .running).workFinished.ready = s.ready ++ []
      rw [workFinished_ready, List.append_nil]
      rfl
    | resetGuard hd =>
      show [] ++ ManagerImpl.ready (workFinished _) = s.ready ++ []
      rw [workFinished_ready, List.append_nil]
      rfl
    | post x hcall => rfl
    | finish x hpending => rfl
    | _ => exact (List.append_nil _).symm

/-! ### The destructor returns -/

def rank (s : ManagerImpl) : Nat :=
  3 * s.pending + 2 * s.ready.length + ∑ i, (s.runners_ i).rank + s.destructor.rank

theorem rank_setRunner (s : ManagerImpl) (i : Fin 10) (x : Runner) :
    (s.setRunner i x).rank + (s.runners_ i).rank = s.rank + x.rank := by
  have hsum := sum_update_add (Finset.mem_univ i) s.runners_ x Runner.rank
  show 3 * s.pending + 2 * s.ready.length + ∑ j, (Function.update s.runners_ i x j).rank +
    s.destructor.rank + (s.runners_ i).rank =
    3 * s.pending + 2 * s.ready.length + ∑ j, (s.runners_ j).rank + s.destructor.rank + x.rank
  omega

theorem rank_workFinished (s : ManagerImpl) : s.workFinished.rank = s.rank := by
  rw [workFinished_eq]
  rfl

/-- Nothing is posted or started. -/
def Label.finishing : Label → Bool
  | .post _ _ => false
  | .async _ => false
  | _ => true

/-- Something can be done, and nothing that adds to what is to be done. -/
def Due (s : ManagerImpl) : Prop :=
  ∃ l s', l.finishing = true ∧ s.next l = some s' ∧ s'.rank < s.rank

/-- A handler comes to its end. -/
theorem done_due {i : Fin 10} (hi : (s.runners_ i).isHandling = true) : s.Due := by
  refine ⟨.done i, _, rfl, if_pos hi, ?_⟩
  rw [rank_workFinished]
  have hrank := rank_setRunner s i .running
  have hhandling : (s.runners_ i).rank = 3 := by
    cases hx : s.runners_ i with
    | handling x => rfl
    | _ => simp [hx, Runner.isHandling] at hi
  rw [hhandling] at hrank
  simp only [Runner.rank] at hrank
  omega

/-- What is ready is taken by a thread that is in `io_.run`. -/
theorem begin_due {i : Fin 10} {x : Nat} {rest : List Nat} (hi : s.runners_ i = .running)
    (hstopped : s.stopped = false) (hready : s.ready = x :: rest) : s.Due := by
  have hn : s.next (.begin i) = some ({ s with ready := rest }.setRunner i (.handling x)) := by
    simp [ManagerImpl.next, hi, hstopped, hready]
  refine ⟨.begin i, _, rfl, hn, ?_⟩
  have hrank := rank_setRunner { s with ready := rest } i (.handling x)
  have hless : ({ s with ready := rest } : ManagerImpl).rank + 2 = s.rank := by
    simp only [rank, hready, List.length_cons]
    omega
  simp only [hi, Runner.rank] at hrank
  omega

/-- Something is unfinished and a thread is in `io_.run`. -/
theorem busy_due {i : Fin 10} (hi : s.runners_ i = .running) (hstopped : s.stopped = false)
    (hbusy : ¬s.Idle) : s.Due := by
  by_cases hpending : 0 < s.pending
  · refine ⟨.finish 0, _, rfl, if_pos hpending, ?_⟩
    simp only [rank, List.length_append, List.length_singleton]
    omega
  · cases hready : s.ready with
    | cons x rest => exact begin_due hi hstopped hready
    | nil =>
      -- what is unfinished is in a handler then
      have hhandling : ∃ j, (s.runners_ j).isHandling = true := by
        by_contra hnone
        apply hbusy
        refine ⟨by omega, hready, fun j => ?_⟩
        exact Bool.eq_false_of_not_eq_true fun hj => hnone ⟨j, hj⟩
      obtain ⟨j, hj⟩ := hhandling
      exact done_due hj

/-- A thread that the destructor waits for. -/
theorem Inv.runner_due (h : s.Inv) (hrun : s.run_ = false) (hguard : s.guard_ = false)
    {i : Fin 10} (hi : s.runners_ i ≠ .finished) : s.Due := by
  cases hx : s.runners_ i with
  | finished => exact absurd hx hi
  | handling x => exact done_due (i := i) (by rw [hx]; rfl)
  | testing =>
    have hn : s.next (.test i) = some (s.setRunner i .finished) := by
      simp [ManagerImpl.next, hx, hrun]
    refine ⟨.test i, _, rfl, hn, ?_⟩
    have hrank := rank_setRunner s i .finished
    simp only [hx, Runner.rank] at hrank
    omega
  | running =>
    by_cases hidle : s.Idle
    · refine ⟨.leave i, _, rfl, if_pos ⟨hx, h.stopped.mpr ⟨hguard, hidle⟩⟩, ?_⟩
      have hrank := rank_setRunner s i .testing
      simp only [hx, Runner.rank] at hrank
      omega
    · exact busy_due hx (h.busy hidle) hidle

/-- Until the destructor has returned there is something to be done. -/
theorem Inv.due (h : s.Inv) (hd : s.destructor ≠ .returned) : s.Due := by
  cases hdes : s.destructor with
  | uncalled =>
    refine ⟨.clearRun, _, rfl, if_pos hdes, ?_⟩
    simp [rank, hdes, Destructor.rank]
  | cleared =>
    refine ⟨.resetGuard, _, rfl, if_pos hdes, ?_⟩
    rw [rank_workFinished]
    simp [rank, hdes, Destructor.rank]
  | returned => exact absurd hdes hd
  | joining =>
    by_cases hall : ∀ i, s.runners_ i = .finished
    · refine ⟨.join, _, rfl, if_pos ⟨hdes, hall⟩, ?_⟩
      simp [rank, hdes, Destructor.rank]
    · obtain ⟨i, hi⟩ := not_forall.mp hall
      refine h.runner_due (Bool.eq_false_iff.mpr ?_) (Bool.eq_false_iff.mpr ?_) hi
      · rw [ne_eq, h.run_, hdes]
        simp
      · rw [ne_eq, h.guard_, hdes]
        simp

/-- **The destructor can return**, from every state of every run, when the
    operations finish and nothing more is started. -/
theorem destructor_returns {s : ManagerImpl} (r : Run system s) :
    ∃ ls s', (∀ l ∈ ls, l.finishing = true) ∧ system.exec s ls = some s' ∧
      s'.destructor = .returned := by
  apply System.reaches (I := Inv) rank
  · intro s h hd
    obtain ⟨l, s', hl, hn, hlt⟩ := h.due hd
    exact ⟨l, s', hl, hn, h.next hn, hlt⟩
  · exact r.invariant inv_init inv_next

end ManagerImpl

end DeviceTester
