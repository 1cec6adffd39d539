import DeviceTester.Framework.Run
import Mathlib.Data.List.Perm.Basic

/-! # Monitors

  The operations of a system are called by threads, and are done under one mutex.
  A call that is not enabled gives the mutex back and sleeps on a condition
  variable. A call that has been done gives the mutex back, and then notifies one
  of those that sleep on a condition variable. Threads may also wake up without
  having been notified.

  Each call is done once, and the system does not see the mutex (`refines`). No
  notification is missing as long as an operation lets in at most one more of those
  that it notifies (`Counts`): whoever is scheduled, after a number of steps there
  is nobody left but those that cannot go on (`settles`).
-/

namespace Monitors

open LTS

universe u v w

variable {Data Op : Type u} {Thread : Type v} {Cond : Type w}

/-! ### The steps -/

/-- Who calls the operations of `A`, and which condition variables they use. -/
structure Monitor (A : System Data Op) (Thread : Type v) (Cond : Type w) where
  caller : Op → Thread
  /-- Where a call sleeps while it is not enabled. -/
  waitsOn : Op → Cond
  /-- Where it wakes up another one when it has been done. -/
  notifies : Op → Cond

structure State (Data Op : Type u) where
  data : Data
  /-- The calls that are to take the mutex. -/
  entering : List Op
  /-- The one that has it. -/
  inside : Option Op
  asleep : List Op
  /-- Those that have been done, and are to notify. -/
  leaving : List Op

inductive Label (Op : Type u) where
  | call (op : Op)
  | lock (i : Nat)
  /-- The guard is tested, and the mutex given back in either case. -/
  | perform
  | notify (i : Nat) (woken : Option Nat)
  /-- Nobody has notified the call that wakes up. -/
  | wake (i : Nat)

namespace State

/-- The calls that have not been done. -/
def pending (s : State Data Op) : List Op := s.entering ++ s.inside.toList ++ s.asleep

def calls (s : State Data Op) : List Op := s.pending ++ s.leaving

/-- The `i`-th of those that sleep has to take the mutex again. -/
def rouse (s : State Data Op) (i : Nat) (op : Op) : State Data Op :=
  { s with asleep := s.asleep.eraseIdx i, entering := s.entering ++ [op] }

/-- How much is left to do. Waking up costs less than the notification. -/
def rank (s : State Data Op) : Nat :=
  5 * s.entering.length + 4 * s.inside.toList.length + 3 * s.asleep.length + 3 * s.leaving.length

end State

/-- The step begins no call and wakes up nobody without a notification. -/
def Label.working : Label Op → Bool
  | .call _ => false
  | .wake _ => false
  | _ => true

namespace Monitor

variable {A : System Data Op} [DecidableEq Thread] [DecidableEq Cond]

def perform (A : System Data Op) (s : State Data Op) (op : Op) : State Data Op :=
  match A.next s.data op with
  | some d => { s with data := d, inside := none, leaving := s.leaving ++ [op] }
  | none => { s with inside := none, asleep := s.asleep ++ [op] }

variable (M : Monitor A Thread Cond)

/-- `woken` is one of those that sleep on `c`, if there are any. -/
def notifyOne (s : State Data Op) (c : Cond) : Option Nat → Option (State Data Op)
  | some j =>
      s.asleep[j]?.bind fun op => if M.waitsOn op = c then some (s.rouse j op) else none
  | none => if s.asleep.any fun op => M.waitsOn op = c then none else some s

def next (s : State Data Op) : Label Op → Option (State Data Op)
  | .call op =>
      if M.caller op ∈ s.calls.map M.caller then none
      else some { s with entering := s.entering ++ [op] }
  | .lock i =>
      if s.inside.isSome then none
      else s.entering[i]?.map fun op =>
        { s with entering := s.entering.eraseIdx i, inside := some op }
  | .perform => s.inside.map (perform A s)
  | .notify i woken =>
      s.leaving[i]?.bind fun op =>
        M.notifyOne { s with leaving := s.leaving.eraseIdx i } (M.notifies op) woken
  | .wake i => s.asleep[i]?.map (s.rouse i)

def system : System (State Data Op) (Label Op) where
  init := fun s => A.init s.data ∧ s.calls = []
  next := M.next

/-- The operation that the step does. -/
def done (A : System Data Op) (s : State Data Op) : Label Op → List Op
  | .perform => s.inside.toList.filter fun op => (A.next s.data op).isSome
  | _ => []

/-- The call that the step begins. -/
def called : Label Op → List Op
  | .call op => [op]
  | _ => []

/-! ### What one step can do -/

inductive Step (s : State Data Op) : Label Op → State Data Op → Prop
  | call {op : Op} : Step s (.call op) { s with entering := s.entering ++ [op] }
  | lock {i : Nat} {op : Op} (hfree : s.inside = none) (hi : s.entering[i]? = some op) :
      Step s (.lock i) { s with entering := s.entering.eraseIdx i, inside := some op }
  | does {op : Op} {d : Data} (hin : s.inside = some op) (hd : A.next s.data op = some d) :
      Step s .perform { s with data := d, inside := none, leaving := s.leaving ++ [op] }
  | sleeps {op : Op} (hin : s.inside = some op) (hd : A.next s.data op = none) :
      Step s .perform { s with inside := none, asleep := s.asleep ++ [op] }
  | notifies {i j : Nat} {op woken : Op} (hi : s.leaving[i]? = some op)
      (hj : s.asleep[j]? = some woken) (hc : M.waitsOn woken = M.notifies op) :
      Step s (.notify i (some j))
        (State.rouse { s with leaving := s.leaving.eraseIdx i } j woken)
  | notifiesNobody {i : Nat} {op : Op} (hi : s.leaving[i]? = some op)
      (hnone : ∀ w ∈ s.asleep, M.waitsOn w ≠ M.notifies op) :
      Step s (.notify i none) { s with leaving := s.leaving.eraseIdx i }
  | wake {i : Nat} {op : Op} (hi : s.asleep[i]? = some op) : Step s (.wake i) (s.rouse i op)

variable {M} {s s' : State Data Op} {l : Label Op}

theorem step_of_next (hn : M.system.next s l = some s') : M.Step s l s' := by
  cases l with
  | call op =>
    obtain ⟨_, heq⟩ := Option.ite_none_left_eq_some.mp hn
    exact Option.some.inj heq ▸ .call
  | lock i =>
    obtain ⟨hfree, hn⟩ := Option.ite_none_left_eq_some.mp hn
    obtain ⟨op, hi, rfl⟩ := Option.map_eq_some_iff.mp hn
    exact .lock (by simpa using hfree) hi
  | perform =>
    obtain ⟨op, hin, rfl⟩ := Option.map_eq_some_iff.mp hn
    unfold Monitor.perform
    split
    · next d hd => exact .does hin hd
    · next hd => exact .sleeps hin hd
  | notify i woken =>
    obtain ⟨op, hi, hn⟩ := Option.bind_eq_some_iff.mp hn
    cases woken with
    | some j =>
      obtain ⟨woken, hj, hn⟩ := Option.bind_eq_some_iff.mp hn
      obtain ⟨hc, heq⟩ := Option.ite_none_right_eq_some.mp hn
      exact Option.some.inj heq ▸ .notifies hi hj hc
    | none =>
      obtain ⟨hnone, heq⟩ := Option.ite_none_left_eq_some.mp hn
      exact Option.some.inj heq ▸ .notifiesNobody hi (by simpa using hnone)
  | wake i =>
    obtain ⟨op, hi, rfl⟩ := Option.map_eq_some_iff.mp hn
    exact .wake hi

theorem perm_eraseIdx {ops : List Op} {i : Nat} {op : Op} (hi : ops[i]? = some op) :
    ops.Perm (op :: ops.eraseIdx i) := by
  obtain ⟨hlt, rfl⟩ := List.getElem?_eq_some_iff.mp hi
  exact (List.getElem_cons_eraseIdx_perm hlt).symm

/-! ### The system does not see the mutex -/

/-- A call is done when its guard holds, and by nobody else. -/
def refines (M : Monitor A Thread Cond) : Simulation M.system A where
  abs := State.data
  labels := done A
  init := fun _ h => h.1
  next := by
    intro s l s' hn
    cases step_of_next hn with
    | does hin hd => simp [done, hin, hd, System.exec]
    | sleeps hin hd => simp [done, hin, hd]
    | _ => rfl

theorem collect_refines {α : Type u} (f : Data → Op → List α) (r : Run M.system s) :
    (M.refines.run r).collect f = r.collect fun s l => (done A s l).flatMap (f s.data) := by
  rw [Simulation.collect_run]
  congr 1
  funext s l
  show A.emits f s.data (done A s l) = _
  cases l with
  | perform =>
    cases hin : s.inside with
    | none => simp [done, hin, System.emits]
    | some op =>
      by_cases hd : (A.next s.data op).isSome = true
      · simp [done, hin, hd, System.emits_singleton]
      · simp [done, hin, hd, System.emits]
  | _ => rfl

/-- A step takes out of the calls that have not been done the one that it does. -/
theorem pending_step (hn : M.system.next s l = some s') :
    (s.pending ++ called l).Perm (done A s l ++ s'.pending) := by
  classical
  rw [List.perm_iff_count]
  intro a
  unfold State.pending
  cases step_of_next hn with
  | call =>
    simp [called, done, List.count_cons]
    omega
  | lock hfree hi =>
    have hcount := (perm_eraseIdx hi).count_eq a
    simp [called, done, hfree, List.count_cons] at hcount ⊢
    omega
  | does hin hd =>
    simp [called, done, hin, hd, List.count_cons]
    omega
  | sleeps hin hd => simp [called, done, hin, hd, List.count_cons]
  | notifies hi hj hc =>
    have hcount := (perm_eraseIdx hj).count_eq a
    simp [called, done, State.rouse, List.count_cons] at hcount ⊢
    omega
  | notifiesNobody hi hnone => simp [called, done]
  | wake hi =>
    have hcount := (perm_eraseIdx hi).count_eq a
    simp [called, done, State.rouse, List.count_cons] at hcount ⊢
    omega

/-- **Each call is done once**: those that have been begun are those that have been
    done and those that have not. -/
theorem called_perm {s : State Data Op} (r : Run M.system s) :
    (r.collect fun _ l => called l).Perm (r.collect (done A) ++ s.pending) := by
  induction r with
  | start s h =>
    have hnone : s.pending = [] := (List.append_eq_nil_iff.mp h.2).1
    rw [hnone]
    exact .refl _
  | @step s r l s' hn ih =>
    have hstep := pending_step hn
    show (r.collect (fun _ l => called l) ++ called l).Perm
      (r.collect (done A) ++ done A s l ++ s'.pending)
    have hboth := ih.append_right (called l)
    rw [List.append_assoc] at hboth ⊢
    exact hboth.trans (hstep.append_left _)

/-! ### Nobody sleeps for too long -/

/-- The calls that will test the guard of those that sleep on `c`, or wake up one
    of these. -/
def coming (M : Monitor A Thread Cond) (s : State Data Op) (c : Cond) : Nat :=
  s.entering.countP (fun op => M.waitsOn op = c) +
    s.inside.toList.countP (fun op => M.waitsOn op = c) +
    s.leaving.countP fun op => M.notifies op = c

/-- `room` counts how many of the calls that wait on a condition variable can be
    done. One of them that is done leaves less room, and each operation makes room
    for one of those that it notifies. -/
structure Counts (M : Monitor A Thread Cond) (I : Data → Prop) (room : Data → Cond → Nat) :
    Prop where
  init : ∀ d, A.init d → I d
  next : ∀ d op d', I d → A.next d op = some d' → I d'
  enabled : ∀ d op, I d → ((A.next d op).isSome = true ↔ 0 < room d (M.waitsOn op))
  change : ∀ d op d' c, I d → A.next d op = some d' →
    room d' c + (if M.waitsOn op = c then 1 else 0) ≤
      room d c + if M.notifies op = c then 1 else 0

/-- While somebody sleeps there is no more room than for those that are coming. -/
structure Sound (M : Monitor A Thread Cond) (I : Data → Prop) (room : Data → Cond → Nat)
    (s : State Data Op) : Prop where
  inv : I s.data
  coming : ∀ w ∈ s.asleep, room s.data (M.waitsOn w) ≤ M.coming s (M.waitsOn w)

variable {I : Data → Prop} {room : Data → Cond → Nat}

theorem Sound.next (hM : M.Counts I room) (h : M.Sound I room s)
    (hn : M.system.next s l = some s') : M.Sound I room s' := by
  cases step_of_next hn with
  | call =>
    refine ⟨h.inv, fun w hw => (h.coming w hw).trans ?_⟩
    simp [Monitor.coming]
  | lock hfree hi =>
    refine ⟨h.inv, fun w hw => (h.coming w hw).trans ?_⟩
    have hcount := (perm_eraseIdx hi).countP_eq fun op => M.waitsOn op = M.waitsOn w
    simp [Monitor.coming, hfree, List.countP_cons] at hcount ⊢
    omega
  | does hin hd =>
    refine ⟨hM.next _ _ _ h.inv hd, fun w hw => ?_⟩
    have hbefore := h.coming w hw
    have hchange := hM.change _ _ _ (M.waitsOn w) h.inv hd
    simp [Monitor.coming, hin, List.countP_cons] at hbefore ⊢
    omega
  | @sleeps op hin hd =>
    -- there is no room for the one that goes to sleep
    refine ⟨h.inv, fun w hw => ?_⟩
    by_cases hc : M.waitsOn op = M.waitsOn w
    · have hnone : ¬0 < room s.data (M.waitsOn w) := by
        rw [← hc, ← hM.enabled _ _ h.inv, hd]
        simp
      show room s.data (M.waitsOn w) ≤ _
      omega
    · have hold : w ∈ s.asleep := by
        rcases List.mem_append.mp hw with hold | hnew
        · exact hold
        · rw [List.mem_singleton.mp hnew] at hc
          exact absurd rfl hc
      have hbefore := h.coming w hold
      simpa [Monitor.coming, hin, hc] using hbefore
  | notifies hi hj hc =>
    refine ⟨h.inv, fun w hw => ?_⟩
    have hbefore := h.coming w (List.mem_of_mem_eraseIdx hw)
    have hcount := (perm_eraseIdx hi).countP_eq fun op => M.notifies op = M.waitsOn w
    simp [Monitor.coming, State.rouse, List.countP_cons, hc] at hbefore hcount ⊢
    omega
  | @notifiesNobody i op hi hnone =>
    refine ⟨h.inv, fun w hw => ?_⟩
    have hbefore := h.coming w hw
    have hcount := (perm_eraseIdx hi).countP_eq fun op => M.notifies op = M.waitsOn w
    have hne : M.notifies op ≠ M.waitsOn w := (hnone w hw).symm
    simp [Monitor.coming, hne] at hbefore hcount ⊢
    omega
  | wake hi =>
    refine ⟨h.inv, fun w hw => ?_⟩
    have hbefore := h.coming w (List.mem_of_mem_eraseIdx hw)
    simp [Monitor.coming, State.rouse] at hbefore ⊢
    omega

theorem sound (hM : M.Counts I room) {s : State Data Op} (r : Run M.system s) :
    M.Sound I room s := by
  apply r.invariant
  · intro s h
    have hnone : s.asleep = [] := by
      have hcalls := h.2
      simp only [State.calls, State.pending, List.append_eq_nil_iff] at hcalls
      exact hcalls.1.2
    refine ⟨hM.init _ h.1, fun w hw => ?_⟩
    rw [hnone] at hw
    cases hw
  · intro s l s' h hn
    exact h.next hM hn

/-! ### Everybody returns who can -/

/-- Nobody has anything to do but sleep. -/
structure Settled (A : System Data Op) (s : State Data Op) : Prop where
  entering : s.entering = []
  inside : s.inside = none
  leaving : s.leaving = []
  asleep : ∀ op ∈ s.asleep, A.next s.data op = none

theorem rank_lt (hl : l.working = true) (hn : M.system.next s l = some s') :
    s'.rank < s.rank := by
  unfold State.rank
  cases step_of_next hn with
  | call => cases hl
  | lock hfree hi =>
    have hlen := (perm_eraseIdx hi).length_eq
    simp only [hfree, List.length_cons, Option.toList_some, Option.toList_none,
      List.length_nil] at hlen ⊢
    omega
  | does hin hd =>
    simp only [hin, List.length_append, List.length_cons, Option.toList_some, Option.toList_none,
      List.length_nil]
    omega
  | sleeps hin hd =>
    simp only [hin, List.length_append, List.length_cons, Option.toList_some, Option.toList_none,
      List.length_nil]
    omega
  | notifies hi hj hc =>
    have hlen := (perm_eraseIdx hi).length_eq
    have hlen' := (perm_eraseIdx hj).length_eq
    simp only [State.rouse, List.length_append, List.length_cons, List.length_nil] at hlen hlen' ⊢
    omega
  | notifiesNobody hi hnone =>
    have hlen := (perm_eraseIdx hi).length_eq
    rw [List.length_cons] at hlen
    simp only
    omega
  | wake hi => cases hl

/-- Who is to notify finds somebody to wake up, or nobody. -/
theorem notify_enabled {op : Op} (hi : s.leaving[0]? = some op) :
    ∃ woken, (M.system.next s (.notify 0 woken)).isSome = true := by
  by_cases hnone : s.asleep.any (fun w => M.waitsOn w = M.notifies op) = true
  · obtain ⟨w, hw, hc⟩ := List.any_eq_true.mp hnone
    obtain ⟨j, hj⟩ := List.getElem?_of_mem hw
    refine ⟨some j, ?_⟩
    show ((s.leaving[0]?).bind _).isSome = true
    rw [hi, Option.bind_some]
    simp only [notifyOne, hj, Option.bind_some, of_decide_eq_true hc, if_true]
    rfl
  · refine ⟨none, ?_⟩
    show ((s.leaving[0]?).bind _).isSome = true
    rw [hi, Option.bind_some]
    simp only [notifyOne, hnone]
    rfl

/-- Where there is nothing to do, there is no room for those that sleep. -/
theorem Sound.settled (hM : M.Counts I room) (h : M.Sound I room s)
    (hnone : ∀ l : Label Op, l.working = true → M.system.next s l = none) : Settled A s := by
  have hinside : s.inside = none := by
    have hperform : s.inside.map (perform A s) = none := hnone .perform rfl
    exact Option.map_eq_none_iff.mp hperform
  have hentering : s.entering = [] := by
    have hlock := hnone (.lock 0) rfl
    simpa [system, Monitor.next, hinside] using hlock
  have hleaving : s.leaving = [] := by
    cases hs : s.leaving with
    | nil => rfl
    | cons op ops =>
      have hi : s.leaving[0]? = some op := by rw [hs, List.getElem?_cons_zero]
      obtain ⟨woken, hsome⟩ := notify_enabled (M := M) hi
      rw [hnone _ rfl] at hsome
      cases hsome
  refine ⟨hentering, hinside, hleaving, fun op hop => ?_⟩
  have hroom := h.coming op hop
  have hzero : M.coming s (M.waitsOn op) = 0 := by
    simp [Monitor.coming, hentering, hinside, hleaving]
  by_contra hsome
  have hpos := (hM.enabled _ op h.inv).mp (Option.isSome_iff_ne_none.mpr hsome)
  omega

/-- **Everybody returns who can**: from every state of a run, whoever is scheduled,
    after a number of steps there is nothing left to do, and all that have not
    returned are calls that are not enabled. -/
theorem settles (hM : M.Counts I room) {s s' : State Data Op} (r : Run M.system s)
    {ls : List (Label Op)} (hls : ∀ l ∈ ls, l.working = true)
    (hexec : M.system.exec s ls = some s') :
    ls.length + s'.rank ≤ s.rank ∧
      ((∀ l : Label Op, l.working = true → M.system.next s' l = none) → Settled A s') := by
  refine ⟨?_, fun hnone => ?_⟩
  · exact System.length_exec_le State.rank (fun s l s' hl hn => rank_lt hl hn) hls hexec
  · exact (sound hM (r.extend ls hexec)).settled hM hnone

end Monitor

end Monitors
