import Mathlib.Data.List.Basic

/-! # A mutex with two modes

  Any number of threads own it in shared mode, or one of them in exclusive
  mode. The state is the list of the owners, each with its mode.

  `Sound` is the invariant, and `Sound.alone` what an exclusive owner gets from
  it: there is nobody else.
-/

namespace Lock

universe u

inductive Mode where
  | shared
  | exclusive
  deriving DecidableEq, Repr

structure SharedMutex (Thread : Type u) where
  owners : List (Thread × Mode)
  deriving Repr

namespace SharedMutex

variable {Thread : Type u}

def free : SharedMutex Thread := ⟨[]⟩

/-- Whether a thread that asks for the mode gets it now. -/
def grants (m : SharedMutex Thread) : Mode → Bool
  | .shared => m.owners.all fun o => o.2 == .shared
  | .exclusive => m.owners.isEmpty

def lock (m : SharedMutex Thread) (t : Thread) (mode : Mode) : Option (SharedMutex Thread) :=
  if m.grants mode then some ⟨(t, mode) :: m.owners⟩ else none

def unlock [DecidableEq Thread] (m : SharedMutex Thread) (t : Thread) : SharedMutex Thread :=
  ⟨m.owners.filter fun o => o.1 ≠ t⟩

theorem lock_eq_some {m m' : SharedMutex Thread} {t : Thread} {mode : Mode} :
    m.lock t mode = some m' ↔ m.grants mode = true ∧ ⟨(t, mode) :: m.owners⟩ = m' := by
  unfold lock
  by_cases h : m.grants mode = true <;> simp [h]

@[simp] theorem mem_unlock [DecidableEq Thread] {m : SharedMutex Thread} {t : Thread}
    {o : Thread × Mode} : o ∈ (m.unlock t).owners ↔ o ∈ m.owners ∧ o.1 ≠ t := by
  simp [unlock]

/-- An exclusive owner is the only one. -/
def Sound (m : SharedMutex Thread) : Prop :=
  ∀ o ∈ m.owners, o.2 = .exclusive → m.owners = [o]

theorem Sound.free : (free : SharedMutex Thread).Sound := by
  intro o ho
  exact absurd ho List.not_mem_nil

theorem Sound.lock {m m' : SharedMutex Thread} {t : Thread} {mode : Mode}
    (hl : m.lock t mode = some m') : m'.Sound := by
  obtain ⟨hgrants, rfl⟩ := lock_eq_some.mp hl
  intro o ho hexclusive
  cases mode with
  | shared =>
    -- every owner is a shared one
    rcases List.mem_cons.mp ho with rfl | ho
    · cases hexclusive
    · have hshared := List.all_eq_true.mp hgrants o ho
      rw [hexclusive] at hshared
      cases hshared
  | exclusive =>
    have hnone : m.owners = [] := List.isEmpty_iff.mp hgrants
    rw [hnone, List.mem_singleton] at ho
    rw [hnone, ho]

theorem Sound.unlock [DecidableEq Thread] {m : SharedMutex Thread} (h : m.Sound) (t : Thread) :
    (m.unlock t).Sound := by
  intro o ho hexclusive
  obtain ⟨hmem, hne⟩ := mem_unlock.mp ho
  show m.owners.filter (fun o => o.1 ≠ t) = [o]
  rw [h o hmem hexclusive]
  simp [hne]

/-- **Mutual exclusion**: who owns the mutex beside an exclusive owner is that
    owner. -/
theorem Sound.alone {m : SharedMutex Thread} (h : m.Sound) {t t' : Thread} {mode : Mode}
    (ht : (t, .exclusive) ∈ m.owners) (ht' : (t', mode) ∈ m.owners) : t' = t := by
  rw [h _ ht rfl, List.mem_singleton] at ht'
  exact congrArg Prod.fst ht'

end SharedMutex

end Lock
