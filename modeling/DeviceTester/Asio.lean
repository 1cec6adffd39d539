import DeviceTester.Framework.Operations

/-! # Error codes and cancelled operations

  The part of Asio the connection classes rely on, over the outstanding
  operations of `Framework.Operations`: an operation is reported as aborted
  exactly when it has been cancelled while in progress, so the operations that
  are not aborted are the ones that still belong to somebody (`live`).
-/

namespace DeviceTester

open Async

/-- The values of `asio::error_code` the handlers and the model tell apart. -/
inductive ErrorCode where
  | operation_aborted
  | bad_descriptor
  | already_open
  | other (value : Nat)
  deriving DecidableEq, Repr

variable {κ α : Type}

/-- `IpProtocol` of `connection.hpp`. -/
inductive IpProtocol where
  | none
  | ipv4
  | ipv6
  deriving DecidableEq, Repr

/-- `udp::v4()` and `tcp::v4()`, or `v6()`. -/
inductive Version where
  | v4
  | v6
  deriving DecidableEq, Repr

/-- An endpoint to listen on: any address of the version. -/
structure ListenEndpoint where
  version : Version
  port : UInt16
  deriving DecidableEq, Repr

/-- A result that may be reported for an operation in progress that nobody
    cancels. -/
def reportable : Except ErrorCode α → Bool
  | .ok _ => true
  | .error ec => decide (ec ≠ .operation_aborted)

/-- The operation has not been cancelled. -/
def live (o : Operation κ (Except ErrorCode α)) : Bool :=
  match o.result with
  | some (.error .operation_aborted) => false
  | _ => true

/-- `close` and `cancel` of a socket, a serial port or an acceptor. -/
def cancelAll (ops : Operations κ (Except ErrorCode α)) : Operations κ (Except ErrorCode α) :=
  ops.abort (.error .operation_aborted)

/-- How many operations have not been cancelled. -/
def liveCount (ops : Operations κ (Except ErrorCode α)) : Nat := ops.countP live

/-- How many operations are in progress. -/
def pendingCount (ops : Operations κ (Except ErrorCode α)) : Nat :=
  ops.countP fun o => o.result.isNone

section live
variable (ops : Operations κ (Except ErrorCode α))

@[simp] theorem live_pending (k : κ) :
    live (⟨k, none⟩ : Operation κ (Except ErrorCode α)) = true := rfl

theorem live_of_reportable (k : κ) {r : Except ErrorCode α} (h : reportable r = true) :
    live (⟨k, some r⟩ : Operation κ (Except ErrorCode α)) = true := by
  rcases r with (_ | _ | _ | _) | a
  · simp [reportable] at h
  · rfl
  · rfl
  · rfl
  · rfl

@[simp] theorem liveCount_nil : liveCount ([] : Operations κ (Except ErrorCode α)) = 0 := rfl

theorem liveCount_start (k : κ) : liveCount (ops.start k) = liveCount ops + 1 := by
  simp [liveCount, Operations.countP_start]

theorem liveCount_startDone (k : κ) {r : Except ErrorCode α} (h : reportable r = true) :
    liveCount (ops.startDone k r) = liveCount ops + 1 := by
  simp [liveCount, Operations.countP_startDone, live_of_reportable k h]

variable {ops}

theorem liveCount_finish {i : Nat} {k : κ} {r : Except ErrorCode α}
    (hi : ops.inProgress i = some k) (h : reportable r = true) :
    liveCount (ops.finish i k r) = liveCount ops := by
  apply Operations.countP_finish live r hi
  rw [live_of_reportable k h, live_pending]

theorem liveCount_remove {i : Nat} {k : κ} {r : Except ErrorCode α}
    (hi : ops.finished i = some (k, r)) :
    liveCount ops = liveCount (ops.remove i) +
      if live (⟨k, some r⟩ : Operation κ (Except ErrorCode α)) then 1 else 0 :=
  Operations.countP_remove live hi

/-- Cancelling costs the operations in progress, and only these. -/
theorem liveCount_cancelAll (ops : Operations κ (Except ErrorCode α)) :
    liveCount (cancelAll ops) + pendingCount ops = liveCount ops := by
  unfold liveCount pendingCount cancelAll
  rw [Operations.countP_abort live ops _ (fun _ => rfl)]
  induction ops with
  | nil => rfl
  | cons o ops ih =>
    obtain ⟨k, _ | r⟩ := o
    · simp only [List.countP_cons, Option.isSome_none, Bool.false_and, Option.isNone_none,
        live_pending, if_true, Bool.false_eq_true, if_false]
      omega
    · simp only [List.countP_cons, Option.isSome_some, Bool.true_and, Option.isNone_some,
        Bool.false_eq_true, if_false]
      omega

/-! Operations in progress. -/

theorem pendingCount_startDone (ops : Operations κ (Except ErrorCode α)) (k : κ)
    (r : Except ErrorCode α) : pendingCount (ops.startDone k r) = pendingCount ops := by
  simp [pendingCount, Operations.countP_startDone]

theorem pendingCount_remove {i : Nat} {k : κ} {r : Except ErrorCode α}
    (hi : ops.finished i = some (k, r)) : pendingCount (ops.remove i) = pendingCount ops := by
  have hcount := Operations.countP_remove (fun o => o.result.isNone) hi
  simpa [pendingCount] using hcount.symm

theorem pendingCount_cancelAll (ops : Operations κ (Except ErrorCode α)) :
    pendingCount (cancelAll ops) = 0 := by
  unfold pendingCount cancelAll
  rw [Operations.countP_abort _ ops _ (fun _ => rfl), List.countP_eq_zero]
  rintro ⟨k, _ | r⟩ _ <;> simp

theorem pendingCount_finish {i : Nat} {k : κ} (hi : ops.inProgress i = some k)
    (r : Except ErrorCode α) : pendingCount (ops.finish i k r) + 1 = pendingCount ops := by
  obtain ⟨rest, hops, hfinish⟩ := Operations.perm_finish r hi
  unfold pendingCount
  rw [hops.countP_eq, hfinish.countP_eq]
  simp

/-- What is in progress does not occur among operations that have finished. -/
theorem pendingCount_pos {i : Nat} {k : κ} (hi : ops.inProgress i = some k) :
    0 < pendingCount ops :=
  List.countP_pos_iff.mpr ⟨_, Operations.mem_of_inProgress hi, rfl⟩

end live

/-! ### What has arrived -/

/-- The results of the operations that have succeeded, and whose handler has not
    been run. -/
def arrived (ops : Operations κ (Except ErrorCode α)) : List α :=
  ops.filterMap fun o => o.result.bind Except.toOption

section arrived
variable (ops : Operations κ (Except ErrorCode α))

@[simp] theorem arrived_start (k : κ) : arrived (ops.start k) = arrived ops := by
  simp [arrived, Operations.start]

@[simp] theorem arrived_startDone (k : κ) (ec : ErrorCode) :
    arrived (ops.startDone k (.error ec)) = arrived ops := by
  simp [arrived, Operations.startDone, Except.toOption]

/-- Only what is in progress is cancelled. -/
@[simp] theorem arrived_cancelAll : arrived (cancelAll ops) = arrived ops := by
  induction ops with
  | nil => rfl
  | cons o ops ih =>
    obtain ⟨k, _ | r⟩ := o
    · exact ih
    · unfold arrived cancelAll Operations.abort at ih ⊢
      rw [List.map_cons, List.filterMap_cons, List.filterMap_cons, ih]

variable {ops}

theorem arrived_cons (k : κ) (r : Except ErrorCode α) (ops : Operations κ (Except ErrorCode α)) :
    arrived (⟨k, some r⟩ :: ops) = r.toOption.toList ++ arrived ops := by
  cases r <;> rfl

theorem arrived_perm {ops' : Operations κ (Except ErrorCode α)} (h : ops.Perm ops') :
    (arrived ops).Perm (arrived ops') :=
  h.filterMap _

theorem arrived_finish {i : Nat} {k : κ} (r : Except ErrorCode α)
    (hi : ops.inProgress i = some k) :
    (arrived (ops.finish i k r)).Perm (arrived ops ++ r.toOption.toList) := by
  obtain ⟨rest, hbefore, hafter⟩ := Operations.perm_finish r hi
  have hrest := arrived_perm hbefore
  change (arrived ops).Perm (arrived rest) at hrest
  have hnew := arrived_perm hafter
  rw [arrived_cons] at hnew
  exact hnew.trans (List.perm_append_comm.trans (hrest.symm.append_right _))

theorem arrived_remove {i : Nat} {k : κ} {r : Except ErrorCode α}
    (hf : ops.finished i = some (k, r)) :
    (r.toOption.toList ++ arrived (ops.remove i)).Perm (arrived ops) := by
  have hperm := arrived_perm (Operations.perm_remove hf)
  rw [arrived_cons] at hperm
  exact hperm.symm

end arrived

end DeviceTester
