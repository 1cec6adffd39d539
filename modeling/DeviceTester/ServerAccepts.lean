import DeviceTester.TcpServer

/-! # The accepts of the TCP server

  Is there one chain of accepts for each run of the acceptor? `stop` cancels
  the accept in progress, and the accept handler gives up when the acceptor is
  closed. It does not know which run it belongs to: a connection accepted before
  a `stop`, whose handler is run after the next `start`, is registered with the
  new run and starts a second chain beside the one `start` has begun
  (`accepts_iff`).
-/

namespace DeviceTester

open Async LTS

namespace TcpServer

/-! ### The property -/

/-- **(C)** At most one accept is in progress, and the completion of an accept
    that was started before the last `stop` registers nobody and starts
    nothing. -/
def OneChain (s : Impl) (l : Label) (s' : Impl) : Prop :=
  pendingCount s'.accepts ≤ 1 ∧
  ∀ i n r, l = .acceptDeliver i → s.accepts.finished i = some (n, r) → n < s.stops →
    s'.manager = s.manager ∧ s'.accepts = s.accepts.remove i

/-- The handler that is run is not the one of a connection accepted before the
    last `stop`, unless the acceptor is closed. -/
def acceptsInTime (s : Impl) : Label → Bool
  | .acceptDeliver i =>
      match s.accepts.finished i with
      | some (n, .ok _) => decide (n = s.stops) || !s.acceptor.is_open
      | _ => true
  | _ => true

/-! ### The invariant -/

namespace Impl

/-- The accept was started after the last `stop`. -/
def ofThisRun (s : Impl) (o : Operation Nat (Except ErrorCode Unit)) : Bool :=
  decide (o.kind = s.stops)

/-- There is one accept of the current run, and none of an earlier one is in
    progress. -/
structure Chained (s : Impl) : Prop where
  closed : s.acceptor.is_open = false → pendingCount s.accepts = 0
  one : s.accepts.countP s.ofThisRun ≤ 1
  past : ∀ o ∈ s.accepts, o.kind ≤ s.stops
  pending : ∀ o ∈ s.accepts, o.result = none → o.kind = s.stops

theorem Chained.new (opts : Options) : (Impl.new opts).Chained where
  closed := fun _ => rfl
  one := Nat.zero_le _
  past := by
    intro o ho
    cases ho
  pending := by
    intro o ho
    cases ho

/-- The invariant depends on the accepts, on the count of `stop`s, and on
    whether the acceptor is open. -/
theorem Chained.frame {s s' : Impl} (h : s.Chained) (ha : s'.acceptor.is_open = s.acceptor.is_open)
    (hs : s'.stops = s.stops) (hops : s'.accepts = s.accepts) : s'.Chained where
  closed := by
    rw [ha, hops]
    exact h.closed
  one := by
    have hsame : s'.ofThisRun = s.ofThisRun := by
      funext o
      simp only [ofThisRun, hs]
    rw [hsame, hops]
    exact h.one
  past := by
    rw [hs, hops]
    exact h.past
  pending := by
    rw [hs, hops]
    exact h.pending

/-- What is in progress is of the current run. -/
theorem Chained.pendingCount_le {s : Impl} (h : s.Chained) : pendingCount s.accepts ≤ 1 := by
  have hle : pendingCount s.accepts ≤ s.accepts.countP s.ofThisRun := by
    apply List.countP_mono_left
    intro o ho hnone
    have hkind := h.pending o ho (Option.isNone_iff_eq_none.mp hnone)
    exact decide_eq_true hkind
  exact Nat.le_trans hle h.one

/-- After a `stop` every accept is of an earlier run, and nothing is in
    progress. -/
theorem Chained.stopped {s : Impl} (h : s.Chained) :
    (∀ o ∈ s.stop.accepts, o.kind < s.stop.stops) ∧ pendingCount s.stop.accepts = 0 := by
  have hkinds : ∀ o ∈ s.stop.accepts, o.kind ≤ s.stops := by
    intro o ho
    simp only [Impl.stop] at ho
    split at ho
    · rcases Operations.mem_of_mem_abort ho with ho | ⟨_, ho⟩
      · exact h.past o ho
      · have hkind := h.past _ ho
        exact hkind
    · exact h.past o ho
  refine ⟨fun o ho => Nat.lt_succ_of_le (hkinds o ho), ?_⟩
  simp only [Impl.stop]
  by_cases hopen : s.acceptor.is_open = true
  · rw [if_pos hopen]
    exact pendingCount_cancelAll s.accepts
  · rw [if_neg hopen]
    exact h.closed (by simpa using hopen)

/-- With no accept of the current run and nothing in progress, the invariant
    holds, whether the acceptor is open or not. -/
theorem Chained.of_none {s : Impl} (hnone : ∀ o ∈ s.accepts, o.kind < s.stops)
    (hpending : pendingCount s.accepts = 0) : s.Chained where
  closed := fun _ => hpending
  one := by
    have hzero : s.accepts.countP s.ofThisRun = 0 := by
      rw [List.countP_eq_zero]
      intro o ho
      have hlt := hnone o ho
      simp only [ofThisRun, decide_eq_true_eq]
      omega
    omega
  past := fun o ho => Nat.le_of_lt (hnone o ho)
  pending := by
    intro o ho hres
    -- an operation without a result would have been counted
    have hno := List.countP_eq_zero.mp hpending o ho
    exact absurd (Option.isNone_iff_eq_none.mpr hres) hno

/-- A chain is begun, or goes on, when no accept of the current run is
    outstanding. -/
theorem Chained.startAccept {s : Impl} (h : s.Chained) (hopen : s.acceptor.is_open = true)
    (hnone : s.accepts.countP s.ofThisRun = 0) : s.startAccept.Chained := by
  have heq : s.startAccept = { s with accepts := s.accepts.start s.stops } := by
    simp [Impl.startAccept, hopen]
  rw [heq]
  refine ⟨?_, ?_, ?_, ?_⟩
  · intro hclosed
    exact absurd (hopen.symm.trans hclosed) (by decide)
  · show (s.accepts.start s.stops).countP s.ofThisRun ≤ 1
    rw [Operations.countP_start, hnone]
    simp [ofThisRun]
  · intro o ho
    rcases Operations.mem_start.mp ho with ho | rfl
    · exact h.past o ho
    · exact Nat.le_refl _
  · intro o ho hres
    rcases Operations.mem_start.mp ho with ho | rfl
    · exact h.pending o ho hres
    · rfl

theorem Chained.stop {s : Impl} (h : s.Chained) : s.stop.Chained :=
  .of_none h.stopped.1 h.stopped.2

/-- `start` begins with `stop`, and whatever the operating system answers there
    is at most the one accept it starts. -/
theorem Chained.start {s : Impl} (h : s.Chained) (os : Answer) : (s.start os).Chained := by
  obtain ⟨hkinds, hpending⟩ := h.stopped
  have hopened : ∀ acceptor, ({ s.stop with acceptor := acceptor } : Impl).Chained :=
    fun acceptor => .of_none hkinds hpending
  simp only [Impl.start]
  split
  · exact h.stop
  · cases os with
    | openFails => exact h.stop
    | bindFails => exact hopened _
    | listenFails => exact hopened _
    | granted =>
      apply (hopened _).startAccept rfl
      rw [List.countP_eq_zero]
      intro o ho
      have hlt := hkinds o ho
      simp only [ofThisRun, decide_eq_true_eq]
      omega

theorem Chained.setOptions {s : Impl} (h : s.Chained) (opts : Options) (os : Answer) :
    (s.setOptions opts os).Chained := by
  have hstored : ({ s with opts := opts } : Impl).Chained := h.frame rfl rfl rfl
  simp only [Impl.setOptions]
  split
  · exact hstored.start os
  · exact hstored

theorem Chained.finish {s : Impl} (h : s.Chained) {i n : Nat} {r : Except ErrorCode Unit}
    (hi : s.accepts.inProgress i = some n) :
    ({ s with accepts := s.accepts.finish i n r } : Impl).Chained := by
  have hkind := h.past _ (Operations.mem_of_inProgress hi)
  refine ⟨?_, ?_, ?_, ?_⟩
  · intro hclosed
    have hzero := h.closed hclosed
    have hpos := pendingCount_pos hi
    omega
  · show (s.accepts.finish i n r).countP s.ofThisRun ≤ 1
    rw [Operations.countP_finish s.ofThisRun r hi rfl]
    exact h.one
  · intro o ho
    rcases Operations.mem_of_mem_finish ho with ho | rfl
    · exact h.past o ho
    · exact hkind
  · intro o ho hres
    rcases Operations.mem_of_mem_finish ho with ho | rfl
    · exact h.pending o ho hres
    · cases hres

/-- The handler of a finished accept is taken out to be run. -/
theorem Chained.remove {s : Impl} (h : s.Chained) {i n : Nat} {r : Except ErrorCode Unit}
    (hf : s.accepts.finished i = some (n, r)) :
    ({ s with accepts := s.accepts.remove i } : Impl).Chained ∧
      (n = s.stops → (s.accepts.remove i).countP s.ofThisRun = 0) := by
  have hcount := Operations.countP_remove s.ofThisRun hf
  have hone := h.one
  refine ⟨⟨?_, ?_, ?_, ?_⟩, ?_⟩
  · intro hclosed
    show pendingCount (s.accepts.remove i) = 0
    rw [pendingCount_remove hf]
    exact h.closed hclosed
  · show (s.accepts.remove i).countP s.ofThisRun ≤ 1
    omega
  · intro o ho
    exact h.past o (Operations.mem_of_mem_remove ho)
  · intro o ho
    exact h.pending o (Operations.mem_of_mem_remove ho)
  · intro hn
    -- it was the only one of the current run
    have hcurrent : s.ofThisRun ⟨n, some r⟩ = true := decide_eq_true hn
    rw [hcurrent] at hcount
    simp only [if_true] at hcount
    omega

end Impl

/-! ### The accept handler -/

/-- A handler that is run in time keeps the chain. -/
theorem chained_acceptDeliver {s : Impl} (h : s.Chained) {i n : Nat} {r : Except ErrorCode Unit}
    (hf : s.accepts.finished i = some (n, r)) (hC : acceptsInTime s (.acceptDeliver i) = true) :
    (Impl.handleAccept { s with accepts := s.accepts.remove i } r).Chained := by
  obtain ⟨hremoved, hlast⟩ := h.remove hf
  simp only [Impl.handleAccept]
  by_cases hopen : s.acceptor.is_open = true
  · rw [if_pos hopen]
    cases r with
    | error ec => exact hremoved
    | ok a =>
      simp only [acceptsInTime, hf, hopen, Bool.not_true, Bool.or_false, decide_eq_true_eq] at hC
      have hmade : Impl.Chained { s with
          accepts := s.accepts.remove i, manager := s.manager.start } :=
        hremoved.frame rfl rfl rfl
      exact hmade.startAccept hopen (hlast hC)
  · rw [if_neg hopen]
    exact hremoved

/-- A handler that is run in time leaves the later runs alone, one that is not
    registers a client with them. -/
theorem stale_acceptDeliver {s : Impl} {i n : Nat} {r : Except ErrorCode Unit}
    (hf : s.accepts.finished i = some (n, r)) (hstale : n < s.stops) :
    ((Impl.handleAccept { s with accepts := s.accepts.remove i } r).manager = s.manager ∧
      (Impl.handleAccept { s with accepts := s.accepts.remove i } r).accepts =
        s.accepts.remove i) ↔ acceptsInTime s (.acceptDeliver i) = true := by
  have hne : n ≠ s.stops := Nat.ne_of_lt hstale
  simp only [Impl.handleAccept, acceptsInTime, hf]
  by_cases hopen : s.acceptor.is_open = true
  · cases r with
    | error ec => simp [hopen]
    | ok a =>
      simp only [hopen, if_true, hne, decide_false, Bool.not_true, Bool.or_false,
        Bool.false_eq_true, iff_false, not_and]
      intro hsame
      -- the client that is registered has a number of its own
      have hcreated : s.manager.created + 1 = s.manager.created := congrArg Manager.created hsame
      omega
  · cases r with
    | error ec => simp [hopen]
    | ok a => simp [hopen]

/-- One step of the server. -/
theorem accepts_next {s s' : Impl} {l : Label} (h : s.Chained) (hn : s.next l = some s') :
    (acceptsInTime s l = true → s'.Chained) ∧ (OneChain s l s' ↔ acceptsInTime s l = true) := by
  -- a step that delivers no accept keeps the chain and is not asked for more
  have hquiet : (∀ i, l ≠ .acceptDeliver i) → acceptsInTime s l = true → s'.Chained →
      (acceptsInTime s l = true → s'.Chained) ∧ (OneChain s l s' ↔ acceptsInTime s l = true) :=
    fun hl hC hchained => ⟨fun _ => hchained, fun _ => hC,
      fun _ => ⟨hchained.pendingCount_le, fun i _ _ heq => absurd heq (hl i)⟩⟩
  cases Impl.step_of_next hn with
  | start os => exact hquiet (by intro i hi; cases hi) rfl (h.start os)
  | stop => exact hquiet (by intro i hi; cases hi) rfl h.stop
  | setOptions opts os => exact hquiet (by intro i hi; cases hi) rfl (h.setOptions opts os)
  | acceptFinish hi hr => exact hquiet (by intro i hi; cases hi) rfl (h.finish hi)
  | @acceptDeliver i n r hf =>
    refine ⟨chained_acceptDeliver h hf, fun hR => ?_, fun hC => ?_⟩
    · -- only a handler of an earlier run can be late
      by_cases hstale : n < s.stops
      · exact (stale_acceptDeliver hf hstale).mp (hR.2 i n r rfl hf hstale)
      · have hle : n ≤ s.stops := h.past _ (Operations.mem_of_finished hf)
        have hcurrent : n = s.stops := by omega
        cases r with
        | error ec => simp [acceptsInTime, hf]
        | ok a => simp [acceptsInTime, hf, hcurrent]
    · refine ⟨(chained_acceptDeliver h hf hC).pendingCount_le, fun j m r' hj hf' hstale => ?_⟩
      cases hj
      rw [hf] at hf'
      cases hf'
      exact (stale_acceptDeliver hf hstale).mpr hC
  | receiveFinish => exact hquiet (by intro i hi; cases hi) rfl (h.frame rfl rfl rfl)
  | receiveDeliver => exact hquiet (by intro i hi; cases hi) rfl (h.frame rfl rfl rfl)
  | write => exact hquiet (by intro i hi; cases hi) rfl (h.frame rfl rfl rfl)
  | sendFinish => exact hquiet (by intro i hi; cases hi) rfl (h.frame rfl rfl rfl)
  | sendDeliver => exact hquiet (by intro i hi; cases hi) rfl (h.frame rfl rfl rfl)

/-- **There is one chain of accepts for each run of the acceptor** throughout a
    run of the server exactly when the handler of a connection accepted before
    a `stop` is never run while the acceptor is open again. -/
theorem accepts_iff {s : Impl} (r : Run system s) :
    r.Ensures OneChain ↔ r.EachStep fun s l => acceptsInTime s l = true := by
  apply Run.ensures_iff (I := Impl.Chained)
  · rintro s ⟨opts, rfl⟩
    exact Impl.Chained.new opts
  · intro s l s' h hl hn
    exact (accepts_next h hn).1 hl
  · intro s l s' h hn
    exact (accepts_next h hn).2

/-- A connection is accepted, the server is restarted, and the handler is run:
    its client is registered, and two accepts are in progress. -/
theorem late_accept_is_registered : ∃ (s : Impl) (r : Run system s), ¬ r.Ensures OneChain := by
  apply Run.exists_not_ensures system ⟨⟨.ipv4, 5000⟩, rfl⟩
    [.start .granted, .acceptFinish 0 (.ok ()), .start .granted] (.acceptDeliver 0)
    (fun _ s' => decide (s'.manager.connections = {0}) && decide (pendingCount s'.accepts = 2))
  · intro s s' hv hR
    have htwo := of_decide_eq_true (Bool.and_eq_true_iff.mp hv).2
    have hone := hR.1
    omega
  · decide

end TcpServer

end DeviceTester
