import DeviceTester.WritePump

/-! # Threads that write

  `Writer::write` is called by any number of threads, and by slots of
  `onReceive`, which a receive handler runs on the strand. A call pushes to
  `tx_queue_`, waiting in `push_front` while the queue is full, and then calls
  `doWrite`. Only a posted `startWrite` and the completion lambda of a send
  make room for a caller that waits, and both are run by the strand.

  The two halves of a call are separate steps, so that other callers and
  handlers may come in between. While a slot is inside `write` the strand is
  not free to run a handler.

  A caller that waits is let in only as long as something will pop from the
  queue, on a strand that is not the caller itself. The theorem at the end says
  which steps keep it so, and that otherwise everybody waits for good.
-/

namespace DeviceTester

open Async LTS

/-! ### Callers and their steps -/

/-- Who calls `write`. -/
inductive Caller where
  | thread (id : Nat)
  /-- A slot of `onReceive`, on the strand. -/
  | slot
  deriving DecidableEq, Repr

/-- A connection object and the calls of `write` that have not returned. -/
structure Writers where
  pump : Pump
  /-- The calls waiting in `push_front`. -/
  waiting : List (Caller × Bytes)
  /-- The callers that have pushed and have not called `doWrite` yet. -/
  pushed : List Caller

namespace Writers

inductive Label where
  /-- `write` is called: it pushes, or starts to wait. -/
  | write (c : Caller) (d : Bytes)
  /-- The `i`-th caller that waits finds room and pushes. -/
  | wake (i : Nat)
  /-- The second half of `write`. -/
  | doWrite (c : Caller)
  /-- A handler is run, or the transport or its owner does something. -/
  | handler (l : PumpLabel)

def new (should_run is_open : Bool) : Writers where
  pump := .new should_run is_open
  waiting := []
  pushed := []

/-- The callers inside `write`. -/
def callers (s : Writers) : List Caller := s.waiting.map (·.1) ++ s.pushed

/-- The steps of the pump that the strand, or somebody else, can take now. -/
def lets (s : Writers) : PumpLabel → Bool
  -- calls of `write` are steps of a caller
  | .write _ => false
  -- a slot inside `write` occupies the strand
  | .runPosted => decide (Caller.slot ∉ s.callers)
  | .deliver _ => decide (Caller.slot ∉ s.callers)
  | _ => true

def next (k : PumpKind) (s : Writers) : Label → Option Writers
  | .write c d =>
      if c ∈ s.callers then none
      else match s.pump.tx_queue.push_front d with
        | some q => some { s with pump := { s.pump with tx_queue := q }, pushed := s.pushed ++ [c] }
        | none => some { s with waiting := s.waiting ++ [(c, d)] }
  | .wake i =>
      match s.waiting[i]? with
      | some (c, d) =>
          (s.pump.tx_queue.push_front d).map fun q =>
            { pump := { s.pump with tx_queue := q }
              waiting := s.waiting.eraseIdx i
              pushed := s.pushed ++ [c] }
      | none => none
  | .doWrite c =>
      if c ∈ s.pushed then some { s with pump := k.doWrite s.pump, pushed := s.pushed.erase c }
      else none
  | .handler l =>
      if s.lets l then (s.pump.next k l).map fun p => { s with pump := p } else none

end Writers

def writers (k : PumpKind) : System Writers Writers.Label where
  init := fun s => ∃ should_run is_open, s = Writers.new should_run is_open
  next := Writers.next k

/-! ### What will make room -/

/-- The completion lambda of the send pops, when there is something to pop: the
    send has not failed and is not short. -/
def popsOnCompletion (o : Operation Bytes (Except ErrorCode Nat)) : Bool :=
  match o.result with
  | none => true
  | some (.ok written) => decide (o.kind.length ≤ written)
  | some (.error _) => false

/-- An outstanding send, or a posted `startWrite`, will pop. -/
def Pump.willPop (p : Pump) : Bool :=
  p.sends.any popsOnCompletion ||
    (decide (p.posted > 0) && !p.write_in_progress && p.tx_current.isEmpty)

/-- Nobody waits, or there is something that will pop and the strand that is to
    run it does not wait itself. -/
def served (p : Pump) (waiting : List (Caller × Bytes)) : Bool :=
  waiting.isEmpty || (p.willPop && waiting.all fun w => decide (w.1 ≠ .slot))

namespace Writers

/-- A caller is blocked in `push_front`. -/
def Blocked (s : Writers) : Prop := s.waiting ≠ [] ∧ s.pump.tx_queue.is_not_full = false

/-- **(W)** Whoever is blocked will be let in. -/
def Served (s : Writers) : Prop :=
  s.Blocked → s.pump.willPop = true ∧ ∀ w ∈ s.waiting, w.1 ≠ .slot

end Writers

/-- A send that is decided is not decided against whoever waits: it is not
    reported to be short, to have failed or to be cancelled. -/
def Pump.staysAtWork (p : Pump) : PumpLabel → Bool
  | .finish i r =>
      match p.sends.inProgress i with
      | some b => popsOnCompletion ⟨b, some r⟩
      | none => true
  | .closeTransport => p.sends.all (·.result.isSome)
  | .cancelTransport => p.sends.all (·.result.isSome)
  | _ => true

namespace Writers

/-- There is a place left after the next push. -/
def leavesRoom (s : Writers) : Bool :=
  decide (s.pump.tx_queue.m_unread + 1 < s.pump.tx_queue.m_container.capacity)

/-- The steps after which whoever is blocked will still be let in. Restricted
    are only the steps that fill the queue or find it full, and those that
    decide about a send while somebody is blocked. -/
def keepsServed (s : Writers) : Label → Bool
  | .write c d =>
      if s.pump.tx_queue.is_not_full then
        -- the caller pushes; those that wait are blocked if this was the last place
        s.leavesRoom || served s.pump s.waiting
      else
        -- the caller is one of those that wait
        served s.pump (s.waiting ++ [(c, d)])
  | .wake i => s.leavesRoom || served s.pump (s.waiting.eraseIdx i)
  -- `doWrite` may start a send, and never undoes one
  | .doWrite _ => true
  | .handler l => s.waiting.isEmpty || s.pump.tx_queue.is_not_full || s.pump.staysAtWork l

end Writers

/-! ### Room in the queue -/

namespace Pump

theorem Inv.full_iff {p : Pump} (h : p.Inv) :
    p.tx_queue.is_not_full = false ↔ 100 ≤ p.unread.length := by
  have hlen : p.unread.length = p.tx_queue.m_unread := h.wf.length_unread
  rw [hlen]
  simp [RingBuffer.is_not_full, h.capacity]

theorem unread_startWrite_le {p : Pump} (h : p.tx_queue.WF) :
    p.startWrite.unread.length ≤ p.unread.length := by
  rcases startWrite_cases h with ⟨heq, _⟩ | ⟨d, q, _, _, hunread, _, _, heq⟩
  · exact Nat.le_of_eq (by rw [heq])
  · rw [heq, hunread]
    show q.unread.length ≤ (d :: q.unread).length
    simp

/-- `startWrite` pops when nothing is in its way. -/
theorem startWrite_pops {p : Pump} (h : p.tx_queue.WF) (hflag : p.write_in_progress = false)
    (hcur : p.tx_current = []) (hne : p.unread ≠ []) :
    p.startWrite.unread.length < p.unread.length := by
  rcases startWrite_cases h with ⟨_, hset | hcur' | hnone⟩ | ⟨d, q, _, _, hunread, _, _, heq⟩
  · rw [hflag] at hset; cases hset
  · exact absurd hcur hcur'
  · exact absurd hnone hne
  · rw [heq, hunread]
    show q.unread.length < (d :: q.unread).length
    simp

theorem unread_advance_le {p : Pump} (h : p.tx_queue.WF) (n : Nat) :
    (p.advance n).unread.length ≤ p.unread.length := by
  rcases advance_cases h n with ⟨_, heq⟩ | ⟨d, q, _, hunread, _, _, heq⟩ | ⟨_, _, heq⟩
  · exact Nat.le_of_eq (by rw [heq])
  · rw [heq, hunread]
    show q.unread.length ≤ (d :: q.unread).length
    simp
  · exact Nat.le_of_eq (by rw [heq])

/-- The completion of a whole send pops when there is something to pop. -/
theorem advance_pops {p : Pump} (h : p.tx_queue.WF) {n : Nat} (hle : p.tx_current.length ≤ n)
    (hne : p.unread ≠ []) : (p.advance n).unread.length < p.unread.length := by
  rcases advance_cases h n with ⟨hlt, _⟩ | ⟨d, q, _, hunread, _, _, heq⟩ | ⟨_, hnone, _⟩
  · omega
  · rw [heq, hunread]
    show q.unread.length < (d :: q.unread).length
    simp
  · exact absurd hnone hne

theorem unread_restart_le {p : Pump} (h : p.tx_queue.WF) (k : PumpKind) :
    (k.restart p).unread.length ≤ p.unread.length := by
  cases k
  · exact Nat.le_refl _
  · exact unread_startWrite_le h
  · exact unread_startWrite_le h
  · exact unread_startWrite_le h

theorem unread_doWrite_le {p : Pump} (h : p.tx_queue.WF) (k : PumpKind) :
    (k.doWrite p).unread.length ≤ p.unread.length := by
  rcases k.doWrite_cases p with ⟨heq, _⟩ | ⟨_, heq⟩ | ⟨_, heq⟩
  · exact Nat.le_of_eq (by rw [heq])
  · exact Nat.le_of_eq (by rw [heq]; rfl)
  · rw [heq]; exact unread_startWrite_le h

/-- What the lambda does after `advance` pops at most once more. -/
theorem unread_onSent_ok_le {p : Pump} (h : p.tx_queue.WF) (k : PumpKind) (n : Nat) :
    (k.onSent p (.ok n)).unread.length ≤ (p.advance n).unread.length :=
  unread_restart_le (p := { p.advance n with write_in_progress := false }) (advance_wf h n).1 k

theorem unread_onSent_le {p : Pump} (h : p.tx_queue.WF) (k : PumpKind)
    (r : Except ErrorCode Nat) : (k.onSent p r).unread.length ≤ p.unread.length := by
  cases r with
  | error ec => exact Nat.le_refl _
  | ok n => exact Nat.le_trans (unread_onSent_ok_le h k n) (unread_advance_le h n)

/-- Only a call of `write` adds to the queue. -/
theorem Inv.unread_next_le {k : PumpKind} {p p' : Pump} {l : PumpLabel} (h : p.Inv)
    (hl : ∀ d, l ≠ .write d) (hn : p.next k l = some p') :
    p'.unread.length ≤ p.unread.length := by
  cases step_of_next hn with
  | write => exact absurd rfl (hl _)
  | runPosted => exact unread_startWrite_le (p := { p with posted := p.posted - 1 }) h.wf
  | finish => exact Nat.le_refl _
  | @deliver i b r => exact unread_onSent_le (p := { p with sends := p.sends.remove i }) h.wf k r
  | setShouldRun b => exact Nat.le_refl _
  | openTransport => exact Nat.le_refl _
  | closeTransport => exact Nat.le_refl _
  | cancelTransport => exact Nat.le_refl _

/-! ### A pump at work -/

/-- Either the one send will pop, or no send is outstanding and a posted call
    will. -/
theorem Inv.willPop_cases {p : Pump} (h : p.Inv) (hw : p.willPop = true) :
    (∃ r, p.sends = [⟨p.tx_current, r⟩] ∧ popsOnCompletion ⟨p.tx_current, r⟩ = true ∧
      p.write_in_progress = true) ∨
    (p.sends = [] ∧ p.posted > 0 ∧ p.write_in_progress = false ∧ p.tx_current = []) := by
  simp only [willPop, Bool.or_eq_true, Bool.and_eq_true, decide_eq_true_eq, Bool.not_eq_true',
    List.isEmpty_iff] at hw
  rcases h.in_flight with hs | ⟨hk, hflag⟩
  · right
    rw [hs] at hw
    rcases hw with hw | ⟨⟨hposted, hclear⟩, hcur⟩
    · cases hw
    · exact ⟨hs, hposted, hclear, hcur⟩
  · left
    -- there is exactly one send, of `tx_current`
    obtain ⟨⟨b, r⟩, hsends, rfl⟩ := List.map_eq_singleton_iff.mp hk
    rw [hsends] at hw
    rcases hw with hw | ⟨⟨_, hclear⟩, _⟩
    · exact ⟨r, hsends, by simpa using hw, hflag⟩
    · rw [hflag] at hclear; cases hclear

theorem willPop_of_send {p : Pump} {o : Operation Bytes (Except ErrorCode Nat)} (ho : o ∈ p.sends)
    (hp : popsOnCompletion o = true) : p.willPop = true := by
  have hany : p.sends.any popsOnCompletion = true := List.any_eq_true.mpr ⟨o, ho, hp⟩
  simp [willPop, hany]

theorem willPop_eq_false {p : Pump} :
    p.willPop = false ↔ p.sends.any popsOnCompletion = false ∧
      (p.posted = 0 ∨ p.write_in_progress = true ∨ p.tx_current ≠ []) := by
  simp only [willPop, Bool.or_eq_false_iff, Bool.and_eq_false_iff, decide_eq_false_iff_not,
    Nat.not_lt, Nat.le_zero, Bool.not_eq_false', List.isEmpty_eq_false_iff, gt_iff_lt, or_assoc]

/-- Cancelling a send is deciding against it. -/
theorem any_cancelAll {ops : Operations Bytes (Except ErrorCode Nat)}
    (h : ops.any popsOnCompletion = false) : (cancelAll ops).any popsOnCompletion = false := by
  rw [List.any_eq_false] at h ⊢
  intro o ho
  rcases Operations.mem_of_mem_abort ho with ho | ⟨hr, _⟩
  · exact h o ho
  · rw [popsOnCompletion, hr]
    exact Bool.false_ne_true

/-- The transport is closed, or its operations are cancelled: the one send may
    have finished before, but not be in progress. -/
theorem Inv.willPop_abort {p : Pump} (h : p.Inv) (is_open : Bool) (hw : p.willPop = true) :
    ({ p with is_open := is_open, sends := cancelAll p.sends } : Pump).willPop = true ↔
      p.sends.all (·.result.isSome) = true := by
  rcases h.willPop_cases hw with ⟨r, hsends, hp, hflag⟩ | ⟨hsends, hposted, hclear, hcur⟩
  · match r with
    | none => simp [willPop, hsends, hflag, cancelAll, Operations.abort, popsOnCompletion]
    | some r => simpa [willPop, hsends, hflag, cancelAll, Operations.abort] using hp
  · simp [willPop, hsends, hposted, hclear, hcur, cancelAll, Operations.abort]

theorem Inv.unread_le {p : Pump} (h : p.Inv) : p.unread.length ≤ 100 := by
  have hlen : p.unread.length = p.tx_queue.m_unread := h.wf.length_unread
  have hcap := h.wf.le_capacity
  rw [h.capacity] at hcap
  omega

/-- As long as the queue stays full, the pump stays at work exactly when no
    send is decided against. -/
theorem Inv.willPop_next {k : PumpKind} {p p' : Pump} {l : PumpLabel} (h : p.Inv)
    (hl : ∀ d, l ≠ .write d) (hn : p.next k l = some p') (hfull : 100 ≤ p'.unread.length)
    (hw : p.willPop = true) : p'.willPop = true ↔ p.staysAtWork l = true := by
  have hne : p.unread ≠ [] := by
    have hle := h.unread_next_le hl hn
    intro hnil
    rw [hnil] at hle
    simp only [List.length_nil] at hle
    omega
  have hle : p.unread.length ≤ 100 := h.unread_le
  cases step_of_next hn with
  | write => exact absurd rfl (hl _)
  | runPosted =>
    have hwf : ({ p with posted := p.posted - 1 } : Pump).tx_queue.WF := h.wf
    refine iff_of_true ?_ rfl
    rcases h.willPop_cases hw with ⟨r, hsends, hp, hflag⟩ | ⟨_, _, hclear, hcur⟩
    · -- `startWrite` returns at once
      rcases startWrite_cases hwf with ⟨heq, _⟩ | ⟨_, _, hclear, _⟩
      · rw [heq]
        exact willPop_of_send (o := ⟨p.tx_current, r⟩) (by simp [hsends]) hp
      · exact absurd (hflag.symm.trans hclear) Bool.noConfusion
    · -- it pops, so the queue is not full any more
      have hlt := startWrite_pops hwf hclear hcur hne
      exact absurd (Nat.lt_of_lt_of_le hlt hle) (Nat.not_lt.mpr hfull)
  | @finish i b r hi =>
    have hstays : p.staysAtWork (.finish i r) = popsOnCompletion ⟨b, some r⟩ := by
      simp [staysAtWork, hi]
    rw [hstays]
    have hget := Operations.inProgress_eq_some.mp hi
    rcases h.willPop_cases hw with ⟨r', hsends, _, hflag⟩ | ⟨hsends, _⟩
    · rw [hsends] at hget
      cases i with
      | zero => simp [willPop, Operations.finish, hsends, hflag]
      | succ i => simp at hget
    · simp [hsends] at hget
  | @deliver i b r hf =>
    have hmem := Operations.mem_of_finished hf
    rcases h.willPop_cases hw with ⟨r', hsends, hp, _⟩ | ⟨hsends, _⟩
    · rw [hsends, List.mem_singleton, Operation.mk.injEq] at hmem
      obtain ⟨rfl, rfl⟩ := hmem
      cases r with
      | error ec => exact absurd hp Bool.false_ne_true
      | ok n =>
        have hwf : ({ p with sends := p.sends.remove i } : Pump).tx_queue.WF := h.wf
        have hpops := advance_pops hwf (of_decide_eq_true hp) hne
        -- it pops, so the queue is not full any more
        have hlt := Nat.lt_of_le_of_lt (unread_onSent_ok_le hwf k n) hpops
        exact absurd (Nat.lt_of_lt_of_le hlt hle) (Nat.not_lt.mpr hfull)
    · simp [hsends] at hmem
  | setShouldRun b => exact iff_of_true hw rfl
  | openTransport => exact iff_of_true hw rfl
  | closeTransport => exact h.willPop_abort false hw
  | cancelTransport => exact h.willPop_abort p.is_open hw

/-- What decides about a send leaves the queue alone. -/
theorem staysAtWork_of_room {k : PumpKind} {p p' : Pump} {l : PumpLabel}
    (hn : p.next k l = some p') (hfull : p.tx_queue.is_not_full = false)
    (hroom : p'.tx_queue.is_not_full ≠ false) : p.staysAtWork l = true := by
  cases step_of_next hn with
  | finish => exact absurd hfull hroom
  | closeTransport => exact absurd hfull hroom
  | cancelTransport => exact absurd hfull hroom
  | _ => rfl

/-- `startWrite` does nothing, called or posted, while `tx_current_` holds
    something. -/
theorem restart_stuck {p : Pump} (h : p.tx_queue.WF) (k : PumpKind) (hs : p.sends = [])
    (hcur : p.tx_current ≠ []) :
    (k.restart p).unread = p.unread ∧ (k.restart p).willPop = false := by
  have hidle : p.willPop = false := willPop_eq_false.mpr ⟨by rw [hs]; rfl, .inr (.inr hcur)⟩
  have hcalled : p.startWrite.unread = p.unread ∧ p.startWrite.willPop = false := by
    rcases startWrite_cases h with ⟨heq, _⟩ | ⟨_, _, _, hempty, _⟩
    · rw [heq]
      exact ⟨rfl, hidle⟩
    · exact absurd hempty hcur
  cases k
  · exact ⟨rfl, willPop_eq_false.mpr ⟨(willPop_eq_false.mp hidle).1, .inr (.inr hcur)⟩⟩
  · exact hcalled
  · exact hcalled
  · exact hcalled

/-- A short send leaves the rest of its buffer in `tx_current_`, and stops the
    pump. -/
theorem onSent_short {p : Pump} (h : p.tx_queue.WF) (k : PumpKind) (hs : p.sends = []) {n : Nat}
    (hlt : n < p.tx_current.length) :
    (k.onSent p (.ok n)).unread = p.unread ∧ (k.onSent p (.ok n)).willPop = false := by
  have hrest : p.advance n = { p with tx_current := p.tx_current.drop n } := by
    rcases advance_cases h n with ⟨_, heq⟩ | ⟨_, _, hle, _⟩ | ⟨hle, _⟩
    · exact heq
    · exact absurd hlt (Nat.not_lt.mpr hle)
    · exact absurd hlt (Nat.not_lt.mpr hle)
  have hleft : p.tx_current.drop n ≠ [] := by
    rw [ne_eq, List.drop_eq_nil_iff]
    omega
  simp only [PumpKind.onSent, hrest]
  exact restart_stuck (p := { p with
    tx_current := p.tx_current.drop n, write_in_progress := false }) h k hs hleft

/-- A pump that will not pop never pops again, unless `write` is called. -/
theorem Inv.idle_next {k : PumpKind} {p p' : Pump} {l : PumpLabel} (h : p.Inv)
    (hl : ∀ d, l ≠ .write d) (hn : p.next k l = some p') (hw : p.willPop = false) :
    p'.unread = p.unread ∧ p'.willPop = false := by
  obtain ⟨hsends, hposted⟩ := willPop_eq_false.mp hw
  have hdecided : ∀ {o}, o ∈ p.sends → popsOnCompletion o = false := fun ho => by
    simpa using List.any_eq_false.mp hsends _ ho
  cases step_of_next hn with
  | write => exact absurd rfl (hl _)
  | runPosted hpos =>
    have hway : p.write_in_progress = true ∨ p.tx_current ≠ [] := by
      rcases hposted with hzero | hway
      · omega
      · exact hway
    rcases startWrite_cases (p := { p with posted := p.posted - 1 }) h.wf with
      ⟨heq, _⟩ | ⟨_, _, hclear, hcur, _⟩
    · rw [heq]
      exact ⟨rfl, willPop_eq_false.mpr ⟨hsends, .inr hway⟩⟩
    · rcases hway with hset | hne
      · exact absurd (hset.symm.trans hclear) Bool.noConfusion
      · exact absurd hcur hne
  | finish hi => exact absurd (hdecided (Operations.mem_of_inProgress hi)).symm Bool.false_ne_true
  | @deliver i b r hf =>
    obtain ⟨rfl, hnil, hset⟩ := h.deliver hf
    have hfails := hdecided (Operations.mem_of_finished hf)
    cases r with
    | error ec =>
      -- nothing at all is done, and the flag stays set
      refine ⟨rfl, willPop_eq_false.mpr ⟨?_, .inr (.inl hset)⟩⟩
      show (p.sends.remove i).any popsOnCompletion = false
      rw [hnil]
      rfl
    | ok n =>
      have hlt : n < p.tx_current.length := by simpa [popsOnCompletion] using hfails
      exact onSent_short (p := { p with sends := p.sends.remove i }) h.wf k hnil hlt
  | setShouldRun b => exact ⟨rfl, hw⟩
  | openTransport => exact ⟨rfl, hw⟩
  | closeTransport => exact ⟨rfl, willPop_eq_false.mpr ⟨any_cancelAll hsends, hposted⟩⟩
  | cancelTransport => exact ⟨rfl, willPop_eq_false.mpr ⟨any_cancelAll hsends, hposted⟩⟩

end Pump

/-! ### One step of the callers -/

namespace Writers

/-- The steps, with a call of `write` that pushes apart from one that waits. -/
inductive Step (k : PumpKind) (s : Writers) : Label → Writers → Prop
  | push {c : Caller} {d : Bytes} {q : RingBuffer Bytes} (hc : c ∉ s.callers)
      (hq : s.pump.tx_queue.push_front d = some q) :
      Step k s (.write c d)
        { s with pump := { s.pump with tx_queue := q }, pushed := s.pushed ++ [c] }
  | wait {c : Caller} {d : Bytes} (hc : c ∉ s.callers)
      (hfull : s.pump.tx_queue.is_not_full = false) :
      Step k s (.write c d) { s with waiting := s.waiting ++ [(c, d)] }
  | wake {i : Nat} {c : Caller} {d : Bytes} {q : RingBuffer Bytes}
      (hi : s.waiting[i]? = some (c, d)) (hq : s.pump.tx_queue.push_front d = some q) :
      Step k s (.wake i)
        { pump := { s.pump with tx_queue := q }
          waiting := s.waiting.eraseIdx i
          pushed := s.pushed ++ [c] }
  | doWrite {c : Caller} (hc : c ∈ s.pushed) :
      Step k s (.doWrite c) { s with pump := k.doWrite s.pump, pushed := s.pushed.erase c }
  | handler {l : PumpLabel} {p : Pump} (hl : s.lets l = true) (hp : s.pump.next k l = some p) :
      Step k s (.handler l) { s with pump := p }

theorem step_of_next {k : PumpKind} {s s' : Writers} {l : Label} (hn : s.next k l = some s') :
    s.Step k l s' := by
  cases l with
  | write c d =>
    simp only [next] at hn
    split at hn
    · cases hn
    · next hc =>
      cases hq : s.pump.tx_queue.push_front d with
      | some q =>
        rw [hq] at hn
        exact Option.some.inj hn ▸ .push hc hq
      | none =>
        rw [hq] at hn
        exact Option.some.inj hn ▸ .wait hc (RingBuffer.push_front_eq_none.mp hq)
  | wake i =>
    simp only [next] at hn
    split at hn
    · next c d hi =>
      obtain ⟨q, hq, rfl⟩ := Option.map_eq_some_iff.mp hn
      exact .wake hi hq
    · cases hn
  | doWrite c =>
    obtain ⟨hc, heq⟩ := Option.ite_none_right_eq_some.mp hn
    exact Option.some.inj heq ▸ .doWrite hc
  | handler l =>
    obtain ⟨hl, heq⟩ := Option.ite_none_right_eq_some.mp hn
    obtain ⟨p, hp, rfl⟩ := Option.map_eq_some_iff.mp heq
    exact .handler hl hp

end Writers

theorem served_iff {p : Pump} {waiting : List (Caller × Bytes)} :
    served p waiting = true ↔
      (waiting ≠ [] → p.willPop = true ∧ ∀ w ∈ waiting, w.1 ≠ .slot) := by
  by_cases h : waiting = []
  · simp [served, h]
  · simp [served, h]

namespace Writers

theorem served_eq {s : Writers} :
    s.Served ↔ (s.pump.tx_queue.is_not_full = false → served s.pump s.waiting = true) := by
  rw [served_iff]
  exact ⟨fun h hfull hne => h ⟨hne, hfull⟩, fun h hb => h hb.2 hb.1⟩

/-- What holds between any two steps. -/
theorem inv_next {k : PumpKind} {s s' : Writers} {l : Label} (h : s.pump.Inv)
    (hn : s.next k l = some s') : s'.pump.Inv := by
  have hpush : ∀ {d : Bytes} {q : RingBuffer Bytes}, s.pump.tx_queue.push_front d = some q →
      ({ s.pump with tx_queue := q } : Pump).Inv := fun hq => by
    obtain ⟨hwf, _, hcap⟩ := h.wf.push_front hq
    exact ⟨hwf, hcap.trans h.capacity, h.in_flight⟩
  cases step_of_next hn with
  | push _ hq => exact hpush hq
  | wait => exact h
  | wake _ hq => exact hpush hq
  | doWrite => exact h.doWrite k
  | handler _ hp => exact h.next hp

/-- The handlers do not call `write`. -/
theorem lets_write {s : Writers} {l : PumpLabel} (h : s.lets l = true) (d : Bytes) :
    l ≠ .write d := by
  rintro rfl
  cases h

/-- A push that goes through: those that wait are blocked afterwards exactly
    when it has taken the last place. -/
theorem served_of_push {s : Writers} {waiting : List (Caller × Bytes)} {pushed : List Caller}
    {d : Bytes} {q : RingBuffer Bytes} (hq : s.pump.tx_queue.push_front d = some q) :
    Served { pump := { s.pump with tx_queue := q }, waiting := waiting, pushed := pushed } ↔
      (s.leavesRoom || served s.pump waiting) = true := by
  have hroom : q.is_not_full = s.leavesRoom := (RingBuffer.is_not_full_of_push_front hq).2
  have hpump : served { s.pump with tx_queue := q } waiting = served s.pump waiting := rfl
  rw [served_eq, hpump]
  show (q.is_not_full = false → _) ↔ _
  rw [hroom]
  cases s.leavesRoom <;> simp

/-- `doWrite` does not take away what will make room. -/
theorem served_doWrite {k : PumpKind} {s : Writers} (h : s.pump.Inv) (hs : s.Served)
    (pushed : List Caller) : Served { s with pump := k.doWrite s.pump, pushed := pushed } := by
  rintro ⟨hne, hfull⟩
  have hafter : 100 ≤ (k.doWrite s.pump).unread.length := ((h.doWrite k).full_iff).mp hfull
  have hbefore : 100 ≤ s.pump.unread.length :=
    Nat.le_trans hafter (Pump.unread_doWrite_le h.wf k)
  obtain ⟨hw, hslot⟩ := hs ⟨hne, h.full_iff.mpr hbefore⟩
  refine ⟨?_, hslot⟩
  show (k.doWrite s.pump).willPop = true
  have hcalled : k.doWrite s.pump = s.pump.startWrite → s.pump.startWrite.willPop = true := by
    intro hcall
    rw [hcall] at hafter
    rcases Pump.startWrite_cases h.wf with ⟨heq, _⟩ | ⟨d, q, hclear, hcur, hunread, _⟩
    · rw [heq]; exact hw
    · -- it pops, so the queue is not full any more
      have hlt := Pump.startWrite_pops h.wf hclear hcur (by rw [hunread]; simp)
      have hle := h.unread_le
      omega
  rcases k.doWrite_cases s.pump with ⟨heq, _⟩ | ⟨_, heq⟩ | ⟨_, heq⟩
  · rw [heq]; exact hw
  · rw [heq]
    -- one more posted call
    simp only [Pump.willPop, Pump.post, Bool.or_eq_true, Bool.and_eq_true] at hw ⊢
    rcases hw with hw | ⟨⟨_, hclear⟩, hcur⟩
    · exact .inl hw
    · exact .inr ⟨⟨decide_eq_true (Nat.succ_pos _), hclear⟩, hcur⟩
  · rw [heq]; exact hcalled heq

/-- A handler keeps whoever is blocked waiting for something exactly when no
    send is decided against. -/
theorem served_handler {k : PumpKind} {s : Writers} {l : PumpLabel} {p : Pump} (h : s.pump.Inv)
    (hs : s.Served) (hl : s.lets l = true) (hp : s.pump.next k l = some p) :
    Served { s with pump := p } ↔ s.keepsServed (.handler l) = true := by
  simp only [keepsServed, Bool.or_eq_true, List.isEmpty_iff]
  by_cases hne : s.waiting = []
  · refine iff_of_true (fun hb => absurd hne hb.1) (.inl (.inl hne))
  by_cases hroom : s.pump.tx_queue.is_not_full = true
  · -- nobody is blocked, and a handler does not push
    refine iff_of_true (fun hb => ?_) (.inl (.inr hroom))
    have hafter : 100 ≤ p.unread.length := ((h.next hp).full_iff).mp hb.2
    have hbefore := h.full_iff.mpr (Nat.le_trans hafter (h.unread_next_le (lets_write hl) hp))
    rw [hroom] at hbefore
    cases hbefore
  · have hfull : s.pump.tx_queue.is_not_full = false := by simpa using hroom
    obtain ⟨hw, hslot⟩ := hs ⟨hne, hfull⟩
    rw [or_iff_right (not_or.mpr ⟨hne, hroom⟩)]
    by_cases hafter : p.tx_queue.is_not_full = false
    · have hstill : 100 ≤ p.unread.length := ((h.next hp).full_iff).mp hafter
      rw [← h.willPop_next (lets_write hl) hp hstill hw]
      exact ⟨fun hb => (hb ⟨hne, hafter⟩).1, fun hw' _ => ⟨hw', hslot⟩⟩
    · -- a handler that pops decides about no send
      exact iff_of_true (fun hb => absurd hb.2 hafter) (Pump.staysAtWork_of_room hp hfull hafter)

/-- One step keeps whoever is blocked waiting for something exactly when it
    meets the condition. -/
theorem served_next {k : PumpKind} {s s' : Writers} {l : Label} (h : s.pump.Inv) (hs : s.Served)
    (hn : s.next k l = some s') : s'.Served ↔ s.keepsServed l = true := by
  cases step_of_next hn with
  | push _ hq =>
    have hroom := (RingBuffer.is_not_full_of_push_front hq).1
    rw [served_of_push hq]
    simp [keepsServed, hroom]
  | wait _ hfull => simp [served_eq, keepsServed, hfull]
  | wake _ hq => exact served_of_push hq
  | doWrite => exact iff_of_true (served_doWrite h hs _) rfl
  | handler hl hp => exact served_handler h hs hl hp

/-! ### Blocked for good -/

/-- The queue is full, nobody is about to call `doWrite`, and nothing pops: the
    pump will not, or a caller that waits occupies the strand. -/
structure Dead (s : Writers) : Prop where
  inv : s.pump.Inv
  full : s.pump.tx_queue.is_not_full = false
  nobody : s.pushed = []
  nothing : s.pump.willPop = false ∨ ∃ w ∈ s.waiting, w.1 = .slot

/-- While a slot waits, only steps that leave the queue alone are taken. -/
theorem unread_of_slot {k : PumpKind} {s : Writers} {l : PumpLabel} {p : Pump}
    (hslot : ∃ w ∈ s.waiting, w.1 = .slot) (hl : s.lets l = true)
    (hp : s.pump.next k l = some p) : p.unread = s.pump.unread := by
  have hbusy : Caller.slot ∈ s.callers := by
    obtain ⟨w, hw, hcaller⟩ := hslot
    exact List.mem_append_left _ (List.mem_map.mpr ⟨w, hw, hcaller⟩)
  cases Pump.step_of_next hp with
  | write => exact absurd rfl (lets_write hl _)
  | runPosted => exact absurd hbusy (of_decide_eq_true hl)
  | deliver => exact absurd hbusy (of_decide_eq_true hl)
  | _ => rfl

/-- Nobody that waits is ever let in again. -/
theorem Dead.next {k : PumpKind} {s s' : Writers} {l : Label} (h : s.Dead)
    (hn : s.next k l = some s') : s'.Dead ∧ s.waiting <+: s'.waiting := by
  have hinv' : s'.pump.Inv := inv_next h.inv hn
  -- nobody can push
  have hnopush : ∀ {d : Bytes} {q : RingBuffer Bytes},
      s.pump.tx_queue.push_front d ≠ some q := fun hq => by
    rw [RingBuffer.push_front_eq_none.mpr h.full] at hq
    cases hq
  cases step_of_next hn with
  | push _ hq => exact absurd hq hnopush
  | wake _ hq => exact absurd hq hnopush
  | doWrite hc => simp [h.nobody] at hc
  | wait =>
    refine ⟨⟨hinv', h.full, h.nobody, ?_⟩, List.prefix_append _ _⟩
    rcases h.nothing with hw | ⟨w, hmem, hcaller⟩
    · exact .inl hw
    · exact .inr ⟨w, List.mem_append_left _ hmem, hcaller⟩
  | @handler l p hl hp =>
    have hstill : p.unread = s.pump.unread → p.tx_queue.is_not_full = false := fun heq => by
      have hp' : p.Inv := hinv'
      rw [hp'.full_iff, heq]
      exact h.inv.full_iff.mp h.full
    rcases h.nothing with hw | hslot
    · obtain ⟨hunread, hw'⟩ := h.inv.idle_next (lets_write hl) hp hw
      exact ⟨⟨hinv', hstill hunread, h.nobody, .inl hw'⟩, List.prefix_rfl⟩
    · have hunread := unread_of_slot hslot hl hp
      exact ⟨⟨hinv', hstill hunread, h.nobody, .inr hslot⟩, List.prefix_rfl⟩

/-- Whoever is blocked with nothing to wait for is blocked for good. -/
theorem Dead.of_not_served {s : Writers} (hinv : s.pump.Inv) (h : ¬ s.Served)
    (hnobody : s.pushed = []) : s.Dead ∧ s.Blocked := by
  obtain ⟨hb, hnothing⟩ := Classical.not_imp.mp h
  refine ⟨⟨hinv, hb.2, hnobody, ?_⟩, hb⟩
  by_cases hw : s.pump.willPop = true
  · right
    by_contra hnone
    exact hnothing ⟨hw, fun w hmem hcaller => hnone ⟨w, hmem, hcaller⟩⟩
  · exact .inl (by simpa using hw)

theorem Dead.exec {k : PumpKind} {ls : List Label} {s s' : Writers} (h : s.Dead)
    (hn : (writers k).exec s ls = some s') : s'.Dead ∧ s.waiting <+: s'.waiting := by
  induction ls generalizing s with
  | nil =>
    simp only [System.exec_nil, Option.some.injEq] at hn
    exact hn ▸ ⟨h, List.prefix_rfl⟩
  | cons l ls ih =>
    obtain ⟨t, hnext, hrest⟩ := System.exec_cons.mp hn
    obtain ⟨ht, hprefix⟩ := h.next hnext
    obtain ⟨hs', hprefix'⟩ := ih ht hrest
    exact ⟨hs', hprefix.trans hprefix'⟩

/-- A call that nobody comes in between is the step `write` of the pump. -/
theorem exec_write {k : PumpKind} {s : Writers} {c : Caller} {d : Bytes} {p : Pump}
    (hc : c ∉ s.callers) (hn : s.pump.next k (.write d) = some p) :
    (writers k).exec s [.write c d, .doWrite c] = some { s with pump := p } := by
  obtain ⟨q, hq, rfl⟩ := Option.map_eq_some_iff.mp hn
  have hnew : c ∉ s.pushed := fun hmem => hc (List.mem_append_right _ hmem)
  have hpushed : (s.pushed ++ [c]).erase c = s.pushed := by
    simp [List.erase_append_right _ hnew]
  simp [System.exec, writers, next, hc, hq, hpushed]

end Writers

/-- **Whoever is blocked in `push_front` will be let in**, throughout a run,
    exactly when every step of the run meets `keepsServed`. Otherwise, once the
    calls that have pushed are through, everybody who is blocked is blocked for
    good. -/
theorem writers_served (k : PumpKind) {s : Writers} (r : Run (writers k) s) :
    (r.Throughout Writers.Served ↔ r.EachStep fun s l => s.keepsServed l = true) ∧
      (¬ s.Served → s.pushed = [] → ∀ ls s', (writers k).exec s ls = some s' →
        s'.Blocked ∧ s.waiting <+: s'.waiting) := by
  have hinit : ∀ s, (writers k).init s → s.pump.Inv ∧ s.Served := by
    rintro s ⟨should_run, is_open, rfl⟩
    exact ⟨Pump.Inv.new should_run is_open, fun hb => absurd rfl hb.1⟩
  constructor
  · apply Run.throughout_iff (I := fun s => s.pump.Inv ∧ s.Served) hinit
    · intro s h
      exact h.2
    · intro s l s' h hC hn
      exact ⟨Writers.inv_next h.1 hn, (Writers.served_next h.1 h.2 hn).mpr hC⟩
    · intro s l s' h hn hs'
      exact (Writers.served_next h.1 h.2 hn).mp hs'
  · intro hs hnobody ls s' hn
    have hinv : s.pump.Inv := by
      refine r.invariant (fun s h => (hinit s h).1) ?_
      intro s l s' h hn
      exact Writers.inv_next h hn
    obtain ⟨hdead, hb⟩ := Writers.Dead.of_not_served hinv hs hnobody
    obtain ⟨hdead', hprefix⟩ := hdead.exec hn
    refine ⟨⟨?_, hdead'.full⟩, hprefix⟩
    intro hnil
    rw [hnil] at hprefix
    exact hb.1 (List.prefix_nil.mp hprefix)

/-- `n` calls of `write` by one caller, each of which returns. -/
def Writers.writes (n : Nat) (c : Caller) : List Writers.Label :=
  (List.replicate n [.write c [7], .doWrite c]).flatten

/-- What a class constructs: only `Serial` starts with `should_run_` false, and
    only a `TcpServerClient` with an open socket. -/
def Writers.constructed (k : PumpKind) : Writers :=
  .new (decide (k ≠ .serial)) (decide (k = .tcpServerClient))

/-- The queue is full, a writer waits, and none has still to call `doWrite`. -/
def Writers.stands (s : Writers) : Bool :=
  s.pushed.isEmpty && (!s.waiting.isEmpty && !s.pump.tx_queue.is_not_full)

theorem Writers.blocked_of_stands {s : Writers} (h : s.stands = true) :
    s.pushed = [] ∧ s.Blocked := by
  simpa [Writers.stands, Writers.Blocked] using h

/-- On a connection that has never been opened, a thread waits and nothing is
    outstanding at all. -/
theorem Writers.stands_idle (k : PumpKind) (hk : k ≠ .tcpServerClient) :
    ∃ (s : Writers) (_ : Run (writers k) s), s.pump.is_open = false ∧ s.pump.sends = [] ∧
      s.pump.posted = 0 ∧ s.pushed = [] ∧ ¬ s.Served := by
  let idle : Writers → Bool := fun s =>
    !s.pump.is_open && s.pump.sends.isEmpty && s.pump.posted == 0 && s.stands
  have hidle : ∀ {s : Writers}, idle s = true → s.pump.is_open = false ∧ s.pump.sends = [] ∧
      s.pump.posted = 0 ∧ s.pushed = [] ∧ ¬ s.Served := fun {s} h => by
    obtain ⟨h, hb⟩ := Bool.and_eq_true_iff.mp h
    obtain ⟨hnobody, hb⟩ := Writers.blocked_of_stands hb
    simp only [Bool.and_eq_true, Bool.not_eq_true', List.isEmpty_iff, beq_iff_eq] at h
    refine ⟨h.1.1, h.1.2, h.2, hnobody, fun hs => ?_⟩
    have hw := (hs hb).1
    simp [Pump.willPop, h.1.2, h.2] at hw
  -- `Serial` does not start a send; the others start one that fails at once
  have hrun : (writers k).check (fun _ _ => true) idle (.constructed k)
      (Writers.writes 100 (.thread 0) ++
        if k = .serial then [.write (.thread 0) [7]] else
          [.handler (.deliver 0), .write (.thread 0) [7], .doWrite (.thread 0),
            .write (.thread 0) [7]]) = true := by
    cases k
    · decide +kernel
    · decide +kernel
    · decide +kernel
    · exact absurd rfl hk
  obtain ⟨s, r, _, hs⟩ := Run.exists_of_check (writers k) ⟨_, _, rfl⟩ _ _ idle hrun
  exact ⟨s, r, hidle hs⟩

/-- Whatever happens then, the thread goes on waiting. -/
theorem writer_waits_for_good :
    ∃ (s : Writers) (_ : Run (writers .tcpClient) s), s.pump.sends = [] ∧
      ∀ ls s', (writers .tcpClient).exec s ls = some s' →
        s'.Blocked ∧ s.waiting <+: s'.waiting := by
  obtain ⟨s, r, _, hsends, _, hnobody, hs⟩ := Writers.stands_idle .tcpClient (by decide)
  exact ⟨s, r, hsends, (writers_served .tcpClient r).2 hs hnobody⟩

/-- A slot that writes once too often on an open connection waits on the strand
    that is to make room, in every class. On a connection that has never been
    opened, a thread waits and nothing is outstanding at all. -/
theorem writer_blocks :
    (∀ k, ∃ (s : Writers) (_ : Run (writers k) s), s.pump.is_open = true ∧
      (∃ w ∈ s.waiting, w.1 = .slot) ∧ s.pushed = [] ∧ ¬ s.Served) ∧
    (∀ k, k ≠ .tcpServerClient → ∃ (s : Writers) (_ : Run (writers k) s),
      s.pump.is_open = false ∧ s.pump.sends = [] ∧ s.pump.posted = 0 ∧ s.pushed = [] ∧
        ¬ s.Served) := by
  constructor
  · let stuck : Writers → Bool := fun s =>
      s.pump.is_open && s.waiting.any (fun w => decide (w.1 = .slot)) && s.stands
    have hstuck : ∀ {s : Writers}, stuck s = true → s.pump.is_open = true ∧
        (∃ w ∈ s.waiting, w.1 = .slot) ∧ s.pushed = [] ∧ ¬ s.Served := fun h => by
      obtain ⟨h, hb⟩ := Bool.and_eq_true_iff.mp h
      obtain ⟨hopen, hslot⟩ := Bool.and_eq_true_iff.mp h
      obtain ⟨hnobody, hb⟩ := Writers.blocked_of_stands hb
      obtain ⟨w, hmem, hcaller⟩ := List.any_eq_true.mp hslot
      have hcaller' : w.1 = .slot := of_decide_eq_true hcaller
      exact ⟨hopen, ⟨w, hmem, hcaller'⟩, hnobody, fun hs => (hs hb).2 w hmem hcaller'⟩
    -- the strand would have to run the posted call, or the completion of the send
    have hrun : ∀ k, (writers k).check (fun _ _ => true) stuck (.constructed k)
        ([.handler .openTransport, .handler (.setShouldRun true)] ++ Writers.writes 100 .slot ++
          if k = .serial then [.write .slot [7]] else
            [.write .slot [7], .doWrite .slot, .write .slot [7]]) = true := by
      intro k
      cases k <;> decide +kernel
    intro k
    obtain ⟨s, r, _, hs⟩ := Run.exists_of_check (writers k) ⟨_, _, rfl⟩ _ _ stuck (hrun k)
    exact ⟨s, r, hstuck hs⟩
  · exact Writers.stands_idle

end DeviceTester
