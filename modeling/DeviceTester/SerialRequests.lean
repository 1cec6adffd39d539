import DeviceTester.Serial

/-! # The last request to a serial port

  Once everything that was posted has run, is the port what the last call of
  `open` or `close` asked for? After `close` it always is. After `open` it is
  exactly when the `doOpen` of this call found nothing of an earlier opening:
  a read that is cancelled by the `doClose` in it comes back as an error, and
  its handler closes the port again; a handler that is already posted becomes
  a second read.

  `reading` and `failing` count what will read on and what will close the
  port. No handler but `doOpen` adds to their sum while the port is open.
-/

namespace DeviceTester

open Async LTS

namespace Serial

/-! ### The property -/

/-- Every device call succeeds, and no read fails unless it is cancelled. -/
def reliable (s : Impl) : Label → Bool
  | .run dev => !(s.runNext dev matches some (.error _))
  | .readFinish _ r => (r matches .ok _)
  | _ => true

namespace Impl

/-- All posted handlers and all completions of finished reads have run. -/
def settled (s : Impl) : Bool :=
  s.strand.isEmpty && s.reads.all fun o => o.result.isNone

/-- **(W)** A settled port is what the last request asked for. -/
def LastRequestWins (s : Impl) : Prop :=
  s.settled = true →
    (s.hist.last_request = some .opening →
      s.isOpen = true ∧ s.pump.should_run = true ∧ s.is_open = true ∧ s.reads.length = 1) ∧
    (s.hist.last_request = some .closing →
      s.isOpen = false ∧ s.pump.should_run = false ∧ s.is_open = false ∧ s.reads = [])

/-- A `doOpen` is run only when no read is outstanding, and neither a `doRead`
    nor a read handler is posted. -/
def opensClean (s : Impl) : Label → Bool
  | .run _ =>
      match s.strand with
      | .doOpen :: rest => noRead { s with strand := rest }
      | _ => true
  | _ => true

end Impl

/-! ### Requests on the strand -/

def Handler.request : Handler → Option Request
  | .doOpen => some .opening
  | .doClose => some .closing
  | _ => none

/-- The request that will be carried out last. -/
def lastWaiting (strand : List Handler) : Option Request :=
  (strand.filterMap Handler.request).getLast?

theorem lastWaiting_append (strand : List Handler) (h : Handler) :
    lastWaiting (strand ++ [h]) = h.request.or (lastWaiting strand) := by
  unfold lastWaiting
  cases hr : h.request <;> simp [hr]

theorem lastWaiting_cons (h : Handler) (rest : List Handler) :
    lastWaiting (h :: rest) = (lastWaiting rest).or h.request := by
  unfold lastWaiting
  cases hr : h.request with
  | none => simp [hr]
  | some q => simp [hr, List.getLast?_cons, Option.or_some]

/-! ### Counting reads -/

/-- The handler goes on reading. -/
def Handler.readsOn : Handler → Bool
  | .doRead => true
  | .handleRead (.ok _) => true
  | _ => false

/-- The handler is that of a read that has failed. -/
def Handler.readFailed : Handler → Bool
  | .handleRead (.error _) => true
  | _ => false

/-- The read has failed. -/
def failed (o : Operation Unit (Except ErrorCode Bytes)) : Bool :=
  match o.result with
  | some (.error _) => true
  | _ => false

def reading (strand : List Handler) (reads : Operations Unit (Except ErrorCode Bytes)) : Nat :=
  strand.countP Handler.readsOn + reads.countP fun o => !failed o

def failing (strand : List Handler) (reads : Operations Unit (Except ErrorCode Bytes)) : Nat :=
  strand.countP Handler.readFailed + reads.countP failed

theorem reading_append (strand : List Handler) (h : Handler)
    (reads : Operations Unit (Except ErrorCode Bytes)) :
    reading (strand ++ [h]) reads = reading strand reads + if h.readsOn then 1 else 0 := by
  unfold reading
  simp only [List.countP_append, List.countP_singleton]
  omega

theorem failing_append (strand : List Handler) (h : Handler)
    (reads : Operations Unit (Except ErrorCode Bytes)) :
    failing (strand ++ [h]) reads = failing strand reads + if h.readFailed then 1 else 0 := by
  unfold failing
  simp only [List.countP_append, List.countP_singleton]
  omega

theorem reading_cons (h : Handler) (rest : List Handler)
    (reads : Operations Unit (Except ErrorCode Bytes)) :
    reading (h :: rest) reads = reading rest reads + if h.readsOn then 1 else 0 := by
  unfold reading
  rw [List.countP_cons]
  omega

theorem failing_cons (h : Handler) (rest : List Handler)
    (reads : Operations Unit (Except ErrorCode Bytes)) :
    failing (h :: rest) reads = failing rest reads + if h.readFailed then 1 else 0 := by
  unfold failing
  rw [List.countP_cons]
  omega

/-- A read is counted once. -/
theorem reading_add_failing_reads (reads : Operations Unit (Except ErrorCode Bytes)) :
    (reads.countP fun o => !failed o) + reads.countP failed = reads.length := by
  have hsplit := List.length_eq_countP_add_countP (l := reads) failed
  simp only [Bool.not_eq_true, Bool.decide_eq_false] at hsplit
  omega

/-- So is a posted handler of a read. -/
theorem countP_ofRead (strand : List Handler) :
    strand.countP Handler.ofRead =
      strand.countP Handler.readsOn + strand.countP Handler.readFailed := by
  induction strand with
  | nil => rfl
  | cons h rest ih =>
    have hone : (if h.ofRead then 1 else 0) =
        (if h.readsOn then 1 else 0) + if h.readFailed then 1 else 0 := by
      rcases h with _ | _ | _ | (_ | _) <;> rfl
    simp only [List.countP_cons]
    omega

/-- Nothing is left of an earlier opening exactly when nothing is counted. -/
theorem noRead_iff (s : Impl) :
    s.noRead = true ↔ reading s.strand s.reads + failing s.strand s.reads = 0 := by
  have hreads := reading_add_failing_reads s.reads
  have hposted := countP_ofRead s.strand
  have hall : (s.strand.all fun h => !h.ofRead) = true ↔ s.strand.countP Handler.ofRead = 0 := by
    simp [List.all_eq_true, List.countP_eq_zero]
  unfold Impl.noRead reading failing
  rw [Bool.and_eq_true_iff, hall, List.isEmpty_iff, ← List.length_eq_zero_iff]
  omega

/-- Cancelling a read turns one that reads on into one that has failed. -/
theorem length_cancelAll (reads : Operations Unit (Except ErrorCode Bytes)) :
    (cancelAll reads).length = reads.length := by
  simp [cancelAll, Operations.abort]

theorem countP_finish_ok {reads : Operations Unit (Except ErrorCode Bytes)} {i : Nat}
    (chunk : Bytes) (hi : reads.inProgress i = some ()) :
    (reads.finish i () (.ok chunk)).countP failed = reads.countP failed ∧
      ((reads.finish i () (.ok chunk)).countP fun o => !failed o) =
        reads.countP fun o => !failed o :=
  ⟨Operations.countP_finish failed _ hi rfl,
    Operations.countP_finish (fun o => !failed o) _ hi rfl⟩

/-! ### The invariant of the reliable runs -/

namespace Impl

/-- The last `doOpen` was clean: one read goes on, and none has failed. -/
structure Good (s : Impl) : Prop where
  opened : s.pump.is_open = true
  running : s.pump.should_run = true
  one : reading s.strand s.reads = 1
  none_failed : failing s.strand s.reads = 0

/-- The last `doOpen` was not: the port is closed, it will be, or it is read
    from more than once. -/
def Doomed (s : Impl) : Prop :=
  s.pump.is_open = true →
    s.pump.should_run = true ∧ (0 < failing s.strand s.reads ∨ 2 ≤ reading s.strand s.reads)

structure Inv (s : Impl) : Prop where
  flag : s.is_open = s.pump.is_open
  idle : s.pump.is_open = false → pendingCount s.reads = 0
  request : ∀ q, lastWaiting s.strand = some q → s.hist.last_request = some q
  opening : lastWaiting s.strand = none → s.hist.last_request = some .opening →
    if s.hist.opened_clean then s.Good else s.Doomed
  closing : lastWaiting s.strand = none → s.hist.last_request = some .closing →
    s.pump.is_open = false ∧ s.pump.should_run = false

theorem Inv.new (opts : Options) : (Impl.new opts).Inv where
  flag := rfl
  idle := fun _ => rfl
  request := by
    intro q hq
    cases hq
  opening := by
    intro _ hlast
    cases hlast
  closing := by
    intro _ hlast
    cases hlast

/-- A request waits on the strand, so nothing is said about the port. -/
theorem Inv.requested {s s' : Impl} (h : s.Inv) {q : Request}
    (hw : lastWaiting s'.strand = some q) (hlast : s'.hist.last_request = some q)
    (hopen : s'.pump.is_open = s.pump.is_open) (hflag : s'.is_open = s.is_open)
    (hreads : s'.reads = s.reads) : s'.Inv where
  flag := by rw [hflag, hopen]; exact h.flag
  idle := by rw [hopen, hreads]; exact h.idle
  request := by
    intro q' hq'
    rw [hw] at hq'
    rw [hlast, hq']
  opening := by
    intro hnone
    rw [hw] at hnone
    cases hnone
  closing := by
    intro hnone
    rw [hw] at hnone
    cases hnone

theorem Inv.requestOpen {s : Impl} (h : s.Inv) : s.requestOpen.Inv := by
  have hw : lastWaiting s.requestOpen.strand = some .opening := by
    show lastWaiting (s.strand ++ [.doOpen]) = some .opening
    rw [lastWaiting_append]
    rfl
  exact h.requested hw rfl rfl rfl rfl

theorem Inv.requestClose {s : Impl} (h : s.Inv) : s.requestClose.Inv := by
  have hw : lastWaiting s.requestClose.strand = some .closing := by
    show lastWaiting (s.strand ++ [.doClose]) = some .closing
    rw [lastWaiting_append]
    rfl
  exact h.requested hw rfl rfl rfl rfl

/-- A step that carries out no request and leaves the port and `should_run_`
    as they are, and that adds, loses and fails no read of a running port. -/
theorem Inv.keeps {s s' : Impl} (h : s.Inv) (hopen : s'.pump.is_open = s.pump.is_open)
    (hrun : s'.pump.should_run = s.pump.should_run) (hflag : s'.is_open = s.is_open)
    (hhist : s'.hist = s.hist) (hw : lastWaiting s'.strand = lastWaiting s.strand)
    (hidle : s.pump.is_open = false → pendingCount s'.reads = 0)
    (hcount : s.pump.is_open = true → s.pump.should_run = true →
      reading s'.strand s'.reads = reading s.strand s.reads ∧
        failing s'.strand s'.reads = failing s.strand s.reads) : s'.Inv where
  flag := by rw [hflag, hopen]; exact h.flag
  idle := by rw [hopen]; exact hidle
  request := by rw [hw, hhist]; exact h.request
  opening := by
    intro hnone hlast
    rw [hw] at hnone
    rw [hhist] at hlast ⊢
    have hstate := h.opening hnone hlast
    split
    · next hclean =>
      rw [if_pos hclean] at hstate
      obtain ⟨hr, hf⟩ := hcount hstate.opened hstate.running
      exact ⟨hopen.trans hstate.opened, hrun.trans hstate.running, hr.trans hstate.one,
        hf.trans hstate.none_failed⟩
    · next hclean =>
      rw [if_neg hclean] at hstate
      intro ho
      rw [hopen] at ho
      obtain ⟨hrunning, hbad⟩ := hstate ho
      obtain ⟨hr, hf⟩ := hcount ho hrunning
      exact ⟨hrun.trans hrunning, by rw [hr, hf]; exact hbad⟩
  closing := by rw [hw, hhist, hopen, hrun]; exact h.closing

/-- In particular one that only touches the write side, the options or what
    has been received. -/
theorem Inv.frame {s s' : Impl} (h : s.Inv) (hopen : s'.pump.is_open = s.pump.is_open)
    (hrun : s'.pump.should_run = s.pump.should_run) (hflag : s'.is_open = s.is_open)
    (hhist : s'.hist = s.hist) (hstrand : s'.strand = s.strand) (hreads : s'.reads = s.reads) :
    s'.Inv := by
  apply h.keeps hopen hrun hflag hhist (by rw [hstrand])
  · rw [hreads]
    exact h.idle
  · intro _ _
    rw [hstrand, hreads]
    exact ⟨rfl, rfl⟩

theorem Inv.readFinish {s : Impl} (h : s.Inv) {i : Nat} (hi : s.reads.inProgress i = some ())
    (chunk : Bytes) : ({ s with reads := s.reads.finish i () (.ok chunk) } : Impl).Inv := by
  refine h.keeps rfl rfl rfl rfl rfl ?_ ?_
  · -- nothing is in progress on a closed port
    intro hclosed
    have hzero := h.idle hclosed
    have hpos := pendingCount_pos hi
    omega
  · intro _ _
    obtain ⟨hf, hr⟩ := countP_finish_ok chunk hi
    unfold reading failing
    rw [hf, hr]
    exact ⟨rfl, rfl⟩

theorem Inv.readDeliver {s : Impl} (h : s.Inv) {i : Nat} {r : Except ErrorCode Bytes}
    (hi : s.reads.finished i = some ((), r)) :
    ({ s.post (.handleRead r) with reads := s.reads.remove i } : Impl).Inv := by
  refine h.keeps rfl rfl rfl rfl ?_ ?_ ?_
  · show lastWaiting (s.strand ++ [.handleRead r]) = lastWaiting s.strand
    rw [lastWaiting_append]
    rfl
  · intro hclosed
    exact (pendingCount_remove hi).trans (h.idle hclosed)
  · intro _ _
    show reading (s.strand ++ [.handleRead r]) (s.reads.remove i) = reading s.strand s.reads ∧
      failing (s.strand ++ [.handleRead r]) (s.reads.remove i) = failing s.strand s.reads
    have hr := Operations.countP_remove (fun o => !failed o) hi
    have hf := Operations.countP_remove failed hi
    -- the handler is counted as the read was
    have h₁ : Handler.readsOn (.handleRead r) = !failed ⟨(), some r⟩ := by cases r <;> rfl
    have h₂ : Handler.readFailed (.handleRead r) = failed ⟨(), some r⟩ := by cases r <;> rfl
    rw [reading_append, failing_append, h₁, h₂]
    unfold reading failing
    constructor <;> omega

/-! The handlers. -/

theorem Inv.doRead {s : Impl} (h : s.Inv) {rest : List Handler} (hs : s.strand = .doRead :: rest) :
    ({ s with strand := rest } : Impl).doRead.Inv := by
  refine h.keeps rfl rfl rfl rfl ?_ ?_ ?_
  · show lastWaiting rest = lastWaiting s.strand
    rw [hs, lastWaiting_cons]
    simp [Handler.request]
  · intro hclosed
    -- on a closed port the read fails at once
    simp only [Impl.doRead, hclosed, Bool.false_eq_true, if_false]
    rw [pendingCount_startDone]
    exact h.idle hclosed
  · intro ho _
    -- the posted read becomes one in progress, and is counted as before
    simp only [Impl.doRead, ho, if_true]
    rw [hs, reading_cons, failing_cons]
    unfold reading failing
    rw [Operations.countP_start, Operations.countP_start]
    simp only [Handler.readsOn, Handler.readFailed, failed]
    constructor
    · simp only [Bool.not_false, if_true]
      omega
    · simp

theorem Inv.handleRead_ok {s : Impl} (h : s.Inv) {rest : List Handler} {chunk : Bytes}
    (hs : s.strand = .handleRead (.ok chunk) :: rest) :
    (({ s with strand := rest } : Impl).handleRead (.ok chunk)).Inv := by
  have hw : lastWaiting rest = lastWaiting s.strand := by
    rw [hs, lastWaiting_cons]
    simp [Handler.request]
  by_cases hrun : s.pump.should_run = true
  · -- the read is replaced by a posted one
    simp only [Impl.handleRead, hrun, if_true]
    refine h.keeps rfl rfl rfl rfl ?_ ?_ ?_
    · show lastWaiting (rest ++ [.doRead]) = lastWaiting s.strand
      rw [lastWaiting_append, ← hw]
      rfl
    · exact h.idle
    · intro _ _
      show reading (rest ++ [.doRead]) s.reads = reading s.strand s.reads ∧
        failing (rest ++ [.doRead]) s.reads = failing s.strand s.reads
      rw [reading_append, failing_append, hs, reading_cons, failing_cons]
      exact ⟨rfl, rfl⟩
  · -- the counts only matter while the port runs
    simp only [Impl.handleRead]
    rw [if_neg hrun]
    refine h.keeps rfl rfl rfl rfl hw h.idle ?_
    intro _ hrunning
    exact absurd hrunning hrun

/-- After `doClose` nothing is in progress on the port. -/
theorem pendingCount_doClose {s : Impl} (h : s.Inv) (rest : List Handler) :
    pendingCount ({ s with strand := rest } : Impl).doClose.reads = 0 := by
  simp only [Impl.doClose]
  by_cases ho : s.pump.is_open = true
  · rw [if_pos ho]
    exact pendingCount_cancelAll s.reads
  · rw [if_neg ho]
    exact h.idle (by simpa using ho)

/-- A handler that is taken from the strand and closes the port. -/
theorem Inv.closes {s : Impl} (h : s.Inv) {rest : List Handler}
    (hrequest : ∀ q, lastWaiting rest = some q → s.hist.last_request = some q)
    (hdirty : lastWaiting rest = none → s.hist.last_request = some .opening →
      s.hist.opened_clean = false) : ({ s with strand := rest } : Impl).doClose.Inv where
  flag := rfl
  idle := fun _ => pendingCount_doClose h rest
  request := hrequest
  opening := by
    intro hnone hlast
    have hfalse : ({ s with strand := rest } : Impl).doClose.hist.opened_clean = false :=
      hdirty hnone hlast
    rw [hfalse]
    intro ho
    cases ho
  closing := fun _ _ => ⟨rfl, rfl⟩

theorem Inv.doClose {s : Impl} (h : s.Inv) {rest : List Handler} (hs : s.strand = .doClose :: rest) :
    ({ s with strand := rest } : Impl).doClose.Inv := by
  have hw : lastWaiting s.strand = (lastWaiting rest).or (some .closing) := by
    rw [hs, lastWaiting_cons]
    rfl
  apply h.closes
  · intro q hq
    apply h.request
    rw [hw, hq]
    rfl
  · -- the request that is carried out is the last one
    intro hnone hlast
    rw [hnone] at hw
    rw [h.request _ hw] at hlast
    cases hlast

theorem Inv.handleRead_error {s : Impl} (h : s.Inv) {rest : List Handler} {ec : ErrorCode}
    (hs : s.strand = .handleRead (.error ec) :: rest) :
    ({ s with strand := rest } : Impl).doClose.Inv := by
  have hw : lastWaiting s.strand = lastWaiting rest := by
    rw [hs, lastWaiting_cons]
    simp [Handler.request]
  apply h.closes
  · intro q hq
    exact h.request q (hw.trans hq)
  · -- after a clean `doOpen` no read fails
    intro hnone hlast
    rw [← Bool.not_eq_true]
    intro hclean
    have hstate := h.opening (hw.trans hnone) hlast
    rw [if_pos hclean] at hstate
    have hnone_failed := hstate.none_failed
    rw [hs, failing_cons] at hnone_failed
    simp [Handler.readFailed] at hnone_failed

/-- `doOpen` is clean exactly when there is nothing to read before it. -/
theorem Inv.doOpen {s : Impl} (h : s.Inv) {rest : List Handler} (hs : s.strand = .doOpen :: rest)
    {s' : Impl} (hs' : s' = ({ s with
      strand := rest
      hist := { s.hist with opened_clean := noRead { s with strand := rest } } } :
        Impl).doClose.configured.opened) : s'.Inv := by
  have hw : lastWaiting s.strand = (lastWaiting rest).or (some .opening) := by
    rw [hs, lastWaiting_cons]
    rfl
  have hstrand : s'.strand = rest ++ [.doRead] := by rw [hs']; rfl
  have hlast : s'.hist.last_request = s.hist.last_request := by rw [hs']; rfl
  have hclean : s'.hist.opened_clean = noRead { s with strand := rest } := by rw [hs']; rfl
  have hlength : s'.reads.length = s.reads.length := by
    rw [hs']
    show (if s.pump.is_open then cancelAll s.reads else s.reads).length = s.reads.length
    split
    · exact length_cancelAll s.reads
    · rfl
  have hw' : lastWaiting s'.strand = lastWaiting rest := by
    rw [hstrand, lastWaiting_append]
    rfl
  -- one read more than there is left of the earlier openings
  have hsum : reading s'.strand s'.reads + failing s'.strand s'.reads =
      reading rest s.reads + failing rest s.reads + 1 := by
    have h₁ := reading_add_failing_reads s.reads
    have h₂ := reading_add_failing_reads s'.reads
    rw [hstrand, reading_append, failing_append]
    simp only [reading, failing, Handler.readsOn, Handler.readFailed, if_true,
      Bool.false_eq_true, if_false]
    omega
  have hone : 0 < reading s'.strand s'.reads := by
    rw [hstrand, reading_append]
    simp [Handler.readsOn]
  have hempty := noRead_iff { s with strand := rest }
  simp only at hempty
  refine ⟨by rw [hs']; rfl, fun hclosed => ?_, fun q hq => ?_, fun hnone hopening => ?_,
    fun hnone hclosing => ?_⟩
  · rw [hs'] at hclosed
    cases hclosed
  · rw [hlast]
    apply h.request
    rw [hw, ← hw', hq]
    rfl
  · split
    · next hgood =>
      -- nothing was left, so the posted read is the only one
      rw [hclean, hempty] at hgood
      exact ⟨by rw [hs']; rfl, by rw [hs']; rfl, by omega, by omega⟩
    · next hbad =>
      -- something was left: it has failed, or it is read besides the posted one
      rw [hclean, hempty] at hbad
      intro _
      exact ⟨by rw [hs']; rfl, by omega⟩
  · rw [hw'] at hnone
    rw [hnone] at hw
    rw [hlast, h.request _ hw] at hclosing
    cases hclosing

/-- The handler at the front of the strand is run, and throws nothing. -/
theorem Inv.run {s s' : Impl} (h : s.Inv) {dev : DeviceCall → Bool}
    (hn : s.runNext dev = some (.ok s')) : s'.Inv := by
  unfold runNext at hn
  split at hn
  · cases hn
  · next handler rest hs =>
    have hexec := Option.some.inj hn
    cases handler with
    | doOpen =>
      obtain ⟨_, hs'⟩ := doOpen_eq_ok.mp hexec
      exact h.doOpen hs hs'
    | doClose =>
      obtain rfl := Except.ok.inj hexec
      exact h.doClose hs
    | doRead =>
      obtain rfl := Except.ok.inj hexec
      exact h.doRead hs
    | handleRead r =>
      obtain rfl := Except.ok.inj hexec
      cases r with
      | ok chunk => exact h.handleRead_ok hs
      | error ec => exact h.handleRead_error hs

end Impl

/-- The port of the runs the theorem is about. -/
def reliablePort : System Impl Label := system.restrict reliable

/-- On a reliable port no handler throws. -/
theorem no_throw {s s' : Impl} {dev : DeviceCall → Bool} (hrun : s.runNext dev = some (.error s')) :
    reliable s (.run dev) = false := by
  simp [reliable, hrun]

/-- Every step keeps the invariant. -/
theorem Impl.Inv.next {s s' : Impl} {l : Label} (h : s.Inv)
    (hn : reliablePort.next s l = some s') : s'.Inv := by
  obtain ⟨hreliable, hn⟩ := System.restrict_next.mp hn
  -- a step of the pump alone
  have hpump : ∀ {l : PumpLabel} {p : Pump}, s.pump.next .serial l = some p →
      l.keepsFlags = true → ({ s with pump := p } : Impl).Inv := by
    intro l p hp hl
    obtain ⟨hrun, hopen⟩ := Pump.next_flags hp hl
    exact h.frame hopen hrun rfl rfl rfl rfl
  obtain ⟨_, hstep⟩ := Impl.step_of_next hn
  cases hstep with
  | opening => exact h.requestOpen
  | closing => exact h.requestClose
  | setOptions opts => exact h.frame rfl rfl rfl rfl rfl rfl
  | write hp => exact hpump hp rfl
  | startWrite hp => exact hpump hp rfl
  | sendFinish hp => exact hpump hp rfl
  | sendDeliver hp => exact hpump hp rfl
  | @readFinish i r hi =>
    cases r with
    | ok chunk => exact h.readFinish hi chunk
    | error ec => exact absurd hreliable Bool.false_ne_true
  | readDeliver hf => exact h.readDeliver hf
  | run hrun => exact h.run hrun
  | throw hrun => exact absurd ((no_throw hrun).symm.trans hreliable) Bool.false_ne_true

/-- What has been counted is all there is once nothing is left to run. -/
theorem settled_counts {s : Impl} (h : s.settled = true) :
    lastWaiting s.strand = none ∧ reading s.strand s.reads = s.reads.length ∧
      failing s.strand s.reads = 0 ∧ pendingCount s.reads = s.reads.length := by
  obtain ⟨hstrand, hall⟩ := Bool.and_eq_true_iff.mp h
  rw [List.isEmpty_iff] at hstrand
  rw [List.all_eq_true] at hall
  have hfailed : s.reads.countP failed = 0 := by
    rw [List.countP_eq_zero]
    intro o ho
    have hpending := hall o ho
    rw [Option.isNone_iff_eq_none] at hpending
    simp [failed, hpending]
  have hsum := reading_add_failing_reads s.reads
  refine ⟨by rw [hstrand]; rfl, ?_, ?_, ?_⟩
  · simp only [reading, hstrand, List.countP_nil]
    omega
  · simp only [failing, hstrand, List.countP_nil]
    omega
  · exact List.countP_eq_length.mpr hall

/-- A settled port obeys the last request exactly when this was not an `open`
    that found something left of an earlier opening. -/
theorem Impl.Inv.obeys {s : Impl} (h : s.Inv) :
    s.LastRequestWins ↔
      (s.settled = true → s.hist.last_request = some .opening → s.hist.opened_clean = true) := by
  constructor
  · intro hwins hsettled hopening
    obtain ⟨hnone, hreading, hfailing, _⟩ := settled_counts hsettled
    obtain ⟨hopen, _, _, hone⟩ := (hwins hsettled).1 hopening
    -- an opening that is not clean leaves a failed read or two that read on, and a settled
    -- port has neither
    have hstate := h.opening hnone hopening
    rw [← Bool.not_eq_false]
    intro hdirty
    rw [hdirty] at hstate
    obtain ⟨_, hbad⟩ := hstate hopen
    omega
  · intro hclean hsettled
    obtain ⟨hnone, hreading, _, hpending⟩ := settled_counts hsettled
    constructor
    · intro hopening
      have hstate := h.opening hnone hopening
      rw [if_pos (hclean hsettled hopening)] at hstate
      have hone := hstate.one
      exact ⟨hstate.opened, hstate.running, h.flag.trans hstate.opened, by omega⟩
    · intro hclosing
      obtain ⟨hclosed, hstopped⟩ := h.closing hnone hclosing
      have hzero := h.idle hclosed
      exact ⟨hclosed, hstopped, h.flag.trans hclosed, List.eq_nil_of_length_eq_zero (by omega)⟩

/-- Only `doOpen` writes `opened_clean`. -/
theorem opened_clean_run {s s' : Impl} {dev : DeviceCall → Bool}
    (h : s.hist.opened_clean = true) (hC : s.opensClean (.run dev) = true)
    (hn : s.runNext dev = some (.ok s')) : s'.hist.opened_clean = true := by
  unfold Impl.runNext at hn
  unfold Impl.opensClean at hC
  split at hn
  · cases hn
  · next handler rest hs =>
    rw [hs] at hC
    have hexec := Option.some.inj hn
    cases handler with
    | doOpen =>
      obtain ⟨_, rfl⟩ := Impl.doOpen_eq_ok.mp hexec
      exact hC
    | doClose =>
      obtain rfl := Except.ok.inj hexec
      exact h
    | doRead =>
      obtain rfl := Except.ok.inj hexec
      exact h
    | handleRead r =>
      obtain rfl := Except.ok.inj hexec
      cases r with
      | ok chunk =>
        simp only [Impl.handleRead]
        split
        · exact h
        · exact h
      | error ec => exact h

theorem opened_clean_next {s s' : Impl} {l : Label} (h : s.hist.opened_clean = true)
    (hC : s.opensClean l = true) (hn : reliablePort.next s l = some s') :
    s'.hist.opened_clean = true := by
  obtain ⟨hreliable, hn⟩ := System.restrict_next.mp hn
  obtain ⟨_, hstep⟩ := Impl.step_of_next hn
  cases hstep with
  | run hrun => exact opened_clean_run h hC hrun
  | throw hrun => exact absurd ((no_throw hrun).symm.trans hreliable) Bool.false_ne_true
  | _ => exact h

/-- **The last request wins** in every state of a run whose `doOpen`s find no
    read of an earlier opening. And in any state of any run it wins exactly
    when the state is not settled, the last request was `close`, or the last
    `doOpen` was such a one. -/
theorem last_request_wins {s : Impl} (r : Run reliablePort s) :
    ((r.EachStep fun s l => s.opensClean l = true) → r.Throughout Impl.LastRequestWins) ∧
    (s.LastRequestWins ↔
      (s.settled = true → s.hist.last_request = some .opening → s.hist.opened_clean = true)) := by
  have hinit : ∀ s, reliablePort.init s → s.Inv := by
    rintro s ⟨opts, rfl⟩
    exact Impl.Inv.new opts
  constructor
  · intro hC
    have hboth : r.Throughout fun s => s.Inv ∧ s.hist.opened_clean = true := by
      apply Run.guarded _ _ r hC
      · intro s hs
        obtain ⟨opts, rfl⟩ := id hs
        exact ⟨hinit _ hs, rfl⟩
      · intro s l s' h hl hn
        exact ⟨h.1.next hn, opened_clean_next h.2 hl hn⟩
    exact hboth.mono fun s h => h.1.obeys.mpr fun _ _ => h.2
  · have hinv := r.invariant hinit fun s l s' h hn => h.next hn
    exact hinv.obeys

/-- Opened, closed and opened again when the read of the first opening has been
    delivered. -/
theorem opened_again_is_open :
    ∃ (s : Impl) (r : Run reliablePort s), s.settled = true ∧ s.isOpen = true ∧
      s.LastRequestWins ∧ r.Throughout Impl.LastRequestWins := by
  obtain ⟨s, r, hclean, hs⟩ := Run.exists_of_check reliablePort
    ⟨⟨"", 0, 0, .none, .none, .one⟩, rfl⟩
    [.opening, .run fun _ => true, .run fun _ => true, .closing, .run fun _ => true,
      .readDeliver 0, .run fun _ => true, .opening, .run fun _ => true, .run fun _ => true]
    Impl.opensClean (fun s => s.settled && s.isOpen && s.hist.opened_clean) (by decide)
  simp only [Bool.and_eq_true] at hs
  obtain ⟨⟨hsettled, hopen⟩, hlast⟩ := hs
  exact ⟨s, r, hsettled, hopen, (last_request_wins r).2.mpr fun _ _ => hlast,
    (last_request_wins r).1 hclean⟩

/-- Opened twice: the read of the first opening is cancelled by the second,
    and its handler closes the port. -/
theorem opened_twice_is_closed :
    ∃ (s : Impl) (_ : Run reliablePort s), ¬ s.LastRequestWins := by
  obtain ⟨s, r, _, hs⟩ := Run.exists_of_check reliablePort
    ⟨⟨"", 0, 0, .none, .none, .one⟩, rfl⟩
    [.opening, .run fun _ => true, .run fun _ => true, .opening, .run fun _ => true,
      .readDeliver 0, .run fun _ => true, .run fun _ => true, .readDeliver 0, .run fun _ => true]
    (fun _ _ => true)
    (fun s => s.settled && decide (s.hist.last_request = some .opening) && !s.isOpen) (by decide)
  refine ⟨s, r, fun hwins => ?_⟩
  simp only [Bool.and_eq_true, decide_eq_true_eq, Bool.not_eq_true'] at hs
  have hopen := ((hwins hs.1.1).1 hs.1.2).1
  rw [hs.2] at hopen
  cases hopen

end Serial

end DeviceTester
