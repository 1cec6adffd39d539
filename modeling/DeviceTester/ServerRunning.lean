import DeviceTester.ServerAccepts

/-! # Is a running server accepting?

  `isRunning` asks whether the acceptor is open, which it is before it is
  bound, before it listens and before the first accept. A failed `bind` is
  logged, a failed `listen` throws, and both leave the acceptor open. An accept
  that fails while the acceptor is open ends the chain of accepts. In a run with
  none of these, a running server accepts (`running_accepts_iff`).
-/

namespace DeviceTester

open Async LTS

namespace TcpServer

/-! ### The server with the options of its last `start` -/

/-- The server and, which the program does not keep, the options `start` has
    used when it was executed last. -/
structure Started where
  server : Impl
  used : Option Options

namespace Started

/-- `setOptions` calls `start` on a running server. -/
def usedBy (s : Started) : Label → Option Options
  | .start _ => some s.server.opts
  | .setOptions opts _ => if s.server.isRunning then some opts else s.used
  | _ => s.used

def next (s : Started) (l : Label) : Option Started :=
  (s.server.next l).map fun server => ⟨server, s.usedBy l⟩

end Started

/-- The system of the server, with the options of the last `start`. -/
def startedSystem : System Started Label where
  init := fun s => ∃ opts, s = ⟨Impl.new opts, none⟩
  next := Started.next

/-! ### The property -/

/-- The acceptor is bound as the options say, it listens, and there is an accept
    started since the last `stop` whose handler has not run. -/
structure Impl.AcceptsOn (s : Impl) (opts : Options) : Prop where
  bound : s.acceptor.bound = some opts.endpoint
  listening : s.acceptor.listening = true
  accept : ∃ o ∈ s.accepts, s.ofThisRun o = true

/-- **(R)** A running server accepts on the endpoint of the last `start`. -/
def RunningAccepts (s : Started) : Prop :=
  s.server.isRunning = true → ∃ opts, s.used = some opts ∧ s.server.AcceptsOn opts

/-- The operating system refuses `open`, `bind` or `listen` when it is asked. -/
def Label.refused : Label → Bool
  | .start os => decide (os ≠ .granted)
  | .setOptions _ os => decide (os ≠ .granted)
  | _ => false

/-- A `start` that fails leaves no running server. -/
def FailedStartStops (_ : Started) (l : Label) (s' : Started) : Prop :=
  l.refused = true → s'.server.isRunning = false

/-- `start` gets no further than the check of the protocol or `open`, or
    through to the end. -/
def Options.startsWell (opts : Options) (os : Answer) : Bool :=
  decide (opts.protocol = .none) || decide (os = .openFails) || decide (os = .granted)

/-- Neither `bind` nor `listen` fails, and of the accepts started since the last
    `stop` the only one does not fail while the acceptor is open. -/
def keepsAccepting (s : Started) : Label → Bool
  | .start os => s.server.opts.startsWell os
  | .setOptions opts os => !s.server.isRunning || opts.startsWell os
  | .acceptDeliver i =>
      match s.server.accepts.finished i with
      | some (n, .error _) =>
          !s.server.isRunning || decide (n ≠ s.server.stops) ||
            decide (2 ≤ s.server.accepts.countP s.server.ofThisRun)
      | _ => true
  | _ => true

/-! ### The steps -/

namespace Impl

theorem acceptsOn_iff {s : Impl} {opts : Options} :
    s.AcceptsOn opts ↔ s.acceptor.bound = some opts.endpoint ∧ s.acceptor.listening = true ∧
      0 < s.accepts.countP s.ofThisRun := by
  rw [List.countP_pos_iff]
  exact ⟨fun h => ⟨h.bound, h.listening, h.accept⟩, fun h => ⟨h.1, h.2.1, h.2.2⟩⟩

/-- What a started accept leaves to be done. -/
theorem startAccept_accept {s : Impl} (hopen : s.acceptor.is_open = true) :
    ∃ o ∈ s.startAccept.accepts, s.startAccept.ofThisRun o = true := by
  have heq : s.startAccept = { s with accepts := s.accepts.start s.stops } := by
    simp [Impl.startAccept, hopen]
  rw [heq]
  exact ⟨⟨s.stops, none⟩, Operations.mem_start.mpr (.inr rfl), decide_eq_true rfl⟩

/-- The protocol `none` stops the server, another one asks the operating
    system. -/
theorem start_of_none {s : Impl} (h : s.opts.protocol = .none) (os : Answer) :
    s.start os = s.stop := by
  unfold Impl.start
  exact if_pos h

theorem start_openFails (s : Impl) : s.start .openFails = s.stop := by
  unfold Impl.start
  by_cases h : s.opts.protocol = .none
  · exact if_pos h
  · exact if_neg h

theorem start_bindFails {s : Impl} (h : s.opts.protocol ≠ .none) :
    s.start .bindFails = { s.stop with acceptor := ⟨true, none, false⟩ } := by
  unfold Impl.start
  exact if_neg h

theorem start_listenFails {s : Impl} (h : s.opts.protocol ≠ .none) :
    s.start .listenFails = { s.stop with acceptor := ⟨true, some s.opts.endpoint, false⟩ } := by
  unfold Impl.start
  exact if_neg h

theorem start_granted {s : Impl} (h : s.opts.protocol ≠ .none) :
    s.start .granted =
      startAccept { s.stop with acceptor := ⟨true, some s.opts.endpoint, true⟩ } := by
  unfold Impl.start
  exact if_neg h

/-- After `start` a running server accepts exactly when it has started well. -/
theorem start_acceptsOn_iff (s : Impl) (os : Answer) :
    ((s.start os).isRunning = true → (s.start os).AcceptsOn s.opts) ↔
      s.opts.startsWell os = true := by
  have hstopped : s.stop.isRunning = true → s.stop.AcceptsOn s.opts := by
    intro h
    cases h
  by_cases hnone : s.opts.protocol = .none
  · rw [start_of_none hnone]
    simpa [Options.startsWell, hnone] using hstopped
  · cases os with
    | openFails =>
      rw [start_openFails]
      simpa [Options.startsWell] using hstopped
    | bindFails =>
      -- open, but bound to nothing
      rw [start_bindFails hnone]
      simp only [Options.startsWell, hnone, decide_false, Bool.false_or]
      constructor
      · intro h
        cases (h rfl).bound
      · intro h
        cases h
    | listenFails =>
      -- bound, but not listening
      rw [start_listenFails hnone]
      simp only [Options.startsWell, hnone, decide_false, Bool.false_or]
      constructor
      · intro h
        cases (h rfl).listening
      · intro h
        cases h
    | granted =>
      rw [start_granted hnone]
      constructor
      · intro _
        simp [Options.startsWell]
      · intro _ _
        exact ⟨rfl, rfl, startAccept_accept rfl⟩

/-- A `start` that is refused and has started well has not got past `open`. -/
theorem start_refused {s : Impl} {os : Answer} (hwell : s.opts.startsWell os = true)
    (hrefused : os ≠ .granted) : (s.start os).isRunning = false := by
  simp only [Options.startsWell, Bool.or_eq_true, decide_eq_true_eq] at hwell
  rcases hwell with (hnone | rfl) | hgranted
  · rw [start_of_none hnone]
    rfl
  · rw [start_openFails]
    rfl
  · exact absurd hgranted hrefused

/-- A step that leaves the acceptor alone, and the accepts of this run. -/
theorem AcceptsOn.frame {s s' : Impl} {opts : Options} (h : s.AcceptsOn opts)
    (hacceptor : s'.acceptor = s.acceptor)
    (hcount : 0 < s.accepts.countP s.ofThisRun → 0 < s'.accepts.countP s'.ofThisRun) :
    s'.AcceptsOn opts := by
  obtain ⟨hbound, hlistening, hpos⟩ := acceptsOn_iff.mp h
  rw [acceptsOn_iff, hacceptor]
  exact ⟨hbound, hlistening, hcount hpos⟩

end Impl

namespace Started

variable {s s' : Started} {l : Label}

theorem next_eq_some :
    s.next l = some s' ↔ s.server.next l = some s'.server ∧ s'.used = s.usedBy l := by
  unfold Started.next
  rw [Option.map_eq_some_iff]
  constructor
  · intro h
    obtain ⟨server, hn, rfl⟩ := h
    exact ⟨hn, rfl⟩
  · intro h
    exact ⟨s'.server, h.1, by rw [← h.2]⟩

end Started

/-- A running server accepts after `start` exactly when it has started well. -/
theorem runningAccepts_start (s : Impl) (os : Answer) :
    RunningAccepts ⟨s.start os, some s.opts⟩ ↔ s.opts.startsWell os = true := by
  rw [← Impl.start_acceptsOn_iff]
  unfold RunningAccepts
  simp

/-- A step that leaves the acceptor and the options of the last `start` alone
    needs an accept of this run. -/
theorem RunningAccepts.frame {s : Started} (h : RunningAccepts s) {server : Impl}
    (hacceptor : server.acceptor = s.server.acceptor)
    (hcount : s.server.isRunning = true → 0 < s.server.accepts.countP s.server.ofThisRun →
      0 < server.accepts.countP server.ofThisRun) :
    RunningAccepts ⟨server, s.used⟩ := by
  intro hrunning
  have hbefore : s.server.isRunning = true := by
    unfold Impl.isRunning at hrunning ⊢
    rwa [← hacceptor]
  obtain ⟨opts, hused, haccepts⟩ := h hbefore
  exact ⟨opts, hused, haccepts.frame hacceptor (hcount hbefore)⟩

/-- The handler of a failed accept, while the acceptor is open. -/
theorem runningAccepts_failed {s : Started} (h : RunningAccepts s) {i n : Nat} {ec : ErrorCode}
    (hf : s.server.accepts.finished i = some (n, .error ec)) (hopen : s.server.isRunning = true) :
    RunningAccepts ⟨{ s.server with accepts := s.server.accepts.remove i }, s.used⟩ ↔
      n ≠ s.server.stops ∨ 2 ≤ s.server.accepts.countP s.server.ofThisRun := by
  have hcount := Operations.countP_remove s.server.ofThisRun hf
  by_cases hn : n = s.server.stops
  · -- it is one of the accepts that are counted
    have hthis : s.server.ofThisRun ⟨n, some (.error ec)⟩ = true := decide_eq_true hn
    rw [if_pos hthis] at hcount
    constructor
    · intro hafter
      obtain ⟨opts, _, haccepts⟩ := hafter hopen
      have hpos : 0 < (s.server.accepts.remove i).countP s.server.ofThisRun :=
        (Impl.acceptsOn_iff.mp haccepts).2.2
      right
      omega
    · intro htwo
      have htwo' : 2 ≤ s.server.accepts.countP s.server.ofThisRun :=
        htwo.resolve_left (fun hne => hne hn)
      refine h.frame ?_ fun _ _ => ?_
      · rfl
      show 0 < (s.server.accepts.remove i).countP s.server.ofThisRun
      omega
  · have hother : ¬ s.server.ofThisRun ⟨n, some (.error ec)⟩ = true := by
      rw [Impl.ofThisRun, decide_eq_true_eq]
      exact hn
    rw [if_neg hother] at hcount
    constructor
    · intro _
      exact .inl hn
    · intro _
      refine h.frame ?_ fun _ hpos => ?_
      · rfl
      show 0 < (s.server.accepts.remove i).countP s.server.ofThisRun
      omega

/-- The handler of an accept keeps a running server accepting exactly when it
    is not the only one and fails. -/
theorem runningAccepts_acceptDeliver {s : Started} (h : RunningAccepts s) {i n : Nat}
    {r : Except ErrorCode Unit} (hf : s.server.accepts.finished i = some (n, r)) :
    RunningAccepts
        ⟨Impl.handleAccept { s.server with accepts := s.server.accepts.remove i } r, s.used⟩ ↔
      keepsAccepting s (.acceptDeliver i) = true := by
  simp only [keepsAccepting, hf]
  unfold Impl.handleAccept
  by_cases hopen : s.server.isRunning = true
  · have hopen' : s.server.acceptor.is_open = true := hopen
    rw [if_pos hopen']
    cases r with
    | ok a =>
      simp only [iff_true]
      intro _
      obtain ⟨opts, hused, haccepts⟩ := h hopen
      exact ⟨opts, hused, haccepts.bound, haccepts.listening, Impl.startAccept_accept hopen⟩
    | error ec =>
      have hfailed := runningAccepts_failed h hf hopen
      simpa [hopen] using hfailed
  · -- a stopped server owes nothing
    have hclosed : ¬ s.server.acceptor.is_open = true := hopen
    rw [if_neg hclosed]
    constructor
    · intro _
      cases r <;> simp [hopen]
    · intro _ hafter
      exact absurd hafter hopen

/-- One step of the server. -/
theorem runningAccepts_next {s s' : Started} {l : Label} (h : RunningAccepts s)
    (hn : s.next l = some s') : RunningAccepts s' ↔ keepsAccepting s l = true := by
  obtain ⟨hserver, hused⟩ := Started.next_eq_some.mp hn
  obtain ⟨server, used⟩ := s'
  simp only at hserver hused
  subst hused
  -- the steps that concern neither the acceptor nor how many accepts there are
  have hquiet : s.usedBy l = s.used → keepsAccepting s l = true →
      server.acceptor = s.server.acceptor →
      server.accepts.countP server.ofThisRun = s.server.accepts.countP s.server.ofThisRun →
      (RunningAccepts ⟨server, s.usedBy l⟩ ↔ keepsAccepting s l = true) := by
    intro hused hkeeps hacceptor hcount
    rw [hused]
    exact ⟨fun _ => hkeeps, fun _ => h.frame hacceptor fun _ hpos => hcount ▸ hpos⟩
  cases Impl.step_of_next hserver with
  | start os => exact runningAccepts_start s.server os
  | stop =>
    constructor
    · intro _
      rfl
    · intro _ hrunning
      cases hrunning
  | setOptions opts os =>
    unfold Impl.setOptions
    by_cases hrunning : s.server.isRunning = true
    · -- `start` is executed with the new options
      have hrunning' : Impl.isRunning { s.server with opts := opts } = true := hrunning
      simp only [hrunning', if_true, Started.usedBy, hrunning, keepsAccepting, Bool.not_true,
        Bool.false_or]
      exact runningAccepts_start { s.server with opts := opts } os
    · have hrunning' : ¬ Impl.isRunning { s.server with opts := opts } = true := hrunning
      simp only [hrunning', keepsAccepting, hrunning]
      constructor
      · intro _
        simp
      · intro _ hafter
        exact absurd hafter hrunning
  | acceptFinish hi hr => exact hquiet rfl rfl rfl (Operations.countP_finish _ _ hi rfl)
  | acceptDeliver hf => exact runningAccepts_acceptDeliver h hf
  | receiveFinish => exact hquiet rfl rfl rfl rfl
  | receiveDeliver => exact hquiet rfl rfl rfl rfl
  | write => exact hquiet rfl rfl rfl rfl
  | sendFinish => exact hquiet rfl rfl rfl rfl
  | sendDeliver => exact hquiet rfl rfl rfl rfl

/-- A step that keeps a running server accepting leaves no server running after
    a `start` that fails. -/
theorem failedStartStops_next {s s' : Started} {l : Label} (hkeeps : keepsAccepting s l = true)
    (hn : s.next l = some s') : FailedStartStops s l s' := by
  obtain ⟨hserver, _⟩ := Started.next_eq_some.mp hn
  obtain ⟨server, used⟩ := s'
  intro hrefused
  show server.isRunning = false
  change s.server.next l = some server at hserver
  cases Impl.step_of_next hserver with
  | start os => exact Impl.start_refused hkeeps (of_decide_eq_true hrefused)
  | setOptions opts os =>
    unfold Impl.setOptions
    by_cases hrunning : s.server.isRunning = true
    · have hrunning' : Impl.isRunning { s.server with opts := opts } = true := hrunning
      simp only [keepsAccepting, hrunning, Bool.not_true, Bool.false_or] at hkeeps
      simp only [hrunning', if_true]
      exact Impl.start_refused (s := { s.server with opts := opts }) hkeeps
        (of_decide_eq_true hrefused)
    · have hrunning' : ¬ Impl.isRunning { s.server with opts := opts } = true := hrunning
      simp only [hrunning']
      exact Bool.eq_false_iff.mpr hrunning
  | _ => cases hrefused

/-! ### Runs -/

/-- **A running server accepts**, throughout a run and after every `start` that
    fails, exactly when no `bind` or `listen` fails in it, and no accept fails
    that is the only one of an open acceptor. -/
theorem running_accepts_iff {s : Started} (r : Run startedSystem s) :
    (r.Throughout RunningAccepts ∧ r.Ensures FailedStartStops) ↔
      r.EachStep fun s l => keepsAccepting s l = true := by
  have hinit : ∀ s, startedSystem.init s → RunningAccepts s := by
    intro s hs hrunning
    obtain ⟨opts, rfl⟩ := hs
    cases hrunning
  have hiff : r.Throughout RunningAccepts ↔ r.EachStep fun s l => keepsAccepting s l = true :=
    r.throughout_iff hinit (fun _ h => h) (fun s l s' h hC hn => (runningAccepts_next h hn).mpr hC)
      fun s l s' h hn hafter => (runningAccepts_next h hn).mp hafter
  constructor
  · intro h
    exact hiff.mp h.1
  · intro h
    have hfailed : r.Ensures FailedStartStops := by
      apply Run.ensures_of_eachStep (fun _ _ => trivial) (fun _ _ _ _ _ => trivial) _ r h
      intro s l s' (_ : True) hC hn
      exact failedStartStops_next hC hn
    exact ⟨hiff.mpr h, hfailed⟩

/-- The port is in use, and the server runs. In another run the first accept
    fails, and the server accepts nothing from then on. -/
theorem running_without_accepting :
    (∃ (s : Started) (r : Run startedSystem s), ¬ r.Ensures FailedStartStops) ∧
    ∃ (s : Started) (r : Run startedSystem s), ¬ r.Throughout RunningAccepts := by
  constructor
  · apply Run.exists_not_ensures startedSystem ⟨⟨.ipv4, 5000⟩, rfl⟩ [] (.start .bindFails)
      (fun _ s' => s'.server.isRunning)
    · intro s s' hv hR
      rw [hR rfl] at hv
      cases hv
    · decide
  · obtain ⟨s, r, _, hs⟩ := Run.exists_of_check startedSystem ⟨⟨.ipv4, 5000⟩, rfl⟩
      [.start .granted, .acceptFinish 0 (.error (.other 24)), .acceptDeliver 0]
      (fun _ _ => true) (fun s => s.server.isRunning && s.server.accepts.isEmpty) (by decide)
    obtain ⟨hrunning, hempty⟩ := Bool.and_eq_true_iff.mp hs
    refine ⟨s, r, fun h => ?_⟩
    obtain ⟨opts, _, _, _, o, ho, _⟩ := h.last hrunning
    rw [List.isEmpty_iff.mp hempty] at ho
    cases ho

end TcpServer

end DeviceTester
