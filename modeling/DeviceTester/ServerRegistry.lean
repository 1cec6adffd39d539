import DeviceTester.TcpServer

/-! # The registry of the TCP server and its notifications

  Are the clients that have been announced as connected, and not as
  disconnected since, the registered ones? A client that is taken out by its
  own receive handler is announced, one that `stopAll` takes out is not. So the
  two agree for as long as nobody is registered when the server is stopped or
  restarted (`notifications_iff`).
-/

namespace DeviceTester

open Async LTS

namespace TcpServer

/-! ### The registry and the notifications -/

namespace Manager

/-- The clients announced as connected and not yet as disconnected. -/
def announced (events : List (ClientState × Nat)) : Finset Nat :=
  events.foldl (fun known e =>
    match e.1 with
    | .connected => insert e.2 known
    | .disconnected => known.erase e.2) ∅

/-- **(N)** The clients announced are the registered ones, and each client that
    is not registered any more has had one disconnected notification. -/
def NotificationsMatch (m : Manager) : Prop :=
  announced m.events = m.connections ∧
  ∀ c < m.created, c ∉ m.connections → m.events.count (.disconnected, c) = 1

/-- The registered clients are those that have been made and are running. -/
structure Inv (m : Manager) : Prop where
  known : ∀ c ∈ m.connections, c < m.created
  running : ∀ c < m.created, ((m.clients c).do_run = true ↔ c ∈ m.connections)
  fresh : ∀ c, m.created ≤ c → (m.clients c).receives = []

/-- What the steps that match notifications keep. -/
structure Sound (m : Manager) : Prop extends m.Inv where
  announces : announced m.events = m.connections
  notified : ∀ c, m.events.count (.disconnected, c) =
    if c < m.created ∧ c ∉ m.connections then 1 else 0

theorem Sound.notificationsMatch {m : Manager} (h : m.Sound) : m.NotificationsMatch := by
  refine ⟨h.announces, fun c hc hgone => ?_⟩
  have hcount := h.notified c
  rwa [if_pos ⟨hc, hgone⟩] at hcount

theorem Sound.new : Manager.new.Sound where
  known := by simp [Manager.new]
  running := by simp [Manager.new]
  fresh := fun _ _ => rfl
  announces := rfl
  notified := by simp [Manager.new]

/-- A client object changes, but neither its `do_run_` nor the registry. -/
theorem Sound.update {m : Manager} (h : m.Sound) {c : Nat} {client : Client}
    (hrun : client.do_run = (m.clients c).do_run)
    (hfresh : m.created ≤ c → client.receives = []) : (m.update c client).Sound where
  known := h.known
  running := by
    intro x hx
    by_cases hxc : x = c
    · subst hxc
      simp only [Manager.update, Function.update_self, hrun]
      exact h.running x hx
    · simp only [Manager.update, Function.update_of_ne hxc]
      exact h.running x hx
  fresh := by
    intro x hx
    by_cases hxc : x = c
    · subst hxc
      simpa [Manager.update] using hfresh hx
    · simpa [Manager.update, Function.update_of_ne hxc] using h.fresh x hx
  announces := h.announces
  notified := h.notified

theorem announced_append (events : List (ClientState × Nat)) (e : ClientState × Nat) :
    announced (events ++ [e]) =
      match e.1 with
      | .connected => insert e.2 (announced events)
      | .disconnected => (announced events).erase e.2 := by
  simp [announced, List.foldl_append]

theorem Sound.start {m : Manager} (h : m.Sound) : m.start.Sound where
  known := by
    intro c hc
    simp only [Manager.start, Manager.update, Finset.mem_insert] at hc ⊢
    rcases hc with rfl | hc
    · omega
    · have hlt := h.known c hc
      omega
  running := by
    intro c hc
    simp only [Manager.start, Manager.update, Finset.mem_insert] at hc ⊢
    by_cases hnew : c = m.created
    · subst hnew
      simp [Client.start, Client.startRead]
    · have hlt : c < m.created := by omega
      simp only [Function.update_of_ne hnew, hnew, false_or]
      exact h.running c hlt
  fresh := by
    intro c hc
    simp only [Manager.start, Manager.update] at hc ⊢
    have hnew : c ≠ m.created := by omega
    rw [Function.update_of_ne hnew]
    exact h.fresh c (by omega)
  announces := by
    simp only [Manager.start, Manager.update, announced_append, h.announces]
  notified := by
    intro c
    have hcount := h.notified c
    -- the number of the new client has not been used
    have hunknown : m.created ∉ m.connections := by
      intro hmem
      have hlt := h.known _ hmem
      omega
    simp only [Manager.start, Manager.update, List.count_append, List.count_singleton,
      Finset.mem_insert, not_or]
    rw [hcount]
    by_cases hnew : c = m.created
    · subst hnew
      simp
    · -- the counts of the others are as they were
      by_cases hc : c < m.created
      · have hle : c < m.created + 1 := by omega
        simp [hc, hle, hnew]
      · have hle : ¬ c < m.created + 1 := by omega
        simp [hc, hle]

theorem Sound.stop {m : Manager} (h : m.Sound) {c : Nat} (hc : c ∈ m.connections) :
    (m.stop c).Sound where
  known := by
    intro x hx
    exact h.known x (Finset.mem_of_mem_erase hx)
  running := by
    intro x hx
    simp only [Manager.stop, Manager.update, Finset.mem_erase]
    -- only this client stops running
    by_cases hxc : x = c
    · subst hxc
      simp [Client.stop]
    · simp only [Function.update_of_ne hxc, ne_eq, hxc, not_false_eq_true, true_and]
      exact h.running x hx
  fresh := by
    intro x hx
    have hlt := h.known c hc
    -- a client that has not been made is not the one that is stopped
    have hxc : x ≠ c := by
      intro heq
      subst heq
      exact absurd hx (Nat.not_le.mpr hlt)
    simp only [Manager.stop, Manager.update, Function.update_of_ne hxc]
    exact h.fresh x hx
  announces := by
    simp only [Manager.stop, Manager.update, announced_append, h.announces]
  notified := by
    intro x
    have hcount := h.notified x
    have hlt := h.known c hc
    simp only [Manager.stop, Manager.update, List.count_append, List.count_singleton,
      Finset.mem_erase]
    rw [hcount]
    by_cases hxc : x = c
    · -- the client has been registered, so this is its first notification
      subst hxc
      simp [hc, hlt]
    · have hne : ¬ c = x := fun heq => hxc heq.symm
      simp [hxc, hne]

/-- With nobody registered `stopAll` does nothing. -/
theorem stopAll_of_empty {m : Manager} (h : m.connections = ∅) : m.stopAll = m := by
  simp only [stopAll, h, Finset.notMem_empty, if_false]
  rw [← h]

theorem Sound.handleRead {m : Manager} (h : m.Sound) {c : Nat} (hc : c < m.created)
    (r : Except ErrorCode Bytes) : (m.handleRead c r).Sound := by
  cases r with
  | ok chunk =>
    apply h.update
    · simp only [Client.onChunk]
      split
      · rfl
      · rfl
    · intro hle
      omega
  | error ec =>
    -- a running client is registered, so `stop` has something to take out
    have hstop : (if (m.clients c).do_run then m.stop c else m).Sound := by
      split
      · next hrun => exact h.stop ((h.running c hc).mp hrun)
      · exact h
    cases ec with
    | operation_aborted => exact h
    | _ => exact hstop

theorem Sound.nextPump {m m' : Manager} (h : m.Sound) {c : Nat} {l : PumpLabel}
    (hn : m.nextPump c l = some m') : m'.Sound := by
  unfold Manager.nextPump at hn
  split at hn
  · next hc =>
    obtain ⟨p, _, rfl⟩ := Option.map_eq_some_iff.mp hn
    apply h.update
    · rfl
    · intro hle
      omega
  · cases hn

theorem Sound.nextReceiveFinish {m m' : Manager} (h : m.Sound) {c i : Nat}
    {r : Except ErrorCode Bytes} (hn : m.nextReceiveFinish c i r = some m') : m'.Sound := by
  obtain ⟨o, hi, hn⟩ := Option.bind_eq_some_iff.mp hn
  split at hn
  · obtain rfl := Option.some.inj hn
    apply h.update
    · rfl
    · intro hle
      have hmem := Operations.mem_of_inProgress hi
      rw [h.fresh c hle] at hmem
      cases hmem
  · cases hn

theorem Sound.nextReceiveDeliver {m m' : Manager} (h : m.Sound) {c i : Nat}
    (hn : m.nextReceiveDeliver c i = some m') : m'.Sound := by
  obtain ⟨⟨o, r⟩, hf, rfl⟩ := Option.map_eq_some_iff.mp hn
  -- only a client that has been made receives
  have hc : c < m.created := by
    by_contra hge
    have hmem := Operations.mem_of_finished hf
    rw [h.fresh c (by omega)] at hmem
    cases hmem
  have hremoved : (m.update c { m.clients c with
      receives := (m.clients c).receives.remove i }).Sound := by
    apply h.update
    · rfl
    · intro hle
      omega
  exact hremoved.handleRead hc r

end Manager

/-- Nobody is registered when the server is stopped, started again, or
    restarted by `setOptions`. -/
def stopsNobody (s : Impl) : Label → Bool
  | .start _ => decide (s.manager.connections = ∅)
  | .stop => decide (s.manager.connections = ∅)
  | .setOptions _ _ => !s.isRunning || decide (s.manager.connections = ∅)
  | _ => true

/-- `stopAll` keeps the notifications right only when it has nothing to do. -/
theorem stopAll_matches {m : Manager} (h : m.Sound) :
    (m.connections = ∅ → m.stopAll.Sound) ∧
      (m.stopAll.NotificationsMatch → m.connections = ∅) := by
  constructor
  · intro hempty
    rw [Manager.stopAll_of_empty hempty]
    exact h
  · intro hmatch
    -- the events are those from before, and nobody is registered any more
    have hannounced : Manager.announced m.events = ∅ := hmatch.1
    exact h.announces.symm.trans hannounced

/-- One step of the server. -/
theorem notifications_next {s s' : Impl} {l : Label} (h : s.manager.Sound)
    (hn : s.next l = some s') :
    (stopsNobody s l = true → s'.manager.Sound) ∧
      (s'.manager.NotificationsMatch → stopsNobody s l = true) := by
  obtain ⟨hkeep, hbreak⟩ := stopAll_matches h
  cases Impl.step_of_next hn with
  | start os =>
    simp only [stopsNobody, decide_eq_true_eq, Impl.start_manager]
    exact ⟨hkeep, hbreak⟩
  | stop =>
    simp only [stopsNobody, decide_eq_true_eq]
    exact ⟨hkeep, hbreak⟩
  | setOptions opts os =>
    simp only [stopsNobody, Impl.setOptions, Impl.isRunning]
    by_cases hrunning : s.acceptor.is_open = true
    · -- the options are applied by a restart
      simp only [hrunning, if_true, Bool.not_true, Bool.false_or, decide_eq_true_eq, Impl.start_manager]
      exact ⟨hkeep, hbreak⟩
    · have hclosed : s.acceptor.is_open = false := by simpa using hrunning
      simp only [hclosed, Bool.false_eq_true, if_false, Bool.not_false, Bool.true_or]
      exact ⟨fun _ => h, fun _ => trivial⟩
  | acceptFinish => exact ⟨fun _ => h, fun _ => rfl⟩
  | acceptDeliver =>
    -- whichever `start` the accept belongs to, its client is registered and announced
    refine ⟨fun _ => ?_, fun _ => rfl⟩
    simp only [Impl.handleAccept]
    split
    · split
      · exact h.start
      · exact h
    · exact h
  | receiveFinish hm => exact ⟨fun _ => h.nextReceiveFinish hm, fun _ => rfl⟩
  | receiveDeliver hm => exact ⟨fun _ => h.nextReceiveDeliver hm, fun _ => rfl⟩
  | write hm => exact ⟨fun _ => h.nextPump hm, fun _ => rfl⟩
  | sendFinish hm => exact ⟨fun _ => h.nextPump hm, fun _ => rfl⟩
  | sendDeliver hm => exact ⟨fun _ => h.nextPump hm, fun _ => rfl⟩

/-- **The notifications match the registry** throughout a run exactly when
    nobody is registered whenever the run stops or restarts the server. -/
theorem notifications_iff {s : Impl} (r : Run system s) :
    (r.Throughout fun s => s.manager.NotificationsMatch) ↔
      r.EachStep fun s l => stopsNobody s l = true := by
  apply Run.throughout_iff (I := fun s => s.manager.Sound)
  · rintro s ⟨opts, rfl⟩
    exact Manager.Sound.new
  · intro s h
    exact h.notificationsMatch
  · intro s l s' h hl hn
    exact (notifications_next h hn).1 hl
  · intro s l s' h hn hmatch
    exact (notifications_next h hn).2 hmatch

/-- A client is connected when the server is stopped: nobody is told that it
    is gone. -/
theorem stop_is_silent :
    ∃ (s : Impl) (_ : Run system s),
      s.manager.connections = ∅ ∧ s.manager.events = [(.connected, 0)] ∧
        ¬ s.manager.NotificationsMatch := by
  obtain ⟨s, r, _, hs⟩ := Run.exists_of_check system ⟨⟨.ipv4, 5000⟩, rfl⟩
    [.start .granted, .acceptFinish 0 (.ok ()), .acceptDeliver 0, .stop] (fun _ _ => true)
    (fun s => decide (s.manager.connections = ∅) && decide (s.manager.events = [(.connected, 0)]))
    (by decide)
  obtain ⟨hnone, hevents⟩ := Bool.and_eq_true_iff.mp hs
  have hnone := of_decide_eq_true hnone
  have hevents := of_decide_eq_true hevents
  refine ⟨s, r, hnone, hevents, fun hmatch => ?_⟩
  have hannounced := hmatch.1
  rw [hnone, hevents] at hannounced
  exact absurd hannounced (by decide)

end TcpServer

end DeviceTester
