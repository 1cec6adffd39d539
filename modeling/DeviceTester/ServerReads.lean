import DeviceTester.TcpServer

/-! # The receives of the TCP server's clients

  The registered clients are the ones that receive: each has one receive
  outstanding, on an open socket, and each client that has been taken out is
  stopped and closed for good. A receive of a registered client cannot be
  aborted, as only `stop` closes its socket, and `stop` is what takes it out. So
  every handler that is run either starts the next receive of a registered
  client, takes a registered client out, or does nothing (`registry_receives`).
-/

namespace DeviceTester

open Async LTS

namespace TcpServer

/-! ### The properties -/

/-- One receive is outstanding, or has its completion queued. -/
def Client.receivesOnce (c : Client) : Bool :=
  c.do_run && c.pump.is_open && decide (c.receives.length = 1)

/-- **(L)** The registered clients are the ones that receive. -/
def Manager.ReadsLive (m : Manager) : Prop :=
  ∀ c < m.created, c ∈ m.connections ↔ (m.clients c).receivesOnce = true

/-- The client has been made, and taken out since. -/
def Manager.Removed (m : Manager) (c : Nat) : Prop := c < m.created ∧ c ∉ m.connections

/-- How many receive handlers of the client the step runs. -/
def delivered (c : Nat) : Label → Nat
  | .receiveDeliver c' _ => if c = c' then 1 else 0
  | _ => 0

/-- **(G)** A client that has been taken out stays out, starts no receive, and
    is not stopped again by the manager. -/
def Manager.StaysRemoved (m : Manager) (handled : Nat → Nat) (m' : Manager) : Prop :=
  ∀ c, m.Removed c → m'.Removed c ∧
    (m'.clients c).receives.length + handled c = (m.clients c).receives.length ∧
    m'.events.count (.disconnected, c) = m.events.count (.disconnected, c)

namespace Manager

/-! ### The invariant -/

/-- What is said of a registered client. -/
structure Receiving (c : Client) : Prop where
  running : c.do_run = true
  opened : c.pump.is_open = true
  one : c.receives.length = 1
  kept : ∀ o ∈ c.receives, live o = true

structure Live (m : Manager) : Prop where
  known : ∀ c ∈ m.connections, c < m.created
  registered : ∀ c ∈ m.connections, Receiving (m.clients c)
  removed : ∀ c, m.Removed c →
    (m.clients c).do_run = false ∧ (m.clients c).pump.is_open = false
  unmade : ∀ c, m.created ≤ c → (m.clients c).receives = []
  /-- Only clients that are taken out are announced as disconnected. -/
  notified : ∀ c, m.events.count (.disconnected, c) ≤ 1 ∧
    (c ∈ m.connections ∨ m.created ≤ c → m.events.count (.disconnected, c) = 0)

theorem Live.new : Manager.new.Live where
  known := by simp [Manager.new]
  registered := by simp [Manager.new]
  removed := by simp [Manager.new, Removed]
  unmade := fun _ _ => rfl
  notified := by simp [Manager.new]

theorem Live.readsLive {m : Manager} (h : m.Live) : m.ReadsLive := by
  intro c hc
  constructor
  · intro hmem
    have hreg := h.registered c hmem
    simp [Client.receivesOnce, hreg.running, hreg.opened, hreg.one]
  · intro hreceives
    by_contra hgone
    have hstopped := (h.removed c ⟨hc, hgone⟩).1
    simp [Client.receivesOnce, hstopped] at hreceives

/-- A client with something to receive has been made. -/
theorem Live.made {m : Manager} (h : m.Live) {c : Nat} (hne : (m.clients c).receives ≠ []) :
    c < m.created := by
  by_contra hge
  exact hne (h.unmade c (by omega))

/-- A client that has been made is registered or has been taken out. -/
theorem registered_or_removed {m : Manager} {c : Nat} (hc : c < m.created) :
    c ∈ m.connections ∨ m.Removed c := by
  by_cases hmem : c ∈ m.connections
  · exact Or.inl hmem
  · exact Or.inr ⟨hc, hmem⟩

/-- Nothing happens to the clients that have been taken out. -/
theorem StaysRemoved.refl (m : Manager) : m.StaysRemoved (fun _ => 0) m :=
  fun _ hc => ⟨hc, rfl, rfl⟩

/-! ### One client changes -/

/-- The client keeps its flags, and goes on receiving when it is registered. -/
theorem Live.update {m : Manager} (h : m.Live) {c : Nat} {client : Client} (hc : c < m.created)
    (hrun : client.do_run = (m.clients c).do_run)
    (hopen : client.pump.is_open = (m.clients c).pump.is_open)
    (hreg : c ∈ m.connections → Receiving client) : (m.update c client).Live where
  known := h.known
  registered := by
    intro x hx
    simp only [Manager.update] at hx ⊢
    by_cases hxc : x = c
    · subst hxc
      rw [Function.update_self]
      exact hreg hx
    · rw [Function.update_of_ne hxc]
      exact h.registered x hx
  removed := by
    intro x hx
    have hold := h.removed x hx
    simp only [Manager.update]
    by_cases hxc : x = c
    · subst hxc
      rw [Function.update_self, hrun, hopen]
      exact hold
    · rw [Function.update_of_ne hxc]
      exact hold
  unmade := by
    intro x hx
    have hle : m.created ≤ x := hx
    have hxc : x ≠ c := by omega
    simp only [Manager.update, Function.update_of_ne hxc]
    exact h.unmade x hle
  notified := h.notified

theorem StaysRemoved.update {m : Manager} {c : Nat} {client : Client} {handled : Nat}
    (hlen : m.Removed c → client.receives.length + handled = (m.clients c).receives.length) :
    m.StaysRemoved (fun x => if x = c then handled else 0) (m.update c client) := by
  intro x hx
  refine ⟨hx, ?_, rfl⟩
  simp only [Manager.update]
  by_cases hxc : x = c
  · subst hxc
    rw [Function.update_self, if_pos rfl]
    exact hlen hx
  · rw [Function.update_of_ne hxc, if_neg hxc, Nat.add_zero]

/-! ### The operations of the manager -/

/-- The client that has just been made receives on its open socket. -/
theorem receiving_start : Receiving Client.new.start := by
  refine ⟨rfl, rfl, rfl, ?_⟩
  intro o ho
  simp only [Client.start, Client.startRead, Client.new, Pump.new, if_true] at ho
  rcases Operations.mem_start.mp ho with ho | rfl
  · cases ho
  · rfl

theorem Live.start {m : Manager} (h : m.Live) : m.start.Live where
  known := by
    intro c hc
    simp only [Manager.start, Manager.update, Finset.mem_insert] at hc ⊢
    rcases hc with rfl | hc
    · exact Nat.lt_succ_self _
    · exact Nat.lt_succ_of_lt (h.known c hc)
  registered := by
    intro c hc
    simp only [Manager.start, Manager.update, Finset.mem_insert] at hc ⊢
    by_cases hnew : c = m.created
    · subst hnew
      rw [Function.update_self]
      exact receiving_start
    · rw [Function.update_of_ne hnew]
      exact h.registered c (hc.resolve_left hnew)
  removed := by
    intro c hc
    simp only [Removed, Manager.start, Manager.update, Finset.mem_insert, not_or] at hc ⊢
    obtain ⟨hlt, hnew, hgone⟩ := hc
    rw [Function.update_of_ne hnew]
    exact h.removed c ⟨by omega, hgone⟩
  unmade := by
    intro c hc
    simp only [Manager.start, Manager.update] at hc ⊢
    have hnew : c ≠ m.created := by omega
    rw [Function.update_of_ne hnew]
    exact h.unmade c (by omega)
  notified := by
    intro c
    have hold := h.notified c
    have hcount : m.start.events.count (.disconnected, c) = m.events.count (.disconnected, c) := by
      simp [Manager.start, Manager.update, List.count_append]
    rw [hcount]
    refine ⟨hold.1, fun hc => hold.2 ?_⟩
    simp only [Manager.start, Manager.update, Finset.mem_insert] at hc
    rcases hc with (rfl | hc) | hc
    · exact Or.inr (Nat.le_refl _)
    · exact Or.inl hc
    · exact Or.inr (by omega)

theorem staysRemoved_start (m : Manager) : m.StaysRemoved (fun _ => 0) m.start := by
  intro c hc
  -- the number of the new client has not been used
  have hnew : c ≠ m.created := Nat.ne_of_lt hc.1
  refine ⟨⟨Nat.lt_succ_of_lt hc.1, ?_⟩, ?_, ?_⟩
  · simp only [Manager.start, Manager.update, Finset.mem_insert, not_or]
    exact ⟨hnew, hc.2⟩
  · simp only [Manager.start, Manager.update, Function.update_of_ne hnew, Nat.add_zero]
  · simp [Manager.start, Manager.update, List.count_append]

theorem Live.stop {m : Manager} (h : m.Live) {c : Nat} (hc : c ∈ m.connections) :
    (m.stop c).Live where
  known := fun x hx => h.known x (Finset.mem_of_mem_erase hx)
  registered := by
    intro x hx
    obtain ⟨hxc, hx⟩ := Finset.mem_erase.mp hx
    simp only [Manager.stop, Manager.update, Function.update_of_ne hxc]
    exact h.registered x hx
  removed := by
    intro x hx
    simp only [Manager.stop, Manager.update]
    by_cases hxc : x = c
    · subst hxc
      rw [Function.update_self]
      exact ⟨rfl, rfl⟩
    · rw [Function.update_of_ne hxc]
      refine h.removed x ⟨hx.1, fun hmem => hx.2 ?_⟩
      exact Finset.mem_erase.mpr ⟨hxc, hmem⟩
  unmade := by
    intro x hx
    have hlt := h.known c hc
    have hle : m.created ≤ x := hx
    have hxc : x ≠ c := by omega
    simp only [Manager.stop, Manager.update, Function.update_of_ne hxc]
    exact h.unmade x hle
  notified := by
    intro x
    have hold := h.notified x
    simp only [Manager.stop, Manager.update, List.count_append, List.count_singleton,
      Finset.mem_erase]
    by_cases hxc : x = c
    · -- it has been registered, so this is its first notification
      subst hxc
      have hlt := h.known x hc
      rw [hold.2 (Or.inl hc)]
      simp [hlt]
    · have hne : ¬ c = x := fun heq => hxc heq.symm
      simp only [beq_iff_eq, Prod.mk.injEq, true_and, hne, if_false, Nat.add_zero]
      exact ⟨hold.1, fun hx => hold.2 (hx.imp_left And.right)⟩

theorem staysRemoved_stop {m : Manager} {c : Nat} (hc : c ∈ m.connections) :
    m.StaysRemoved (fun _ => 0) (m.stop c) := by
  intro x hx
  have hxc : x ≠ c := fun heq => hx.2 (heq ▸ hc)
  have hne : ¬ c = x := fun heq => hxc heq.symm
  refine ⟨⟨hx.1, fun hmem => hx.2 (Finset.mem_of_mem_erase hmem)⟩, ?_, ?_⟩
  · simp only [Manager.stop, Manager.update, Function.update_of_ne hxc, Nat.add_zero]
  · simp [Manager.stop, Manager.update, List.count_append, hne]

theorem Live.stopAll {m : Manager} (h : m.Live) : m.stopAll.Live where
  known := by
    intro c hc
    cases hc
  registered := by
    intro c hc
    cases hc
  removed := by
    intro c hc
    simp only [Manager.stopAll]
    split
    · exact ⟨rfl, rfl⟩
    · next hgone => exact h.removed c ⟨hc.1, hgone⟩
  unmade := by
    intro c hc
    have hold := h.unmade c hc
    simp only [Manager.stopAll]
    split
    · simp [Client.stop, hold, cancelAll, Operations.abort]
    · exact hold
  notified := by
    intro c
    have hold := h.notified c
    refine ⟨hold.1, ?_⟩
    rintro (hc | hc)
    · cases hc
    · exact hold.2 (Or.inr hc)

theorem staysRemoved_stopAll (m : Manager) : m.StaysRemoved (fun _ => 0) m.stopAll := by
  intro c hc
  refine ⟨⟨hc.1, Finset.notMem_empty c⟩, ?_, rfl⟩
  simp only [Manager.stopAll, if_neg hc.2, Nat.add_zero]

/-! ### The receive handler -/

/-- A client that has been taken out only has its handler taken away. -/
theorem handleRead_removed {m : Manager} (h : m.Live) {c : Nat} (hc : m.Removed c)
    (ops : Operations Unit (Except ErrorCode Bytes)) (r : Except ErrorCode Bytes) :
    ∃ client, (m.update c { m.clients c with receives := ops }).handleRead c r =
        m.update c client ∧ client.do_run = (m.clients c).do_run ∧
      client.pump.is_open = (m.clients c).pump.is_open ∧ client.receives = ops := by
  have hstopped := (h.removed c hc).1
  cases r with
  | ok chunk =>
    refine ⟨{ m.clients c with
      receives := ops, received := (m.clients c).received ++ [chunk] }, ?_, rfl, rfl, rfl⟩
    simp [Manager.handleRead, Manager.update, Client.onChunk, hstopped]
  | error ec =>
    refine ⟨{ m.clients c with receives := ops }, ?_, rfl, rfl, rfl⟩
    cases ec <;> simp [Manager.handleRead, Manager.update, hstopped]

/-- A registered client receives on, or is taken out. -/
theorem handleRead_registered {m : Manager} {c : Nat} (hreg : Receiving (m.clients c))
    {ops : Operations Unit (Except ErrorCode Bytes)} {r : Except ErrorCode Bytes}
    (hr : live (⟨(), some r⟩ : Operation Unit (Except ErrorCode Bytes)) = true) :
    (∃ client, (m.update c { m.clients c with receives := ops }).handleRead c r =
        m.update c client ∧ client.do_run = true ∧ client.pump.is_open = true ∧
        client.receives = ops.start ()) ∨
    (∃ client, (m.update c { m.clients c with receives := ops }).handleRead c r =
        (m.stop c).update c client ∧ client.do_run = false ∧ client.pump.is_open = false) := by
  cases r with
  | ok chunk =>
    left
    refine ⟨{ m.clients c with
      receives := ops.start (), received := (m.clients c).received ++ [chunk] }, ?_,
      hreg.running, hreg.opened, rfl⟩
    simp [Manager.handleRead, Manager.update, Client.onChunk, Client.startRead, hreg.running,
      hreg.opened]
  | error ec =>
    right
    refine ⟨({ m.clients c with receives := ops } : Client).stop, ?_, rfl, rfl⟩
    cases ec with
    | operation_aborted => cases hr
    | _ => simp [Manager.handleRead, Manager.update, Manager.stop, hreg.running]

/-- The handler of a registered client. -/
theorem deliver_registered {m : Manager} (h : m.Live) {c i : Nat} {r : Except ErrorCode Bytes}
    (hc : c ∈ m.connections) (hf : (m.clients c).receives.finished i = some ((), r)) :
    let m' := (m.update c { m.clients c with
      receives := (m.clients c).receives.remove i }).handleRead c r
    m'.Live ∧ m.StaysRemoved (fun x => if x = c then 1 else 0) m' := by
  have hreg := h.registered c hc
  have hmade := h.known c hc
  have hkept := hreg.kept _ (Operations.mem_of_finished hf)
  have hnone : (m.clients c).receives.remove i = [] := by
    apply List.eq_nil_of_length_eq_zero
    have hlen := (Operations.perm_remove hf).length_eq
    have hone := hreg.one
    rw [List.length_cons] at hlen
    omega
  have hhandled := @handleRead_registered m c hreg ((m.clients c).receives.remove i) r hkept
  rcases hhandled with ⟨client, heq, hrun, hopen, hops⟩ | ⟨client, heq, hrun, hopen⟩
  · -- the next receive is the only one
    simp only [heq]
    refine ⟨h.update hmade (hrun.trans hreg.running.symm) (hopen.trans hreg.opened.symm) ?_,
      StaysRemoved.update fun hgone => absurd hc hgone.2⟩
    intro _
    rw [hnone] at hops
    refine ⟨hrun, hopen, by rw [hops]; rfl, fun o ho => ?_⟩
    rw [hops] at ho
    rcases Operations.mem_start.mp ho with ho | rfl
    · cases ho
    · rfl
  · simp only [heq]
    have hout : c ∉ (m.stop c).connections := Finset.notMem_erase c _
    have hgone := (h.stop hc).removed c ⟨hmade, hout⟩
    refine ⟨(h.stop hc).update hmade (hrun.trans hgone.1.symm) (hopen.trans hgone.2.symm)
      (fun hin => absurd hin hout), ?_⟩
    -- nothing changes for the clients that are out already
    intro x hx
    have hxc : x ≠ c := fun heq => hx.2 (heq ▸ hc)
    obtain ⟨hstay, hsame, hcount⟩ := staysRemoved_stop hc x hx
    refine ⟨hstay, ?_, hcount⟩
    simp only [Manager.update, Function.update_of_ne hxc, if_neg hxc]
    exact hsame

/-- The handler of a client that has been taken out. -/
theorem deliver_removed {m : Manager} (h : m.Live) {c i : Nat} {r : Except ErrorCode Bytes}
    (hc : m.Removed c) (hf : (m.clients c).receives.finished i = some ((), r)) :
    let m' := (m.update c { m.clients c with
      receives := (m.clients c).receives.remove i }).handleRead c r
    m'.Live ∧ m.StaysRemoved (fun x => if x = c then 1 else 0) m' := by
  obtain ⟨client, heq, hrun, hopen, hops⟩ :=
    handleRead_removed h hc ((m.clients c).receives.remove i) r
  simp only [heq]
  refine ⟨h.update hc.1 hrun hopen (fun hin => absurd hin hc.2), StaysRemoved.update fun _ => ?_⟩
  rw [hops, (Operations.perm_remove hf).length_eq, List.length_cons]

theorem nextReceiveDeliver_live {m m' : Manager} (h : m.Live) {c i : Nat}
    (hn : m.nextReceiveDeliver c i = some m') :
    m'.Live ∧ m.StaysRemoved (fun x => if x = c then 1 else 0) m' := by
  obtain ⟨⟨o, r⟩, hf, rfl⟩ := Option.map_eq_some_iff.mp hn
  have hmade : c < m.created := h.made (List.ne_nil_of_mem (Operations.mem_of_finished hf))
  rcases registered_or_removed hmade with hc | hc
  · exact deliver_registered h hc hf
  · exact deliver_removed h hc hf

/-! ### The other steps of a client -/

theorem nextReceiveFinish_live {m m' : Manager} (h : m.Live) {c i : Nat}
    {r : Except ErrorCode Bytes} (hn : m.nextReceiveFinish c i r = some m') :
    m'.Live ∧ m.StaysRemoved (fun _ => 0) m' := by
  obtain ⟨o, hi, hn⟩ := Option.bind_eq_some_iff.mp hn
  obtain ⟨hr, heq⟩ := Option.ite_none_right_eq_some.mp hn
  obtain rfl := Option.some.inj heq
  have hlen : ((m.clients c).receives.finish i o r).length = (m.clients c).receives.length :=
    List.length_set
  have hmade := h.made (List.ne_nil_of_mem (Operations.mem_of_inProgress hi))
  refine ⟨h.update hmade rfl rfl fun hc => ?_, ?_⟩
  · have hreg := h.registered c hc
    refine ⟨hreg.running, hreg.opened, hlen.trans hreg.one, fun o' ho' => ?_⟩
    rcases Operations.mem_of_mem_finish ho' with ho' | rfl
    · exact hreg.kept o' ho'
    · -- nobody has cancelled it, so it is not reported as aborted
      exact live_of_reportable o (Bool.and_eq_true_iff.mp hr).1
  · have hstays : m.StaysRemoved (fun x => if x = c then 0 else 0)
        (m.update c { m.clients c with receives := (m.clients c).receives.finish i o r }) :=
      StaysRemoved.update fun _ => hlen
    simpa using hstays

theorem nextPump_live {m m' : Manager} (h : m.Live) {c : Nat} {l : PumpLabel}
    (hl : l.keepsFlags = true) (hn : m.nextPump c l = some m') :
    m'.Live ∧ m.StaysRemoved (fun _ => 0) m' := by
  obtain ⟨hmade, hn⟩ := Option.ite_none_right_eq_some.mp hn
  obtain ⟨p, hp, rfl⟩ := Option.map_eq_some_iff.mp hn
  have hopen := (Pump.next_flags hp hl).2
  refine ⟨h.update hmade rfl hopen fun hc => ?_, ?_⟩
  · have hreg := h.registered c hc
    exact ⟨hreg.running, hopen.trans hreg.opened, hreg.one, hreg.kept⟩
  · have hstays : m.StaysRemoved (fun x => if x = c then 0 else 0)
        (m.update c { m.clients c with pump := p }) :=
      StaysRemoved.update fun _ => rfl
    simpa using hstays

end Manager

/-! ### Every run -/

/-- One step of the server. -/
theorem reads_next {s s' : Impl} {l : Label} (h : s.manager.Live) (hn : s.next l = some s') :
    s'.manager.Live ∧ s.manager.StaysRemoved (fun c => delivered c l) s'.manager := by
  have hstop : ∀ m, m = s.manager.stopAll →
      m.Live ∧ s.manager.StaysRemoved (fun _ => 0) m := by
    rintro m rfl
    exact ⟨h.stopAll, s.manager.staysRemoved_stopAll⟩
  have hsame : s.manager.Live ∧ s.manager.StaysRemoved (fun _ => 0) s.manager :=
    ⟨h, Manager.StaysRemoved.refl _⟩
  cases Impl.step_of_next hn with
  | start os => exact hstop _ (Impl.start_manager s os)
  | stop => exact hstop _ rfl
  | setOptions opts os =>
    simp only [Impl.setOptions]
    split
    · exact hstop _ (Impl.start_manager _ os)
    · exact hsame
  | acceptFinish => exact hsame
  | acceptDeliver =>
    simp only [Impl.handleAccept]
    split
    · split
      · exact ⟨h.start, s.manager.staysRemoved_start⟩
      · exact hsame
    · exact hsame
  | receiveFinish hm => exact Manager.nextReceiveFinish_live h hm
  | receiveDeliver hm => exact Manager.nextReceiveDeliver_live h hm
  | write hm => exact Manager.nextPump_live h rfl hm
  | sendFinish hm => exact Manager.nextPump_live h rfl hm
  | sendDeliver hm => exact Manager.nextPump_live h rfl hm

/-- **The registry is the set of live read chains** in every state of every run;
    a client that has been taken out stays out, starts no receive and is not
    taken out again; and no client is announced as disconnected twice. -/
theorem registry_receives {s : Impl} (r : Run system s) :
    (r.Throughout fun s => s.manager.ReadsLive ∧
      ∀ c, s.manager.events.count (.disconnected, c) ≤ 1) ∧
    r.Ensures fun s l s' => s.manager.StaysRemoved (fun c => delivered c l) s'.manager := by
  have hinit : ∀ s, system.init s → s.manager.Live := by
    rintro s ⟨opts, rfl⟩
    exact Manager.Live.new
  have hstep : ∀ s l s', s.manager.Live → system.next s l = some s' → s'.manager.Live :=
    fun s l s' h hn => (reads_next h hn).1
  constructor
  · exact (r.always hinit hstep).mono fun s h => ⟨h.readsLive, fun c => (h.notified c).1⟩
  · exact r.ensures hinit hstep fun s l s' h hn => (reads_next h hn).2

end TcpServer

end DeviceTester
