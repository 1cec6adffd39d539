import DeviceTester.TcpServer
import DeviceTester.WriteSide

/-! # What the clients of a server are sent

  To whoever writes to it a client of the server is a pump as well
  (`clientSimulation`), in which the only steps besides its sends are those that
  close its socket.

  So each client is sent the bytes it has been given, in their order
  (`client_bytes_conserved`), and its `write_in_progress_` is right until a send
  of its own has failed (`client_in_progress_iff`), whatever is done to the
  server and the other clients.
-/

namespace DeviceTester

open Async LTS

namespace TcpServer

/-! ### The pump of a client -/

/-- The write side of a client, which is a new one as long as the client has not
    been made. -/
def Manager.pumpOf (m : Manager) (c : Nat) : Pump :=
  if c < m.created then (m.clients c).pump else Pump.new true true

/-- The client that the step takes out, as the handler of a failed receive does. -/
def Manager.takesOut (m : Manager) : Label → Option Nat
  | .receiveDeliver c i =>
      match (m.clients c).receives.finished i with
      | some (_, .error ec) =>
          if ec ≠ .operation_aborted ∧ (m.clients c).do_run = true then some c else none
      | _ => none
  | _ => none

/-- `stopAll` closes the sockets of the clients that are registered. -/
def Manager.closeLabels (m : Manager) (c : Nat) : List PumpLabel :=
  if c < m.created ∧ c ∈ m.connections then [.closeTransport] else []

/-- The steps of the pump of a client in a step of the server. -/
def clientLabels (c : Nat) (s : Impl) : Label → List PumpLabel
  | .start _ => s.manager.closeLabels c
  | .stop => s.manager.closeLabels c
  | .setOptions _ _ => if s.isRunning then s.manager.closeLabels c else []
  | .receiveDeliver x i =>
      if c < s.manager.created ∧ s.manager.takesOut (.receiveDeliver x i) = some c then
        [.closeTransport]
      else []
  | .write x d => if x = c then [.write d] else []
  | .sendFinish x i r => if x = c then [.finish i r] else []
  | .sendDeliver x i => if x = c then [.deliver i] else []
  | _ => []

namespace Manager

variable {m m' : Manager} {c x : Nat}

theorem pumpOf_update (m : Manager) (x : Nat) (client : Client) (c : Nat) :
    (m.update x client).pumpOf c =
      if x = c ∧ c < m.created then client.pump else m.pumpOf c := by
  unfold pumpOf Manager.update
  by_cases hx : x = c
  · subst hx
    by_cases hmade : x < m.created
    · simp [hmade]
    · simp [hmade]
  · have hne : c ≠ x := fun heq => hx heq.symm
    simp [hx, Function.update_of_ne hne]

/-- A client that changes but for its write side. -/
theorem pumpOf_keep {client : Client} (hpump : client.pump = (m.clients x).pump) (c : Nat) :
    (m.update x client).pumpOf c = m.pumpOf c := by
  rw [pumpOf_update]
  split
  · next hx =>
    obtain ⟨rfl, hmade⟩ := hx
    rw [hpump, pumpOf, if_pos hmade]
  · rfl

/-- The pump of a client that is made is the one it has had before. -/
theorem pumpOf_start (m : Manager) (c : Nat) : m.start.pumpOf c = m.pumpOf c := by
  unfold pumpOf Manager.start Manager.update
  by_cases hc : c = m.created
  · subst hc
    simp [Client.start, Client.startRead, Client.new]
  · simp only [Function.update_of_ne hc]
    by_cases hmade : c < m.created
    · rw [if_pos hmade, if_pos (by omega)]
    · rw [if_neg hmade, if_neg (by omega)]

theorem exec_closeLabels (m : Manager) (c : Nat) :
    (pump .tcpServerClient).exec (m.pumpOf c) (m.closeLabels c) = some (m.stopAll.pumpOf c) := by
  unfold closeLabels pumpOf stopAll
  by_cases hmade : c < m.created
  · by_cases hmem : c ∈ m.connections
    · simp only [hmade, hmem, and_self, if_true]
      rfl
    · simp only [hmade, hmem, and_false, if_true, if_false]
      rfl
  · simp only [hmade, false_and, if_false]
    rfl

theorem exec_nextPump {l : PumpLabel} (hn : m.nextPump x l = some m') (c : Nat) :
    (pump .tcpServerClient).exec (m.pumpOf c) (if x = c then [l] else []) =
      some (m'.pumpOf c) := by
  obtain ⟨hmade, hn⟩ := Option.ite_none_right_eq_some.mp hn
  obtain ⟨p, hp, rfl⟩ := Option.map_eq_some_iff.mp hn
  rw [pumpOf_update]
  by_cases hx : x = c
  · subst hx
    simp only [hmade, and_self, if_true]
    rw [pumpOf, if_pos hmade]
    exact System.exec_cons.mpr ⟨p, hp, rfl⟩
  · simp only [hx, false_and, if_false]
    rfl

theorem onChunk_keeps (client : Client) (chunk : Bytes) :
    (client.onChunk chunk).pump = client.pump ∧ (client.onChunk chunk).do_run = client.do_run := by
  unfold Client.onChunk
  simp only
  split
  · exact ⟨rfl, rfl⟩
  · exact ⟨rfl, rfl⟩

/-- The receive handler leaves the registry and the write side alone, or takes
    its client out. -/
theorem receiveDeliver_cases {i : Nat} (hn : m.nextReceiveDeliver x i = some m') :
    ∃ client, client.pump = (m.clients x).pump ∧ client.do_run = (m.clients x).do_run ∧
      ((m' = m.update x client ∧ m.takesOut (.receiveDeliver x i) = none) ∨
        (m' = (m.update x client).stop x ∧ m.takesOut (.receiveDeliver x i) = some x)) := by
  obtain ⟨⟨o, r⟩, hf, rfl⟩ := Option.map_eq_some_iff.mp hn
  let client : Client := { m.clients x with receives := (m.clients x).receives.remove i }
  have hclient : (m.update x client).clients x = client := Function.update_self ..
  simp only [takesOut, hf]
  cases r with
  | ok chunk =>
    obtain ⟨hpump, hrun⟩ := onChunk_keeps client chunk
    refine ⟨client.onChunk chunk, hpump, hrun, Or.inl ⟨?_, rfl⟩⟩
    show (m.update x client).update x (((m.update x client).clients x).onChunk chunk) = _
    rw [hclient]
    simp [update]
  | error ec =>
    refine ⟨client, rfl, rfl, ?_⟩
    by_cases haborted : ec = .operation_aborted
    · subst haborted
      exact Or.inl ⟨rfl, by simp⟩
    · show (m.update x client).handleRead x (.error ec) = _ ∧ _ ∨
        (m.update x client).handleRead x (.error ec) = _ ∧ _
      rw [handleRead_error haborted, hclient]
      by_cases hrun : (m.clients x).do_run = true
      · exact Or.inr ⟨if_pos hrun, if_pos ⟨haborted, hrun⟩⟩
      · exact Or.inl ⟨if_neg hrun, if_neg fun h => hrun h.2⟩

theorem pumpOf_stop {client : Client} (hpump : client.pump = (m.clients x).pump) (c : Nat) :
    (pump .tcpServerClient).exec (m.pumpOf c)
      (if c < m.created ∧ some x = some c then [.closeTransport] else []) =
        some (((m.update x client).stop x).pumpOf c) := by
  have hclients : ((m.update x client).stop x).clients = (m.update x client.stop).clients := by
    simp [stop, update]
  have hstop : ((m.update x client).stop x).pumpOf c = (m.update x client.stop).pumpOf c := by
    unfold pumpOf
    rw [hclients]
    rfl
  rw [hstop, pumpOf_update]
  by_cases hx : x = c
  · subst hx
    by_cases hmade : x < m.created
    · simp only [hmade, and_self, if_true]
      rw [pumpOf, if_pos hmade, ← hpump]
      rfl
    · simp only [hmade, false_and, and_false, if_false]
      rfl
  · simp only [hx, Option.some.injEq, and_false, false_and, if_false]
    rfl

end Manager

/-- A client of a server refines the pump. -/
def clientSimulation (c : Nat) : Simulation system (pump .tcpServerClient) where
  abs := fun s => s.manager.pumpOf c
  labels := clientLabels c
  init := by
    rintro s ⟨opts, rfl⟩
    exact ⟨true, true, rfl⟩
  next := by
    intro s l s' hn
    cases Impl.step_of_next hn with
    | start os =>
      rw [Impl.start_manager]
      exact s.manager.exec_closeLabels c
    | stop => exact s.manager.exec_closeLabels c
    | setOptions opts os =>
      -- a server that is running is restarted
      simp only [clientLabels, Impl.setOptions]
      by_cases hrun : s.isRunning = true
      · have hnew : Impl.isRunning { s with opts := opts } = true := hrun
        simp only [hrun, hnew, if_true, Impl.start_manager]
        exact s.manager.exec_closeLabels c
      · have hnew : ¬ Impl.isRunning { s with opts := opts } = true := hrun
        simp only [hrun, hnew]
        rfl
    | acceptFinish => rfl
    | @acceptDeliver i n r hf =>
      simp only [Impl.handleAccept, clientLabels, System.exec_nil, Option.some.injEq]
      split
      · cases r with
        | ok a => exact (s.manager.pumpOf_start c).symm
        | error ec => rfl
      · rfl
    | @receiveFinish x i r m hm =>
      obtain ⟨o, _, hm⟩ := Option.bind_eq_some_iff.mp hm
      obtain ⟨_, heq⟩ := Option.ite_none_right_eq_some.mp hm
      obtain rfl := Option.some.inj heq
      have hpump : ({ s.manager.clients x with
          receives := (s.manager.clients x).receives.finish i o r } : Client).pump =
            (s.manager.clients x).pump := rfl
      exact congrArg some (Manager.pumpOf_keep hpump c).symm
    | @receiveDeliver x i m hm =>
      obtain ⟨client, hpump, _, ⟨rfl, hkept⟩ | ⟨rfl, hgone⟩⟩ := Manager.receiveDeliver_cases hm
      · simp only [clientLabels, hkept, reduceCtorEq, and_false, if_false]
        exact congrArg some (Manager.pumpOf_keep hpump c).symm
      · simp only [clientLabels, hgone]
        exact Manager.pumpOf_stop hpump c
    | write hm => exact Manager.exec_nextPump hm c
    | sendFinish hm => exact Manager.exec_nextPump hm c
    | sendDeliver hm => exact Manager.exec_nextPump hm c

/-- Completion handlers of sends are run in steps of their own. -/
theorem clientLabels_quiet (c : Nat) (s : Impl) {l : Label} (hl : ∀ i, l ≠ .sendDeliver c i) :
    ∀ m ∈ clientLabels c s l, ∀ i, m ≠ .deliver i := by
  have hclose : ∀ m ∈ s.manager.closeLabels c, ∀ i, m ≠ .deliver i := by
    unfold Manager.closeLabels
    split
    · simp
    · simp
  cases l with
  | sendDeliver x i =>
    have hx : x ≠ c := fun heq => hl i (by rw [heq])
    simp [clientLabels, hx]
  | start os => exact hclose
  | stop => exact hclose
  | setOptions opts os =>
    simp only [clientLabels]
    split
    · exact hclose
    · simp
  | receiveDeliver x i =>
    simp only [clientLabels]
    split
    · simp
    · simp
  | write x d =>
    simp only [clientLabels]
    split
    · simp
    · simp
  | sendFinish x i r =>
    simp only [clientLabels]
    split
    · simp
    · simp
  | _ => simp [clientLabels]

/-! ### What a client is given and sent -/

/-- What the step passes to `send` of the client. -/
def given (c : Nat) : Label → Bytes
  | .write x d => if x = c then d else []
  | _ => []

/-- What the step reports as transmitted to the client. -/
def sent (c : Nat) (s : Impl) : Label → Bytes
  | .sendDeliver x i => if x = c then (s.manager.pumpOf c).transmitted (.deliver i) else []
  | _ => []

theorem emits_closeLabels (m : Manager) (c : Nat) (f : Pump → PumpLabel → Bytes)
    (hf : ∀ p, f p .closeTransport = []) :
    (pump .tcpServerClient).emits f (m.pumpOf c) (m.closeLabels c) = [] := by
  unfold Manager.closeLabels
  split
  · simp [System.emits, hf, pump, Pump.next]
  · rfl

/-- Only the sends of a client contribute anything. -/
theorem emits_clientLabels (f : Pump → PumpLabel → Bytes) (hf : ∀ p, f p .closeTransport = [])
    (c : Nat) (s : Impl) (l : Label) :
    (pump .tcpServerClient).emits f (s.manager.pumpOf c) (clientLabels c s l) =
      match l with
      | .write x d => if x = c then f (s.manager.pumpOf c) (.write d) else []
      | .sendFinish x i r => if x = c then f (s.manager.pumpOf c) (.finish i r) else []
      | .sendDeliver x i => if x = c then f (s.manager.pumpOf c) (.deliver i) else []
      | _ => [] := by
  cases l with
  | start os => exact emits_closeLabels s.manager c f hf
  | stop => exact emits_closeLabels s.manager c f hf
  | setOptions opts os =>
    simp only [clientLabels]
    split
    · exact emits_closeLabels s.manager c f hf
    · rfl
  | receiveDeliver x i =>
    simp only [clientLabels]
    split
    · rw [System.emits_singleton, hf]
    · rfl
  | write x d =>
    simp only [clientLabels]
    split
    · rw [System.emits_singleton]
    · rfl
  | sendFinish x i r =>
    simp only [clientLabels]
    split
    · rw [System.emits_singleton]
    · rfl
  | sendDeliver x i =>
    simp only [clientLabels]
    split
    · rw [System.emits_singleton]
    · rfl
  | _ => rfl

/-- Whatever is done to the server and to the other clients, what a client has
    been sent, followed by what is left, is what it has been given. -/
theorem client_bytes_conserved (c : Nat) {s : Impl} (r : Run system s) :
    r.collect (sent c) ++ (s.manager.pumpOf c).content = r.collect fun _ => given c := by
  have hpump : ((clientSimulation c).run r).collect Pump.transmitted ++
      (s.manager.pumpOf c).content = ((clientSimulation c).run r).collect Pump.written := by
    apply Run.conservation (I := Pump.Inv)
    · rintro p ⟨should_run, is_open, rfl⟩
      exact ⟨Pump.Inv.new should_run is_open, rfl⟩
    · intro p l p' h hn
      exact h.next hn
    · intro p l p' h hn
      exact h.balance hn
  have hsent : (fun s l => (pump .tcpServerClient).emits Pump.transmitted
      ((clientSimulation c).abs s) ((clientSimulation c).labels s l)) = sent c := by
    funext s l
    refine (emits_clientLabels Pump.transmitted (fun _ => rfl) c s l).trans ?_
    cases l with
    | write x d => exact ite_self _
    | sendFinish x i r => exact ite_self _
    | _ => rfl
  have hgiven : (fun s l => (pump .tcpServerClient).emits Pump.written
      ((clientSimulation c).abs s) ((clientSimulation c).labels s l)) = fun _ => given c := by
    funext s l
    refine (emits_clientLabels Pump.written (fun _ => rfl) c s l).trans ?_
    cases l with
    | sendFinish x i r => exact ite_self _
    | sendDeliver x i => exact ite_self _
    | _ => rfl
  rwa [Simulation.collect_run, Simulation.collect_run, hsent, hgiven] at hpump

/-! ### The flag of a client -/

/-- The step does not run the handler of a failed send of the client. -/
def reportsNoFailure (c : Nat) (s : Impl) : Label → Bool
  | .sendDeliver x i => x != c || (s.manager.pumpOf c).reportsNoFailure (.deliver i)
  | _ => true

/-- **`write_in_progress_` of a client is right** throughout a run of the server
    exactly when no handler of a failed send of this client is run in it. -/
theorem client_in_progress_iff (c : Nat) {s : Impl} (r : Run system s) :
    (r.Throughout fun s => (s.manager.pumpOf c).write_in_progress = true ↔
        (s.manager.pumpOf c).sends ≠ []) ↔
      r.EachStep fun s l => reportsNoFailure c s l = true := by
  refine truthful_iff (clientSimulation c) (reportsNoFailure c) (fun s l => ?_) r
  by_cases hl : ∃ i, l = .sendDeliver c i
  · obtain ⟨i, rfl⟩ := hl
    left
    refine ⟨i, if_pos rfl, ?_⟩
    simp [reportsNoFailure, clientSimulation]
  · right
    refine ⟨?_, clientLabels_quiet c s fun i h => hl ⟨i, h⟩⟩
    cases l with
    | sendDeliver x i =>
      have hx : x ≠ c := fun heq => hl ⟨i, by rw [heq]⟩
      simp [reportsNoFailure, hx]
    | _ => rfl

end TcpServer

end DeviceTester
