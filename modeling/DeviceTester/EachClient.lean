import DeviceTester.Consoles
import DeviceTester.Framework.Traversal
import DeviceTester.ServerWrites

/-! # The loops over the clients of a server

  `TcpServer::sendToAll` and `TcpServer::eachClient` go through `connections_`
  of the manager in the thread of their caller, while the strand of the server
  accepts new clients and takes out the ones that fail. Nothing keeps the two
  apart. `start`, `stop` and `setOptions` are called by the thread of the loop,
  so not while it is in there.

  `connections_` is a `std::set` of pointers, which is ordered by where the
  clients have been allocated. A client that is gone may have been at the address
  of one that is there.
-/

namespace DeviceTester

open Async LTS Traversal

namespace TcpServer

/-! ### The loops -/

/-- What is done with each client. -/
inductive Body where
  | sendToAll (d : Bytes)
  /-- `eachClient`, whose function leaves the server alone. -/
  | eachClient

def Body.run (body : Body) (server : Impl) (c : Nat) : Option Impl :=
  match body with
  | .sendToAll d => server.next (.write c d)
  | .eachClient => some server

/-- The step that a server takes for the body. -/
def Body.label (c : Nat) : Body → List Label
  | .sendToAll d => [.write c d]
  | .eachClient => []

theorem Body.exec_label {server server' : Impl} {body : Body} {c : Nat}
    (hrun : body.run server c = some server') :
    system.exec server (body.label c) = some server' := by
  cases body with
  | eachClient => exact hrun
  | sendToAll d => exact System.exec_cons.mpr ⟨_, hrun, rfl⟩

/-- A send leaves the registry alone. -/
theorem Body.run_connections {server server' : Impl} {body : Body} {c : Nat}
    (hrun : body.run server c = some server') :
    server'.manager.connections = server.manager.connections := by
  cases body with
  | eachClient => exact Option.some.inj hrun ▸ rfl
  | sendToAll d =>
    obtain ⟨m, hm, rfl⟩ := Option.map_eq_some_iff.mp hrun
    obtain ⟨_, hm⟩ := Option.ite_none_right_eq_some.mp hm
    obtain ⟨p, _, rfl⟩ := Option.map_eq_some_iff.mp hm
    rfl

/-- What a step that is not taken by the user does to the registry: nothing, or it
    makes a client, or it takes one out. -/
theorem registry_cases {s s' : Impl} {l : Label} (hl : Gui.isEvent l = true)
    (hn : s.next l = some s') :
    (s.manager.takesOut l = none ∧ s'.manager.connections = s.manager.connections ∧
      s'.manager.created = s.manager.created ∧ s'.manager.events = s.manager.events) ∨
    (s.manager.takesOut l = none ∧
      s'.manager.connections = insert s.manager.created s.manager.connections ∧
      s'.manager.created = s.manager.created + 1 ∧
      s'.manager.events = s.manager.events ++ [(.connected, s.manager.created)]) ∨
    ∃ n, s.manager.takesOut l = some n ∧
      s'.manager.connections = s.manager.connections.erase n ∧
      s'.manager.created = s.manager.created ∧
      s'.manager.events = s.manager.events ++ [(.disconnected, n)] := by
  have hpump : ∀ {x l m}, s.manager.nextPump x l = some m →
      m.connections = s.manager.connections ∧ m.created = s.manager.created ∧
        m.events = s.manager.events := by
    intro x l m hm
    obtain ⟨_, hm⟩ := Option.ite_none_right_eq_some.mp hm
    obtain ⟨p, _, rfl⟩ := Option.map_eq_some_iff.mp hm
    exact ⟨rfl, rfl, rfl⟩
  cases Impl.step_of_next hn with
  | start => cases hl
  | stop => cases hl
  | setOptions => cases hl
  | acceptFinish => exact Or.inl ⟨rfl, rfl, rfl, rfl⟩
  | @acceptDeliver i n r hf =>
    simp only [Impl.handleAccept]
    split
    · cases r with
      | ok a => exact Or.inr (Or.inl ⟨rfl, rfl, rfl, rfl⟩)
      | error ec => exact Or.inl ⟨rfl, rfl, rfl, rfl⟩
    · exact Or.inl ⟨rfl, rfl, rfl, rfl⟩
  | receiveFinish hm =>
    obtain ⟨o, _, hm⟩ := Option.bind_eq_some_iff.mp hm
    obtain ⟨_, heq⟩ := Option.ite_none_right_eq_some.mp hm
    obtain rfl := Option.some.inj heq
    exact Or.inl ⟨rfl, rfl, rfl, rfl⟩
  | receiveDeliver hm =>
    obtain ⟨client, _, _, ⟨rfl, hkept⟩ | ⟨rfl, hgone⟩⟩ := Manager.receiveDeliver_cases hm
    · exact Or.inl ⟨hkept, rfl, rfl, rfl⟩
    · exact Or.inr (Or.inr ⟨_, hgone, rfl, rfl, rfl⟩)
  | write hm => exact Or.inl ⟨rfl, hpump hm⟩
  | sendFinish hm => exact Or.inl ⟨rfl, hpump hm⟩
  | sendDeliver hm => exact Or.inl ⟨rfl, hpump hm⟩

/-- A client stays registered until a handler takes it out. -/
theorem stays_iff {s s' : Impl} {l : Label} {c : Nat} (hl : Gui.isEvent l = true)
    (hn : s.next l = some s') (hc : c ∈ s.manager.connections) :
    c ∈ s'.manager.connections ↔ s.manager.takesOut l ≠ some c := by
  rcases registry_cases hl hn with ⟨hnone, hconn, _⟩ | ⟨hnone, hconn, _⟩ | ⟨n, htaken, hconn, _⟩
  · rw [hconn, hnone]
    exact iff_of_true hc (by simp)
  · rw [hconn, hnone]
    exact iff_of_true (Finset.mem_insert_of_mem hc) (by simp)
  · rw [hconn, htaken, Finset.mem_erase]
    constructor
    · intro hmem heq
      exact hmem.1 (Option.some.inj heq).symm
    · intro hne
      exact ⟨fun heq => hne (congrArg some heq.symm), hc⟩

theorem live_next {s s' : Impl} {l : Label} (h : s.manager.Live) (hn : system.next s l = some s') :
    s'.manager.Live :=
  (reads_next h hn).1

def clientLoops : Loops system Body where
  set := fun s => s.manager.connections
  concurrent := Gui.isEvent
  run := Body.run
  Inv := fun s => s.manager.Live
  spares := fun s l c => decide (s.manager.takesOut l ≠ some c)
  init := by
    intro s hs
    obtain ⟨opts, rfl⟩ := hs
    exact Manager.Live.new
  next := fun _ _ _ => live_next
  stays_iff := by
    intro s l s' c _ hl hn hc
    rw [stays_iff hl hn hc, decide_eq_true_eq]
  run_inv := by
    intro body s c s' h hrun
    have hstep : ∀ s l s', s.manager.Live → system.next s l = some s' → s'.manager.Live :=
      fun _ _ _ => live_next
    exact System.exec_invariant hstep h (Body.exec_label hrun)
  run_set := fun _ _ _ _ hrun => Body.run_connections hrun

/-- **The loops over the clients** have a valid iterator throughout a run exactly
    when no handler takes out the client that a loop is at. And in any run, a loop
    that is left has called no client twice, and each one that has been registered
    all the time. -/
theorem loops_valid_iff {s : Looping Impl Body} (r : Run clientLoops.looping s) :
    (r.Throughout clientLoops.Valid ↔ r.EachStep clientLoops.Spares) ∧
      r.Ensures Loops.CallsAll :=
  ⟨Loops.valid_iff r, Loops.calls_all r⟩

/-- The receive of the only client fails while the loop is at it. -/
example : (clientLoops.looping.exec ⟨.new ⟨.ipv4, 80⟩, none⟩
      [.other (.start .granted), .other (.acceptFinish 0 (.ok ())), .other (.acceptDeliver 0),
        .enter .eachClient id, .other (.receiveFinish 0 0 (.error (.other 0))),
        .other (.receiveDeliver 0 0)]).map
    (fun s => (s.loop.map fun x => x.pass.current, s.state.manager.connections)) =
      some (some (some (toLex (0, 0))), ∅) := by
  decide

/-! ### What the clients are sent by the loops -/

/-- The steps of the server in a step with its loop. -/
def serverLabels (s : Looping Impl Body) : LoopLabel Label Body → List Label
  | .other l => [l]
  | .visit =>
      match s.loop.bind fun x => x.pass.current.map fun k => x.body.label k.element with
      | some ls => ls
      | none => []
  | _ => []

/-- A server whose user goes through its clients is a server. -/
def loopSimulation : Simulation clientLoops.looping system where
  abs := Looping.state
  labels := serverLabels
  init := fun _ h => h.1
  next := by
    intro s l s' hn
    cases Loops.step_of_next hn with
    | other hl ht => exact System.exec_cons.mpr ⟨_, ht, rfl⟩
    | enter => rfl
    | visit hloop hk hmem hnew hrun =>
      simp only [serverLabels, hloop, hk, Option.bind_some, Option.map_some]
      exact Body.exec_label hrun
    | advance => rfl
    | leave => rfl

/-- What the step passes to `send` of a client, by itself or in a loop. -/
def givenWithLoop (c : Nat) (s : Looping Impl Body) : LoopLabel Label Body → Bytes
  | .other l => given c l
  | .visit =>
      match s.loop with
      | some ⟨.sendToAll d, _, pass⟩ =>
          match pass.current with
          | some k => if k.element = c then d else []
          | none => []
      | _ => []
  | _ => []

/-- What the step reports as transmitted to a client. -/
def sentWithLoop (c : Nat) (s : Looping Impl Body) : LoopLabel Label Body → Bytes
  | .other l => sent c s.state l
  | _ => []

/-- What a step of the loop contributes is what its send does. -/
theorem emits_serverLabels (f : Impl → Label → Bytes) (s : Looping Impl Body)
    (l : LoopLabel Label Body) :
    system.emits f s.state (serverLabels s l) =
      match l with
      | .other l => f s.state l
      | .visit =>
          match s.loop with
          | some ⟨.sendToAll d, _, pass⟩ =>
              match pass.current with
              | some k => f s.state (.write k.element d)
              | none => []
          | _ => []
      | _ => [] := by
  cases l with
  | other l => exact System.emits_singleton ..
  | visit =>
    cases hloop : s.loop with
    | none => simp [serverLabels, hloop, System.emits]
    | some x =>
      obtain ⟨body, rank, pass⟩ := x
      cases hk : pass.current with
      | none => cases body <;> simp [serverLabels, hloop, hk, System.emits]
      | some k =>
        cases body with
        | eachClient => simp [serverLabels, hloop, hk, Body.label, System.emits]
        | sendToAll d => simp [serverLabels, hloop, hk, Body.label, System.emits_singleton]
  | _ => rfl

/-- **Each client is sent what it has been given**, by itself and by the loops of
    `sendToAll`, and nothing else: on every run, what a client has been sent,
    followed by what its pump still has, is what it has been given. -/
theorem send_to_all_conserves (c : Nat) {s : Looping Impl Body} (r : Run clientLoops.looping s) :
    r.collect (sentWithLoop c) ++ (s.state.manager.pumpOf c).content =
      r.collect (givenWithLoop c) := by
  have hserver := client_bytes_conserved c (loopSimulation.run r)
  have hsent : (fun s l => system.emits (sent c) (loopSimulation.abs s)
      (loopSimulation.labels s l)) = sentWithLoop c := by
    funext s l
    refine (emits_serverLabels (sent c) s l).trans ?_
    cases l with
    | visit =>
      simp only [sentWithLoop]
      split
      · split
        · rfl
        · rfl
      · rfl
    | _ => rfl
  have hgiven : (fun s l => system.emits (fun _ => given c) (loopSimulation.abs s)
      (loopSimulation.labels s l)) = givenWithLoop c := by
    funext s l
    refine (emits_serverLabels (fun _ => given c) s l).trans ?_
    cases l <;> rfl
  rwa [Simulation.collect_run, Simulation.collect_run, hsent, hgiven] at hserver

end TcpServer

end DeviceTester
