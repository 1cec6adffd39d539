import DeviceTester.TcpSessions

/-! # What a TCP client is connected to

  `connect` takes the server and the service from `opts_`, and the rest is done
  by handlers, while `setOptions` only replaces `opts_` as long as the socket is
  not open. So is a client that is connected connected to what `options()` and
  `generateReadableName()` say?

  It is until a connect is reported whose result the socket does not have, or
  not any more, or that goes back to other options, or until another connect is
  started over it (`peer_named_iff`). None of these happens to somebody who
  waits for each attempt to end.

  `Traced` remembers what the program does not, namely which options an attempt
  goes back to and what the socket is connected to.
-/

namespace DeviceTester

open Async LTS

namespace TcpClient

/-! ### The client with the peer of its socket -/

structure Traced where
  impl : Impl
  /-- The options that the outstanding connects go back to, in their order. -/
  asked : List Options
  /-- The peer of the socket, with the options that it goes back to. -/
  peer : Option (Options × Endpoint)

namespace Traced

def askedAfter (s : Traced) : Label → List Options
  | .resolveDeliver i =>
      match s.impl.resolves.finished i with
      | some (l, .ok _) => s.asked ++ [⟨l.server, l.service⟩]
      | _ => s.asked
  | .connectDeliver i => s.asked.eraseIdx i
  | _ => s.asked

/-- The peer after a step that leads to `impl`. A socket that is closed has none,
    and one that has been opened for a connect gets one when that succeeds. -/
def peerAfter (s : Traced) (impl : Impl) (l : Label) : Option (Options × Endpoint) :=
  if impl.pump.is_open then
    match l with
    | .resolveDeliver _ => none
    | .connectFinish i (.ok endpoint) => s.asked[i]?.map fun opts => (opts, endpoint)
    | _ => s.peer
  else none

def next (s : Traced) (l : Label) : Option Traced :=
  (s.impl.next l).map fun impl => ⟨impl, s.askedAfter l, s.peerAfter impl l⟩

end Traced

def traced : System Traced Label where
  init := fun s => s = ⟨Impl.new, [], none⟩
  next := Traced.next

/-! ### The property -/

/-- What `handleConnect` makes of an endpoint. -/
def Endpoint.name (endpoint : Endpoint) : String :=
  "[tcp-client] " ++ endpoint.address ++ ":" ++ toString endpoint.port

namespace Traced

/-- **(P)** A client that has connected, with no `disconnect` and no failure
    since, is connected to what `options()` and `generateReadableName()` say. -/
def Named (s : Traced) : Prop :=
  s.impl.hist.connected = true →
    ∃ endpoint, s.peer = some (s.impl.opts, endpoint) ∧ s.impl.connection_str = endpoint.name

/-- A connect that is reported as successful is what the socket has got, for the
    options of now, and none is started over a connected client. -/
def keepsNamed (s : Traced) : Label → Bool
  | .connectDeliver i =>
      match (s.impl.connects.finished i).map fun x => s.impl.connectResult x.2 with
      | some (.ok endpoint) =>
          s.peer.any fun x => decide (x.1 = s.impl.opts ∧ x.2.name = endpoint.name)
      | _ => true
  | .resolveDeliver i =>
      match s.impl.resolves.finished i with
      | some (_, .ok _) => !s.impl.hist.connected
      | _ => true
  | _ => true

/-- The user calls `connect` when the client is not connected, and neither it nor
    `setOptions` before the last attempt has ended. -/
def waits (s : Traced) : Label → Bool
  | .connect =>
      s.impl.resolves.isEmpty && s.impl.connects.isEmpty && !s.impl.hist.connected
  | .setOptions _ => s.impl.resolves.isEmpty && s.impl.connects.isEmpty
  | _ => true

/-! ### One step -/

/-- A socket with a peer is open and has no connect in progress, of which there
    is one at most. -/
structure Inv (s : Traced) : Prop where
  opened : s.peer.isSome = true → s.impl.pump.is_open = true
  one : pendingCount s.impl.connects ≤ 1
  idle : s.peer.isSome = true → pendingCount s.impl.connects = 0

variable {s s' : Traced} {l : Label}

theorem Named.of_not_connected (h : s.impl.hist.connected = false) : s.Named := by
  intro hconnected
  rw [h] at hconnected
  cases hconnected

/-- What the property depends on is as it was. -/
theorem Named.frame (h : s.Named) (hpeer : s'.peer = s.peer) (hopts : s'.impl.opts = s.impl.opts)
    (hstr : s'.impl.connection_str = s.impl.connection_str)
    (hconnected : s'.impl.hist.connected = true → s.impl.hist.connected = true) : s'.Named := by
  intro hc
  rw [hpeer, hopts, hstr]
  exact h (hconnected hc)

theorem peerAfter_closed {impl : Impl} (h : impl.pump.is_open = false) (l : Label) :
    s.peerAfter impl l = none := by
  simp [peerAfter, h]

theorem Inv.closed {impl : Impl} {asked : List Options} (hclosed : impl.pump.is_open = false)
    (hone : pendingCount impl.connects ≤ 1) :
    Inv ⟨impl, asked, s.peerAfter impl l⟩ where
  opened := by
    rw [peerAfter_closed hclosed]
    intro hsome
    cases hsome
  one := hone
  idle := by
    rw [peerAfter_closed hclosed]
    intro hsome
    cases hsome

/-- The peer stays when the socket does, unless the step is about connects. -/
theorem Inv.peer_kept (h : s.Inv) {impl : Impl} (hopen : impl.pump.is_open = s.impl.pump.is_open)
    (hl : s.peerAfter impl l = if impl.pump.is_open then s.peer else none) :
    s.peerAfter impl l = s.peer := by
  rw [hl, hopen]
  split
  · rfl
  · next hclosed =>
    cases hpeer : s.peer with
    | none => rfl
    | some x => exact absurd (h.opened (by rw [hpeer]; rfl)) hclosed

theorem Inv.keep (h : s.Inv) {impl : Impl} {asked : List Options}
    (hopen : impl.pump.is_open = s.impl.pump.is_open)
    (hcount : pendingCount impl.connects = pendingCount s.impl.connects)
    (hl : s.peerAfter impl l = if impl.pump.is_open then s.peer else none) :
    Inv ⟨impl, asked, s.peerAfter impl l⟩ := by
  rw [h.peer_kept hopen hl]
  exact ⟨fun hsome => hopen.trans (h.opened hsome), Nat.le_trans (Nat.le_of_eq hcount) h.one,
    fun hsome => hcount.trans (h.idle hsome)⟩

theorem pendingCount_disconnect (impl : Impl) : pendingCount impl.disconnect.connects ≤ 1 := by
  show pendingCount (cancelAll impl.connects) ≤ 1
  rw [pendingCount_cancelAll]
  exact Nat.zero_le 1

theorem Inv.next (h : s.Inv) (hn : s.next l = some s') : s'.Inv := by
  obtain ⟨impl, himpl, rfl⟩ := Option.map_eq_some_iff.mp hn
  cases Impl.step_of_next himpl with
  | connect => exact h.keep rfl rfl rfl
  | disconnect => exact .closed rfl (pendingCount_disconnect s.impl)
  | setOptions opts =>
    unfold Impl.setOptions
    by_cases hopen : s.impl.pump.is_open = true
    · have hconnected : Impl.isConnected { s.impl with opts := opts } = true := hopen
      simp only [hconnected, if_true]
      exact .closed rfl (pendingCount_disconnect { s.impl with opts := opts })
    · have hconnected : ¬ Impl.isConnected { s.impl with opts := opts } = true := hopen
      simp only [hconnected]
      exact h.keep rfl rfl rfl
  | write hp => exact h.keep (Pump.next_flags hp rfl).2 rfl rfl
  | sendFinish hp => exact h.keep (Pump.next_flags hp rfl).2 rfl rfl
  | sendDeliver _ hp => exact h.keep (Pump.next_flags hp rfl).2 rfl rfl
  | resolveFinish => exact h.keep rfl rfl rfl
  | @resolveDeliver i lookup r hf =>
    cases r with
    | error ec =>
      exact .closed rfl (pendingCount_disconnect { s.impl with resolves := _ })
    | ok endpoints =>
      -- the only connect in progress is the new one
      have hone : pendingCount ((cancelAll s.impl.connects).start
          ⟨⟨s.impl.hist.disconnects, lookup.origin.session⟩, endpoints⟩) = 1 := by
        have hnone := pendingCount_cancelAll s.impl.connects
        unfold pendingCount at hnone ⊢
        rw [Operations.countP_start, hnone]
        rfl
      refine ⟨fun _ => rfl, Nat.le_of_eq hone, fun hsome => ?_⟩
      cases hsome
  | @connectFinish i d r hi hr =>
    have hcount := pendingCount_finish hi r
    have hnone : pendingCount (s.impl.connects.finish i d r) = 0 := by
      have hone := h.one
      omega
    refine ⟨fun hsome => ?_, ?_, fun _ => hnone⟩
    · by_contra hclosed
      rw [peerAfter_closed (by simpa using hclosed)] at hsome
      cases hsome
    · show pendingCount (s.impl.connects.finish i d r) ≤ 1
      omega
  | @connectDeliver i d r hf =>
    cases hr : s.impl.connectResult r with
    | error ec =>
      exact .closed rfl (pendingCount_disconnect { s.impl with connects := _ })
    | ok endpoint => exact h.keep rfl (pendingCount_remove hf) rfl
  | receiveFinish => exact h.keep rfl rfl rfl
  | @receiveDeliver i o r hf =>
    cases r with
    | error ec =>
      exact .closed rfl (pendingCount_disconnect { s.impl with receives := _ })
    | ok chunk =>
      simp only [Impl.handleRead]
      split
      · exact h.keep rfl rfl rfl
      · exact h.keep rfl rfl rfl

/-- A step that is not about connects. -/
theorem Named.keep (h : s.Named) (hinv : s.Inv) {impl : Impl} {asked : List Options}
    (hopen : impl.pump.is_open = s.impl.pump.is_open)
    (hl : s.peerAfter impl l = if impl.pump.is_open then s.peer else none)
    (hopts : impl.opts = s.impl.opts) (hstr : impl.connection_str = s.impl.connection_str)
    (hconnected : impl.hist.connected = true → s.impl.hist.connected = true) : Named ⟨impl, asked, s.peerAfter impl l⟩ :=
  h.frame (hinv.peer_kept hopen hl) hopts hstr hconnected

theorem named_setOptions (h : s.Named) (hinv : s.Inv) (opts : Options) (asked : List Options) :
    Named ⟨s.impl.setOptions opts, asked, s.peerAfter (s.impl.setOptions opts) (.setOptions opts)⟩ := by
  unfold Impl.setOptions
  by_cases hopen : s.impl.pump.is_open = true
  · -- a client that is connected starts over
    have hconnected : Impl.isConnected { s.impl with opts := opts } = true := hopen
    simp only [hconnected, if_true]
    exact .of_not_connected rfl
  · have hconnected : ¬ Impl.isConnected { s.impl with opts := opts } = true := hopen
    simp only [hconnected]
    intro hc
    obtain ⟨endpoint, hpeer, _⟩ := h hc
    exact absurd (hinv.opened (by rw [hpeer]; rfl)) hopen

theorem named_connectDeliver (hinv : s.Inv) {i : Nat} {d : Dial}
    {r : Except ErrorCode Endpoint} (hf : s.impl.connects.finished i = some (d, r))
    (asked : List Options) {impl : Impl}
    (himpl : impl = Impl.handleConnect { s.impl with connects := s.impl.connects.remove i } d
      (s.impl.connectResult r)) :
    Named ⟨impl, asked, s.peerAfter impl (.connectDeliver i)⟩ ↔
      s.keepsNamed (.connectDeliver i) = true := by
  simp only [keepsNamed, hf, Option.map_some]
  cases hr : s.impl.connectResult r with
  | error ec =>
    rw [himpl, hr]
    exact iff_of_true (.of_not_connected rfl) rfl
  | ok endpoint =>
    have hpeer : s.peerAfter impl (.connectDeliver i) = s.peer := by
      apply hinv.peer_kept
      · rw [himpl, hr]
        rfl
      · rfl
    rw [hpeer, himpl, hr]
    simp only [Option.any_eq_true, decide_eq_true_eq]
    constructor
    · intro hnamed
      obtain ⟨peer, hsome, hname⟩ := hnamed rfl
      exact ⟨_, hsome, rfl, hname.symm⟩
    · intro hgot
      obtain ⟨⟨opts, peer⟩, hsome, rfl, hname⟩ := hgot
      intro _
      exact ⟨peer, hsome, hname.symm⟩

/-- One step of a client that is named right. -/
theorem named_next (hinv : s.Inv) (h : s.Named) (hn : s.next l = some s') :
    s'.Named ↔ s.keepsNamed l = true := by
  obtain ⟨impl, himpl, rfl⟩ := Option.map_eq_some_iff.mp hn
  cases Impl.step_of_next himpl with
  | connect => exact iff_of_true (h.keep hinv rfl rfl rfl rfl id) rfl
  | disconnect => exact iff_of_true (.of_not_connected rfl) rfl
  | setOptions opts => exact iff_of_true (named_setOptions h hinv opts _) rfl
  | write hp => exact iff_of_true (h.keep hinv (Pump.next_flags hp rfl).2 rfl rfl rfl id) rfl
  | sendFinish hp => exact iff_of_true (h.keep hinv (Pump.next_flags hp rfl).2 rfl rfl rfl id) rfl
  | sendDeliver _ hp =>
    refine iff_of_true (h.keep hinv (Pump.next_flags hp rfl).2 rfl rfl rfl ?_) rfl
    intro hc
    exact (Bool.and_eq_true_iff.mp hc).1
  | resolveFinish => exact iff_of_true (h.keep hinv rfl rfl rfl rfl id) rfl
  | @resolveDeliver i lookup r hf =>
    simp only [keepsNamed, hf]
    cases r with
    | error ec => exact iff_of_true (.of_not_connected rfl) rfl
    | ok endpoints =>
      -- the socket is opened anew, and what it was connected to is gone
      simp only [Bool.not_eq_true']
      constructor
      · intro hnamed
        by_contra hc
        have hconnected : s.impl.hist.connected = true := by simpa using hc
        obtain ⟨endpoint, hpeer, _⟩ := hnamed hconnected
        cases hpeer
      · intro hc
        exact .of_not_connected hc
  | @connectFinish i d r hi hr =>
    refine iff_of_true ?_ rfl
    intro hc
    obtain ⟨endpoint, hpeer, _⟩ := h hc
    have hnone := hinv.idle (by rw [hpeer]; rfl)
    have hpos := pendingCount_pos hi
    omega
  | connectDeliver hf => exact named_connectDeliver hinv hf _ rfl
  | receiveFinish => exact iff_of_true (h.keep hinv rfl rfl rfl rfl id) rfl
  | @receiveDeliver i o r hf =>
    refine iff_of_true ?_ rfl
    cases r with
    | error ec => exact .of_not_connected rfl
    | ok chunk =>
      simp only [Impl.handleRead]
      split
      · exact h.keep hinv rfl rfl rfl rfl id
      · exact h.keep hinv rfl rfl rfl rfl id

/-! ### A user who waits -/

/-- There is one attempt at most, it is for the options of now, and it has ended
    when the client is connected. -/
structure Waited (s : Traced) : Prop where
  one : s.impl.resolves.length + s.impl.connects.length ≤ 1
  lookups : ∀ lookup ∈ s.impl.resolves.kinds, (⟨lookup.server, lookup.service⟩ : Options) = s.impl.opts
  aligned : s.asked.length = s.impl.connects.length
  current : ∀ opts ∈ s.asked, opts = s.impl.opts
  ended : s.impl.hist.connected = true → s.impl.resolves = [] ∧ s.impl.connects = []
  /-- What a connect has got is what the socket has, as long as it is open. -/
  got : ∀ i d endpoint, s.impl.connects.finished i = some (d, .ok endpoint) →
    s.impl.pump.is_open = true → s.peer = some (s.impl.opts, endpoint)

theorem Waited.new : Waited ⟨Impl.new, [], none⟩ where
  one := Nat.zero_le 1
  lookups := by
    intro lookup hmem
    cases hmem
  aligned := rfl
  current := by
    intro opts hmem
    cases hmem
  ended := fun _ => ⟨rfl, rfl⟩
  got := by
    intro i d endpoint hf
    cases hf

/-- Neither the attempt nor the socket changes. -/
theorem Waited.keep (h : s.Waited) (hinv : s.Inv) {impl : Impl}
    (hopen : impl.pump.is_open = s.impl.pump.is_open)
    (hl : s.peerAfter impl l = if impl.pump.is_open then s.peer else none)
    (hopts : impl.opts = s.impl.opts) (hresolves : impl.resolves = s.impl.resolves)
    (hconnects : impl.connects = s.impl.connects)
    (hconnected : impl.hist.connected = true → s.impl.hist.connected = true) :
    Waited ⟨impl, s.asked, s.peerAfter impl l⟩ := by
  rw [hinv.peer_kept hopen hl]
  refine ⟨?_, ?_, ?_, ?_, ?_, ?_⟩
  · rw [hresolves, hconnects]
    exact h.one
  · rw [hresolves, hopts]
    exact h.lookups
  · rw [hconnects]
    exact h.aligned
  · rw [hopts]
    exact h.current
  · intro hc
    rw [hresolves, hconnects]
    exact h.ended (hconnected hc)
  · rw [hconnects, hopen, hopts]
    exact h.got

/-- The attempt comes to nothing. -/
theorem Waited.disconnect {impl : Impl} {asked : List Options}
    (hone : impl.resolves.length + impl.connects.length ≤ 1)
    (hlookups : ∀ lookup ∈ impl.resolves.kinds,
      (⟨lookup.server, lookup.service⟩ : Options) = impl.opts)
    (haligned : asked.length = impl.connects.length) (hcurrent : ∀ opts ∈ asked, opts = impl.opts)
    (peer : Option (Options × Endpoint)) : Waited ⟨impl.disconnect, asked, peer⟩ where
  one := by
    show impl.resolves.length + (cancelAll impl.connects).length ≤ 1
    unfold cancelAll Operations.abort
    rwa [List.length_map]
  lookups := hlookups
  aligned := by
    show asked.length = (cancelAll impl.connects).length
    unfold cancelAll Operations.abort
    rwa [List.length_map]
  current := hcurrent
  ended := by
    intro hc
    cases hc
  got := by
    intro i d endpoint hf hopen
    cases hopen

/-- With no attempt, the first one is for the options of now. -/
theorem Waited.fresh {impl : Impl} (hresolves : impl.resolves = []) (hconnects : impl.connects = [])
    (hconnected : impl.hist.connected = false) (peer : Option (Options × Endpoint)) :
    Waited ⟨impl.connect, [], peer⟩ where
  one := by simp [Impl.connect, hresolves, hconnects, Operations.start]
  lookups := by
    intro lookup hmem
    simp only [Impl.connect, hresolves, Operations.kinds_start, Operations.kinds_nil,
      List.nil_append, List.mem_singleton] at hmem
    rw [hmem]
    rfl
  aligned := by simp [Impl.connect, hconnects]
  current := by
    intro opts hmem
    cases hmem
  ended := by
    intro hc
    have hc' : impl.hist.connected = true := hc
    rw [hconnected] at hc'
    cases hc'
  got := by
    intro i d endpoint hf
    have hnone : impl.connects.finished i = none := by rw [hconnects]; rfl
    rw [show impl.connect.connects = impl.connects from rfl, hnone] at hf
    cases hf

theorem Waited.idle {impl : Impl} (hresolves : impl.resolves = []) (hconnects : impl.connects = [])
    (peer : Option (Options × Endpoint)) : Waited ⟨impl, [], peer⟩ where
  one := by simp [hresolves, hconnects]
  lookups := by
    intro lookup hmem
    rw [hresolves] at hmem
    cases hmem
  aligned := by simp [hconnects]
  current := by
    intro opts hmem
    cases hmem
  ended := fun _ => ⟨hresolves, hconnects⟩
  got := by
    intro i d endpoint hf
    rw [hconnects] at hf
    cases hf

theorem Waited.asked_eq_nil (h : s.Waited) (hconnects : s.impl.connects = []) : s.asked = [] := by
  have haligned := h.aligned
  rw [hconnects] at haligned
  exact List.eq_nil_of_length_eq_zero haligned

theorem waited_setOptions (h : s.Waited) {opts : Options}
    (hwaits : s.waits (.setOptions opts) = true) (peer : Option (Options × Endpoint)) :
    Waited ⟨s.impl.setOptions opts, s.asked, peer⟩ := by
  simp only [waits, Bool.and_eq_true, List.isEmpty_iff] at hwaits
  obtain ⟨hresolves, hconnects⟩ := hwaits
  rw [h.asked_eq_nil hconnects]
  unfold Impl.setOptions
  simp only
  split
  · apply Waited.fresh
    · exact hresolves
    · show cancelAll s.impl.connects = []
      rw [hconnects]
      rfl
    · rfl
  · apply Waited.idle
    · exact hresolves
    · exact hconnects

theorem waited_resolveDeliver (h : s.Waited) {i : Nat} {lookup : Lookup}
    {r : Except ErrorCode (List Endpoint)}
    (hf : s.impl.resolves.finished i = some (lookup, r)) (peer : Option (Options × Endpoint)) :
    Waited ⟨Impl.handleResolve { s.impl with resolves := s.impl.resolves.remove i } lookup r,
      s.askedAfter (.resolveDeliver i), peer⟩ := by
  -- the lookup is the one attempt there is
  have hlen := (Operations.perm_remove hf).length_eq
  have hone := h.one
  simp only [List.length_cons] at hlen
  have hresolves : s.impl.resolves.remove i = [] := List.eq_nil_of_length_eq_zero (by omega)
  have hconnects : s.impl.connects = [] := List.eq_nil_of_length_eq_zero (by omega)
  have hopts := h.lookups lookup (Operations.mem_kinds_of_finished hf)
  have hended : s.impl.hist.connected = true → False := by
    intro hc
    rw [(h.ended hc).1] at hlen
    simp at hlen
  simp only [askedAfter, hf]
  cases r with
  | error ec =>
    apply Waited.disconnect
    · simp [hresolves, hconnects]
    · simp [hresolves]
    · exact h.aligned
    · exact h.current
  | ok endpoints =>
    show Waited ⟨_, s.asked ++ [⟨lookup.server, lookup.service⟩], peer⟩
    rw [h.asked_eq_nil hconnects, hopts, hresolves]
    have hnew : ∀ d, (cancelAll s.impl.connects).start d = [⟨d, none⟩] := by
      intro d
      rw [hconnects]
      rfl
    refine ⟨?_, ?_, ?_, ?_, fun hc => (hended hc).elim, ?_⟩
    · simp [Impl.handleResolve, Impl.asyncConnect, hnew]
    · intro other hmem
      cases hmem
    · simp [Impl.handleResolve, Impl.asyncConnect, hnew]
    · intro opts hmem
      exact List.mem_singleton.mp hmem
    · intro j d endpoint hgot
      simp only [Impl.handleResolve, Impl.asyncConnect, hnew, Operations.finished_eq_some] at hgot
      cases j with
      | zero => cases hgot
      | succ j => cases hgot

theorem waited_resolveFinish (h : s.Waited) {i : Nat} {lookup : Lookup}
    (hi : s.impl.resolves.inProgress i = some lookup) (r : Except ErrorCode (List Endpoint))
    {peer : Option (Options × Endpoint)} (hpeer : peer = s.peer) :
    Waited ⟨{ s.impl with resolves := s.impl.resolves.finish i lookup r }, s.asked, peer⟩ := by
  subst hpeer
  refine ⟨?_, ?_, h.aligned, h.current, ?_, h.got⟩
  · show (s.impl.resolves.finish i lookup r).length + s.impl.connects.length ≤ 1
    unfold Operations.finish
    rw [List.length_set]
    exact h.one
  · show ∀ other ∈ (s.impl.resolves.finish i lookup r).kinds, _
    rw [Operations.kinds_finish r hi]
    exact h.lookups
  · intro hc
    have hmem := Operations.mem_of_inProgress hi
    rw [(h.ended hc).1] at hmem
    cases hmem

/-- The connect of the only attempt. -/
theorem Waited.connecting (h : s.Waited) {i : Nat} (hi : i < s.impl.connects.length) :
    i = 0 ∧ s.impl.connects.length = 1 ∧ s.impl.resolves = [] ∧ s.asked = [s.impl.opts] := by
  have hone := h.one
  have hlen : s.impl.connects.length = 1 := by omega
  refine ⟨by omega, hlen, List.eq_nil_of_length_eq_zero (by omega), ?_⟩
  obtain ⟨opts, hasked⟩ := List.length_eq_one_iff.mp (h.aligned.trans hlen)
  have hopts := h.current opts (by rw [hasked]; exact List.mem_singleton_self opts)
  rw [hasked, hopts]

theorem waited_connectFinish (h : s.Waited) {i : Nat} {d : Dial} {r : Except ErrorCode Endpoint}
    (hi : s.impl.connects.inProgress i = some d) :
    Waited ⟨{ s.impl with connects := s.impl.connects.finish i d r }, s.asked,
      s.peerAfter { s.impl with connects := s.impl.connects.finish i d r } (.connectFinish i r)⟩ := by
  obtain ⟨hlt, _⟩ := List.getElem?_eq_some_iff.mp (Operations.inProgress_eq_some.mp hi)
  obtain ⟨rfl, hlen, _, hasked⟩ := h.connecting hlt
  have hlen' : (s.impl.connects.finish 0 d r).length = s.impl.connects.length := List.length_set
  refine ⟨?_, h.lookups, ?_, h.current, ?_, ?_⟩
  · show s.impl.resolves.length + (s.impl.connects.finish 0 d r).length ≤ 1
    rw [hlen']
    exact h.one
  · exact h.aligned.trans hlen'.symm
  · intro hc
    rw [(h.ended hc).2] at hlt
    cases hlt
  · intro j d' endpoint hgot hopen
    have hgot' : (s.impl.connects.finish 0 d r).finished j = some (d', .ok endpoint) := hgot
    have hopen' : s.impl.pump.is_open = true := hopen
    -- there is no other place in the list
    obtain ⟨hj, _⟩ := List.getElem?_eq_some_iff.mp (Operations.finished_eq_some.mp hgot')
    obtain rfl : j = 0 := by omega
    have hr : r = .ok endpoint := by
      rw [Operations.finished_eq_some] at hgot'
      unfold Operations.finish at hgot'
      rw [List.getElem?_set_self hlt] at hgot'
      cases hgot'
      rfl
    subst hr
    simp [peerAfter, hopen', hasked]

theorem waited_connectDeliver (h : s.Waited) {i : Nat} {d : Dial} {r : Except ErrorCode Endpoint}
    (hf : s.impl.connects.finished i = some (d, r)) (r' : Except ErrorCode Endpoint)
    (peer : Option (Options × Endpoint)) :
    Waited ⟨Impl.handleConnect { s.impl with connects := s.impl.connects.remove i } d r',
      s.asked.eraseIdx i, peer⟩ := by
  obtain ⟨hlt, _⟩ := List.getElem?_eq_some_iff.mp (Operations.finished_eq_some.mp hf)
  obtain ⟨rfl, hlen, hresolves, hasked⟩ := h.connecting hlt
  have hconnects : s.impl.connects.remove 0 = [] := by
    apply List.eq_nil_of_length_eq_zero
    unfold Operations.remove
    rw [List.length_eraseIdx_of_lt hlt]
    omega
  rw [hasked]
  show Waited ⟨_, [], peer⟩
  cases r' with
  | error ec =>
    apply Waited.disconnect
    · simp [hresolves, hconnects]
    · simp [hresolves]
    · simp [hconnects]
    · simp
  | ok endpoint =>
    apply Waited.idle
    · exact hresolves
    · exact hconnects

theorem Waited.next (h : s.Waited) (hinv : s.Inv) (hwaits : s.waits l = true)
    (hn : s.next l = some s') : s'.Waited := by
  obtain ⟨impl, himpl, rfl⟩ := Option.map_eq_some_iff.mp hn
  cases Impl.step_of_next himpl with
  | connect =>
    simp only [waits, Bool.and_eq_true, List.isEmpty_iff, Bool.not_eq_true'] at hwaits
    obtain ⟨⟨hresolves, hconnects⟩, hconnected⟩ := hwaits
    simp only [askedAfter, h.asked_eq_nil hconnects]
    exact .fresh hresolves hconnects hconnected _
  | disconnect => exact .disconnect h.one h.lookups h.aligned h.current _
  | setOptions opts => exact waited_setOptions h hwaits _
  | write hp => exact h.keep hinv (Pump.next_flags hp rfl).2 rfl rfl rfl rfl id
  | sendFinish hp => exact h.keep hinv (Pump.next_flags hp rfl).2 rfl rfl rfl rfl id
  | sendDeliver _ hp =>
    refine h.keep hinv (Pump.next_flags hp rfl).2 rfl rfl rfl rfl ?_
    intro hc
    exact (Bool.and_eq_true_iff.mp hc).1
  | resolveFinish hi => exact waited_resolveFinish h hi _ (hinv.peer_kept rfl rfl)
  | resolveDeliver hf => exact waited_resolveDeliver h hf _
  | connectFinish hi => exact waited_connectFinish h hi
  | connectDeliver hf => exact waited_connectDeliver h hf _ _
  | receiveFinish => exact h.keep hinv rfl rfl rfl rfl rfl id
  | @receiveDeliver i o r hf =>
    cases r with
    | error ec =>
      apply Waited.disconnect
      · exact h.one
      · exact h.lookups
      · exact h.aligned
      · exact h.current
    | ok chunk =>
      simp only [Impl.handleRead]
      split
      · exact h.keep hinv rfl rfl rfl rfl rfl id
      · exact h.keep hinv rfl rfl rfl rfl rfl id

/-- An attempt that somebody has waited for keeps the client named right. -/
theorem Waited.keepsNamed (h : s.Waited) (hn : s.next l = some s') : s.keepsNamed l = true := by
  obtain ⟨impl, himpl, rfl⟩ := Option.map_eq_some_iff.mp hn
  cases Impl.step_of_next himpl with
  | @resolveDeliver i lookup r hf =>
    simp only [Traced.keepsNamed, hf]
    cases r with
    | error ec => rfl
    | ok endpoints =>
      rw [Bool.not_eq_true', ← Bool.not_eq_true]
      intro hc
      have hmem := Operations.mem_of_finished hf
      rw [(h.ended hc).1] at hmem
      cases hmem
  | @connectDeliver i d r hf =>
    simp only [Traced.keepsNamed, hf, Option.map_some]
    rcases s.impl.connectResult_cases r with ⟨ec, hr⟩ | ⟨hopen, endpoint, rfl, hr⟩
    · rw [hr]
    · rw [hr, h.got i d endpoint hf hopen]
      simp
  | _ => rfl

end Traced

/-- **A connected client is named after its peer** throughout a run exactly when
    no connect is reported that the socket does not have for the options of now,
    and none is started over a connected client. A user who waits for each
    attempt to end sees nothing else. -/
theorem peer_named_iff {s : Traced} (r : Run traced s) :
    (r.Throughout Traced.Named ↔ r.EachStep fun s l => s.keepsNamed l = true) ∧
      ((r.EachStep fun s l => s.waits l = true) → r.Throughout Traced.Named) := by
  have hinit : ∀ s, traced.init s → s.Inv ∧ s.Named := by
    rintro s rfl
    refine ⟨⟨?_, Nat.zero_le 1, fun _ => rfl⟩, .of_not_connected rfl⟩
    intro hsome
    cases hsome
  have hiff : r.Throughout Traced.Named ↔ r.EachStep fun s l => s.keepsNamed l = true := by
    apply r.throughout_iff (I := fun s => s.Inv ∧ s.Named)
    · exact hinit
    · intro s h
      exact h.2
    · intro s l s' h hC hn
      exact ⟨h.1.next hn, (Traced.named_next h.1 h.2 hn).mpr hC⟩
    · intro s l s' h hn hnamed
      exact (Traced.named_next h.1 h.2 hn).mp hnamed
  refine ⟨hiff, fun hwaits => hiff.mpr ?_⟩
  apply r.guarded_eachStep (I := fun s => s.Inv ∧ s.Waited) _ _ _ hwaits
  · rintro s rfl
    exact ⟨(hinit _ rfl).1, .new⟩
  · intro s l s' h hC hn
    exact ⟨h.1.next hn, h.2.next h.1 hC hn⟩
  · intro s l s' h _ hn
    exact h.2.keepsNamed hn

/-- The user connects, disconnects, and connects to another server. -/
theorem reconnected_is_named :
    ∃ (s : Traced) (r : Run traced s), s.impl.hist.connected = true ∧
      s.peer = some (⟨"::1", "80"⟩, ⟨"::1", 80⟩) ∧ r.Throughout Traced.Named := by
  obtain ⟨s, r, hwaits, hs⟩ := Run.exists_of_check traced rfl
    [.setOptions ⟨"::2", "81"⟩, .connect, .resolveFinish 0 (.ok [⟨"::2", 81⟩]), .resolveDeliver 0,
      .connectFinish 0 (.ok ⟨"::2", 81⟩), .connectDeliver 0, .disconnect, .receiveDeliver 0,
      .setOptions ⟨"::1", "80"⟩, .connect, .resolveFinish 0 (.ok [⟨"::1", 80⟩]),
      .resolveDeliver 0, .connectFinish 0 (.ok ⟨"::1", 80⟩), .connectDeliver 0]
    Traced.waits
    (fun s => s.impl.hist.connected && decide (s.peer = some (⟨"::1", "80"⟩, ⟨"::1", 80⟩)))
    (by decide)
  simp only [Bool.and_eq_true, decide_eq_true_eq] at hs
  exact ⟨s, r, hs.1, hs.2, (peer_named_iff r).2 hwaits⟩

/-- The options are replaced while the server of the former ones is looked up. -/
example : (traced.exec ⟨Impl.new, [], none⟩ [.connect, .setOptions ⟨"::1", "80"⟩,
      .resolveFinish 0 (.ok [⟨"::2", 81⟩]), .resolveDeliver 0, .connectFinish 0 (.ok ⟨"::2", 81⟩),
      .connectDeliver 0]).map (fun s => (s.impl.hist.connected, s.impl.opts, s.peer)) =
    some (true, ⟨"::1", "80"⟩, some (⟨"", ""⟩, ⟨"::2", 81⟩)) := by
  decide

end TcpClient

end DeviceTester
