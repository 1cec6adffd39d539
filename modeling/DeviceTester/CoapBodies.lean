import DeviceTester.CoapClient

/-! # The bodies of CoAP requests

  `sendRequest` puts the body of a request into `large_data_.buffer` under a new
  id and passes it to libcoap by reference, with the id as the pointer that is
  handed back when libcoap no longer needs the body. That is at any later time,
  or within the call already, when the request has not been sent yet.

  What is in the buffer is what libcoap has got and has not released, for as
  long as the counter of the ids does not come around (`bodies_intact`).
-/

namespace DeviceTester

open LTS

namespace CoapClient

/-! ### Ids as pointers -/

/-- `reinterpret_cast` of an id, and of the pointer it has been made to. -/
def toAppPtr (id : Nat) : UInt64 := UInt64.ofNat id

def ofAppPtr (app_ptr : UInt64) : Nat := app_ptr.toNat

namespace Impl

/-- The session has been given its `Impl` before any request was sent on it. A
    null pointer is an id like the others. -/
def FreeLargeDataCallback (s : Impl) (app_ptr : UInt64) : Impl :=
  s.freeLargeData (ofAppPtr app_ptr)

/-- `sendRequest` up to the return of `coap_add_data_large_request`. -/
def beginRequest (s : Impl) (n : Nat) (method : Method) (id : RequestId) (data : List UInt8)
    (token : Token) (a : Allocation) (token_added : Bool) : Impl × Pdu :=
  let s := { s with
    tracked := s.tracked.track_new_token token ⟨id, n⟩ s.doing_observe a
    requests := s.requests ++ [Request.mk n token id] }
  let pdu : Pdu := ⟨n, requestCode method, if token_added then some token else none, none⟩
  if data.length > 0 then
    ({ s with large_data := s.large_data.emplace data },
      { pdu with body := some s.large_data.id_counter })
  else (s, pdu)

/-- `coap_send`, with which `sendRequest` ends. -/
def coapSend (s : Impl) (pdu : Pdu) : Impl := { s with sent := s.sent ++ [pdu] }

theorem sendRequest_eq (s : Impl) (n : Nat) (method : Method) (id : RequestId) (data : List UInt8)
    (token : Token) (a : Allocation) (token_added : Bool) :
    s.sendRequest n method id data token a token_added =
      (s.beginRequest n method id data token a token_added).1.coapSend
        (s.beginRequest n method id data token a token_added).2 := by
  unfold sendRequest beginRequest
  by_cases hdata : data.length > 0
  · simp only [if_pos hdata]
    rfl
  · simp only [if_neg hdata]
    rfl

end Impl

/-! ### The client and what libcoap holds -/

structure Bodies where
  impl : Impl
  /-- The requests on which `coap_send` has still to be called. -/
  sending : List Pdu
  /-- Not part of the program: the pointers libcoap has got and not handed back,
      with the data of their requests. -/
  held : List (UInt64 × List UInt8)
  /-- Not part of the program: how many bodies have been passed on. -/
  bodies : Nat

namespace Bodies

inductive Label where
  | beginRequest (method : Method) (id : RequestId) (data : List UInt8) (token : Token)
      (a : Allocation) (token_added : Bool)
  /-- The `i`-th of the requests that have been begun is sent. -/
  | coapSend (i : Nat)
  /-- libcoap hands a pointer back. -/
  | release (app_ptr : UInt64)
  | setOptions (opts : Options) (answer : Lookup)
  | message (session : Nat) (sent : Bool) (m : Received)

def new (impl : Impl) : Bodies := ⟨impl, [], [], 0⟩

/-- Request data that is not empty is passed on. -/
def handOut (s : Bodies) (data : List UInt8) : Bodies :=
  if data.length > 0 then
    { s with
      held := s.held ++ [(toAppPtr s.impl.large_data.id_counter, data)]
      bodies := s.bodies + 1 }
  else s

def step (s : Bodies) : Label → Option Bodies
  | .beginRequest method id data token a token_added =>
      s.impl.session.bind fun n =>
        if s.impl.tokenFresh n token then
          let begun := s.impl.beginRequest n method id data token a token_added
          some { s.handOut data with impl := begun.1, sending := s.sending ++ [begun.2] }
        else none
  | .coapSend i =>
      s.sending[i]?.map fun pdu =>
        { s with impl := s.impl.coapSend pdu, sending := s.sending.eraseIdx i }
  | .release app_ptr =>
      if app_ptr ∈ s.held.map (·.1) then
        some { s with
          impl := s.impl.FreeLargeDataCallback app_ptr
          held := s.held.filter fun x => x.1 != app_ptr }
      else none
  | .setOptions opts answer => some { s with impl := s.impl.setOptions opts answer }
  | .message session sent m =>
      if session < s.impl.sessions then
        some { s with impl := (s.impl.messageCallback sent m).1 }
      else none

def next (s : Bodies) (l : Label) : Option Bodies :=
  if s.impl.terminated then none else s.step l

theorem next_eq_some {s s' : Bodies} {l : Label} :
    s.next l = some s' ↔ s.impl.terminated = false ∧ s.step l = some s' := by
  unfold next
  rw [Option.ite_none_left_eq_some, Bool.not_eq_true]

end Bodies

def bodiesSystem : System Bodies Bodies.Label where
  init := fun s => ∃ is_mcast answer, s = Bodies.new (Impl.new is_mcast answer)
  next := Bodies.next

/-! ### The property -/

namespace Bodies

/-- The ids in the buffer. -/
def keys (s : Bodies) : List Nat := s.impl.large_data.buffer.map (·.1)

/-- The buffer has what libcoap holds, each body with the data of its own
    request, and no id twice. -/
structure Intact (s : Bodies) : Prop where
  buffer : s.impl.large_data.buffer = s.held.map fun x => (ofAppPtr x.1, x.2)
  distinct : s.keys.Nodup

/-- A request with data gets an id that is not in the buffer, under which its
    own data is inserted. -/
def InsertsOwn (s : Bodies) (l : Label) (s' : Bodies) : Prop :=
  ∀ method id data token a token_added, l = .beginRequest method id data token a token_added →
    data.length > 0 →
      s.impl.large_data.id_counter ∉ s.keys ∧
      s'.impl.large_data.buffer =
        s.impl.large_data.buffer ++ [(s.impl.large_data.id_counter, data)]

/-- A pointer that is handed back takes one body out, the one that libcoap held
    for it. -/
def ReleasesOwn (s : Bodies) (l : Label) (s' : Bodies) : Prop :=
  ∀ app_ptr, l = .release app_ptr → ∃ before data after,
    (app_ptr, data) ∈ s.held ∧
    s.impl.large_data.buffer = before ++ (ofAppPtr app_ptr, data) :: after ∧
    s'.impl.large_data.buffer = before ++ after

/-! ### The invariant -/

/-- The counter has not come around, and the ids in use are behind it. -/
structure Inv (s : Bodies) : Prop where
  buffer : s.impl.large_data.buffer = s.held.map fun x => (ofAppPtr x.1, x.2)
  distinct : s.keys.Nodup
  counter : s.impl.large_data.id_counter = s.bodies
  past : ∀ key ∈ s.keys, key < s.bodies
  within : s.bodies < UInt64.size

theorem Inv.intact {s : Bodies} (h : s.Inv) : s.Intact := ⟨h.buffer, h.distinct⟩

theorem Inv.new (is_mcast : Bool) (answer : Lookup) :
    (Bodies.new (Impl.new is_mcast answer)).Inv := by
  have hdata : (Bodies.new (Impl.new is_mcast answer)).impl.large_data = ⟨0, []⟩ :=
    (Impl.createSession_frame _ answer).2.2.1
  have hkeys : (Bodies.new (Impl.new is_mcast answer)).keys = [] := by
    unfold keys
    rw [hdata]
    rfl
  constructor
  case buffer =>
    rw [hdata]
    rfl
  case distinct =>
    rw [hkeys]
    exact List.nodup_nil
  case counter =>
    rw [hdata]
    rfl
  case past =>
    rw [hkeys]
    intro key hkey
    cases hkey
  case within =>
    show 0 < UInt64.size
    decide

/-- A step that concerns neither the bodies nor what libcoap holds. -/
theorem Inv.frame {s s' : Bodies} (h : s.Inv) (hdata : s'.impl.large_data = s.impl.large_data)
    (hheld : s'.held = s.held) (hbodies : s'.bodies = s.bodies) : s'.Inv := by
  have hkeys : s'.keys = s.keys := by
    unfold keys
    rw [hdata]
  constructor
  case buffer =>
    rw [hdata, hheld]
    exact h.buffer
  case distinct =>
    rw [hkeys]
    exact h.distinct
  case counter =>
    rw [hdata, hbodies]
    exact h.counter
  case past =>
    rw [hkeys, hbodies]
    exact h.past
  case within =>
    rw [hbodies]
    exact h.within

/-! ### Bodies come and go -/

theorem emplace_fresh {d : LargeData} (h : d.id_counter ∉ d.buffer.map (·.1)) (data : List UInt8) :
    (d.emplace data).buffer = d.buffer ++ [(d.id_counter, data)] := by
  have hnone : ¬(d.buffer.any fun x => x.1 == d.id_counter) = true := by
    rw [List.any_eq_true]
    intro hany
    obtain ⟨x, hx, heq⟩ := hany
    exact h (List.mem_map.mpr ⟨x, hx, beq_iff_eq.mp heq⟩)
  unfold LargeData.emplace
  exact if_neg hnone

theorem Inv.fresh {s : Bodies} (h : s.Inv) : s.impl.large_data.id_counter ∉ s.keys := by
  intro hmem
  have hlt := h.past _ hmem
  rw [h.counter] at hlt
  omega

theorem ofAppPtr_toAppPtr {id : Nat} (h : id < UInt64.size) : ofAppPtr (toAppPtr id) = id := by
  unfold ofAppPtr toAppPtr
  rw [UInt64.toNat_ofNat']
  exact Nat.mod_eq_of_lt h

/-- A body that is passed on. -/
theorem Inv.emplace {s s' : Bodies} (h : s.Inv) {data : List UInt8}
    (hroom : s.bodies + 1 < UInt64.size)
    (hdata : s'.impl.large_data = s.impl.large_data.emplace data)
    (hheld : s'.held = s.held ++ [(toAppPtr s.impl.large_data.id_counter, data)])
    (hbodies : s'.bodies = s.bodies + 1) : s'.Inv := by
  have hbuffer : s'.impl.large_data.buffer =
      s.impl.large_data.buffer ++ [(s.impl.large_data.id_counter, data)] := by
    rw [hdata]
    exact emplace_fresh h.fresh data
  have hkeys : s'.keys = s.keys ++ [s.impl.large_data.id_counter] := by
    unfold keys
    rw [hbuffer, List.map_append]
    rfl
  have hid : ofAppPtr (toAppPtr s.impl.large_data.id_counter) = s.impl.large_data.id_counter := by
    apply ofAppPtr_toAppPtr
    rw [h.counter]
    exact h.within
  constructor
  case buffer =>
    rw [hbuffer, hheld, List.map_append, ← h.buffer, List.map_singleton, hid]
  case distinct =>
    rw [hkeys, List.nodup_append]
    refine ⟨h.distinct, List.nodup_singleton _, ?_⟩
    -- the new id is past all ids in use
    intro key hkey key' hkey' heq
    rw [heq, List.mem_singleton.mp hkey'] at hkey
    exact h.fresh hkey
  case counter =>
    rw [hdata, hbodies]
    -- there is room, so the counter does not come around
    show (s.impl.large_data.id_counter + 1) % UInt64.size = s.bodies + 1
    rw [h.counter]
    exact Nat.mod_eq_of_lt hroom
  case past =>
    rw [hkeys, hbodies]
    intro key hkey
    rcases List.mem_append.mp hkey with hold | hnew
    · exact Nat.lt_succ_of_lt (h.past key hold)
    · rw [List.mem_singleton.mp hnew, h.counter]
      exact Nat.lt_succ_self _
  case within =>
    rw [hbodies]
    exact hroom

/-- The bodies that stay when a pointer is handed back. -/
theorem released_buffer (held : List (UInt64 × List UInt8)) (app_ptr : UInt64) :
    ((held.map fun x => (ofAppPtr x.1, x.2)).filter fun x => x.1 != ofAppPtr app_ptr) =
      (held.filter fun x => x.1 != app_ptr).map fun x => (ofAppPtr x.1, x.2) := by
  rw [List.filter_map]
  congr 1
  apply List.filter_congr
  intro x _
  -- a pointer and its id say the same, also the null pointer and 0
  have hinj : ofAppPtr x.1 = ofAppPtr app_ptr ↔ x.1 = app_ptr := UInt64.toNat_inj
  show (ofAppPtr x.1 != ofAppPtr app_ptr) = (x.1 != app_ptr)
  rw [Bool.eq_iff_iff, bne_iff_ne, bne_iff_ne, ne_eq, ne_eq, hinj]

theorem Inv.release {s s' : Bodies} (h : s.Inv) {app_ptr : UInt64}
    (himpl : s'.impl = s.impl.FreeLargeDataCallback app_ptr)
    (hheld : s'.held = s.held.filter fun x => x.1 != app_ptr) (hbodies : s'.bodies = s.bodies) :
    s'.Inv := by
  have hbuffer : s'.impl.large_data.buffer =
      s.impl.large_data.buffer.filter fun x => x.1 != ofAppPtr app_ptr := by
    rw [himpl]
    rfl
  have hcounter : s'.impl.large_data.id_counter = s.impl.large_data.id_counter := by
    rw [himpl]
    rfl
  have hsub : s'.keys.Sublist s.keys := by
    unfold keys
    rw [hbuffer]
    exact List.filter_sublist.map _
  constructor
  case buffer =>
    rw [hbuffer, hheld, h.buffer]
    exact released_buffer s.held app_ptr
  case distinct => exact h.distinct.sublist hsub
  case counter =>
    rw [hcounter, hbodies]
    exact h.counter
  case past =>
    rw [hbodies]
    exact fun key hkey => h.past key (hsub.subset hkey)
  case within =>
    rw [hbodies]
    exact h.within

/-! ### The steps -/

/-- There is an id for another body, if the step passes one on. -/
def hasRoom (s : Bodies) : Label → Prop
  | .beginRequest _ _ data _ _ _ => data.length > 0 → s.bodies + 1 < UInt64.size
  | _ => True

/-- What `sendRequest` does to the bodies before it sends. -/
theorem beginRequest_large_data (s : Impl) (n : Nat) (method : Method) (id : RequestId)
    (data : List UInt8) (token : Token) (a : Allocation) (token_added : Bool) :
    (s.beginRequest n method id data token a token_added).1.large_data =
      if data.length > 0 then s.large_data.emplace data else s.large_data := by
  unfold Impl.beginRequest
  by_cases hdata : data.length > 0
  · simp only [if_pos hdata]
  · simp only [if_neg hdata]

/-- A request is begun, with a body or without. -/
theorem next_beginRequest {s s' : Bodies} {method : Method} {id : RequestId} {data : List UInt8}
    {token : Token} {a : Allocation} {token_added : Bool}
    (hn : s.next (.beginRequest method id data token a token_added) = some s') :
    s'.impl.large_data =
        (if data.length > 0 then s.impl.large_data.emplace data else s.impl.large_data) ∧
      s'.held = (s.handOut data).held ∧ s'.bodies = (s.handOut data).bodies := by
  obtain ⟨_, hn⟩ := next_eq_some.mp hn
  obtain ⟨n, _, hn⟩ := Option.bind_eq_some_iff.mp hn
  obtain ⟨_, heq⟩ := Option.ite_none_right_eq_some.mp hn
  rw [← Option.some.inj heq]
  exact ⟨beginRequest_large_data s.impl n method id data token a token_added, rfl, rfl⟩

theorem next_release {s s' : Bodies} {app_ptr : UInt64}
    (hn : s.next (.release app_ptr) = some s') :
    app_ptr ∈ s.held.map (·.1) ∧ s'.impl = s.impl.FreeLargeDataCallback app_ptr ∧
      s'.held = (s.held.filter fun x => x.1 != app_ptr) ∧ s'.bodies = s.bodies := by
  obtain ⟨_, hn⟩ := next_eq_some.mp hn
  obtain ⟨hmem, heq⟩ := Option.ite_none_right_eq_some.mp hn
  rw [← Option.some.inj heq]
  exact ⟨hmem, rfl, rfl, rfl⟩

theorem messageCallback_large_data (s : Impl) (sent : Bool) (m : Received) :
    (s.messageCallback sent m).1.large_data = s.large_data := by
  obtain ⟨emitted, heq | heq⟩ := messageCallback_cases s sent m
  · rw [heq]
  · rw [heq]
    rfl

theorem Inv.next {s s' : Bodies} {l : Label} (h : s.Inv) (hroom : s.hasRoom l)
    (hn : s.next l = some s') : s'.Inv := by
  cases l with
  | beginRequest method id data token a token_added =>
    obtain ⟨hdata, hheld, hbodies⟩ := next_beginRequest hn
    unfold handOut at hheld hbodies
    -- an empty body is not passed on at all
    by_cases hsome : data.length > 0
    · rw [if_pos hsome] at hdata hheld hbodies
      exact h.emplace (hroom hsome) hdata hheld hbodies
    · rw [if_neg hsome] at hdata hheld hbodies
      exact h.frame hdata hheld hbodies
  | coapSend i =>
    obtain ⟨_, hn⟩ := next_eq_some.mp hn
    obtain ⟨pdu, _, rfl⟩ := Option.map_eq_some_iff.mp hn
    exact h.frame rfl rfl rfl
  | release app_ptr =>
    obtain ⟨_, himpl, hheld, hbodies⟩ := next_release hn
    exact h.release himpl hheld hbodies
  | setOptions opts answer =>
    obtain ⟨_, heq⟩ := next_eq_some.mp hn
    obtain rfl := Option.some.inj heq
    exact h.frame (Impl.createSession_frame _ answer).2.2.1 rfl rfl
  | message session sent m =>
    obtain ⟨_, hn⟩ := next_eq_some.mp hn
    obtain ⟨_, heq⟩ := Option.ite_none_right_eq_some.mp hn
    obtain rfl := Option.some.inj heq
    exact h.frame (messageCallback_large_data s.impl sent m) rfl rfl

theorem Inv.insertsOwn {s s' : Bodies} {l : Label} (h : s.Inv) (hn : s.next l = some s') :
    InsertsOwn s l s' := by
  intro method id data token a token_added hl hsome
  subst hl
  obtain ⟨hdata, _, _⟩ := next_beginRequest hn
  rw [if_pos hsome] at hdata
  refine ⟨h.fresh, ?_⟩
  rw [hdata]
  exact emplace_fresh h.fresh data

/-- Where no id occurs twice, taking out by id takes out one entry. -/
theorem filter_key {before after : List (Nat × List UInt8)} {key : Nat} {data : List UInt8}
    (h : ((before ++ (key, data) :: after).map (·.1)).Nodup) :
    ((before ++ (key, data) :: after).filter fun x => x.1 != key) = before ++ after := by
  rw [List.map_append, List.map_cons, List.nodup_append, List.nodup_cons] at h
  obtain ⟨_, ⟨hafter, _⟩, hbefore⟩ := h
  have hkeep : ∀ l : List (Nat × List UInt8), key ∉ l.map (·.1) →
      (l.filter fun x => x.1 != key) = l := by
    intro l hl
    rw [List.filter_eq_self]
    intro x hx
    rw [bne_iff_ne]
    intro heq
    exact hl (List.mem_map.mpr ⟨x, hx, heq⟩)
  have hbefore' : key ∉ before.map (·.1) :=
    fun hmem => hbefore key hmem key List.mem_cons_self rfl
  rw [List.filter_append, List.filter_cons, hkeep before hbefore', hkeep after hafter]
  simp

theorem Inv.releasesOwn {s s' : Bodies} {l : Label} (h : s.Inv) (hn : s.next l = some s') :
    ReleasesOwn s l s' := by
  intro app_ptr hl
  subst hl
  obtain ⟨hmem, himpl, _, _⟩ := next_release hn
  obtain ⟨x, hx, rfl⟩ := List.mem_map.mp hmem
  -- what libcoap holds is in the buffer, under the id of its pointer
  have hstored : (ofAppPtr x.1, x.2) ∈ s.impl.large_data.buffer := by
    rw [h.buffer]
    exact List.mem_map.mpr ⟨x, hx, rfl⟩
  obtain ⟨before, after, hsplit⟩ := List.append_of_mem hstored
  refine ⟨before, x.2, after, hx, hsplit, ?_⟩
  have hdistinct := h.distinct
  unfold keys at hdistinct
  rw [hsplit] at hdistinct
  rw [himpl]
  show (s.impl.large_data.buffer.filter fun y => y.1 != ofAppPtr x.1) = before ++ after
  rw [hsplit]
  exact filter_key hdistinct

/-! ### Runs -/

theorem bodies_le {s s' : Bodies} {l : Label} (hn : s.next l = some s') : s.bodies ≤ s'.bodies := by
  cases l with
  | beginRequest method id data token a token_added =>
    obtain ⟨_, _, hbodies⟩ := next_beginRequest hn
    rw [hbodies]
    unfold handOut
    split
    · exact Nat.le_succ _
    · exact Nat.le_refl _
  | coapSend i =>
    obtain ⟨_, hn⟩ := next_eq_some.mp hn
    obtain ⟨pdu, _, rfl⟩ := Option.map_eq_some_iff.mp hn
    exact Nat.le_refl _
  | release app_ptr => exact Nat.le_of_eq (next_release hn).2.2.2.symm
  | setOptions opts answer =>
    obtain ⟨_, heq⟩ := next_eq_some.mp hn
    obtain rfl := Option.some.inj heq
    exact Nat.le_refl _
  | message session sent m =>
    obtain ⟨_, hn⟩ := next_eq_some.mp hn
    obtain ⟨_, heq⟩ := Option.ite_none_right_eq_some.mp hn
    obtain rfl := Option.some.inj heq
    exact Nat.le_refl _

/-- When there were few bodies in the end, there was always an id for another
    one. -/
theorem eachStep_hasRoom {s : Bodies} (r : Run bodiesSystem s) (h : s.bodies < UInt64.size) :
    r.EachStep hasRoom := by
  induction r with
  | start s hs => trivial
  | @step s r l s' hn ih =>
    have hle := bodies_le hn
    refine ⟨ih (Nat.lt_of_le_of_lt hle h), ?_⟩
    cases l with
    | beginRequest method id data token a token_added =>
      intro hsome
      obtain ⟨_, _, hbodies⟩ := next_beginRequest hn
      unfold handOut at hbodies
      rw [if_pos hsome] at hbodies
      rw [hbodies] at h
      exact h
    | _ => trivial

end Bodies

/-- **Bodies stay intact while libcoap uses them**: with fewer than 2⁶⁴ of them,
    the buffer has those that were passed on and not released, each under an id
    of its own and with its own data. A new one is inserted beside them, and a
    release takes out its own. -/
theorem bodies_intact {s : Bodies} (r : Run bodiesSystem s) (h : s.bodies < UInt64.size) :
    r.Throughout Bodies.Intact ∧ r.Ensures Bodies.InsertsOwn ∧ r.Ensures Bodies.ReleasesOwn := by
  have hroom := Bodies.eachStep_hasRoom r h
  have hinit : ∀ s, bodiesSystem.init s → s.Inv := by
    intro s hs
    obtain ⟨is_mcast, answer, rfl⟩ := hs
    exact .new is_mcast answer
  have hstep : ∀ s l s', Bodies.Inv s → s.hasRoom l → bodiesSystem.next s l = some s' → s'.Inv :=
    fun s l s' hI hC hn => hI.next hC hn
  refine ⟨?_, ?_, ?_⟩
  · exact (Run.guarded hinit hstep r hroom).mono fun s hI => hI.intact
  · exact Run.guarded_ensures hinit hstep (fun s l s' hI _ hn => hI.insertsOwn hn) r hroom
  · exact Run.guarded_ensures hinit hstep (fun s l s' hI _ hn => hI.releasesOwn hn) r hroom

/-- Two requests. The body of the first is released within the call, with a
    null pointer, and the body of the second is still there. -/
theorem bodies_intact_of_two :
    ∃ (s : Bodies) (r : Run bodiesSystem s), s.bodies = 2 ∧
      s.impl.large_data.buffer = [(1, [0x42])] ∧
      r.Throughout Bodies.Intact ∧ r.Ensures Bodies.InsertsOwn ∧ r.Ensures Bodies.ReleasesOwn := by
  obtain ⟨s, r, _, hs⟩ := Run.exists_of_check bodiesSystem ⟨false, .found false true, rfl⟩
    [.beginRequest .m_put 1 [0x41] [1] .granted true, .release 0, .coapSend 0,
      .beginRequest .m_put 2 [0x42] [2] .granted true]
    (fun _ _ => true) (fun s => s.bodies = 2 && s.impl.large_data.buffer = [(1, [0x42])])
    (by decide)
  simp only [Bool.and_eq_true, decide_eq_true_eq] at hs
  have hfew : s.bodies < UInt64.size := by
    rw [hs.1]
    decide
  exact ⟨s, r, hs.1, hs.2, bodies_intact r hfew⟩

end CoapClient

end DeviceTester
