import DeviceTester.Framework.Run
import DeviceTester.TokenTable

/-! # The CoAP client

  `CoapClient::Impl` of `libcon/src/coap_client.cpp`: `sendRequest` obtains a
  token from the session and tracks it, `createSession` replaces the session,
  and `messageCallback` looks up the token of what libcoap has received.

  There is one table for all sessions, and nothing takes the tokens of a
  session out when it is replaced. libcoap gives out distinct tokens within a
  session, and the same ones again in another.

  The options of a request and what is printed are not part of the model. A
  request without a session is not a step. `createSession` crashes where libcoap
  cannot make a session, and that ends the program.
-/

namespace DeviceTester

open LTS

namespace CoapClient

/-! ### State -/

abbrev RequestId := UInt32

structure Options where
  server_uri : String
  server_port : UInt16
  deriving DecidableEq, Repr

inductive Method where
  | m_get
  | m_post
  | m_put
  | m_delete
  deriving DecidableEq, Repr

/-- What the table keeps with a token: the id, and, not part of the program,
    the number of the session that gave out the token. -/
structure Tag where
  id : RequestId
  session : Nat
  deriving DecidableEq, Repr

/-- A call of `sendRequest`, not part of the program. -/
structure Request where
  session : Nat
  token : Token
  id : RequestId
  deriving DecidableEq, Repr

/-- `large_data_`: the bodies libcoap still uses. -/
structure LargeData where
  id_counter : Nat
  buffer : List (Nat × List UInt8)
  deriving DecidableEq, Repr

/-- `large_data_.buffer.emplace(large_data_.id_counter++, data)`, which keeps an
    entry that is there already. -/
def LargeData.emplace (d : LargeData) (data : List UInt8) : LargeData where
  id_counter := (d.id_counter + 1) % UInt64.size
  buffer :=
    if d.buffer.any fun x => x.1 == d.id_counter then d.buffer
    else d.buffer ++ [(d.id_counter, data)]

/-- What is handed to `coap_send`. -/
structure Pdu where
  session : Nat
  code : UInt8
  /-- `none` when `coap_add_token` has failed. -/
  token : Option Token
  /-- The key of the body, when there is one. -/
  body : Option Nat
  deriving DecidableEq, Repr

structure Impl where
  opts : Options
  /-- The number of the current session, `none` for a null pointer. -/
  session : Option Nat
  /-- How many sessions have been made. -/
  sessions : Nat
  is_mcast : Bool
  tracked : TokenTable Tag
  obs_started : Int
  doing_observe : Int
  large_data : LargeData
  sent : List Pdu
  /-- What `rx_signal_` has been emitted with. -/
  emitted : List (RequestId × List UInt8)
  requests : List Request
  /-- The program has crashed. -/
  terminated : Bool

/-! ### Sessions and requests -/

/-- What resolving the server and creating the session come to. -/
inductive Lookup where
  | notFound
  | found (is_multicast : Bool) (made : Bool)
  deriving DecidableEq, Repr

namespace Impl

def createSession (s : Impl) : Lookup → Impl
  | .notFound => s
  | .found is_multicast true =>
      { s with
        is_mcast := is_multicast
        session := some s.sessions
        sessions := s.sessions + 1 }
  -- `coap_session_set_app_data` is called with a null pointer
  | .found is_multicast false => { s with is_mcast := is_multicast, terminated := true }

/-- What `createSession` leaves alone. -/
theorem createSession_frame (s : Impl) (answer : Lookup) :
    let s' := s.createSession answer
    s'.opts = s.opts ∧ s'.tracked = s.tracked ∧ s'.large_data = s.large_data ∧
      s'.emitted = s.emitted ∧ s'.requests = s.requests := by
  cases answer with
  | notFound => exact ⟨rfl, rfl, rfl, rfl, rfl⟩
  | found is_multicast made =>
    cases made with
    | false => exact ⟨rfl, rfl, rfl, rfl, rfl⟩
    | true => exact ⟨rfl, rfl, rfl, rfl, rfl⟩

/-- `is_mcast_` has no value until a server is found. -/
def new (is_mcast : Bool) (answer : Lookup) : Impl :=
  createSession
    { opts := ⟨"fe80::7ae3:6dff:fe09:8188", 5683⟩
      session := none
      sessions := 0
      is_mcast := is_mcast
      tracked := .new
      obs_started := 0
      doing_observe := 0
      large_data := ⟨0, []⟩
      sent := []
      emitted := []
      requests := []
      terminated := false }
    answer

def setOptions (s : Impl) (opts : Options) (answer : Lookup) : Impl :=
  createSession { s with opts := opts } answer

/-- The codes of the four methods. -/
def requestCode : Method → UInt8
  | .m_get => 1
  | .m_post => 2
  | .m_put => 3
  | .m_delete => 4

/-- `sendRequest` on the session `n`, which gives out `token`. The token is
    tracked before it is known whether it can be added and sent. -/
def sendRequest (s : Impl) (n : Nat) (method : Method) (id : RequestId) (data : List UInt8)
    (token : Token) (a : Allocation) (token_added : Bool) : Impl :=
  let s := { s with
    tracked := s.tracked.track_new_token token ⟨id, n⟩ s.doing_observe a
    requests := s.requests ++ [Request.mk n token id] }
  let pdu : Pdu := ⟨n, requestCode method, if token_added then some token else none, none⟩
  -- the body has to live until libcoap calls `freeLargeData`
  if data.length > 0 then
    { s with
      sent := s.sent ++ [{ pdu with body := some s.large_data.id_counter }]
      large_data := s.large_data.emplace data }
  else { s with sent := s.sent ++ [pdu] }

/-- `freeLargeData` -/
def freeLargeData (s : Impl) (key : Nat) : Impl :=
  { s with large_data := { s.large_data with
      buffer := s.large_data.buffer.filter fun x => x.1 != key } }

end Impl

/-! ### Responses -/

inductive MessageType where
  | con
  | non
  | ack
  | rst
  deriving DecidableEq, Repr

structure Block where
  num : Nat
  more : Bool
  deriving DecidableEq, Repr

/-- What `messageCallback` reads of a received message. -/
structure Received where
  type : MessageType
  code : UInt8
  token : Token
  /-- What `coap_get_data_large` finds. -/
  data : Option (List UInt8)
  block2 : Option Block
  deriving DecidableEq, Repr

/-- `COAP_RESPONSE_CLASS` -/
def Received.responseClass (m : Received) : UInt8 := m.code >>> 5

inductive Response where
  | fail
  | ok
  deriving DecidableEq, Repr

namespace Impl

def flush (s : Impl) (token : Token) : Impl :=
  { s with tracked := s.tracked.track_flush_token s.obs_started token }

/-- `sent` tells whether libcoap passes the request that is answered. -/
def messageCallback (s : Impl) (sent : Bool) (m : Received) : Impl × Response :=
  match s.tracked.track_check_token m.token with
  | none =>
      -- a RST is sent for a message nobody has asked for
      if !sent && (m.type = .con ∨ m.type = .non) then (s, .fail) else (s, .ok)
  | some tag =>
      if m.type = .rst then (s, .ok)
      else if m.responseClass = 2 then
        let s := { s with emitted := s.emitted ++ [(tag.id, m.data.getD [])] }
        -- the token is kept for the blocks that are still to come, and for multicast
        match m.block2 with
        | some block => (if block.more then s else s.flush m.token, .ok)
        | none => (if s.is_mcast then s else s.flush m.token, .ok)
      else (if s.is_mcast then s else s.flush m.token, .ok)

end Impl

/-! ### The client as a system -/

inductive Label where
  | setOptions (opts : Options) (answer : Lookup)
  | sendRequest (method : Method) (id : RequestId) (data : List UInt8) (token : Token)
      (a : Allocation) (token_added : Bool)
  /-- libcoap calls back for a message on a session. -/
  | message (session : Nat) (sent : Bool) (m : Received)
  | freeLargeData (key : Nat)

/-- The session has not given out the token before. -/
def Impl.tokenFresh (s : Impl) (n : Nat) (token : Token) : Bool :=
  s.requests.all fun q => !(q.session == n && q.token == token)

def Impl.step (s : Impl) : Label → Option Impl
  | .setOptions opts answer => some (s.setOptions opts answer)
  | .sendRequest method id data token a token_added =>
      s.session.bind fun n =>
        if s.tokenFresh n token then some (s.sendRequest n method id data token a token_added)
        else none
  | .message session sent m =>
      if session < s.sessions then some (s.messageCallback sent m).1 else none
  | .freeLargeData key => some (s.freeLargeData key)

def Impl.next (s : Impl) (l : Label) : Option Impl :=
  -- a crash has been the last step
  if s.terminated then none else s.step l

theorem Impl.next_eq_some {s s' : Impl} {l : Label} :
    s.next l = some s' ↔ s.terminated = false ∧ s.step l = some s' := by
  unfold Impl.next
  rw [Option.ite_none_left_eq_some, Bool.not_eq_true]

def system : System Impl Label where
  init := fun s => ∃ is_mcast answer, s = Impl.new is_mcast answer
  next := Impl.next

/-! ### What a message does

    Everything that is said of a message is derived from
    `messageCallback_untracked` and `messageCallback_tracked`. -/

/-- The message is one whose payload is passed on when its token is tracked. -/
def Received.passedOn (m : Received) : Bool :=
  decide (m.type ≠ .rst) && decide (m.responseClass = 2)

/-- The payload as it is passed on. -/
def Received.payload (m : Received) : List UInt8 := m.data.getD []

/-- The message is one whose token is flushed when it is tracked. A class 2
    message with a Block2 option is asked for the blocks to come, any other one
    for whether the destination is multicast. -/
def Received.flushes (m : Received) (is_mcast : Bool) : Bool :=
  decide (m.type ≠ .rst) &&
    match m.block2 with
    | some block => if m.responseClass = 2 then !block.more else !is_mcast
    | none => !is_mcast

/-- The message is one libcoap answers with a reset when nobody has asked for
    it. -/
def Received.rejected (m : Received) (sent : Bool) : Bool :=
  !sent && (decide (m.type = .con) || decide (m.type = .non))

/-- The state with a payload passed on. -/
def Impl.emit (s : Impl) (id : RequestId) (m : Received) : Impl :=
  if m.passedOn then { s with emitted := s.emitted ++ [(id, m.payload)] } else s

theorem messageCallback_untracked {s : Impl} {m : Received} (sent : Bool)
    (h : s.tracked.track_check_token m.token = none) :
    s.messageCallback sent m = (s, if m.rejected sent then .fail else .ok) := by
  unfold Impl.messageCallback Received.rejected
  rw [h]
  simp only
  by_cases hsent : sent = true
  · simp [hsent]
  · cases m.type <;> simp [hsent]

theorem messageCallback_tracked {s : Impl} {m : Received} {tag : Tag} (sent : Bool)
    (h : s.tracked.track_check_token m.token = some tag) :
    s.messageCallback sent m =
      (if m.flushes s.is_mcast then (s.emit tag.id m).flush m.token else s.emit tag.id m, .ok) := by
  unfold Impl.messageCallback Impl.emit Received.passedOn Received.flushes Received.payload
  rw [h]
  by_cases hrst : m.type = .rst
  · simp [hrst]
  · by_cases hclass : m.responseClass = 2
    · cases m.block2 with
      | none => cases hmcast : s.is_mcast <;> simp [hrst, hclass]
      | some block => cases hmore : block.more <;> simp [hrst, hclass, hmore]
    · cases m.block2 with
      | none => cases hmcast : s.is_mcast <;> simp [hrst, hclass]
      | some block => cases hmcast : s.is_mcast <;> simp [hrst, hclass]

/-- A payload that is passed on leaves the rest alone. -/
@[simp] theorem Impl.emit_tracked (s : Impl) (id : RequestId) (m : Received) :
    (s.emit id m).tracked = s.tracked := by
  unfold Impl.emit
  split
  · rfl
  · rfl

@[simp] theorem Impl.emit_obs_started (s : Impl) (id : RequestId) (m : Received) :
    (s.emit id m).obs_started = s.obs_started := by
  unfold Impl.emit
  split
  · rfl
  · rfl

theorem Impl.emit_emitted (s : Impl) (id : RequestId) (m : Received) :
    (s.emit id m).emitted = s.emitted ++ if m.passedOn then [(id, m.payload)] else [] := by
  unfold Impl.emit
  split
  · rfl
  · exact (List.append_nil _).symm

/-- What is emitted for a message. -/
theorem messageCallback_emitted (s : Impl) (sent : Bool) (m : Received) :
    (s.messageCallback sent m).1.emitted = s.emitted ++
      match s.tracked.track_check_token m.token with
      | some tag => if m.passedOn then [(tag.id, m.payload)] else []
      | none => [] := by
  cases h : s.tracked.track_check_token m.token with
  | none =>
    rw [messageCallback_untracked sent h]
    exact (List.append_nil _).symm
  | some tag =>
    rw [messageCallback_tracked sent h]
    split
    · exact s.emit_emitted tag.id m
    · exact s.emit_emitted tag.id m

/-- A message leaves the table as it is, or flushes its own token. -/
theorem messageCallback_cases (s : Impl) (sent : Bool) (m : Received) :
    ∃ emitted, (s.messageCallback sent m).1 = { s with emitted := emitted } ∨
      (s.messageCallback sent m).1 = ({ s with emitted := emitted } : Impl).flush m.token := by
  cases h : s.tracked.track_check_token m.token with
  | none =>
    rw [messageCallback_untracked sent h]
    exact ⟨s.emitted, Or.inl rfl⟩
  | some tag =>
    have hemit : s.emit tag.id m = { s with emitted := (s.emit tag.id m).emitted } := by
      unfold Impl.emit
      split
      · rfl
      · rfl
    rw [messageCallback_tracked sent h]
    refine ⟨(s.emit tag.id m).emitted, ?_⟩
    split
    · exact Or.inr (congrArg (fun t => t.flush m.token) hemit)
    · exact Or.inl hemit

end CoapClient

end DeviceTester
