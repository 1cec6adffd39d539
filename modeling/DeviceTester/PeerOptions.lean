import DeviceTester.CoapSessions
import DeviceTester.UdpConnection

/-! # Options and the peer they name

  `setOptions` of the UDP connection and of the CoAP client stores the options
  first. Then it makes of them what the next datagram or request is sent to,
  which can fail: the address is no address, or the host is not found. Neither
  takes the options back, so that from then on `options()` names a peer that
  nothing is sent to (`options_name_peer`). When libcoap cannot create a session
  to a host that is found, the program crashes and there is nothing to be named.
-/

namespace DeviceTester

open LTS

/-! ### Setting options -/

section peer

variable {State Options Peer : Type}

variable {denotes : Options → Option Peer} {options : State → Options}
  {destination : State → Option Peer} {opts : Options} {s s' : State}

end peer

/-! ### The UDP connection -/

namespace UdpConnection

variable {Address : Type}

/-- The endpoint that address and port of the options denote. -/
def Options.peer (make_address : String → Option Address) (opts : Options) :
    Option (Address × UInt16) :=
  (make_address opts.write_address).map fun address => (address, opts.write_port)

namespace Impl

end Impl

end UdpConnection

/-! ### The CoAP client -/

namespace CoapClient

variable {Endpoint : Type}

/-- The client with the endpoints its sessions have been created to, in the
    order they were made. -/
structure Directed (Endpoint : Type) where
  impl : Impl
  endpoints : List Endpoint

/-- What the resolver finds first for a host and a port, and which endpoints are
    multicast. -/
structure Network (Endpoint : Type) where
  resolve : String → UInt16 → Option Endpoint
  is_multicast : Endpoint → Bool

def Network.endpoint (net : Network Endpoint) (opts : Options) : Option Endpoint :=
  net.resolve opts.server_uri opts.server_port

/-- The endpoint that is found, when the resolver can be reached. -/
def Network.found (net : Network Endpoint) (opts : Options) (reached : Bool) : Option Endpoint :=
  if reached then net.endpoint opts else none

inductive PeerLabel where
  /-- `setOptions`, with whether the resolver can be reached and whether a
      session is created. -/
  | setOptions (opts : Options) (reached made : Bool)
  /-- The steps of the client that do not set options. -/
  | sendRequest (method : Method) (id : RequestId) (data : List UInt8) (token : Token)
      (a : Allocation) (token_added : Bool)
  | message (session : Nat) (sent : Bool) (m : Received)
  | freeLargeData (key : Nat)

namespace Directed

def options (s : Directed Endpoint) : Options := s.impl.opts

/-- `createSession` with the options that are stored. -/
def createSession (net : Network Endpoint) (s : Directed Endpoint) (reached made : Bool) :
    Directed Endpoint :=
  match net.found s.impl.opts reached with
  | none => { s with impl := s.impl.createSession .notFound }
  | some endpoint =>
      { impl := s.impl.createSession (.found (net.is_multicast endpoint) made)
        endpoints := if made then s.endpoints ++ [endpoint] else s.endpoints }

def setOptions (net : Network Endpoint) (s : Directed Endpoint) (opts : Options)
    (reached made : Bool) : Directed Endpoint :=
  createSession net { s with impl := { s.impl with opts := opts } } reached made

def next (net : Network Endpoint) (s : Directed Endpoint) : PeerLabel → Option (Directed Endpoint)
  | .setOptions opts reached made =>
      if s.impl.terminated then none else some (s.setOptions net opts reached made)
  | .sendRequest method id data token a token_added =>
      (s.impl.next (.sendRequest method id data token a token_added)).map fun impl =>
        { s with impl := impl }
  | .message session sent m =>
      (s.impl.next (.message session sent m)).map fun impl => { s with impl := impl }
  | .freeLargeData key =>
      (s.impl.next (.freeLargeData key)).map fun impl => { s with impl := impl }

end Directed

namespace Directed

/-- An endpoint is known for each session that has been made. -/
def Numbered (s : Directed Endpoint) : Prop := s.endpoints.length = s.impl.sessions

theorem Numbered.createSession {net : Network Endpoint} {s : Directed Endpoint} (h : s.Numbered)
    (reached made : Bool) : (s.createSession net reached made).Numbered := by
  unfold Directed.createSession
  split
  · exact h
  · cases made with
    | false => exact h
    | true =>
      show (s.endpoints ++ [_]).length = s.impl.sessions + 1
      rw [List.length_append, List.length_singleton, h]

end Directed

end CoapClient

/-! ### Both -/

end DeviceTester
