import DeviceTester.CoapSessions

/-! # CoAP requests on one session

  A client whose options are set, any number of times, before its first request
  and not after it, and the messages it receives on the session it has then.
  Which requests are outstanding is recorded beside it: a request is from when
  libcoap has taken it until it is concluded.

  Are the tracked tokens the ones of the outstanding requests? A request is
  tracked before it is known whether it can be sent, and the branch for a reset
  forgets to flush the token (`tracks_iff`).
-/

namespace DeviceTester

open LTS

namespace CoapClient

/-! ### The table as a map -/

namespace Impl

/-- The tracked tokens, in the order they have been tracked. -/
def tokens (s : Impl) : List Token := s.tracked.entries.map (·.token)

theorem Inv.lookup_isSome {s : Impl} (h : s.Inv) (token : Token) :
    (s.tracked.track_check_token token).isSome = true ↔ token ∈ s.tokens :=
  h.holds.check_isSome token

/-- A message takes its own token out of the map, or changes nothing. -/
theorem Inv.lookup_message {s : Impl} (h : s.Inv) (hdistinct : s.tokens.Nodup) (sent : Bool)
    (m : Received) (token : Token) :
    (s.messageCallback sent m).1.tracked.track_check_token token =
      if token = m.token ∧ m.flushes s.is_mcast = true then none
      else s.tracked.track_check_token token := by
  cases hm : s.tracked.track_check_token m.token with
  | none =>
    rw [messageCallback_untracked sent hm]
    by_cases htoken : token = m.token
    · simp [htoken, hm]
    · simp [htoken]
  | some tag =>
    rw [messageCallback_tracked sent hm]
    by_cases hflush : m.flushes s.is_mcast = true
    · simp only [hflush, if_true, and_true, Impl.flush, emit_tracked, emit_obs_started,
        h.unobserved]
      exact h.holds.check_flush hdistinct m.token token
    · simp [hflush]

/-- The same of the table: the first entry with the token is taken out. -/
theorem Inv.entries_message {s : Impl} (h : s.Inv) (sent : Bool) (m : Received) :
    (s.messageCallback sent m).1.tracked.entries =
      if m.flushes s.is_mcast = true then s.tracked.entries.eraseP fun e => e.token == m.token
      else s.tracked.entries := by
  cases hm : s.tracked.track_check_token m.token with
  | none =>
    have hgone : ∀ e ∈ s.tracked.entries, ¬(e.token == m.token) = true := by
      intro e he htoken
      have hmem : m.token ∈ s.tokens := List.mem_map.mpr ⟨e, he, beq_iff_eq.mp htoken⟩
      rw [← h.lookup_isSome, hm] at hmem
      exact Bool.false_ne_true hmem
    rw [messageCallback_untracked sent hm, List.eraseP_of_forall_not hgone, ite_self]
  | some tag =>
    rw [messageCallback_tracked sent hm]
    by_cases hflush : m.flushes s.is_mcast = true
    · simp only [hflush, if_true, Impl.flush, emit_tracked, emit_obs_started, h.unobserved,
        (h.holds.flush m.token).entries_eq]
    · simp [hflush]

theorem Inv.tokens_message {s : Impl} (h : s.Inv) (sent : Bool) (m : Received) :
    (s.messageCallback sent m).1.tokens =
      if m.flushes s.is_mcast = true then s.tokens.erase m.token else s.tokens := by
  unfold tokens
  rw [h.entries_message]
  split
  · rw [List.erase_eq_eraseP', List.eraseP_map]
    rfl
  · rfl

/-- `sendRequest` tracks the token when there is memory for it, whether the
    request can be sent or not. -/
theorem Inv.entries_sendRequest {s : Impl} (h : s.Inv) (n : Nat) (method : Method) (id : RequestId)
    (data : List UInt8) (token : Token) (a : Allocation) (token_added : Bool) :
    (s.sendRequest n method id data token a token_added).tracked.entries =
      if a = .granted then s.tracked.entries ++ [⟨⟨id, n⟩, token, s.doing_observe⟩]
      else s.tracked.entries := by
  rw [(s.sendRequest_fields n method id data token a token_added).1]
  by_cases ha : a = .granted
  · rw [if_pos ha, ha, (h.holds.track token ⟨id, n⟩ s.doing_observe).entries_eq]
  · rw [if_neg ha, (h.holds.track_fails token ⟨id, n⟩ s.doing_observe ha).entries_eq]

end Impl

/-! ### The client on one session -/

/-- A client that has made no request. -/
inductive Prepared : Impl → Prop
  | new (is_mcast : Bool) (answer : Lookup) : Prepared (Impl.new is_mcast answer)
  | setOptions {s : Impl} (h : Prepared s) (hruns : s.terminated = false) (opts : Options)
      (answer : Lookup) : Prepared (s.setOptions opts answer)

structure Client where
  impl : Impl
  /-- The tokens of the requests that libcoap has taken and that have not been
      concluded, in the order they were made. -/
  outstanding : List Token

inductive Event where
  /-- A call of `sendRequest`, with what `coap_send` answers. -/
  | request (method : Method) (id : RequestId) (data : List UInt8) (token : Token)
      (a : Allocation) (token_added : Bool) (sent : Bool)
  | message (sent : Bool) (m : Received)
  | freeLargeData (key : Nat)

/-- The request, if it is one, is taken by libcoap. -/
def Event.taken : Event → Bool
  | .request _ _ _ _ _ token_added sent => token_added && sent
  | _ => true

/-- A class 2 message of which more blocks are to come. -/
def Received.leavesBlocks (m : Received) : Bool :=
  decide (m.responseClass = 2) && m.block2.any fun block => block.more

/-- The last answer to a request: not a reset, and no blocks are to come. -/
def Received.isLast (m : Received) : Bool := decide (m.type ≠ .rst) && !m.leavesBlocks

/-- The message concludes the request it is for: a reset, a message that is not
    of class 2, or one of class 2 that leaves no block to come. -/
def Received.concludes (m : Received) : Bool := decide (m.type = .rst) || !m.leavesBlocks

/-- `coap_send` is the last call of `sendRequest`, and its answer is ignored. -/
def Client.next (c : Client) : Event → Option Client
  | .request method id data token a token_added sent =>
      (c.impl.next (.sendRequest method id data token a token_added)).map fun s =>
        { impl := s
          outstanding :=
            if token_added && sent then c.outstanding ++ [token] else c.outstanding }
  | .message sent m =>
      c.impl.session.bind fun n =>
        (c.impl.next (.message n sent m)).map fun s =>
          { impl := s
            outstanding :=
              if m.concludes then c.outstanding.erase m.token else c.outstanding }
  | .freeLargeData key =>
      (c.impl.next (.freeLargeData key)).map fun s => { c with impl := s }

/-- The runs on one session, of a destination that is multicast or is not. -/
def onSession (is_mcast : Bool) : System Client Event where
  init := fun c => Prepared c.impl ∧ c.impl.is_mcast = is_mcast ∧ c.impl.session.isSome = true ∧
    c.outstanding = []
  next := Client.next

/-! ### What one step can do -/

/-- The steps on a session, a constructor for each event. -/
inductive Client.Step (c : Client) : Event → Client → Prop
  | request {n : Nat} (hsession : c.impl.session = some n) (method : Method) (id : RequestId)
      (data : List UInt8) {token : Token} (hfresh : c.impl.tokenFresh n token = true)
      (a : Allocation) (token_added sent : Bool) :
      Step c (.request method id data token a token_added sent)
        { impl := c.impl.sendRequest n method id data token a token_added
          outstanding :=
            if token_added && sent then c.outstanding ++ [token] else c.outstanding }
  | message (sent : Bool) (m : Received) :
      Step c (.message sent m)
        { impl := (c.impl.messageCallback sent m).1
          outstanding := if m.concludes then c.outstanding.erase m.token else c.outstanding }
  | freeLargeData (key : Nat) :
      Step c (.freeLargeData key) { c with impl := c.impl.freeLargeData key }

theorem Client.step_of_next {c c' : Client} {e : Event} (hn : c.next e = some c') :
    c.Step e c' := by
  cases e with
  | request method id data token a token_added sent =>
    obtain ⟨s, hs, rfl⟩ := Option.map_eq_some_iff.mp hn
    obtain ⟨_, hs⟩ := Impl.next_eq_some.mp hs
    obtain ⟨n, hsession, hs⟩ := Option.bind_eq_some_iff.mp hs
    obtain ⟨hfresh, heq⟩ := Option.ite_none_right_eq_some.mp hs
    exact Option.some.inj heq ▸ .request hsession method id data hfresh a token_added sent
  | message sent m =>
    obtain ⟨n, _, hn⟩ := Option.bind_eq_some_iff.mp hn
    obtain ⟨s, hs, rfl⟩ := Option.map_eq_some_iff.mp hn
    obtain ⟨_, hs⟩ := Impl.next_eq_some.mp hs
    obtain ⟨_, heq⟩ := Option.ite_none_right_eq_some.mp hs
    exact Option.some.inj heq ▸ .message sent m
  | freeLargeData key =>
    obtain ⟨s, hs, rfl⟩ := Option.map_eq_some_iff.mp hn
    obtain ⟨_, heq⟩ := Impl.next_eq_some.mp hs
    exact Option.some.inj heq ▸ .freeLargeData key

/-! ### The invariant of a session -/

/-- All requests have been made on the one session, so that their tokens are
    distinct. -/
structure OnSession (is_mcast : Bool) (s : Impl) : Prop where
  inv : s.Inv
  mcast : s.is_mcast = is_mcast
  one : ∀ q ∈ s.requests, s.session = some q.session
  distinct : s.tokens.Nodup

theorem Prepared.empty {s : Impl} (h : Prepared s) :
    s.Inv ∧ s.requests = [] ∧ s.tracked = .new := by
  induction h with
  | new is_mcast answer =>
    obtain ⟨_, htracked, _, _, hrequests⟩ := Impl.createSession_frame _ answer
    exact ⟨Impl.Inv.new is_mcast answer, hrequests, htracked⟩
  | @setOptions s h _ opts answer ih =>
    obtain ⟨hinv, hrequests, htracked⟩ := ih
    obtain ⟨_, htracked', _, _, hrequests'⟩ :=
      ({ s with opts := opts } : Impl).createSession_frame answer
    exact ⟨hinv.setOptions opts answer, hrequests'.trans hrequests, htracked'.trans htracked⟩

theorem Prepared.onSession {s : Impl} (h : Prepared s) : OnSession s.is_mcast s := by
  obtain ⟨hinv, hrequests, htracked⟩ := h.empty
  refine ⟨hinv, rfl, ?_, ?_⟩
  · rw [hrequests]
    intro q hq
    cases hq
  · rw [Impl.tokens, htracked]
    exact List.nodup_nil

/-- A token that the session has not given out is not tracked. -/
theorem OnSession.not_tracked {is_mcast : Bool} {s : Impl} (h : OnSession is_mcast s) {n : Nat}
    (hsession : s.session = some n) {token : Token} (hfresh : s.tokenFresh n token = true) :
    token ∉ s.tokens := by
  intro hmem
  obtain ⟨e, he, htoken⟩ := List.mem_map.mp hmem
  have hrequest := h.inv.requested e he
  have hone := h.one _ hrequest
  have hno := List.all_eq_true.mp hfresh _ hrequest
  rw [hsession, Option.some.injEq] at hone
  simp only [htoken, beq_self_eq_true, Bool.and_true, Bool.not_eq_true', beq_eq_false_iff_ne] at hno
  exact hno hone.symm

theorem OnSession.tokens_sendRequest {is_mcast : Bool} {s : Impl} (h : OnSession is_mcast s)
    (n : Nat) (method : Method) (id : RequestId) (data : List UInt8) (token : Token)
    (a : Allocation) (token_added : Bool) :
    (s.sendRequest n method id data token a token_added).tokens =
      if a = .granted then s.tokens ++ [token] else s.tokens := by
  unfold Impl.tokens
  rw [h.inv.entries_sendRequest]
  split
  · exact List.map_append
  · rfl

theorem OnSession.sendRequest {is_mcast : Bool} {s : Impl} (h : OnSession is_mcast s) {n : Nat}
    (hsession : s.session = some n) (method : Method) (id : RequestId) (data : List UInt8)
    {token : Token} (hfresh : s.tokenFresh n token = true) (a : Allocation) (token_added : Bool) :
    OnSession is_mcast (s.sendRequest n method id data token a token_added) := by
  obtain ⟨_, hrequests, hsame, _, _⟩ := s.sendRequest_fields n method id data token a token_added
  refine ⟨h.inv.sendRequest hsession method id data token a token_added, ?_, ?_, ?_⟩
  · simp only [Impl.sendRequest]
    split
    · exact h.mcast
    · exact h.mcast
  · rw [hrequests, hsame]
    intro q hq
    rcases List.mem_append.mp hq with hq | hq
    · exact h.one q hq
    · obtain rfl := List.mem_singleton.mp hq
      exact hsession
  · rw [h.tokens_sendRequest]
    split
    · refine List.nodup_append.mpr ⟨h.distinct, List.nodup_singleton token, ?_⟩
      intro x hx y hy hxy
      rw [List.mem_singleton] at hy
      exact h.not_tracked hsession hfresh (hy ▸ hxy ▸ hx)
    · exact h.distinct

/-- What a message leaves alone. -/
theorem messageCallback_frame (s : Impl) (sent : Bool) (m : Received) :
    (s.messageCallback sent m).1.session = s.session ∧
      (s.messageCallback sent m).1.is_mcast = s.is_mcast ∧
      (s.messageCallback sent m).1.requests = s.requests := by
  obtain ⟨emitted, heq | heq⟩ := messageCallback_cases s sent m
  · rw [heq]
    exact ⟨rfl, rfl, rfl⟩
  · rw [heq]
    exact ⟨rfl, rfl, rfl⟩

theorem Impl.Inv.message {s : Impl} (h : s.Inv) (sent : Bool) (m : Received) :
    (s.messageCallback sent m).1.Inv := by
  obtain ⟨emitted, heq | heq⟩ := messageCallback_cases s sent m
  · rw [heq]
    exact h.withEmitted emitted
  · rw [heq]
    exact (h.withEmitted emitted).flush m.token

theorem OnSession.message {is_mcast : Bool} {s : Impl} (h : OnSession is_mcast s) (sent : Bool)
    (m : Received) : OnSession is_mcast (s.messageCallback sent m).1 := by
  obtain ⟨hsession, hmcast, hrequests⟩ := messageCallback_frame s sent m
  refine ⟨h.inv.message sent m, hmcast.trans h.mcast, ?_, ?_⟩
  · rw [hsession, hrequests]
    exact h.one
  · rw [h.inv.tokens_message]
    split
    · exact h.distinct.erase m.token
    · exact h.distinct

/-- Every event keeps the invariant. -/
theorem OnSession.next {is_mcast : Bool} {c c' : Client} {e : Event}
    (h : OnSession is_mcast c.impl) (hn : c.next e = some c') : OnSession is_mcast c'.impl := by
  cases Client.step_of_next hn with
  | request hsession method id data hfresh a token_added sent =>
    exact h.sendRequest hsession method id data hfresh a token_added
  | message sent m => exact h.message sent m
  | freeLargeData key =>
    obtain ⟨hinv, hmcast, hone, hdistinct⟩ := h
    exact ⟨hinv.freeLargeData key, hmcast, hone, hdistinct⟩

theorem OnSession.init {is_mcast : Bool} {c : Client} (h : (CoapClient.onSession is_mcast).init c) :
    OnSession is_mcast c.impl :=
  h.2.1 ▸ h.1.onSession

/-! ### Tracked and outstanding -/

/-- **(T)** The tracked tokens are the ones of the outstanding requests, and as
    many entries are in use. -/
def TracksOutstanding (c : Client) : Prop :=
  (∀ token, (c.impl.tracked.track_check_token token).isSome = true ↔ token ∈ c.outstanding) ∧
  c.impl.tracked.tracked_tokens_count = c.outstanding.length

/-- A request is entered in the table exactly when it can be sent, and no
    request that is tracked is reset. -/
def entryMatches (c : Client) : Event → Bool
  | .request _ _ _ _ a token_added sent => decide (a = .granted) == (token_added && sent)
  | .message _ m => !(decide (m.type = .rst) &&
      (c.impl.tracked.track_check_token m.token).isSome)
  | .freeLargeData _ => true

/-- The invariant of the runs whose steps all match. -/
structure Tracking (c : Client) : Prop where
  session : OnSession false c.impl
  same : c.impl.tokens = c.outstanding

theorem Tracking.tracksOutstanding {c : Client} (h : Tracking c) : TracksOutstanding c := by
  refine ⟨fun token => ?_, ?_⟩
  · rw [h.session.inv.lookup_isSome, h.same]
  · obtain ⟨rest, _, hcount⟩ := h.session.inv.holds
    rw [hcount, ← h.same]
    exact (List.length_map _).symm

/-- On unicast the token of a message is flushed when it concludes its request
    with an answer. -/
theorem flushes_unicast (m : Received) : m.flushes false = m.isLast := by
  unfold Received.flushes Received.isLast Received.leavesBlocks
  by_cases hrst : m.type = .rst
  · simp [hrst]
  · by_cases hclass : m.responseClass = 2
    · cases m.block2 with
      | none => simp [hrst, hclass]
      | some block => simp [hrst, hclass]
    · cases m.block2 with
      | none => simp [hrst, hclass]
      | some block => simp [hrst, hclass]

/-- The number of entries in use is the number of tracked tokens. -/
theorem TracksOutstanding.length_eq {c : Client} (h : OnSession false c.impl)
    (hT : TracksOutstanding c) : c.impl.tokens.length = c.outstanding.length := by
  obtain ⟨rest, _, hcount⟩ := h.inv.holds
  rw [← hT.2, hcount]
  exact List.length_map _

/-- One event. -/
theorem tracking_next {c c' : Client} {e : Event} (h : Tracking c) (hn : c.next e = some c') :
    (entryMatches c e = true → Tracking c') ∧
      (TracksOutstanding c' → entryMatches c e = true) := by
  have hsession := h.session.next hn
  cases Client.step_of_next hn with
  | @request n hn' method id data token hfresh a token_added sent =>
    have htokens := h.session.tokens_sendRequest n method id data token a token_added
    simp only [entryMatches, beq_iff_eq]
    constructor
    · intro hC
      refine ⟨hsession, ?_⟩
      rw [htokens, ← hC, h.same]
      simp only [decide_eq_true_eq]
    · intro hT
      -- the lengths tell whether there are as many entries as requests
      have hlen := hT.length_eq hsession
      rw [htokens, h.same] at hlen
      cases hadded : token_added && sent with
      | true =>
        by_cases ha : a = .granted
        · simp [ha]
        · simp [ha, hadded] at hlen
      | false =>
        by_cases ha : a = .granted
        · simp [ha, hadded] at hlen
        · simp [ha]
  | message sent m =>
    have htokens := h.session.inv.tokens_message sent m
    rw [h.session.mcast, flushes_unicast, h.same] at htokens
    have hmem := h.session.inv.lookup_isSome m.token
    rw [h.same] at hmem
    by_cases hrst : m.type = .rst
    · -- a reset concludes the request and flushes nothing
      have hconcludes : m.concludes = true := by simp [Received.concludes, hrst]
      have hnot : m.isLast = false := by simp [Received.isLast, hrst]
      rw [hnot, if_neg Bool.false_ne_true] at htokens
      simp only [entryMatches, hrst, decide_true, Bool.true_and, Bool.not_eq_true',
        ← Bool.not_eq_true, hmem]
      constructor
      · intro hgone
        refine ⟨hsession, ?_⟩
        rw [htokens, if_pos hconcludes, List.erase_of_not_mem hgone]
      · intro hT hin
        have hlen := hT.length_eq hsession
        have hpos := List.length_pos_of_mem hin
        simp only [htokens, hconcludes, if_true, List.length_erase_of_mem hin] at hlen
        omega
    · have hmatch : entryMatches c (.message sent m) = true := by simp [entryMatches, hrst]
      refine ⟨fun _ => ⟨hsession, ?_⟩, fun _ => hmatch⟩
      rw [htokens]
      simp [hrst, Received.concludes, Received.isLast]
  | freeLargeData key => exact ⟨fun _ => ⟨hsession, h.same⟩, fun _ => rfl⟩

/-- **The table holds exactly the outstanding requests** throughout a run on a
    unicast session exactly when each request is entered in the table if and
    only if it can be sent, and no tracked request is reset. -/
theorem tracks_iff {c : Client} (r : Run (onSession false) c) :
    r.Throughout TracksOutstanding ↔ r.EachStep fun c e => entryMatches c e = true := by
  apply Run.throughout_iff (I := Tracking)
  · rintro c hinit
    refine ⟨OnSession.init hinit, ?_⟩
    rw [hinit.2.2.2, Impl.tokens, hinit.1.empty.2.2]
    rfl
  · intro c h
    exact h.tracksOutstanding
  · intro c e c' h hl hn
    exact (tracking_next h hn).1 hl
  · intro c e c' h hn hT
    exact (tracking_next h hn).2 hT

/-- A request whose token cannot be added stays in the table, and so does one
    that is sent and reset. -/
theorem failed_and_reset_stay :
    (∃ (c : Client) (r : Run (onSession false) c), ¬ r.Throughout TracksOutstanding) ∧
    (∃ (c : Client) (r : Run (onSession false) c),
      (r.EachStep fun _ e => e.taken = true) ∧ ¬ r.Throughout TracksOutstanding) := by
  have hinit : (onSession false).init ⟨Impl.new false (.found false true), []⟩ :=
    ⟨.new false (.found false true), rfl, rfl, rfl⟩
  -- one entry is left when nothing is outstanding
  let left : Client → Bool := fun c =>
    decide (c.impl.tracked.tracked_tokens_count = 1) && c.outstanding.isEmpty
  have hleft : ∀ {c : Client} (r : Run (onSession false) c), left c = true →
      ¬ r.Throughout TracksOutstanding := by
    intro c r hq hT
    obtain ⟨hone, hnone⟩ := Bool.and_eq_true_iff.mp hq
    have hcount := hT.last.2
    rw [of_decide_eq_true hone, List.isEmpty_iff.mp hnone] at hcount
    cases hcount
  constructor
  · obtain ⟨c, r, _, hq⟩ := Run.exists_of_check (onSession false) hinit
      [.request .m_get 7 [] [1] .granted false true] (fun _ _ => true) left (by decide)
    exact ⟨c, r, hleft r hq⟩
  · obtain ⟨c, r, hsent, hq⟩ := Run.exists_of_check (onSession false) hinit
      [.request .m_get 7 [] [1] .granted true true, .message true ⟨.rst, 0, [1], none, none⟩]
      (fun _ e => e.taken) left (by decide)
    exact ⟨c, r, hsent, hleft r hq⟩

end CoapClient

end DeviceTester
