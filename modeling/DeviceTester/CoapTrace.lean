import DeviceTester.CoapRequests

/-! # What a CoAP client emits

  The messages for any number of requests, in any order, on a unicast session:
  what is emitted for a request is determined by the messages that carry its
  token alone (`trace_determined`).

  On a session whose destination is multicast a token is to be kept for the
  servers that have not answered yet. The last statement of `messageCallback`
  sees to that, the branch for a Block2 option does not. And the session may have
  been made while requests of an earlier one were unanswered: what carries the
  token of such a request is taken for an answer to it (`hears_iff`).
-/

namespace DeviceTester

open LTS

namespace CoapClient

/-! ### Sequences of messages -/

/-- A message that is received, with whether libcoap passes the request it
    answers. -/
structure Delivery where
  sent : Bool
  message : Received
  deriving DecidableEq, Repr

namespace Impl

/-- The client after the message. -/
def receive (s : Impl) (d : Delivery) : Impl := (s.messageCallback d.sent d.message).1

/-- What libcoap is told. -/
def answer (s : Impl) (d : Delivery) : Response := (s.messageCallback d.sent d.message).2

def receiveAll (s : Impl) (ds : List Delivery) : Impl := ds.foldl receive s

/-- What is emitted for one message. -/
def emissions (s : Impl) (d : Delivery) : List (RequestId × List UInt8) :=
  (s.receive d).emitted.drop s.emitted.length

/-- What is emitted for the messages that carry the token. -/
def emittedFor (token : Token) : Impl → List Delivery → List (RequestId × List UInt8)
  | _, [] => []
  | s, d :: ds =>
      (if d.message.token = token then s.emissions d else []) ++
        emittedFor token (s.receive d) ds

/-! ### One message -/

theorem emissions_untracked {s : Impl} {d : Delivery}
    (h : s.tracked.track_check_token d.message.token = none) : s.emissions d = [] := by
  unfold emissions receive
  rw [messageCallback_emitted, h, List.append_nil, List.drop_length]

theorem emissions_tracked {s : Impl} {d : Delivery} {tag : Tag}
    (h : s.tracked.track_check_token d.message.token = some tag) :
    s.emissions d = if d.message.passedOn then [(tag.id, d.message.payload)] else [] := by
  unfold emissions receive
  rw [messageCallback_emitted, h, List.drop_left]

/-- A reset is asked for when nobody has asked for the message. -/
theorem answer_eq_fail (s : Impl) (d : Delivery) :
    s.answer d = .fail ↔
      s.tracked.track_check_token d.message.token = none ∧ d.sent = false ∧
        (d.message.type = .con ∨ d.message.type = .non) := by
  unfold answer
  cases h : s.tracked.track_check_token d.message.token with
  | none =>
    rw [messageCallback_untracked d.sent h]
    cases hsent : d.sent <;> simp [Received.rejected, Decidable.or_iff_not_imp_left]
  | some tag =>
    rw [messageCallback_tracked d.sent h]
    simp

end Impl

/-! ### Unicast -/

/-- **(I)** A message leaves the tracking of the other tokens alone, and what is
    emitted goes with the id that its own token is tracked for. -/
def Isolated (s : Impl) (d : Delivery) : Prop :=
  (∀ token, token ≠ d.message.token →
    (s.receive d).tracked.track_check_token token = s.tracked.track_check_token token) ∧
  ((s.receive d).emitted = s.emitted ∨
    ∃ tag, s.tracked.track_check_token d.message.token = some tag ∧
      (s.receive d).emitted = s.emitted ++ [(tag.id, d.message.payload)])

/-- The messages up to the last answer, and with it. -/
def untilLast : List Received → List Received
  | [] => []
  | m :: ms => if m.isLast then [m] else m :: untilLast ms

/-- What is to be emitted for a request that gets the messages `ms`. -/
def expectedFor (id : RequestId) (ms : List Received) : List (RequestId × List UInt8) :=
  ((untilLast ms).filter fun m => m.passedOn).map fun m => (id, m.payload)

/-- The messages that carry the token, in order. -/
def messagesFor (token : Token) (ds : List Delivery) : List Received :=
  (ds.map (·.message)).filter fun m => m.token == token

/-- A client with a unicast destination and distinct tokens. -/
structure Unicast (s : Impl) : Prop where
  inv : s.Inv
  unicast : s.is_mcast = false
  distinct : s.tokens.Nodup

theorem Unicast.receive {s : Impl} (h : Unicast s) (d : Delivery) : Unicast (s.receive d) where
  inv := h.inv.message d.sent d.message
  unicast := (messageCallback_frame s d.sent d.message).2.1.trans h.unicast
  distinct := by
    unfold Impl.receive
    rw [h.inv.tokens_message]
    split
    · exact h.distinct.erase _
    · exact h.distinct

/-- The last answer takes its token out of the map, any other message changes
    nothing. -/
theorem Unicast.lookup {s : Impl} (h : Unicast s) (d : Delivery) (token : Token) :
    (s.receive d).tracked.track_check_token token =
      if token = d.message.token ∧ d.message.isLast = true then none
      else s.tracked.track_check_token token := by
  have hmap := h.inv.lookup_message h.distinct d.sent d.message token
  rw [h.unicast, flushes_unicast] at hmap
  exact hmap

theorem Unicast.receiveAll {s : Impl} (h : Unicast s) (ds : List Delivery) :
    Unicast (s.receiveAll ds) := by
  induction ds generalizing s with
  | nil => exact h
  | cons d ds ih => exact ih (h.receive d)

theorem Unicast.isolated {s : Impl} (h : Unicast s) (d : Delivery) : Isolated s d := by
  refine ⟨fun token hne => ?_, ?_⟩
  · rw [h.lookup d token, if_neg (fun hboth => hne hboth.1)]
  · unfold Impl.receive
    rw [messageCallback_emitted]
    cases htag : s.tracked.track_check_token d.message.token with
    | none => exact Or.inl (List.append_nil _)
    | some tag =>
      by_cases hpass : d.message.passedOn = true
      · exact Or.inr ⟨tag, rfl, by simp [hpass]⟩
      · exact Or.inl (by simp [hpass])

/-- Nothing is emitted for a token that is not tracked. -/
theorem Unicast.emittedFor_untracked {s : Impl} (h : Unicast s) {token : Token}
    (hnone : s.tracked.track_check_token token = none) (ds : List Delivery) :
    s.emittedFor token ds = [] := by
  induction ds generalizing s with
  | nil => rfl
  | cons d ds ih =>
    have hrest : (s.receive d).tracked.track_check_token token = none := by
      rw [h.lookup d token, hnone, ite_self]
    simp only [Impl.emittedFor]
    rw [ih (h.receive d) hrest, List.append_nil]
    split
    · next htoken => exact Impl.emissions_untracked (htoken ▸ hnone)
    · rfl

/-- What is emitted for a tracked token, message by message. -/
theorem Unicast.emittedFor_tracked {s : Impl} (h : Unicast s) {token : Token} {tag : Tag}
    (htag : s.tracked.track_check_token token = some tag) (ds : List Delivery) :
    s.emittedFor token ds = expectedFor tag.id (messagesFor token ds) := by
  induction ds generalizing s with
  | nil => rfl
  | cons d ds ih =>
    have hmap := h.lookup d token
    simp only [Impl.emittedFor, messagesFor, List.map_cons]
    by_cases htoken : d.message.token = token
    · rw [if_pos htoken, List.filter_cons_of_pos (by simp [htoken]),
        Impl.emissions_tracked (htoken.symm ▸ htag)]
      by_cases hlast : d.message.isLast = true
      · -- the exchange ends with this message
        rw [if_pos ⟨htoken.symm, hlast⟩] at hmap
        rw [(h.receive d).emittedFor_untracked hmap, List.append_nil]
        simp only [expectedFor, untilLast, hlast, if_true]
        cases hpass : d.message.passedOn <;> simp [hpass]
      · rw [if_neg (fun hboth => hlast hboth.2), htag] at hmap
        rw [ih (h.receive d) hmap]
        simp only [expectedFor, untilLast, hlast]
        cases hpass : d.message.passedOn <;> simp [hpass, messagesFor]
    · -- a message for another request
      rw [if_neg (fun hboth => htoken hboth.1.symm), htag] at hmap
      rw [if_neg htoken, List.filter_cons_of_neg (by simp [htoken]), ih (h.receive d) hmap]
      rfl

/-- **The signal trace is determined per request.** On a unicast client whose
    tokens are distinct, for every sequence of messages: what is emitted for a
    tracked request are the payloads of its class 2 messages up to the one that
    concludes it, nothing is emitted for any other token, no message touches
    another request, and a reset is asked for exactly when the token is not
    tracked, no request is passed, and the type is CON or NON. -/
theorem trace_determined {s : Impl} (r : Run system s) (hunicast : s.is_mcast = false)
    (hdistinct : s.tokens.Nodup) (ds : List Delivery) :
    (∀ e ∈ s.tracked.entries,
      s.emittedFor e.token ds = expectedFor e.id.id (messagesFor e.token ds)) ∧
    (∀ token, token ∉ s.tokens → s.emittedFor token ds = []) ∧
    (∀ before d after, ds = before ++ d :: after →
      Isolated (s.receiveAll before) d ∧
      ((s.receiveAll before).answer d = .fail ↔
        (s.receiveAll before).tracked.track_check_token d.message.token = none ∧
          d.sent = false ∧ (d.message.type = .con ∨ d.message.type = .non))) := by
  have hinv : s.Inv := by
    refine r.invariant (I := Impl.Inv) ?_ (fun s l s' h hn => h.next hn)
    rintro s ⟨is_mcast, answer, rfl⟩
    exact Impl.Inv.new is_mcast answer
  have h : Unicast s := ⟨hinv, hunicast, hdistinct⟩
  refine ⟨fun e he => ?_, fun token htoken => ?_, fun before d after _ => ?_⟩
  · exact h.emittedFor_tracked (hinv.holds.check_mem hdistinct he) ds
  · have hnone : s.tracked.track_check_token token = none := by
      rw [← Option.not_isSome_iff_eq_none, hinv.lookup_isSome]
      exact htoken
    exact h.emittedFor_untracked hnone ds
  · exact ⟨(h.receiveAll before).isolated d, Impl.answer_eq_fail _ d⟩

/-- Two requests, whose answers come in turns, the first of them in two blocks. -/
theorem trace_of_two_requests :
    let s := ((Impl.new false (.found false true)).sendRequest 0 .m_get 7 [] [1] .granted
      true).sendRequest 0 .m_get 8 [] [2] .granted true
    let ds : List Delivery :=
      [⟨true, ⟨.ack, 69, [1], some [4], some ⟨0, true⟩⟩⟩, ⟨true, ⟨.ack, 132, [2], none, none⟩⟩,
        ⟨true, ⟨.ack, 69, [1], some [5], some ⟨1, false⟩⟩⟩, ⟨false, ⟨.con, 69, [1], none, none⟩⟩]
    s.emittedFor [1] ds = [(7, [4]), (7, [5])] ∧ s.emittedFor [2] ds = [] := by
  intro s ds
  have hinit : system.init (Impl.new false (.found false true)) := ⟨false, .found false true, rfl⟩
  have r : Run system s :=
    ((Run.start _ hinit).step (.sendRequest .m_get 7 [] [1] .granted true) _ rfl).step
      (.sendRequest .m_get 8 [] [2] .granted true) _ rfl
  obtain ⟨htracked, _, _⟩ := trace_determined r rfl (by decide) ds
  exact ⟨(htracked ⟨⟨7, 0⟩, [1], 0⟩ (by decide)).trans (by decide),
    (htracked ⟨⟨8, 0⟩, [2], 0⟩ (by decide)).trans (by decide)⟩

/-! ### Multicast -/

/-- An answer in blocks ends with the message. -/
def Received.lastBlock (m : Received) : Bool :=
  decide (m.type ≠ .rst) && decide (m.responseClass = 2) &&
    m.block2.any fun block => !block.more

/-- The entries with the token, in the order in which they are found. -/
def Impl.entriesFor (s : Impl) (token : Token) : List (TrackToken Tag) :=
  s.tracked.entries.filter fun e => e.token == token

/-- How many of the messages carry the token and end an answer in blocks. -/
def lastBlocks (token : Token) (ds : List Delivery) : Nat :=
  ds.countP fun d => d.message.token == token && d.message.lastBlock

/-- The request is still tracked after the message. If the message carries its
    token, it is passed on with the id of the request when it is of class 2, and
    is not answered with a reset. -/
def Heard (s : Impl) (e : TrackToken Tag) (d : Delivery) : Prop :=
  e ∈ (s.receive d).tracked.entries ∧
  (d.message.token = e.token →
    (d.message.passedOn = true →
      (s.receive d).emitted = s.emitted ++ [(e.id.id, d.message.payload)]) ∧
    s.answer d ≠ .fail)

/-- **(H)** Each of the messages is heard. -/
def Hears (s : Impl) (e : TrackToken Tag) (ds : List Delivery) : Prop :=
  ∀ before d after, ds = before ++ d :: after → Heard (s.receiveAll before) e d

/-- If the message carries the token and `n` answers in blocks have ended with
    messages that do, it gets to entry number `n` with the token. That has the
    id of the request where the message is of class 2, and is another one where
    the message ends an answer in blocks. -/
def Suits (s : Impl) (e : TrackToken Tag) (n : Nat) (d : Delivery) : Prop :=
  d.message.token = e.token → ∀ x, (s.entriesFor e.token)[n]? = some x →
    (d.message.passedOn = true → x.id.id = e.id.id) ∧ (d.message.lastBlock = true → x ≠ e)

/-- On multicast only the last block of an answer is flushed. -/
theorem flushes_multicast (m : Received) : m.flushes true = m.lastBlock := by
  unfold Received.flushes Received.lastBlock
  by_cases hclass : m.responseClass = 2
  · cases m.block2 with
    | none => simp
    | some block => simp [hclass]
  · cases m.block2 with
    | none => simp
    | some block => simp [hclass]

namespace Impl

/-- What the entries are told apart by. -/
def keys (s : Impl) : List (Nat × Token) :=
  s.tracked.entries.map fun e => (e.id.session, e.token)

/-- A session does not give out a token twice, so no step tracks one twice for
    it. -/
theorem Inv.keys_next {s s' : Impl} {l : Label} (h : s.Inv) (hdistinct : s.keys.Nodup)
    (hn : s.next l = some s') : s'.keys.Nodup := by
  obtain ⟨_, hn⟩ := Impl.next_eq_some.mp hn
  cases l with
  | setOptions opts answer =>
    obtain rfl := Option.some.inj hn
    obtain ⟨_, htracked, _⟩ := ({ s with opts := opts } : Impl).createSession_frame answer
    unfold keys Impl.setOptions
    rw [htracked]
    exact hdistinct
  | sendRequest method id data token a token_added =>
    obtain ⟨n, _, hn⟩ := Option.bind_eq_some_iff.mp hn
    obtain ⟨hfresh, heq⟩ := Option.ite_none_right_eq_some.mp hn
    obtain rfl := Option.some.inj heq
    unfold keys
    rw [h.entries_sendRequest]
    split
    · rw [List.map_append]
      refine List.nodup_append.mpr ⟨hdistinct, List.nodup_singleton _, ?_⟩
      intro x hx y hy hxy
      obtain ⟨e, he, rfl⟩ := List.mem_map.mp hx
      obtain rfl := List.mem_singleton.mp hy
      rw [Prod.mk.injEq] at hxy
      -- the session would have given out the token before
      have hno := List.all_eq_true.mp hfresh _ (h.requested e he)
      simp [hxy.1, hxy.2] at hno
    · exact hdistinct
  | message session sent m =>
    obtain ⟨_, heq⟩ := Option.ite_none_right_eq_some.mp hn
    obtain rfl := Option.some.inj heq
    unfold keys
    rw [h.entries_message]
    split
    · exact hdistinct.sublist (List.eraseP_sublist.map _)
    · exact hdistinct
  | freeLargeData key =>
    obtain rfl := Option.some.inj hn
    exact hdistinct

end Impl

/-- A client with a multicast destination, and with tokens that are distinct in
    each session. -/
structure Multicast (s : Impl) : Prop where
  inv : s.Inv
  multicast : s.is_mcast = true
  distinct : s.keys.Nodup

/-- What the sessions have given out is distinct in every run. -/
theorem Multicast.of_run {s : Impl} (r : Run system s) (hmcast : s.is_mcast = true) :
    Multicast s := by
  have hreached : s.Inv ∧ s.keys.Nodup := by
    refine r.invariant (I := fun s => s.Inv ∧ s.keys.Nodup) ?_ ?_
    · rintro s ⟨is_mcast, answer, rfl⟩
      refine ⟨Impl.Inv.new is_mcast answer, ?_⟩
      obtain ⟨_, htracked, _⟩ := Impl.createSession_frame _ answer
      unfold Impl.keys Impl.new
      rw [htracked]
      exact List.nodup_nil
    · intro s l s' hI hn
      exact ⟨hI.1.next hn, hI.1.keys_next hI.2 hn⟩
  exact ⟨hreached.1, hmcast, hreached.2⟩

theorem Multicast.entries {s : Impl} (h : Multicast s) (d : Delivery) :
    (s.receive d).tracked.entries =
      if d.message.lastBlock = true then
        s.tracked.entries.eraseP fun e => e.token == d.message.token
      else s.tracked.entries := by
  have hentries := h.inv.entries_message d.sent d.message
  rw [h.multicast, flushes_multicast] at hentries
  exact hentries

theorem Multicast.mem_of_mem_receive {s : Impl} (h : Multicast s) {e : TrackToken Tag}
    {d : Delivery} (he : e ∈ (s.receive d).tracked.entries) : e ∈ s.tracked.entries := by
  rw [h.entries] at he
  split at he
  · exact List.mem_of_mem_eraseP he
  · exact he

theorem Multicast.receive {s : Impl} (h : Multicast s) (d : Delivery) :
    Multicast (s.receive d) where
  inv := h.inv.message d.sent d.message
  multicast := (messageCallback_frame s d.sent d.message).2.1.trans h.multicast
  distinct := by
    unfold Impl.keys
    rw [h.entries]
    split
    · exact h.distinct.sublist (List.eraseP_sublist.map _)
    · exact h.distinct

theorem Multicast.receiveAll {s : Impl} (h : Multicast s) (ds : List Delivery) :
    Multicast (s.receiveAll ds) := by
  induction ds generalizing s with
  | nil => exact h
  | cons d ds ih => exact ih (h.receive d)

theorem Impl.mem_entriesFor {s : Impl} {e : TrackToken Tag} :
    e ∈ s.entriesFor e.token ↔ e ∈ s.tracked.entries := by
  simp [Impl.entriesFor]

/-- The last block of an answer takes the first entry with its token out. -/
theorem Multicast.entriesFor_receive {s : Impl} (h : Multicast s) (d : Delivery) (token : Token) :
    (s.receive d).entriesFor token =
      if d.message.token = token ∧ d.message.lastBlock = true then (s.entriesFor token).tail
      else s.entriesFor token := by
  unfold Impl.entriesFor
  rw [h.entries]
  by_cases hends : d.message.lastBlock = true
  · rw [if_pos hends, TokenTable.filter_eraseP]
    simp only [hends, and_true, eq_comm (a := token)]
  · rw [if_neg hends, if_neg fun hboth => hends hboth.2]

/-- As many entries with a token are taken out as answers in blocks end with
    messages for it. -/
theorem Multicast.entriesFor_receiveAll {s : Impl} (h : Multicast s) (ds : List Delivery)
    (token : Token) :
    (s.receiveAll ds).entriesFor token = (s.entriesFor token).drop (lastBlocks token ds) := by
  induction ds generalizing s with
  | nil => rfl
  | cons d ds ih =>
    have hone := h.entriesFor_receive d token
    have hrest := ih (h.receive d)
    rw [hone] at hrest
    refine hrest.trans ?_
    unfold lastBlocks
    rw [List.countP_cons]
    by_cases hends : d.message.token = token ∧ d.message.lastBlock = true
    · rw [if_pos hends, ← List.drop_one, List.drop_drop]
      simp [hends, Nat.add_comm]
    · rw [if_neg hends]
      simp [hends]

/-- The first entry with a token is the one its messages get to. -/
theorem Multicast.lookup {s : Impl} (h : Multicast s) {token : Token} {x : TrackToken Tag}
    {rest : List (TrackToken Tag)} (hentries : s.entriesFor token = x :: rest) :
    s.tracked.track_check_token token = some x.id := by
  rw [h.inv.holds.check, ← List.head?_filter]
  exact congrArg (fun es => es.head?.map (·.id)) hentries

/-- A message for a tracked token is passed on and not answered with a reset. -/
theorem passed_on_of_tracked {s : Impl} {d : Delivery} {tag : Tag}
    (h : s.tracked.track_check_token d.message.token = some tag) :
    (d.message.passedOn = true →
      (s.receive d).emitted = s.emitted ++ [(tag.id, d.message.payload)]) ∧
    s.answer d ≠ .fail := by
  refine ⟨fun hpass => ?_, fun hfail => ?_⟩
  · unfold Impl.receive
    rw [messageCallback_emitted, h, hpass]
    rfl
  · have hnone := ((s.answer_eq_fail d).mp hfail).1
    rw [h] at hnone
    cases hnone

/-- One message is heard exactly when it suits the first entry with the token of
    the request. -/
theorem Multicast.heard_iff {s : Impl} (h : Multicast s) {e : TrackToken Tag}
    (he : e ∈ s.tracked.entries) (d : Delivery) : Heard s e d ↔ Suits s e 0 d := by
  have hleft := h.entriesFor_receive d e.token
  rw [← Impl.mem_entriesFor] at he
  unfold Heard Suits
  rw [← Impl.mem_entriesFor, hleft]
  by_cases htoken : d.message.token = e.token
  · have hnodup : (s.entriesFor e.token).Nodup := (List.Nodup.of_map _ h.distinct).filter _
    cases hentries : s.entriesFor e.token with
    | nil => simp [hentries] at he
    | cons x rest =>
      rw [hentries] at he hnodup
      obtain ⟨hpassed, hanswer⟩ := passed_on_of_tracked (htoken ▸ h.lookup hentries)
      have hids : (d.message.passedOn = true →
          (s.receive d).emitted = s.emitted ++ [(e.id.id, d.message.payload)]) ↔
          (d.message.passedOn = true → x.id.id = e.id.id) := by
        refine forall_congr' fun hpass => ?_
        rw [hpassed hpass]
        simp
      have hstays : e ∈ (if d.message.token = e.token ∧ d.message.lastBlock = true then
          (x :: rest).tail else x :: rest) ↔ (d.message.lastBlock = true → x ≠ e) := by
        by_cases hends : d.message.lastBlock = true
        · rw [if_pos ⟨htoken, hends⟩, List.tail_cons]
          constructor
          · rintro hmem - rfl
            exact (List.nodup_cons.mp hnodup).1 hmem
          · intro hne
            exact (List.mem_cons.mp he).resolve_left (hne hends).symm
        · rw [if_neg fun hboth => hends hboth.2]
          exact ⟨fun _ hends' => absurd hends' hends, fun _ => he⟩
      rw [hstays, hids]
      simp only [htoken, true_implies, hanswer, ne_eq, not_false_eq_true, and_true,
        List.getElem?_cons_zero, Option.some.injEq, forall_eq']
      exact and_comm
  · simp [htoken, he]

/-- A message suits what the messages before it have left exactly when it suits
    the entry with the number of the answers that they have ended. -/
theorem Multicast.suits_receiveAll {s : Impl} (h : Multicast s) (e : TrackToken Tag)
    (before : List Delivery) (d : Delivery) :
    Suits (s.receiveAll before) e 0 d ↔ Suits s e (lastBlocks e.token before) d := by
  unfold Suits
  rw [h.entriesFor_receiveAll, List.getElem?_drop, Nat.add_zero]

theorem Multicast.hears_iff_suits {s : Impl} (h : Multicast s) {e : TrackToken Tag}
    (he : e ∈ s.tracked.entries) (ds : List Delivery) :
    Hears s e ds ↔ ∀ before d after, ds = before ++ d :: after →
      Suits s e (lastBlocks e.token before) d := by
  constructor
  · intro hH before d after hsplit
    have hbefore := h.receiveAll before
    have hheard := hH before d after hsplit
    -- it is tracked before the message as it is after it
    have hmem := hbefore.mem_of_mem_receive hheard.1
    exact (h.suits_receiveAll e before d).mp ((hbefore.heard_iff hmem d).mp hheard)
  · intro hS
    have hheard : ∀ before d after, ds = before ++ d :: after →
        e ∈ (s.receiveAll before).tracked.entries → Heard (s.receiveAll before) e d := by
      intro before d after hsplit hmem
      exact ((h.receiveAll before).heard_iff hmem d).mpr
        ((h.suits_receiveAll e before d).mpr (hS before d after hsplit))
    have hkept : ∀ before after, ds = before ++ after →
        e ∈ (s.receiveAll before).tracked.entries := by
      intro before
      induction before using List.reverseRecOn with
      | nil => exact fun _ _ => he
      | append_singleton before d ih =>
        intro after hsplit
        rw [List.append_assoc, List.singleton_append] at hsplit
        rw [Impl.receiveAll, List.foldl_append]
        exact (hheard before d after hsplit (ih _ hsplit)).1
    intro before d after hsplit
    exact hheard before d after hsplit (hkept before _ hsplit)

theorem lastBlocks_eq_zero {token : Token} {ds : List Delivery} :
    lastBlocks token ds = 0 ↔
      ∀ d ∈ ds, d.message.token = token → d.message.lastBlock = false := by
  simp [lastBlocks, List.countP_eq_zero]

/-- The messages suit the first entry with its token exactly when none that
    carries it ends an answer in blocks. -/
theorem suits_iff_of_first {s : Impl} {e : TrackToken Tag}
    (hfirst : (s.entriesFor e.token).head? = some e) (ds : List Delivery) :
    (∀ before d after, ds = before ++ d :: after → Suits s e (lastBlocks e.token before) d) ↔
      ∀ d ∈ ds, d.message.token = e.token → d.message.lastBlock = false := by
  rw [List.head?_eq_getElem?] at hfirst
  rw [← lastBlocks_eq_zero]
  constructor
  · intro hS
    have hnone : ∀ before after, ds = before ++ after → lastBlocks e.token before = 0 := by
      intro before
      induction before using List.reverseRecOn with
      | nil => exact fun _ _ => rfl
      | append_singleton before d ih =>
        intro after hsplit
        rw [List.append_assoc, List.singleton_append] at hsplit
        have hzero := ih _ hsplit
        have hsuits := hS before d after hsplit
        rw [hzero] at hsuits
        rw [lastBlocks_eq_zero] at hzero ⊢
        intro d' hd' htoken
        obtain hd' | hd' := List.mem_append.mp hd'
        · exact hzero d' hd' htoken
        · obtain rfl := List.mem_singleton.mp hd'
          exact eq_false_of_ne_true fun hends => (hsuits htoken e hfirst).2 hends rfl
    exact hnone ds [] (List.append_nil ds).symm
  · intro hnone before d after hsplit htoken x hx
    rw [hsplit, lastBlocks_eq_zero] at hnone
    have hbefore : lastBlocks e.token before = 0 :=
      lastBlocks_eq_zero.mpr fun d' hd' => hnone d' (List.mem_append_left _ hd')
    rw [hbefore, hfirst] at hx
    obtain rfl := Option.some.inj hx
    have hlast := hnone d (List.mem_append_right before List.mem_cons_self) htoken
    exact ⟨fun _ => rfl, fun hends => absurd hends (by simp [hlast])⟩

/-- **A multicast request hears every server** through a sequence of messages
    exactly when each of them suits the entry it gets to. Where no earlier entry
    carries the token of the request: exactly when none of the messages that
    carry it is the last block of an answer. -/
theorem hears_iff {s : Impl} (r : Run system s) (hmcast : s.is_mcast = true)
    {e : TrackToken Tag} (he : e ∈ s.tracked.entries) (ds : List Delivery) :
    (Hears s e ds ↔ ∀ before d after, ds = before ++ d :: after →
      Suits s e (lastBlocks e.token before) d) ∧
    ((s.entriesFor e.token).head? = some e →
      (Hears s e ds ↔
        ∀ d ∈ ds, d.message.token = e.token → d.message.lastBlock = false)) := by
  have hiff := (Multicast.of_run r hmcast).hears_iff_suits he ds
  exact ⟨hiff, fun hfirst => hiff.trans (suits_iff_of_first hfirst ds)⟩

/-- A client is given a multicast address while a request is unanswered. Two
    servers answer the next one, the second of them in two blocks. -/
theorem hears_two_servers :
    let s := (((Impl.new false (.found false true)).sendRequest 0 .m_get 6 [] [2] .granted
      true).setOptions ⟨"ff02::fd", 5683⟩ (.found true true)).sendRequest 1 .m_get 7 [] [1]
        .granted true
    Hears s ⟨⟨7, 1⟩, [1], 0⟩
      [⟨false, ⟨.non, 69, [1], some [4], none⟩⟩,
        ⟨false, ⟨.non, 69, [1], some [5], some ⟨0, true⟩⟩⟩] := by
  intro s
  have hinit : system.init (Impl.new false (.found false true)) := ⟨false, .found false true, rfl⟩
  have r : Run system s :=
    (((Run.start _ hinit).step (.sendRequest .m_get 6 [] [2] .granted true) _ rfl).step
      (.setOptions ⟨"ff02::fd", 5683⟩ (.found true true)) _ rfl).step
        (.sendRequest .m_get 7 [] [1] .granted true) _ rfl
  exact ((hears_iff r rfl (by decide) _).2 (by decide)).mpr (by decide)

/-- One server answers in a single block, with the option: the answer of the
    next is not passed on, and libcoap is told to reset it. And a request is
    left unanswered before the address is set: the answers go to that one. -/
theorem second_server_is_reset :
    (∃ (s : Impl) (_ : Run system s), s.is_mcast = true ∧ ∃ e ∈ s.tracked.entries,
      ∃ first second : Delivery, first.message.token = e.token ∧ second.message.token = e.token ∧
        second.message.passedOn = true ∧
        ((s.receive first).receive second).emitted = (s.receive first).emitted ∧
        (s.receive first).answer second = .fail ∧ ¬ Hears s e [first, second]) ∧
    (∃ (s : Impl) (_ : Run system s), s.is_mcast = true ∧ ∃ e ∈ s.tracked.entries,
      ∃ (d : Delivery) (id : RequestId), d.message.token = e.token ∧ d.message.block2 = none ∧
        id ≠ e.id.id ∧ (s.receive d).emitted = s.emitted ++ [(id, d.message.payload)] ∧
        ¬ Hears s e [d]) := by
  have hinit : system.init (Impl.new false (.found false true)) := ⟨false, .found false true, rfl⟩
  constructor
  · let s := ((Impl.new false (.found false true)).setOptions ⟨"ff02::fd", 5683⟩
      (.found true true)).sendRequest 1 .m_get 7 [] [1] .granted true
    have r : Run system s :=
      ((Run.start _ hinit).step (.setOptions ⟨"ff02::fd", 5683⟩ (.found true true)) _ rfl).step
        (.sendRequest .m_get 7 [] [1] .granted true) _ rfl
    refine ⟨s, r, rfl, ⟨⟨7, 1⟩, [1], 0⟩, by decide,
      ⟨false, ⟨.non, 69, [1], some [4], some ⟨0, false⟩⟩⟩,
      ⟨false, ⟨.non, 69, [1], some [5], none⟩⟩, rfl, rfl, by decide, by decide, by decide, ?_⟩
    intro hH
    exact absurd (hH [] _ _ rfl).1 (by decide)
  · let s := (((Impl.new false (.found false true)).sendRequest 0 .m_get 6 [] [1] .granted
      true).setOptions ⟨"ff02::fd", 5683⟩ (.found true true)).sendRequest 1 .m_get 7 [] [1]
        .granted true
    have r : Run system s :=
      (((Run.start _ hinit).step (.sendRequest .m_get 6 [] [1] .granted true) _ rfl).step
        (.setOptions ⟨"ff02::fd", 5683⟩ (.found true true)) _ rfl).step
          (.sendRequest .m_get 7 [] [1] .granted true) _ rfl
    refine ⟨s, r, rfl, ⟨⟨7, 1⟩, [1], 0⟩, by decide, ⟨false, ⟨.non, 69, [1], some [4], none⟩⟩, 6,
      rfl, rfl, by decide, by decide, ?_⟩
    intro hH
    exact absurd (((hH [] _ _ rfl).2 rfl).1 (by decide)) (by decide)

end CoapClient

end DeviceTester
