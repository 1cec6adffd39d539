import DeviceTester.CoapClient

/-! # CoAP responses and sessions

  Is the id that is emitted with a response the one of the request it answers?
  The table is searched from the front, where the tokens of the earlier
  sessions are. So it is as long as no token that a response of the current
  session carries is still tracked for an earlier session, and where one is,
  the response goes to the request of that session (`responses_attributed`).
-/

namespace DeviceTester

open LTS

namespace CoapClient

/-! ### The property -/

/-- **(A)** A payload that is emitted for a message on the current session goes
    with the id of the request that obtained its token on this session. -/
def Attributed (s : Impl) (l : Label) (s' : Impl) : Prop :=
  match l with
  | .message session _ m =>
      s.session = some session → ∀ id payload, s'.emitted = s.emitted ++ [(id, payload)] →
        ∃ q ∈ s.requests, q.session = session ∧ q.token = m.token ∧ q.id = id
  | _ => True

/-- No token of a message on the current session whose payload is passed on is
    still tracked for an earlier session. -/
def unshadowed (s : Impl) : Label → Bool
  | .message session _ m =>
      !(decide (s.session = some session) && m.passedOn) ||
        s.tracked.entries.all fun e => !(e.token == m.token) || e.id.session == session
  | _ => true

/-! ### The invariant -/

namespace Impl

structure Inv (s : Impl) : Prop where
  holds : s.tracked.Holds s.tracked.entries
  requested : ∀ e ∈ s.tracked.entries, Request.mk e.id.session e.token e.id.id ∈ s.requests
  /-- The tokens of earlier sessions come first. -/
  ordered : s.tracked.entries.Pairwise fun e e' => e.id.session ≤ e'.id.session
  past : ∀ e ∈ s.tracked.entries, e.id.session < s.sessions
  /-- The current session is the last that was made. -/
  current : ∀ n, s.session = some n → n + 1 = s.sessions
  unobserved : s.obs_started = 0

/-- A change of the table, to entries of which `h` can be said. -/
theorem Inv.withTable {s s' : Impl} (h : s.Inv) {es : List (TrackToken Tag)}
    (hes : s'.tracked.Holds es)
    (hrequested : ∀ e ∈ es, Request.mk e.id.session e.token e.id.id ∈ s'.requests)
    (hordered : es.Pairwise fun e e' => e.id.session ≤ e'.id.session)
    (hpast : ∀ e ∈ es, e.id.session < s'.sessions) (hsession : s'.session = s.session)
    (hsessions : s'.sessions = s.sessions) (hobs : s'.obs_started = s.obs_started) : s'.Inv := by
  have heq := hes.entries_eq
  exact ⟨heq ▸ hes, heq ▸ hrequested, heq ▸ hordered, heq ▸ hpast,
    by rw [hsession, hsessions]; exact h.current, hobs.trans h.unobserved⟩

theorem Inv.createSession {s : Impl} (h : s.Inv) (answer : Lookup) :
    (s.createSession answer).Inv := by
  cases answer with
  | notFound => exact h
  | found is_multicast made =>
    cases made with
    | false => exact ⟨h.holds, h.requested, h.ordered, h.past, h.current, h.unobserved⟩
    | true =>
      refine ⟨h.holds, h.requested, h.ordered, ?_, ?_, h.unobserved⟩
      · intro e he
        exact Nat.lt_succ_of_lt (h.past e he)
      · intro n hn
        obtain rfl := Option.some.inj hn
        rfl

theorem Inv.new (is_mcast : Bool) (answer : Lookup) : (Impl.new is_mcast answer).Inv := by
  apply Inv.createSession
  refine ⟨TokenTable.Holds.new, ?_, ?_, ?_, ?_, rfl⟩
  · intro e he
    cases he
  · exact List.Pairwise.nil
  · intro e he
    cases he
  · intro n hn
    cases hn

theorem Inv.setOptions {s : Impl} (h : s.Inv) (opts : Options) (answer : Lookup) :
    (s.setOptions opts answer).Inv := by
  have hopts : ({ s with opts := opts } : Impl).Inv :=
    ⟨h.holds, h.requested, h.ordered, h.past, h.current, h.unobserved⟩
  exact hopts.createSession answer

theorem Inv.freeLargeData {s : Impl} (h : s.Inv) (key : Nat) : (s.freeLargeData key).Inv :=
  ⟨h.holds, h.requested, h.ordered, h.past, h.current, h.unobserved⟩

/-- What `sendRequest` does to the fields the invariant speaks of. -/
theorem sendRequest_fields (s : Impl) (n : Nat) (method : Method) (id : RequestId)
    (data : List UInt8) (token : Token) (a : Allocation) (token_added : Bool) :
    let s' := s.sendRequest n method id data token a token_added
    s'.tracked = s.tracked.track_new_token token ⟨id, n⟩ s.doing_observe a ∧
      s'.requests = s.requests ++ [⟨n, token, id⟩] ∧ s'.session = s.session ∧
      s'.sessions = s.sessions ∧ s'.obs_started = s.obs_started := by
  simp only [Impl.sendRequest]
  split
  · exact ⟨rfl, rfl, rfl, rfl, rfl⟩
  · exact ⟨rfl, rfl, rfl, rfl, rfl⟩

theorem Inv.sendRequest {s : Impl} (h : s.Inv) {n : Nat} (hn : s.session = some n)
    (method : Method) (id : RequestId) (data : List UInt8) (token : Token) (a : Allocation)
    (token_added : Bool) : (s.sendRequest n method id data token a token_added).Inv := by
  obtain ⟨htracked, hrequests, hsession, hsessions, hobs⟩ :=
    s.sendRequest_fields n method id data token a token_added
  have hlast := h.current n hn
  have hold : ∀ e ∈ s.tracked.entries, Request.mk e.id.session e.token e.id.id ∈
      s.requests ++ [⟨n, token, id⟩] := by
    intro e he
    exact List.mem_append_left _ (h.requested e he)
  by_cases ha : a = .granted
  · subst ha
    -- the new entry is the last, and of the current session
    refine h.withTable (htracked ▸ h.holds.track token ⟨id, n⟩ s.doing_observe) ?_ ?_ ?_
      hsession hsessions hobs
    · rw [hrequests]
      intro e he
      rcases List.mem_append.mp he with he | he
      · exact hold e he
      · obtain rfl := List.mem_singleton.mp he
        exact List.mem_append_right _ (List.mem_singleton.mpr rfl)
    · rw [List.pairwise_append]
      refine ⟨h.ordered, List.pairwise_singleton _ _, fun e he e' he' => ?_⟩
      obtain rfl := List.mem_singleton.mp he'
      have hlt := h.past e he
      show e.id.session ≤ n
      omega
    · rw [hsessions]
      intro e he
      rcases List.mem_append.mp he with he | he
      · exact h.past e he
      · obtain rfl := List.mem_singleton.mp he
        show n < s.sessions
        omega
  · refine h.withTable (htracked ▸ h.holds.track_fails token ⟨id, n⟩ s.doing_observe ha) ?_
      h.ordered ?_ hsession hsessions hobs
    · rw [hrequests]
      exact hold
    · rw [hsessions]
      exact h.past

theorem Inv.flush {s : Impl} (h : s.Inv) (token : Token) : (s.flush token).Inv := by
  have hholds : (s.flush token).tracked.Holds
      (s.tracked.entries.eraseP fun e => e.token == token) := by
    show (s.tracked.track_flush_token s.obs_started token).Holds _
    rw [h.unobserved]
    exact h.holds.flush token
  refine h.withTable hholds ?_ (h.ordered.sublist List.eraseP_sublist) ?_ rfl rfl rfl
  · intro e he
    exact h.requested e (List.mem_of_mem_eraseP he)
  · intro e he
    exact h.past e (List.mem_of_mem_eraseP he)

theorem Inv.withEmitted {s : Impl} (h : s.Inv) (emitted : List (RequestId × List UInt8)) :
    ({ s with emitted := emitted } : Impl).Inv :=
  ⟨h.holds, h.requested, h.ordered, h.past, h.current, h.unobserved⟩

/-- Every step keeps the invariant. -/
theorem Inv.next {s s' : Impl} {l : Label} (h : s.Inv) (hn : s.next l = some s') : s'.Inv := by
  obtain ⟨_, hn⟩ := Impl.next_eq_some.mp hn
  cases l with
  | setOptions opts answer =>
    obtain rfl := Option.some.inj hn
    exact h.setOptions opts answer
  | sendRequest method id data token a token_added =>
    obtain ⟨n, hsession, hn⟩ := Option.bind_eq_some_iff.mp hn
    split at hn
    · obtain rfl := Option.some.inj hn
      exact h.sendRequest hsession method id data token a token_added
    · cases hn
  | message session sent m =>
    simp only [Impl.step] at hn
    split at hn
    · obtain rfl := Option.some.inj hn
      obtain ⟨emitted, hkeep | hflush⟩ := messageCallback_cases s sent m
      · rw [hkeep]
        exact h.withEmitted emitted
      · rw [hflush]
        exact (h.withEmitted emitted).flush m.token
    · cases hn
  | freeLargeData key =>
    obtain rfl := Option.some.inj hn
    exact h.freeLargeData key

/-- What is emitted comes from the first entry with the token. -/
theorem Inv.emitted {s : Impl} (h : s.Inv) (sent : Bool) (m : Received) :
    (s.messageCallback sent m).1.emitted = s.emitted ++
      match s.tracked.entries.find? fun e => e.token == m.token with
      | some e => if m.passedOn then [(e.id.id, m.payload)] else []
      | none => [] := by
  rw [messageCallback_emitted, h.holds.check]
  cases s.tracked.entries.find? fun e => e.token == m.token with
  | none => rfl
  | some e => rfl

end Impl

/-! ### Attribution -/

/-- One message, when nothing shadows its token. -/
theorem attributed_message {s : Impl} (h : s.Inv) {session : Nat} {sent : Bool} {m : Received}
    (hC : unshadowed s (.message session sent m) = true) :
    Attributed s (.message session sent m) (s.messageCallback sent m).1 := by
  intro hsession id payload hemitted
  rw [h.emitted, List.append_cancel_left_eq] at hemitted
  cases hfound : s.tracked.entries.find? fun e => e.token == m.token with
  | none =>
    rw [hfound] at hemitted
    cases hemitted
  | some e =>
    rw [hfound] at hemitted
    have hmem := List.mem_of_find?_eq_some hfound
    have htoken := List.find?_some hfound
    rw [beq_iff_eq] at htoken
    -- the entry is of the current session, and what it was requested with is recorded
    by_cases hpass : m.passedOn = true
    · simp only [hpass, if_true, List.cons.injEq, Prod.mk.injEq, and_true] at hemitted
      simp only [unshadowed, hsession, hpass, decide_true, Bool.and_self, Bool.not_true,
        Bool.false_or, List.all_eq_true] at hC
      have hsame := hC e hmem
      simp only [htoken, beq_self_eq_true, Bool.not_true, Bool.false_or, beq_iff_eq] at hsame
      exact ⟨_, h.requested e hmem, hsame, htoken, hemitted.1⟩
    · simp [hpass] at hemitted

/-- One message, when something shadows its token. -/
theorem misattributed_message {s : Impl} (h : s.Inv) {session : Nat} {sent : Bool} {m : Received}
    (hsession : s.session = some session)
    (hC : unshadowed s (.message session sent m) = false) :
    ∃ q ∈ s.requests, q.session < session ∧ q.token = m.token ∧
      ∃ payload, (s.messageCallback sent m).1.emitted = s.emitted ++ [(q.id, payload)] := by
  simp only [unshadowed, hsession, decide_true, Bool.true_and, Bool.or_eq_false_iff,
    Bool.not_eq_false', List.all_eq_false, Bool.not_eq_true, beq_iff_eq] at hC
  obtain ⟨hpass, stale, hstale, htoken, hother⟩ := hC
  have hlast := h.current session hsession
  have hpast := h.past stale hstale
  rw [beq_eq_false_iff_ne] at hother
  -- the entry that is found is not behind the stale one
  have hsome : (s.tracked.entries.find? fun e => e.token == m.token).isSome = true := by
    rw [List.find?_isSome]
    exact ⟨stale, hstale, by simp [htoken]⟩
  obtain ⟨e, hfound⟩ := Option.isSome_iff_exists.mp hsome
  have hmem := List.mem_of_find?_eq_some hfound
  have hfirst : e.id.session ≤ stale.id.session := by
    obtain ⟨_, before, after, hsplit, hnot⟩ := List.find?_eq_some_iff_append.mp hfound
    have hordered := h.ordered
    rw [hsplit] at hordered hstale
    rcases List.mem_append.mp hstale with hin | hin
    · -- no entry before the first match has the token
      have hne := hnot stale hin
      simp [htoken] at hne
    · rcases List.mem_cons.mp hin with rfl | hin
      · exact Nat.le_refl _
      · -- the stale entry lies behind it, so it is of no earlier session
        have hpair := (List.pairwise_append.mp hordered).2.1
        exact (List.pairwise_cons.mp hpair).1 stale hin
  refine ⟨_, h.requested e hmem, ?_, ?_, m.payload, ?_⟩
  · show e.id.session < session
    omega
  · have hfoundToken := List.find?_some hfound
    rwa [beq_iff_eq] at hfoundToken
  · rw [h.emitted, hfound, hpass]
    rfl

/-- **Responses are attributed to the right request** throughout a run in which
    no message on the current session carries a token that is still tracked
    for an earlier session. Every message that does is attributed to a request
    of an earlier session. -/
theorem responses_attributed {s : Impl} (r : Run system s) :
    ((r.EachStep fun s l => unshadowed s l = true) → r.Ensures Attributed) ∧
    (∀ session sent m, s.session = some session →
      unshadowed s (.message session sent m) = false →
      ∃ q ∈ s.requests, q.session < session ∧ q.token = m.token ∧
        ∃ payload, (s.messageCallback sent m).1.emitted = s.emitted ++ [(q.id, payload)]) := by
  have hinit : ∀ s, system.init s → s.Inv := by
    rintro s ⟨is_mcast, answer, rfl⟩
    exact Impl.Inv.new is_mcast answer
  have hstep : ∀ s l s', Impl.Inv s → system.next s l = some s' → Impl.Inv s' :=
    fun s l s' h hn => h.next hn
  constructor
  · intro hC
    refine Run.ensures_of_eachStep hinit hstep (fun s l s' h hl hn => ?_) r hC
    cases l with
    | message session sent m =>
      obtain ⟨_, hn⟩ := Impl.next_eq_some.mp hn
      obtain ⟨_, heq⟩ := Option.ite_none_right_eq_some.mp hn
      obtain rfl := Option.some.inj heq
      exact attributed_message h hl
    | _ => trivial
  · intro session sent m hsession hC
    exact misattributed_message (r.invariant hinit hstep) hsession hC

/-- Each of two sessions gives out the same token. The first request is answered
    before the options are set, and so the answer to the second one goes with its
    own id. -/
theorem answer_to_new_request :
    ∃ (s : Impl) (r : Run system s), s.emitted = [(1, [41]), (2, [42])] ∧ r.Ensures Attributed := by
  obtain ⟨s, r, hshadow, hs⟩ := Run.exists_of_check system ⟨false, .found false true, rfl⟩
    [.sendRequest .m_get 1 [] [1] .granted true, .message 0 true ⟨.ack, 69, [1], some [41], none⟩,
      .setOptions ⟨"::1", 5683⟩ (.found false true), .sendRequest .m_get 2 [] [1] .granted true,
      .message 1 true ⟨.ack, 69, [1], some [42], none⟩]
    unshadowed (fun s => decide (s.emitted = [(1, [41]), (2, [42])])) (by decide)
  exact ⟨s, r, of_decide_eq_true hs, (responses_attributed r).1 hshadow⟩

/-- A request is left unanswered, the options are set, and the new session
    gives out the same token: the answer is emitted with the id of the old
    request. -/
theorem answer_to_old_request : ∃ (s : Impl) (r : Run system s), ¬ r.Ensures Attributed := by
  let answer : Received := ⟨.ack, 69, [1], some [42], none⟩
  apply Run.exists_not_ensures system ⟨false, .found false true, rfl⟩
    [.sendRequest .m_get 1 [] [1] .granted true, .setOptions ⟨"::1", 5683⟩ (.found false true),
      .sendRequest .m_get 2 [] [1] .granted true]
    (.message 1 true answer)
    (fun s s' => decide (s.session = some 1) && decide (s'.emitted = s.emitted ++ [(1, [42])]) &&
      s.requests.all fun q => !(q.session == 1 && q.id == 1))
  · intro s s' hv hA
    simp only [Bool.and_eq_true, decide_eq_true_eq, List.all_eq_true] at hv
    obtain ⟨⟨hsession, hemitted⟩, hnone⟩ := hv
    obtain ⟨q, hq, hq₁, _, hq₂⟩ := hA hsession 1 [42] hemitted
    have hno := hnone q hq
    simp [hq₁, hq₂] at hno
  · decide

end CoapClient

end DeviceTester
