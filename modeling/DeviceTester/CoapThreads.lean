import DeviceTester.Framework.Run
import DeviceTester.Framework.SharedMutex
import DeviceTester.TokenSteps
import Mathlib.Logic.Function.Basic

/-! # Threads that track tokens

  `sendRequest` is called by any number of threads, and `doIO` runs on the
  strand and has responses delivered to `messageCallback`. Both hold
  `coap_mtx_` while they are at it, in shared mode.

  Others may come in between the steps of a call of `track_new_token` or
  `track_flush_token`, and between those of `track_check_token`.

  The calls exclude each other, and nothing is lost, exactly when none begins
  inside another one. The modes of the mutex do not see to that: `sendRequest`
  would have to take it in exclusive mode (`requests_kept_iff`), while for
  `doIO`, which is alone on its strand, either mode would do.
-/

namespace DeviceTester

open LTS Lock

namespace CoapClient

/-! ### The threads -/

/-- The callers of `sendRequest`, and the strand that runs `doIO`. -/
inductive Thread where
  | caller (n : Nat)
  | io
  deriving DecidableEq, Repr

/-- Where a caller of `sendRequest` is. -/
inductive Caller where
  | out
  /-- It has taken the mutex. -/
  | locked
  | tracking (token : Token) (id : RequestId) (a : Allocation) (pc : Pc)
  /-- `track_new_token` has returned. -/
  | sending
  deriving DecidableEq, Repr

/-- Where `doIO` is. -/
inductive Io where
  | out
  | locked
  /-- `track_check_token` is about to read the count, and to compare tokens. -/
  | checking (token : Token)
  | comparing (token : Token) (count : Nat)
  /-- The token has been found. -/
  | answering (token : Token)
  | flushing (token : Token) (pc : Pc)
  deriving DecidableEq, Repr

/-- The modes in which the mutex is taken. -/
structure Modes where
  sendRequest : Mode
  doIO : Mode
  deriving DecidableEq, Repr

/-- Those of the source. -/
def Modes.taken : Modes := ⟨.shared, .shared⟩

structure Threads where
  coap_mtx : SharedMutex Thread
  table : TokenTable RequestId
  callers : Nat → Caller
  io : Io
  /-- The tokens that libcoap has given out, which are distinct within the
      session. -/
  given : List Token
  /-- Not part of the program: what has been tracked, and flushed, by the calls
      that have returned. -/
  tracked : List (TrackToken RequestId)
  flushed : List Token

namespace Threads

def new : Threads where
  coap_mtx := .free
  table := .new
  callers := fun _ => .out
  io := .out
  given := []
  tracked := []
  flushed := []

inductive Label where
  | lock (t : Thread)
  | unlock (t : Thread)
  /-- The caller obtains a token and calls `track_new_token`. -/
  | track_new (n : Nat) (token : Token) (id : RequestId) (a : Allocation)
  /-- libcoap calls `messageCallback`. -/
  | receive (token : Token)
  /-- `messageCallback` has found the token, and calls `track_flush_token` or
      returns without. -/
  | conclude (flushes : Bool)
  /-- The thread does its next step of a call. -/
  | step (t : Thread)

def setCaller (s : Threads) (n : Nat) (c : Caller) : Threads :=
  { s with callers := Function.update s.callers n c }

@[simp] theorem setCaller_self (s : Threads) (n : Nat) (c : Caller) :
    (s.setCaller n c).callers n = c := by
  simp [setCaller]

@[simp] theorem setCaller_ne (s : Threads) (c : Caller) {m n : Nat} (h : m ≠ n) :
    (s.setCaller n c).callers m = s.callers m := by
  simp [setCaller, h]

/-- What a call that returns has tracked or flushed. -/
def record (s : Threads) : Call → Threads
  | .track_new token id .granted => { s with tracked := s.tracked ++ [⟨id, token, 0⟩] }
  | .track_new _ _ _ => s
  | .track_flush token => { s with flushed := s.flushed ++ [token] }

def lockNext (modes : Modes) (s : Threads) : Thread → Option Threads
  | .caller n =>
      if s.callers n = .out then
        (s.coap_mtx.lock (.caller n) modes.sendRequest).map fun m =>
          { s with coap_mtx := m }.setCaller n .locked
      else none
  | .io =>
      if s.io = .out then
        (s.coap_mtx.lock .io modes.doIO).map fun m => { s with coap_mtx := m, io := .locked }
      else none

def unlockNext (s : Threads) : Thread → Option Threads
  | .caller n =>
      if s.callers n = .sending then
        some ({ s with coap_mtx := s.coap_mtx.unlock (.caller n) }.setCaller n .out)
      else none
  | .io =>
      if s.io = .locked then some { s with coap_mtx := s.coap_mtx.unlock .io, io := .out }
      else none

def stepNext (s : Threads) : Thread → Option Threads
  | .caller n =>
      match s.callers n with
      | .tracking token id a pc =>
          match (Call.track_new token id a).step s.table pc with
          | (some pc', table) => some ({ s with table := table }.setCaller n (.tracking token id a pc'))
          | (none, table) =>
              some (({ s with table := table }.setCaller n .sending).record (.track_new token id a))
      | _ => none
  | .io =>
      match s.io with
      | .checking token => some { s with io := .comparing token s.table.tracked_tokens_count }
      | .comparing token count =>
          let found := ((TokenTable.mk s.table.slots count).firstMatch token).isSome
          some { s with io := if found then .answering token else .locked }
      | .flushing token pc =>
          match (Call.track_flush token).step s.table pc with
          | (some pc', table) => some { s with table := table, io := .flushing token pc' }
          | (none, table) =>
              some ({ s with table := table, io := .locked }.record (.track_flush token))
      | _ => none

def next (modes : Modes) (s : Threads) : Label → Option Threads
  | .lock t => s.lockNext modes t
  | .unlock t => s.unlockNext t
  | .track_new n token id a =>
      if s.callers n = .locked ∧ token ∉ s.given then
        some ({ s with given := s.given ++ [token] }.setCaller n (.tracking token id a .reading))
      else none
  | .receive token => if s.io = .locked then some { s with io := .checking token } else none
  | .conclude flushes =>
      match s.io with
      | .answering token =>
          some { s with io := if flushes then .flushing token .reading else .locked }
      | _ => none
  | .step t => s.stepNext t

end Threads

/-- The threads of one session. -/
def threads (modes : Modes) : System Threads Threads.Label where
  init := fun s => s = Threads.new
  next := Threads.next modes

/-! ### The property -/

/-- The call of one of the two functions that a thread is in. -/
def Caller.inside : Caller → Option (Call × Pc)
  | .tracking token id a pc => some (.track_new token id a, pc)
  | _ => none

def Io.inside : Io → Option (Call × Pc)
  | .flushing token pc => some (.track_flush token, pc)
  | _ => none

namespace Threads

def inside (s : Threads) : Thread → Option (Call × Pc)
  | .caller n => (s.callers n).inside
  | .io => s.io.inside

/-- **(X)** No two threads are inside. -/
def Exclusive (s : Threads) : Prop :=
  ∀ t t', s.inside t ≠ none → s.inside t' ≠ none → t = t'

/-- Nobody is inside. -/
def Quiet (s : Threads) : Prop := ∀ t, s.inside t = none

/-- What has been tracked and not flushed is found with its id, and what has
    been flushed is not found. -/
def Kept (s : Threads) : Prop :=
  (∀ e ∈ s.tracked, e.token ∉ s.flushed → s.table.track_check_token e.token = some e.id) ∧
  ∀ token ∈ s.flushed, s.table.track_check_token token = none

def Consistent (s : Threads) : Prop := s.Exclusive ∧ (s.Quiet → s.Kept)

/-- A call begins only when nobody is inside another one. -/
def EntersAlone (s : Threads) : Label → Prop
  | .track_new _ _ _ _ => s.Quiet
  | .conclude flushes => flushes = true → s.Quiet
  | _ => True

end Threads

/-! ### What one step can do -/

namespace Threads

/-- The steps of the threads. A call goes on, or it returns. -/
inductive Step (modes : Modes) (s : Threads) : Label → Threads → Prop
  | lockCaller {n : Nat} {m : SharedMutex Thread} (hout : s.callers n = .out)
      (hm : s.coap_mtx.lock (.caller n) modes.sendRequest = some m) :
      Step modes s (.lock (.caller n)) ({ s with coap_mtx := m }.setCaller n .locked)
  | lockIo {m : SharedMutex Thread} (hout : s.io = .out)
      (hm : s.coap_mtx.lock .io modes.doIO = some m) :
      Step modes s (.lock .io) { s with coap_mtx := m, io := .locked }
  | unlockCaller {n : Nat} (hsending : s.callers n = .sending) :
      Step modes s (.unlock (.caller n))
        ({ s with coap_mtx := s.coap_mtx.unlock (.caller n) }.setCaller n .out)
  | unlockIo (hlocked : s.io = .locked) :
      Step modes s (.unlock .io) { s with coap_mtx := s.coap_mtx.unlock .io, io := .out }
  | track_new {n : Nat} {token : Token} {id : RequestId} {a : Allocation}
      (hlocked : s.callers n = .locked) (hfresh : token ∉ s.given) :
      Step modes s (.track_new n token id a)
        ({ s with given := s.given ++ [token] }.setCaller n (.tracking token id a .reading))
  | receive {token : Token} (hlocked : s.io = .locked) :
      Step modes s (.receive token) { s with io := .checking token }
  | conclude {token : Token} {flushes : Bool} (hfound : s.io = .answering token) :
      Step modes s (.conclude flushes)
        { s with io := if flushes then .flushing token .reading else .locked }
  | trackMore {n : Nat} {token : Token} {id : RequestId} {a : Allocation} {pc pc' : Pc}
      {table : TokenTable RequestId} (hat : s.callers n = .tracking token id a pc)
      (hs : (Call.track_new token id a).step s.table pc = (some pc', table)) :
      Step modes s (.step (.caller n))
        ({ s with table := table }.setCaller n (.tracking token id a pc'))
  | trackReturns {n : Nat} {token : Token} {id : RequestId} {a : Allocation} {pc : Pc}
      {table : TokenTable RequestId} (hat : s.callers n = .tracking token id a pc)
      (hs : (Call.track_new token id a).step s.table pc = (none, table)) :
      Step modes s (.step (.caller n))
        (({ s with table := table }.setCaller n .sending).record (.track_new token id a))
  | check {token : Token} (hat : s.io = .checking token) :
      Step modes s (.step .io) { s with io := .comparing token s.table.tracked_tokens_count }
  | compare {token : Token} {count : Nat} (hat : s.io = .comparing token count) :
      Step modes s (.step .io)
        { s with io :=
            if ((TokenTable.mk s.table.slots count).firstMatch token).isSome then .answering token
            else .locked }
  | flushMore {token : Token} {pc pc' : Pc} {table : TokenTable RequestId}
      (hat : s.io = .flushing token pc)
      (hs : (Call.track_flush token).step s.table pc = (some pc', table)) :
      Step modes s (.step .io) { s with table := table, io := .flushing token pc' }
  | flushReturns {token : Token} {pc : Pc} {table : TokenTable RequestId}
      (hat : s.io = .flushing token pc)
      (hs : (Call.track_flush token).step s.table pc = (none, table)) :
      Step modes s (.step .io) ({ s with table := table, io := .locked }.record (.track_flush token))

theorem step_of_stepNext {modes : Modes} {s s' : Threads} {t : Thread}
    (hn : s.stepNext t = some s') : s.Step modes (.step t) s' := by
  unfold stepNext at hn
  cases t with
  | caller n =>
    simp only at hn
    split at hn
    · next token id a pc hat =>
      rcases hs : (Call.track_new token id a).step s.table pc with ⟨_ | pc', table⟩
      · rw [hs] at hn
        exact Option.some.inj hn ▸ .trackReturns hat hs
      · rw [hs] at hn
        exact Option.some.inj hn ▸ .trackMore hat hs
    · cases hn
  | io =>
    simp only at hn
    split at hn
    · next token hat => exact Option.some.inj hn ▸ .check hat
    · next token count hat => exact Option.some.inj hn ▸ .compare hat
    · next token pc hat =>
      rcases hs : (Call.track_flush token).step s.table pc with ⟨_ | pc', table⟩
      · rw [hs] at hn
        exact Option.some.inj hn ▸ .flushReturns hat hs
      · rw [hs] at hn
        exact Option.some.inj hn ▸ .flushMore hat hs
    · cases hn

theorem step_of_next {modes : Modes} {s s' : Threads} {l : Label} (hn : s.next modes l = some s') :
    s.Step modes l s' := by
  cases l with
  | lock t =>
    cases t with
    | caller n =>
      obtain ⟨hout, hn⟩ := Option.ite_none_right_eq_some.mp hn
      obtain ⟨m, hm, rfl⟩ := Option.map_eq_some_iff.mp hn
      exact .lockCaller hout hm
    | io =>
      obtain ⟨hout, hn⟩ := Option.ite_none_right_eq_some.mp hn
      obtain ⟨m, hm, rfl⟩ := Option.map_eq_some_iff.mp hn
      exact .lockIo hout hm
  | unlock t =>
    cases t with
    | caller n =>
      obtain ⟨hsending, hn⟩ := Option.ite_none_right_eq_some.mp hn
      exact Option.some.inj hn ▸ .unlockCaller hsending
    | io =>
      obtain ⟨hlocked, hn⟩ := Option.ite_none_right_eq_some.mp hn
      exact Option.some.inj hn ▸ .unlockIo hlocked
  | track_new n token id a =>
    obtain ⟨⟨hlocked, hfresh⟩, hn⟩ := Option.ite_none_right_eq_some.mp hn
    exact Option.some.inj hn ▸ .track_new hlocked hfresh
  | receive token =>
    obtain ⟨hlocked, hn⟩ := Option.ite_none_right_eq_some.mp hn
    exact Option.some.inj hn ▸ .receive hlocked
  | conclude flushes =>
    unfold next at hn
    simp only at hn
    split at hn
    · next token hfound => exact Option.some.inj hn ▸ .conclude hfound
    · cases hn
  | step t => exact step_of_stepNext hn

/-! ### The invariant -/

/-- What has been tracked and not flushed. -/
def outstanding (s : Threads) : List (TrackToken RequestId) :=
  s.tracked.filter fun e => decide (e.token ∉ s.flushed)

/-- The token that `messageCallback` has found. -/
def found (s : Threads) : Option Token :=
  match s.io with
  | .answering token => some token
  | .flushing token _ => some token
  | _ => none

structure Ledger (s : Threads) : Prop where
  distinct : (s.tracked.map (·.token)).Nodup
  given : ∀ e ∈ s.tracked, e.token ∈ s.given
  flushed : ∀ token ∈ s.flushed, token ∈ s.tracked.map (·.token)

/-- The table has held the outstanding requests when the call that somebody is
    in, if anybody is, began, and that call has not been interfered with. -/
structure Inv (s : Threads) : Prop where
  exclusive : s.Exclusive
  ledger : s.Ledger
  table : ∃ before : TokenTable RequestId, before.Holds s.outstanding ∧
    (s.Quiet → s.table = before) ∧
    ∀ t call pc, s.inside t = some (call, pc) → call.Reached before pc s.table
  pending : ∀ t token id a pc, s.inside t = some (.track_new token id a, pc) →
    token ∈ s.given ∧ token ∉ s.tracked.map (·.token)
  known : ∀ token, s.found = some token → token ∈ s.outstanding.map (·.token)
  compared : ∀ token count, s.io = .comparing token count → count ≤ s.outstanding.length

variable {modes : Modes} {s s' : Threads}

theorem outstanding_eq (htracked : s'.tracked = s.tracked) (hflushed : s'.flushed = s.flushed) :
    s'.outstanding = s.outstanding := by
  unfold outstanding
  rw [htracked, hflushed]

theorem not_outstanding {token : Token} (hf : token ∈ s.flushed) :
    token ∉ s.outstanding.map (·.token) := by
  intro hmem
  obtain ⟨e, he, rfl⟩ := List.mem_map.mp hmem
  exact of_decide_eq_true (List.mem_filter.mp he).2 hf

theorem Ledger.nodup (h : s.Ledger) : (s.outstanding.map (·.token)).Nodup :=
  h.distinct.sublist (List.filter_sublist.map _)

/-- When nobody is inside, everything is where it belongs. -/
theorem Inv.consistent (h : s.Inv) : s.Consistent := by
  refine ⟨h.exclusive, fun hquiet => ?_⟩
  obtain ⟨before, hholds, htable, _⟩ := h.table
  rw [← htable hquiet] at hholds
  constructor
  · intro e he hkept
    exact hholds.check_mem h.ledger.nodup
      (List.mem_filter.mpr ⟨he, decide_eq_true hkept⟩)
  · intro token hflushed
    have hno := not_outstanding hflushed
    rw [← hholds.check_isSome, Bool.not_eq_true, Option.isSome_eq_false_iff] at hno
    exact Option.isNone_iff_eq_none.mp hno

theorem Inv.new : Threads.new.Inv where
  exclusive := by
    intro t t' ht
    cases t <;> exact absurd rfl ht
  ledger := ⟨List.nodup_nil, by simp [Threads.new], by simp [Threads.new]⟩
  table := by
    refine ⟨.new, .new, fun _ => rfl, ?_⟩
    intro t call pc ht
    cases t <;> cases ht
  pending := by
    intro t token id a pc ht
    cases t <;> cases ht
  known := by
    intro token hfound
    cases hfound
  compared := by
    intro token count hio
    cases hio

/-! #### Moving one thread -/

/-- Of the threads, only `t` does anything. -/
def Moves (s : Threads) (t : Thread) (o : Option (Call × Pc)) (s' : Threads) : Prop :=
  s'.inside t = o ∧ ∀ t', t' ≠ t → s'.inside t' = s.inside t'

theorem moves_caller (n : Nat) (c : Caller) (hc : s'.callers = Function.update s.callers n c)
    (hio : s'.io = s.io) : s.Moves (.caller n) c.inside s' := by
  constructor
  · show (s'.callers n).inside = c.inside
    rw [hc, Function.update_self]
  · intro t' hne
    cases t' with
    | caller m =>
      have hm : m ≠ n := fun heq => hne (congrArg Thread.caller heq)
      show (s'.callers m).inside = (s.callers m).inside
      rw [hc, Function.update_of_ne hm]
    | io =>
      show s'.io.inside = s.io.inside
      rw [hio]

theorem moves_io (hc : s'.callers = s.callers) : s.Moves .io s'.io.inside s' := by
  refine ⟨rfl, fun t' hne => ?_⟩
  cases t' with
  | caller n =>
    show (s'.callers n).inside = (s.callers n).inside
    rw [hc]
  | io => exact absurd rfl hne

/-- A thread that stays where it is leaves everybody where they are. -/
theorem Moves.inside_eq {t : Thread} {o : Option (Call × Pc)} (hm : s.Moves t o s')
    (hsame : s.inside t = o) : s'.inside = s.inside := by
  funext t'
  by_cases h : t' = t
  · rw [h, hm.1, hsame]
  · exact hm.2 t' h

theorem inside_of_io {io : Io} {m : SharedMutex Thread} (hfrom : s.io.inside = none)
    (hto : io.inside = none) : inside { s with coap_mtx := m, io := io } = s.inside := by
  have hm : s.Moves .io io.inside { s with coap_mtx := m, io := io } := moves_io rfl
  exact hm.inside_eq (hfrom.trans hto.symm)

/-- The others are outside when one is inside. -/
theorem Exclusive.others (h : s.Exclusive) {t : Thread} {x : Call × Pc}
    (ht : s.inside t = some x) : ∀ t', t' ≠ t → s.inside t' = none := by
  intro t' hne
  by_contra hinside
  exact hne (h t' t hinside (by rw [ht]; exact Option.some_ne_none x))

theorem Exclusive.of_moves {t : Thread} {o : Option (Call × Pc)} (hm : s.Moves t o s')
    (hothers : ∀ t', t' ≠ t → s.inside t' = none) : s'.Exclusive := by
  have hout : ∀ t', s'.inside t' ≠ none → t' = t := by
    intro t' ht'
    by_contra hne
    exact ht' ((hm.2 t' hne).trans (hothers t' hne))
  intro t₁ t₂ h₁ h₂
  rw [hout t₁ h₁, hout t₂ h₂]

/-! #### The steps -/

/-- A step outside of the two functions. -/
theorem Inv.frame (h : s.Inv) (hin : s'.inside = s.inside) (htable : s'.table = s.table)
    (hgiven : s'.given = s.given) (htracked : s'.tracked = s.tracked)
    (hflushed : s'.flushed = s.flushed)
    (hfound : ∀ token, s'.found = some token → token ∈ s.outstanding.map (·.token))
    (hcompared : ∀ token count, s'.io = .comparing token count → count ≤ s.outstanding.length) :
    s'.Inv := by
  have hout := outstanding_eq htracked hflushed
  constructor
  · show ∀ t t', s'.inside t ≠ none → s'.inside t' ≠ none → t = t'
    rw [hin]
    exact h.exclusive
  · exact ⟨htracked ▸ h.ledger.distinct, by rw [htracked, hgiven]; exact h.ledger.given,
      by rw [htracked, hflushed]; exact h.ledger.flushed⟩
  · show ∃ before : TokenTable RequestId, before.Holds s'.outstanding ∧
      ((∀ t, s'.inside t = none) → s'.table = before) ∧ _
    rw [hin, htable, hout]
    exact h.table
  · rw [hin, hgiven, htracked]
    exact h.pending
  · rw [hout]
    exact hfound
  · rw [hout]
    exact hcompared

/-- A thread begins a call, or goes on with it, while the others are outside. -/
theorem inv_within {t : Thread} {call : Call} {pc : Pc}
    {before : TokenTable RequestId} (hm : s.Moves t (some (call, pc)) s')
    (hothers : ∀ t', t' ≠ t → s.inside t' = none) (hledger : s'.Ledger)
    (htracked : s'.tracked = s.tracked) (hflushed : s'.flushed = s.flushed)
    (hholds : before.Holds s.outstanding) (hreached : call.Reached before pc s'.table)
    (hpending : ∀ token id a, call = .track_new token id a →
      token ∈ s'.given ∧ token ∉ s.tracked.map (·.token))
    (hfound : ∀ token, s'.found = some token → token ∈ s.outstanding.map (·.token))
    (hcompared : ∀ token count, s'.io = .comparing token count → count ≤ s.outstanding.length) :
    s'.Inv := by
  have hout := outstanding_eq htracked hflushed
  have honly : ∀ t' x, s'.inside t' = some x → x = (call, pc) := by
    intro t' x ht'
    by_cases hne : t' = t
    · rw [hne, hm.1] at ht'
      exact (Option.some.inj ht').symm
    · rw [hm.2 t' hne, hothers t' hne] at ht'
      cases ht'
  constructor
  · exact Exclusive.of_moves hm hothers
  · exact hledger
  · refine ⟨before, hout ▸ hholds, fun hquiet => ?_, fun t' call' pc' ht' => ?_⟩
    · have hin := hm.1
      rw [hquiet t] at hin
      cases hin
    · obtain ⟨rfl, rfl⟩ := Prod.mk.inj (honly t' _ ht')
      exact hreached
  · intro t' token id a pc' ht'
    have hcall := congrArg Prod.fst (honly t' _ ht')
    rw [htracked]
    exact hpending token id a hcall.symm
  · rw [hout]
    exact hfound
  · rw [hout]
    exact hcompared

/-- A call returns, and nobody is inside any more. -/
theorem Inv.returns (h : s.Inv) {t : Thread} {x : Call × Pc} (hm : s.Moves t none s')
    (hin : s.inside t = some x) (hledger : s'.Ledger) (hholds : s'.table.Holds s'.outstanding)
    (hfound : ∀ token, s'.found = some token → token ∈ s'.outstanding.map (·.token))
    (hcompared : ∀ token count, s'.io = .comparing token count → count ≤ s'.outstanding.length) :
    s'.Inv := by
  have hothers := h.exclusive.others hin
  have hquiet : ∀ t', s'.inside t' = none := by
    intro t'
    by_cases hne : t' = t
    · rw [hne, hm.1]
    · rw [hm.2 t' hne, hothers t' hne]
  constructor
  · exact Exclusive.of_moves hm hothers
  · exact hledger
  · refine ⟨s'.table, hholds, fun _ => rfl, fun t' call pc ht' => ?_⟩
    rw [hquiet t'] at ht'
    cases ht'
  · intro t' token id a pc ht'
    rw [hquiet t'] at ht'
    cases ht'
  · exact hfound
  · exact hcompared

/-- `track_check_token` may run at any time: only `doIO` takes entries out. -/
theorem Inv.holds (h : s.Inv) (hio : s.inside .io = none) : s.table.Holds s.outstanding := by
  obtain ⟨before, hholds, htable, hreached⟩ := h.table
  by_cases hquiet : s.Quiet
  · rw [htable hquiet]
    exact hholds
  · obtain ⟨t, ht⟩ := not_forall.mp hquiet
    obtain ⟨⟨call, pc⟩, hin⟩ := Option.ne_none_iff_exists'.mp ht
    cases t with
    | io => exact absurd hio ht
    | caller n =>
      have hat : (s.callers n).inside = some (call, pc) := hin
      cases hcaller : s.callers n with
      | tracking token id a pc' =>
        rw [hcaller] at hat
        cases hat
        exact (hreached _ _ _ hin).holds hholds
      | _ =>
        rw [hcaller] at hat
        cases hat

theorem Inv.track_new (h : s.Inv) (hquiet : s.Quiet) {n : Nat} {token : Token} {id : RequestId}
    {a : Allocation} (hfresh : token ∉ s.given) :
    ({ s with given := s.given ++ [token] }.setCaller n (.tracking token id a .reading)).Inv := by
  obtain ⟨before, hholds, htable, _⟩ := h.table
  have hm : s.Moves (.caller n) (some (.track_new token id a, .reading))
      ({ s with given := s.given ++ [token] }.setCaller n (.tracking token id a .reading)) :=
    moves_caller n (.tracking token id a .reading) rfl rfl
  refine inv_within hm (fun t' _ => hquiet t') ?_ rfl rfl hholds ?_ ?_ h.known h.compared
  · refine ⟨h.ledger.distinct, fun e he => ?_, h.ledger.flushed⟩
    exact List.mem_append_left _ (h.ledger.given e he)
  · show Call.Reached _ before .reading s.table
    rw [htable hquiet]
    exact .reading
  · intro token' id' a' heq
    cases heq
    refine ⟨List.mem_append_right _ (List.mem_singleton_self _), fun hmem => ?_⟩
    obtain ⟨e, he, rfl⟩ := List.mem_map.mp hmem
    exact hfresh (h.ledger.given e he)

theorem Inv.conclude (h : s.Inv) (hquiet : s.Quiet) {token : Token}
    (hfound : s.io = .answering token) :
    Inv { s with io := .flushing token .reading } := by
  obtain ⟨before, hholds, htable, _⟩ := h.table
  have hm : s.Moves .io (some (.track_flush token, .reading))
      { s with io := .flushing token .reading } :=
    moves_io rfl
  refine inv_within hm (fun t' _ => hquiet t') ⟨h.ledger.1, h.ledger.2, h.ledger.3⟩ rfl rfl hholds
    ?_ ?_ ?_ ?_
  · show Call.Reached _ before .reading s.table
    rw [htable hquiet]
    exact .reading
  · intro token' id a heq
    cases heq
  · intro token' htoken'
    apply h.known
    unfold found
    rw [hfound]
    exact htoken'
  · intro token' count hio
    cases hio

theorem Inv.trackMore (h : s.Inv) {n : Nat} {token : Token} {id : RequestId} {a : Allocation}
    {pc pc' : Pc} {table : TokenTable RequestId} (hat : s.callers n = .tracking token id a pc)
    (hs : (Call.track_new token id a).step s.table pc = (some pc', table)) :
    ({ s with table := table }.setCaller n (.tracking token id a pc')).Inv := by
  obtain ⟨before, hholds, _, hreached⟩ := h.table
  have hin : s.inside (.caller n) = some (.track_new token id a, pc) :=
    congrArg Caller.inside hat
  have hm : s.Moves (.caller n) (some (.track_new token id a, pc'))
      ({ s with table := table }.setCaller n (.tracking token id a pc')) :=
    moves_caller n (.tracking token id a pc') rfl rfl
  refine inv_within hm (h.exclusive.others hin) ⟨h.ledger.1, h.ledger.2, h.ledger.3⟩ rfl rfl hholds
    ((hreached _ _ _ hin).more hs) ?_ h.known h.compared
  intro token' id' a' heq
  cases heq
  exact h.pending _ _ _ _ _ hin

theorem Inv.flushMore (h : s.Inv) {token : Token} {pc pc' : Pc} {table : TokenTable RequestId}
    (hat : s.io = .flushing token pc)
    (hs : (Call.track_flush token).step s.table pc = (some pc', table)) :
    Inv { s with table := table, io := .flushing token pc' } := by
  obtain ⟨before, hholds, _, hreached⟩ := h.table
  have hin : s.inside .io = some (.track_flush token, pc) := congrArg Io.inside hat
  have hm : s.Moves .io (some (.track_flush token, pc'))
      { s with table := table, io := .flushing token pc' } :=
    moves_io rfl
  refine inv_within hm (h.exclusive.others hin) ⟨h.ledger.1, h.ledger.2, h.ledger.3⟩ rfl rfl hholds
    ((hreached _ _ _ hin).more hs) ?_ ?_ ?_
  · intro token' id a heq
    cases heq
  · intro token' htoken'
    apply h.known
    unfold found
    rw [hat]
    exact htoken'
  · intro token' count hio
    cases hio

/-- A token that has been tracked is behind the others. -/
theorem outstanding_append (h : s.Ledger) {e : TrackToken RequestId}
    (hnew : e.token ∉ s.tracked.map (·.token)) (htracked : s'.tracked = s.tracked ++ [e])
    (hflushed : s'.flushed = s.flushed) : s'.outstanding = s.outstanding ++ [e] := by
  have hkept : e.token ∉ s.flushed := fun hmem => hnew (h.flushed _ hmem)
  unfold outstanding
  rw [htracked, hflushed, List.filter_append]
  simp [hkept]

theorem Inv.trackReturns (h : s.Inv) {n : Nat} {token : Token} {id : RequestId} {a : Allocation}
    {pc : Pc} {table : TokenTable RequestId} (hat : s.callers n = .tracking token id a pc)
    (hs : (Call.track_new token id a).step s.table pc = (none, table)) :
    (({ s with table := table }.setCaller n .sending).record (.track_new token id a)).Inv := by
  obtain ⟨before, hholds, _, hreached⟩ := h.table
  have hin : s.inside (.caller n) = some (.track_new token id a, pc) :=
    congrArg Caller.inside hat
  have htable := (hreached _ _ _ hin).returned hs
  obtain ⟨hgiven, hnew⟩ := h.pending _ _ _ _ _ hin
  by_cases ha : a = .granted
  · subst ha
    have hout : (({ s with table := table }.setCaller n .sending).record
        (.track_new token id .granted)).outstanding = s.outstanding ++ [⟨id, token, 0⟩] :=
      outstanding_append h.ledger hnew rfl rfl
    refine h.returns (moves_caller n .sending rfl rfl) hin ⟨?_, ?_, ?_⟩ ?_ ?_ ?_
    · show ((s.tracked ++ [TrackToken.mk id token 0]).map (·.token)).Nodup
      rw [List.map_append]
      refine List.nodup_append.mpr ⟨h.ledger.distinct, List.nodup_singleton _, ?_⟩
      intro x hx y hy heq
      have hx' : x = token := heq.trans (List.mem_singleton.mp hy)
      exact hnew (hx' ▸ hx)
    · intro e he
      rcases List.mem_append.mp he with he | he
      · exact h.ledger.given e he
      · rw [List.mem_singleton.mp he]
        exact hgiven
    · intro token' hmem
      show token' ∈ (s.tracked ++ [TrackToken.mk id token 0]).map (·.token)
      rw [List.map_append]
      exact List.mem_append_left _ (h.ledger.flushed token' hmem)
    · rw [hout]
      show table.Holds _
      rw [htable]
      exact hholds.track token id 0
    · intro token' hfound
      rw [hout, List.map_append]
      exact List.mem_append_left _ (h.known token' hfound)
    · intro token' count hio
      rw [hout, List.length_append]
      exact Nat.le_add_right_of_le (h.compared token' count hio)
  · -- nothing has been tracked
    have hrecord : ({ s with table := table }.setCaller n .sending).record (.track_new token id a) =
        { s with table := table }.setCaller n .sending := by
      cases a with
      | granted => exact absurd rfl ha
      | _ => rfl
    rw [hrecord]
    refine h.returns (moves_caller n .sending rfl rfl) hin ⟨h.ledger.1, h.ledger.2, h.ledger.3⟩ ?_
      h.known h.compared
    show table.Holds s.outstanding
    rw [htable]
    exact hholds.track_fails token id 0 ha

theorem Inv.flushReturns (h : s.Inv) {token : Token} {pc : Pc} {table : TokenTable RequestId}
    (hat : s.io = .flushing token pc)
    (hs : (Call.track_flush token).step s.table pc = (none, table)) :
    ({ s with table := table, io := .locked }.record (.track_flush token)).Inv := by
  obtain ⟨before, hholds, _, hreached⟩ := h.table
  have hin : s.inside .io = some (.track_flush token, pc) := congrArg Io.inside hat
  have htable := (hreached _ _ _ hin).returned hs
  have hout : ({ s with table := table, io := .locked }.record (.track_flush token)).outstanding =
      s.outstanding.eraseP fun e => e.token == token := by
    rw [TokenTable.eraseP_eq_filter h.ledger.nodup]
    show s.tracked.filter (fun e => decide (e.token ∉ s.flushed ++ [token])) = _
    unfold outstanding
    rw [List.filter_filter]
    congr 1
    funext e
    rw [← Bool.decide_and, decide_eq_decide, List.mem_append, List.mem_singleton, not_or]
    exact And.comm
  refine h.returns (moves_io rfl) hin ⟨h.ledger.distinct, h.ledger.given, fun token' hmem => ?_⟩
    ?_ ?_ ?_
  · rcases List.mem_append.mp hmem with hmem | hmem
    · exact h.ledger.flushed token' hmem
    · -- a token that has been found has been tracked
      rw [List.mem_singleton.mp hmem]
      have hknown : token ∈ s.outstanding.map (·.token) := by
        apply h.known
        unfold found
        rw [hat]
      obtain ⟨e, he, rfl⟩ := List.mem_map.mp hknown
      exact List.mem_map.mpr ⟨e, (List.mem_filter.mp he).1, rfl⟩
  · rw [hout]
    show table.Holds _
    rw [htable]
    exact hholds.flush token
  · intro token' hfound
    cases hfound
  · intro token' count hio
    cases hio

/-- What `track_check_token` finds is outstanding. -/
theorem Inv.compare (h : s.Inv) {token : Token} {count : Nat} (hat : s.io = .comparing token count) :
    Inv { s with io :=
      if ((TokenTable.mk s.table.slots count).firstMatch token).isSome then .answering token
      else .locked } := by
  have hin : s.inside .io = none := congrArg Io.inside hat
  have hshorter := (h.holds hin).shorter (h.compared token count hat)
  by_cases hfound : ((TokenTable.mk s.table.slots count).firstMatch token).isSome = true
  · rw [if_pos hfound]
    refine h.frame (inside_of_io hin rfl) rfl rfl rfl rfl ?_ ?_
    · intro token' htoken'
      cases htoken'
      obtain ⟨e, he, htoken⟩ := List.mem_map.mp ((hshorter.firstMatch_isSome token).mp hfound)
      exact List.mem_map.mpr ⟨e, List.mem_of_mem_take he, htoken⟩
    · intro token' count' hio
      cases hio
  · rw [if_neg hfound]
    refine h.frame (inside_of_io hin rfl) rfl rfl rfl rfl ?_ ?_
    · intro token' htoken'
      cases htoken'
    · intro token' count' hio
      cases hio

/-- `doIO` does something outside of the two functions. -/
theorem Inv.ioOutside (h : s.Inv) {io : Io} {m : SharedMutex Thread} (hfrom : s.io.inside = none)
    (hto : io.inside = none) (hfound : ∀ token, io ≠ .answering token)
    (hcompared : ∀ token count, io = .comparing token count → count ≤ s.outstanding.length) :
    Inv { s with coap_mtx := m, io := io } := by
  refine h.frame (inside_of_io hfrom hto) rfl rfl rfl rfl ?_ hcompared
  intro token htoken
  cases io with
  | answering token' => exact absurd rfl (hfound token')
  | flushing token' pc => cases hto
  | _ => cases htoken

/-- A caller does something outside of `track_new_token`. -/
theorem Inv.callerOutside (h : s.Inv) {n : Nat} {c : Caller} {m : SharedMutex Thread}
    (hfrom : (s.callers n).inside = none) (hto : c.inside = none) :
    ({ s with coap_mtx := m }.setCaller n c).Inv := by
  have hm : s.Moves (.caller n) c.inside ({ s with coap_mtx := m }.setCaller n c) :=
    moves_caller n c rfl rfl
  exact h.frame (hm.inside_eq (hfrom.trans hto.symm)) rfl rfl rfl rfl h.known h.compared

theorem Inv.next (h : s.Inv) {l : Label} (halone : s.EntersAlone l)
    (hn : s.next modes l = some s') : s'.Inv := by
  cases step_of_next hn with
  | lockCaller hout _ => exact h.callerOutside (congrArg Caller.inside hout) rfl
  | lockIo hout _ =>
    exact h.ioOutside (congrArg Io.inside hout) rfl (fun _ heq => by cases heq)
      (fun _ _ heq => by cases heq)
  | unlockCaller hsending => exact h.callerOutside (congrArg Caller.inside hsending) rfl
  | unlockIo hlocked =>
    exact h.ioOutside (congrArg Io.inside hlocked) rfl (fun _ heq => by cases heq)
      (fun _ _ heq => by cases heq)
  | track_new hlocked hfresh => exact h.track_new halone hfresh
  | receive hlocked =>
    exact h.ioOutside (congrArg Io.inside hlocked) rfl (fun _ heq => by cases heq)
      (fun _ _ heq => by cases heq)
  | @conclude token flushes hfound =>
    cases flushes with
    | true => exact h.conclude (halone rfl) hfound
    | false =>
      exact h.ioOutside (congrArg Io.inside hfound) rfl (fun _ heq => by cases heq)
        (fun _ _ heq => by cases heq)
  | trackMore hat hs => exact h.trackMore hat hs
  | trackReturns hat hs => exact h.trackReturns hat hs
  | check hat =>
    refine h.ioOutside (congrArg Io.inside hat) rfl (fun _ heq => by cases heq) ?_
    intro token count heq
    cases heq
    -- the count that is read is that of the outstanding requests
    obtain ⟨_, _, hcount⟩ := h.holds (congrArg Io.inside hat)
    omega
  | compare hat => exact h.compare hat
  | flushMore hat hs => exact h.flushMore hat hs
  | flushReturns hat hs => exact h.flushReturns hat hs

/-! ### Beginning a call -/

/-- A call that begins inside another one is not exclusive. -/
theorem Exclusive.quiet (hx : s'.Exclusive) {t : Thread} {x : Call × Pc}
    (hm : s.Moves t (some x) s') (hout : s.inside t = none) : s.Quiet := by
  intro t'
  by_contra hinside
  have hne : t' ≠ t := fun heq => hinside (heq ▸ hout)
  apply hne
  apply hx
  · rw [hm.2 t' hne]
    exact hinside
  · rw [hm.1]
    exact Option.some_ne_none x

theorem Exclusive.entersAlone (hx : s'.Exclusive) {l : Label} (hn : s.next modes l = some s') :
    s.EntersAlone l := by
  cases step_of_next hn with
  | @track_new n token id a hlocked hfresh =>
    have hout : s.inside (.caller n) = none := congrArg Caller.inside hlocked
    exact hx.quiet (moves_caller n (.tracking token id a .reading) rfl rfl) hout
  | conclude hfound =>
    intro hflushes
    subst hflushes
    have hout : s.inside .io = none := congrArg Io.inside hfound
    exact hx.quiet (moves_io rfl) hout
  | _ => trivial

/-! ### What the mutex sees to -/

/-- Whoever is not out owns the mutex. -/
structure Guarded (modes : Modes) (s : Threads) : Prop where
  sound : s.coap_mtx.Sound
  callers : ∀ n, s.callers n ≠ .out → (Thread.caller n, modes.sendRequest) ∈ s.coap_mtx.owners
  io : s.io ≠ .out → (Thread.io, modes.doIO) ∈ s.coap_mtx.owners

theorem Guarded.new : Threads.new.Guarded modes where
  sound := .free
  callers := fun _ hout => absurd rfl hout
  io := fun hout => absurd rfl hout

/-- A step of a thread that owns the mutex and keeps it. -/
theorem Guarded.caller (h : s.Guarded modes) {n : Nat} {c : Caller}
    (hfrom : s.callers n ≠ .out) (hmtx : s'.coap_mtx = s.coap_mtx)
    (hc : s'.callers = Function.update s.callers n c) (hio : s'.io = s.io) :
    s'.Guarded modes := by
  refine ⟨hmtx ▸ h.sound, fun m hout => ?_, fun hout => ?_⟩
  · rw [hmtx]
    by_cases hm : m = n
    · exact hm ▸ h.callers n hfrom
    · rw [hc, Function.update_of_ne hm] at hout
      exact h.callers m hout
  · rw [hmtx]
    exact h.io (hio ▸ hout)

theorem Guarded.doIO (h : s.Guarded modes) (hfrom : s.io ≠ .out)
    (hmtx : s'.coap_mtx = s.coap_mtx) (hc : s'.callers = s.callers) : s'.Guarded modes :=
  ⟨hmtx ▸ h.sound, by rw [hmtx, hc]; exact h.callers, fun _ => hmtx ▸ h.io hfrom⟩

theorem Guarded.lockCaller (h : s.Guarded modes) {n : Nat} {m : SharedMutex Thread}
    (hm : s.coap_mtx.lock (.caller n) modes.sendRequest = some m) :
    ({ s with coap_mtx := m }.setCaller n .locked).Guarded modes := by
  have hsound := SharedMutex.Sound.lock hm
  obtain ⟨_, rfl⟩ := SharedMutex.lock_eq_some.mp hm
  refine ⟨hsound, fun n' hout => ?_, fun hout => List.mem_cons_of_mem _ (h.io hout)⟩
  by_cases hn : n' = n
  · exact hn ▸ List.mem_cons_self
  · rw [setCaller_ne _ _ hn] at hout
    exact List.mem_cons_of_mem _ (h.callers n' hout)

theorem Guarded.lockIo (h : s.Guarded modes) {m : SharedMutex Thread}
    (hm : s.coap_mtx.lock .io modes.doIO = some m) :
    Guarded modes { s with coap_mtx := m, io := .locked } := by
  have hsound := SharedMutex.Sound.lock hm
  obtain ⟨_, rfl⟩ := SharedMutex.lock_eq_some.mp hm
  exact ⟨hsound, fun n hout => List.mem_cons_of_mem _ (h.callers n hout),
    fun _ => List.mem_cons_self⟩

theorem Guarded.unlockCaller (h : s.Guarded modes) (n : Nat) :
    ({ s with coap_mtx := s.coap_mtx.unlock (.caller n) }.setCaller n .out).Guarded modes := by
  refine ⟨h.sound.unlock _, fun n' hout => ?_, fun hout => ?_⟩
  · by_cases hn : n' = n
    · rw [hn] at hout
      exact absurd (setCaller_self _ n .out) hout
    · rw [setCaller_ne _ _ hn] at hout
      exact SharedMutex.mem_unlock.mpr ⟨h.callers n' hout, by simpa using hn⟩
  · exact SharedMutex.mem_unlock.mpr ⟨h.io hout, by simp⟩

theorem Guarded.unlockIo (h : s.Guarded modes) :
    Guarded modes { s with coap_mtx := s.coap_mtx.unlock .io, io := .out } :=
  ⟨h.sound.unlock _, fun n hout => SharedMutex.mem_unlock.mpr ⟨h.callers n hout, by simp⟩,
    fun hout => absurd rfl hout⟩

theorem Guarded.next (h : s.Guarded modes) {l : Label} (hn : s.next modes l = some s') :
    s'.Guarded modes := by
  cases step_of_next hn with
  | lockCaller _ hm => exact h.lockCaller hm
  | lockIo _ hm => exact h.lockIo hm
  | unlockCaller _ => exact h.unlockCaller _
  | unlockIo _ => exact h.unlockIo
  | track_new hlocked _ => exact h.caller (by simp [hlocked]) rfl rfl rfl
  | receive hlocked => exact h.doIO (by simp [hlocked]) rfl rfl
  | conclude hfound => exact h.doIO (by simp [hfound]) rfl rfl
  | trackMore hat _ => exact h.caller (by simp [hat]) rfl rfl rfl
  | @trackReturns n token id a pc table hat _ =>
    cases a <;> exact h.caller (by simp [hat]) rfl rfl rfl
  | check hat => exact h.doIO (by simp [hat]) rfl rfl
  | compare hat => exact h.doIO (by simp [hat]) rfl rfl
  | flushMore hat _ => exact h.doIO (by simp [hat]) rfl rfl
  | flushReturns hat _ => exact h.doIO (by simp [hat]) rfl rfl

/-- A caller that owns the mutex in exclusive mode is alone in it. -/
theorem Guarded.entersAlone (h : s.Guarded modes) (hmode : modes.sendRequest = .exclusive)
    {l : Label} (hn : s.next modes l = some s') : s.EntersAlone l := by
  have hcaller : ∀ n, (s.callers n).inside ≠ none →
      (Thread.caller n, Mode.exclusive) ∈ s.coap_mtx.owners := by
    intro n hinside
    rw [← hmode]
    exact h.callers n fun hout => hinside (congrArg Caller.inside hout)
  cases step_of_next hn with
  | @track_new n token id a hlocked hfresh =>
    have hown := h.callers n (by simp [hlocked])
    rw [hmode] at hown
    intro t
    by_contra hinside
    cases t with
    | caller m =>
      have hsame := h.sound.alone hown (hcaller m hinside)
      cases hsame
      exact hinside (congrArg Caller.inside hlocked)
    | io =>
      have hio := h.io fun hout => hinside (congrArg Io.inside hout)
      cases h.sound.alone hown hio
  | conclude hfound =>
    intro _ t
    by_contra hinside
    cases t with
    | caller m =>
      have hio := h.io (by simp [hfound])
      cases h.sound.alone (hcaller m hinside) hio
    | io => exact hinside (congrArg Io.inside hfound)
  | _ => trivial

end Threads

/-! ### The threads of a run -/

open Threads

theorem exclusive_keeps {modes : Modes} (hmode : modes.sendRequest = .exclusive) {s : Threads}
    (r : Run (threads modes) s) : r.Throughout Consistent := by
  have hboth : r.Throughout fun s => s.Inv ∧ s.Guarded modes := by
    apply Run.always
    · intro s hs
      rw [hs]
      exact ⟨.new, .new⟩
    · intro s l s' hI hn
      exact ⟨hI.1.next (hI.2.entersAlone hmode hn) hn, hI.2.next hn⟩
  exact hboth.mono fun s hI => hI.1.consistent

/-- Two callers in shared mode are inside at the same time. -/
theorem shared_overlaps {modes : Modes} (hmode : modes.sendRequest = .shared) :
    ∃ (s : Threads) (r : Run (threads modes) s), ¬ r.Throughout Consistent := by
  obtain ⟨sendRequest, doIO⟩ := modes
  cases hmode
  obtain ⟨s, r, _, hs⟩ := Run.exists_of_check (threads ⟨.shared, doIO⟩) rfl
    [.lock (.caller 0), .lock (.caller 1), .track_new 0 [1] 10 .granted,
     .track_new 1 [2] 20 .granted] (fun _ _ => true)
    (fun s => (s.inside (.caller 0)).isSome && (s.inside (.caller 1)).isSome)
    (by cases doIO <;> decide)
  refine ⟨s, r, fun h => ?_⟩
  obtain ⟨h₀, h₁⟩ := Bool.and_eq_true_iff.mp hs
  cases h.last.1 _ _ (Option.isSome_iff_ne_none.mp h₀) (Option.isSome_iff_ne_none.mp h₁)

/-- **No tracked request is lost** throughout a run exactly when every call
    begins while nobody is inside another one. It is so in all runs exactly
    when `sendRequest` takes the mutex in exclusive mode. -/
theorem requests_kept_iff {s : Threads} (r : Run (threads .taken) s) (modes : Modes) :
    (r.Throughout Consistent ↔ r.EachStep EntersAlone) ∧
    ((∀ {s : Threads} (r : Run (threads modes) s), r.Throughout Consistent) ↔
      modes.sendRequest = .exclusive) := by
  constructor
  · apply Run.throughout_iff (I := Inv)
    · intro s hs
      rw [hs]
      exact .new
    · intro s hI
      exact hI.consistent
    · intro s l s' hI hC hn
      exact hI.next hC hn
    · intro s l s' hI hn hP
      exact hP.1.entersAlone hn
  · constructor
    · intro h
      cases hmode : modes.sendRequest with
      | exclusive => rfl
      | shared =>
        obtain ⟨s, r, hr⟩ := shared_overlaps hmode
        exact absurd (h r) hr
    · intro hmode s r
      exact exclusive_keeps hmode r

/-- Two callers read the same count, and the second overwrites the slot of the
    first. When both have returned, the first request is not found. -/
theorem overlapping_calls_lose_one :
    (∃ (s : Threads) (r : Run (threads .taken) s), ¬ r.Throughout Consistent) ∧
    ∃ (s : Threads) (_ : Run (threads .taken) s), s.coap_mtx.owners = [] ∧
      ∃ e ∈ s.tracked, e.token ∉ s.flushed ∧ s.table.track_check_token e.token = none := by
  refine ⟨shared_overlaps rfl, ?_⟩
  obtain ⟨s, r, _, hs⟩ := Run.exists_of_check (threads .taken) rfl
    [.lock (.caller 0), .lock (.caller 1), .track_new 0 [1] 10 .granted,
     .track_new 1 [2] 20 .granted, .step (.caller 0), .step (.caller 1), .step (.caller 0),
     .step (.caller 1), .step (.caller 0), .step (.caller 0), .step (.caller 1),
     .step (.caller 1), .unlock (.caller 0), .unlock (.caller 1)] (fun _ _ => true)
    (fun s => s.coap_mtx.owners.isEmpty && s.tracked.any fun e =>
      decide (e.token ∉ s.flushed) && (s.table.track_check_token e.token).isNone)
    (by decide)
  obtain ⟨hfree, hlost⟩ := Bool.and_eq_true_iff.mp hs
  obtain ⟨e, he, hlost⟩ := List.any_eq_true.mp hlost
  obtain ⟨hkept, hnone⟩ := Bool.and_eq_true_iff.mp hlost
  exact ⟨s, r, List.isEmpty_iff.mp hfree, e, he, of_decide_eq_true hkept,
    Option.isNone_iff_eq_none.mp hnone⟩

end CoapClient

end DeviceTester
