import DeviceTester.CoapClient
import DeviceTester.Framework.Run

/-! # The memory of the tracked tokens

  `track_new_token`, `track_check_token` and `track_flush_token` slot by slot,
  in the order of the source. To use a slot outside of the allocation is a
  fault, and so is reading one that no token has been written to.

  As long as the table holds its entries there is no fault, and they do what the
  functions of `TokenTable` do. Over a run of calls, what is found is what has
  been tracked and not been flushed since (`tokens_are_map`).
-/

namespace DeviceTester

open LTS

namespace CoapClient

namespace TokenMemory

/-! ### Slots -/

abbrev Slots := List (Option (TrackToken RequestId))

inductive Fault where
  | outside (i : Nat)
  | unwritten (i : Nat)
  deriving DecidableEq, Repr

def load (slots : Slots) (i : Nat) : Except Fault (TrackToken RequestId) :=
  match slots[i]? with
  | some (some e) => .ok e
  | some none => .error (.unwritten i)
  | none => .error (.outside i)

def store (slots : Slots) (i : Nat) (slot : Option (TrackToken RequestId)) :
    Except Fault Slots :=
  if i < slots.length then .ok (slots.set i slot) else .error (.outside i)

/-- `memmove` of `n` slots, both from and to inside of the allocation. -/
def move (slots : Slots) (dst src n : Nat) : Except Fault Slots :=
  if max dst src + n ≤ slots.length then .ok (memmove slots dst src n)
  else .error (.outside (max dst src + n - 1))

/-! ### The three functions -/

/-- `doing_observe` is 0, and nothing sets it. -/
def track_new_token (t : TokenTable RequestId) (token : Token) (id : RequestId)
    (a : Allocation) : Except Fault (TokenTable RequestId) :=
  let count := t.tracked_tokens_count
  match a with
  | .reallocFails => .ok t
  | .newBinaryFails => do
      -- the pointer of the slot is null
      let slots ← store (realloc t.slots (count + 1)) count none
      .ok { t with slots := slots }
  | .granted => do
      let slots ← store (realloc t.slots (count + 1)) count (some ⟨id, token, 0⟩)
      .ok { slots := slots, tracked_tokens_count := count + 1 }

/-- The loop from `i` on, with `n` slots to go. -/
def search (slots : Slots) (token : Token) : (i n : Nat) → Except Fault (Option Nat)
  | _, 0 => .ok none
  | i, n + 1 => do
      let e ← load slots i
      if e.token == token then .ok (some i) else search slots token (i + 1) n

def track_check_token (t : TokenTable RequestId) (token : Token) :
    Except Fault (Bool × RequestId) := do
  match ← search t.slots token 0 t.tracked_tokens_count with
  | some i =>
      let e ← load t.slots i
      .ok (true, e.id)
  | none => .ok (false, 0)

/-- `obs_started` is 0, and nothing sets it. -/
def track_flush_token (t : TokenTable RequestId) (token : Token) :
    Except Fault (TokenTable RequestId) := do
  let count := t.tracked_tokens_count
  let obs_started : Int := 0
  match ← search t.slots token 0 count with
  | none => .ok t
  | some i =>
      let e ← load t.slots i
      if e.observe = 0 ∨ obs_started = 0 then
        let slots ← if count - i > 1 then move t.slots i (i + 1) (count - i - 1) else .ok t.slots
        .ok { slots := slots, tracked_tokens_count := count - 1 }
      else .ok t

/-! ### No fault where entries are held -/

theorem ok_bind {α β : Type} (x : α) (f : α → Except Fault β) : (Except.ok x >>= f) = f x := rfl

theorem load_drop {slots rest : Slots} {i : Nat} {e : TrackToken RequestId}
    (h : slots.drop i = some e :: rest) : load slots i = .ok e := by
  have hi : slots[i]? = some (some e) := by
    rw [← List.head?_drop, h]
    rfl
  unfold load
  rw [hi]

theorem load_eq {t : TokenTable RequestId} {es : List (TrackToken RequestId)} (h : t.Holds es)
    {i : Nat} (hi : i < es.length) : load t.slots i = .ok es[i] := by
  unfold load
  rw [h.getElem? hi]

/-- The loop from a slot on, behind which the slots in use are left. -/
theorem search_drop (token : Token) {slots rest : Slots} {es : List (TrackToken RequestId)}
    {i : Nat} (h : slots.drop i = es.map some ++ rest) :
    search slots token i es.length =
      .ok ((es.findIdx? fun e => e.token == token).map (· + i)) := by
  induction es generalizing i with
  | nil => rfl
  | cons e es ih =>
    have hload : load slots i = .ok e := load_drop h
    have hrest : slots.drop (i + 1) = es.map some ++ rest := by
      rw [← List.tail_drop, h]
      rfl
    rw [List.length_cons, search, hload, ok_bind, List.findIdx?_cons]
    -- found here, or further behind, where the loop is one ahead of the list
    by_cases htoken : (e.token == token) = true
    · rw [if_pos htoken, if_pos htoken]
      simp
    · rw [if_neg htoken, if_neg htoken, ih hrest, Option.map_map]
      congr 2
      funext j
      show j + (i + 1) = j + 1 + i
      omega

theorem search_eq {t : TokenTable RequestId} {es : List (TrackToken RequestId)} (h : t.Holds es)
    (token : Token) :
    search t.slots token 0 t.tracked_tokens_count =
      .ok (es.findIdx? fun e => e.token == token) := by
  obtain ⟨rest, hslots, hcount⟩ := h
  have hdrop : t.slots.drop 0 = es.map some ++ rest := by rw [List.drop_zero, hslots]
  rw [hcount, search_drop token hdrop]
  simp

theorem length_realloc {α : Type} (slots : List (Option α)) (n : Nat) :
    (realloc slots n).length = n := by
  unfold realloc
  rw [List.length_append, List.length_take, List.length_replicate]
  omega

/-- The slot behind the ones in use has been allocated. -/
theorem store_eq (slots : Slots) (count : Nat) (slot : Option (TrackToken RequestId)) :
    store (realloc slots (count + 1)) count slot =
      .ok ((realloc slots (count + 1)).set count slot) := by
  unfold store
  rw [if_pos (by rw [length_realloc]; omega)]

theorem track_new_token_eq (t : TokenTable RequestId) (token : Token) (id : RequestId)
    (a : Allocation) : track_new_token t token id a = .ok (t.track_new_token token id 0 a) := by
  unfold track_new_token
  cases a with
  | reallocFails => rfl
  | newBinaryFails =>
    simp only [store_eq]
    rfl
  | granted =>
    simp only [store_eq]
    rfl

theorem track_check_token_eq {t : TokenTable RequestId} {es : List (TrackToken RequestId)}
    (h : t.Holds es) (token : Token) :
    track_check_token t token =
      .ok ((t.track_check_token token).elim (false, 0) fun id => (true, id)) := by
  unfold track_check_token
  rw [search_eq h, ok_bind, h.check, List.find?_eq_bind_findIdx?_getElem?]
  cases hfound : es.findIdx? fun e => e.token == token with
  | none => rfl
  | some i =>
    obtain ⟨hi, _⟩ := List.findIdx?_eq_some_iff_getElem.mp hfound
    simp only [load_eq h hi, ok_bind, Option.bind_some, List.getElem?_eq_getElem hi]
    rfl

/-- The slots behind the `i`-th of them are moved within the allocation. -/
theorem move_eq {t : TokenTable RequestId} {es : List (TrackToken RequestId)} (h : t.Holds es)
    {i : Nat} (hi : t.tracked_tokens_count - i > 1) :
    move t.slots i (i + 1) (t.tracked_tokens_count - i - 1) =
      .ok (memmove t.slots i (i + 1) (t.tracked_tokens_count - i - 1)) := by
  obtain ⟨rest, hslots, hcount⟩ := h
  have hlength : t.tracked_tokens_count ≤ t.slots.length := by
    rw [hslots, hcount, List.length_append, List.length_map]
    omega
  unfold move
  rw [if_pos (by omega)]

theorem track_flush_token_eq {t : TokenTable RequestId} {es : List (TrackToken RequestId)}
    (h : t.Holds es) (token : Token) :
    track_flush_token t token = .ok (t.track_flush_token 0 token) := by
  unfold track_flush_token TokenTable.track_flush_token
  simp only [search_eq h, ok_bind, h.firstMatch]
  cases hfound : es.findIdx? fun e => e.token == token with
  | none => rfl
  | some i =>
    obtain ⟨hi, _⟩ := List.findIdx?_eq_some_iff_getElem.mp hfound
    simp only [load_eq h hi, ok_bind, h.getElem? hi, or_true, if_true]
    -- with no slot behind the one found, nothing is moved
    by_cases hmore : t.tracked_tokens_count - i > 1
    · rw [if_pos hmore, if_pos hmore, move_eq h hmore, ok_bind]
    · rw [if_neg hmore, if_neg hmore]

/-! ### Calls -/

inductive Call where
  | track_new_token (token : Token) (id : RequestId) (a : Allocation)
  | track_check_token (token : Token)
  | track_flush_token (token : Token)
  deriving DecidableEq, Repr

/-- The map that the calls stand for, the last of them first. -/
def mapOf : List Call → Token → Option RequestId
  | [], _ => none
  | .track_new_token token' id .granted :: calls, token =>
      if token = token' then some id else mapOf calls token
  | .track_flush_token token' :: calls, token =>
      if token = token' then none else mapOf calls token
  | _ :: calls, token => mapOf calls token

/-- The token has been tracked with the id, and not been flushed since. -/
def Tracked (calls : List Call) (token : Token) (id : RequestId) : Prop :=
  ∃ after before, calls = after ++ .track_new_token token id .granted :: before ∧
    .track_flush_token token ∉ after

namespace Call

def exec (t : TokenTable RequestId) : Call → Except Fault (TokenTable RequestId)
  | .track_new_token token id a => TokenMemory.track_new_token t token id a
  | .track_check_token token => do
      let _ ← TokenMemory.track_check_token t token
      .ok t
  | .track_flush_token token => TokenMemory.track_flush_token t token

/-- A token is only tracked while it is not present. -/
def allowed (calls : List Call) : Call → Bool
  | .track_new_token token _ _ => (mapOf calls token).isNone
  | _ => true

/-- What the call does to a table that holds its entries. -/
def apply (t : TokenTable RequestId) : Call → TokenTable RequestId
  | .track_new_token token id a => t.track_new_token token id 0 a
  | .track_check_token _ => t
  | .track_flush_token token => t.track_flush_token 0 token

/-- What it does to the entries. -/
def entries (es : List (TrackToken RequestId)) : Call → List (TrackToken RequestId)
  | .track_new_token token id .granted => es ++ [⟨id, token, 0⟩]
  | .track_new_token _ _ _ => es
  | .track_check_token _ => es
  | .track_flush_token token => es.eraseP fun e => e.token == token

end Call

/-- The memory, or the fault that a call has come to, and the calls so far. -/
structure Memory where
  table : Except Fault (TokenTable RequestId)
  calls : List Call

def Memory.next (s : Memory) (call : Call) : Option Memory :=
  if call.allowed s.calls then
    some { table := s.table.bind call.exec, calls := call :: s.calls }
  else none

def tokenMemory : System Memory Call where
  init := fun s => s = ⟨.ok .new, []⟩
  next := Memory.next

/-! ### What the calls find and change -/

/-- There has been no fault, and `track_check_token` would find what has been
    tracked and not been flushed. -/
def Memory.FindsTracked (s : Memory) : Prop :=
  ∃ t, s.table = .ok t ∧ ∀ token,
    (∀ id, track_check_token t token = .ok (true, id) ↔ Tracked s.calls token id) ∧
    ((∀ id, ¬Tracked s.calls token id) → track_check_token t token = .ok (false, 0))

/-- Only a token that is tracked comes in, at the back, and only one that is
    flushed goes out, from between the others. -/
def Changes (t t' : TokenTable RequestId) : Call → Prop
  | .track_new_token token id .granted => t'.entries = t.entries ++ [⟨id, token, 0⟩]
  | .track_new_token _ _ _ => t'.entries = t.entries
  | .track_check_token _ => t' = t
  | .track_flush_token token =>
      (∃ before e after, e.token = token ∧ t.entries = before ++ e :: after ∧
        t'.entries = before ++ after) ∨
      token ∉ t.entries.map (·.token) ∧ t' = t

def ChangesOwn (s : Memory) (call : Call) (s' : Memory) : Prop :=
  ∃ t t', s.table = .ok t ∧ s'.table = .ok t' ∧ Changes t t' call

/-! ### Calls as a map -/

theorem tracked_nil (token : Token) (id : RequestId) : ¬Tracked [] token id := by
  intro h
  obtain ⟨after, before, hcalls, _⟩ := h
  exact List.append_ne_nil_of_right_ne_nil after (List.cons_ne_nil _ before) hcalls.symm

/-- The last call tracks the token, or it has been tracked already and is not
    flushed. -/
theorem tracked_cons {call : Call} {calls : List Call} {token : Token} {id : RequestId} :
    Tracked (call :: calls) token id ↔
      call = .track_new_token token id .granted ∨
        call ≠ .track_flush_token token ∧ Tracked calls token id := by
  constructor
  · intro h
    obtain ⟨after, before, hcalls, hkept⟩ := h
    -- whether the token has been tracked by the last call
    cases after with
    | nil =>
      left
      exact (List.cons.inj hcalls).1
    | cons call' after =>
      right
      obtain ⟨rfl, hrest⟩ := List.cons.inj hcalls
      refine ⟨?_, after, before, hrest, fun hmem => hkept (List.mem_cons_of_mem _ hmem)⟩
      intro heq
      exact hkept (heq ▸ List.mem_cons_self)
  · intro h
    rcases h with rfl | ⟨hne, after, before, hcalls, hkept⟩
    · exact ⟨[], calls, rfl, List.not_mem_nil⟩
    · refine ⟨call :: after, before, by rw [hcalls]; rfl, ?_⟩
      intro hmem
      rcases List.mem_cons.mp hmem with heq | htail
      · exact hne heq.symm
      · exact hkept htail

/-- Where a token is only tracked while it is not present, the map has what is
    tracked. -/
theorem mapOf_cons {call : Call} {calls : List Call} (hallowed : call.allowed calls = true)
    (h : ∀ token id, mapOf calls token = some id ↔ Tracked calls token id) (token : Token)
    (id : RequestId) : mapOf (call :: calls) token = some id ↔ Tracked (call :: calls) token id := by
  rw [tracked_cons, ← h]
  cases call with
  | track_new_token token' id' a =>
    -- only here it matters that the token was not present
    have hnone : mapOf calls token' = none := Option.isNone_iff_eq_none.mp hallowed
    cases a with
    | granted =>
      by_cases htoken : token = token'
      · subst htoken
        simp [mapOf, hnone, eq_comm]
      · simp [mapOf, htoken, Ne.symm htoken]
    | reallocFails => simp [mapOf]
    | newBinaryFails => simp [mapOf]
  | track_check_token token' => simp [mapOf]
  | track_flush_token token' =>
    by_cases htoken : token = token'
    · simp [mapOf, htoken]
    · simp [mapOf, htoken, Ne.symm htoken]

/-! ### The invariant -/

/-- There has been no fault. The table holds `es`, with distinct tokens, and is
    the map. -/
structure Stands (s : Memory) (t : TokenTable RequestId) (es : List (TrackToken RequestId)) :
    Prop where
  table : s.table = .ok t
  holds : t.Holds es
  distinct : (es.map (·.token)).Nodup
  map : ∀ token, t.track_check_token token = mapOf s.calls token
  tracked : ∀ token id, mapOf s.calls token = some id ↔ Tracked s.calls token id

variable {s s' : Memory} {t : TokenTable RequestId} {es : List (TrackToken RequestId)} {call : Call}

theorem Stands.new : Stands ⟨.ok .new, []⟩ .new [] where
  table := rfl
  holds := .new
  distinct := List.nodup_nil
  map := fun _ => rfl
  tracked := by
    intro token id
    refine ⟨fun h => ?_, fun h => absurd h (tracked_nil token id)⟩
    cases h

theorem exec_eq (h : t.Holds es) (call : Call) : call.exec t = .ok (call.apply t) := by
  cases call with
  | track_new_token token id a => exact track_new_token_eq t token id a
  | track_check_token token =>
    unfold Call.exec
    simp only [track_check_token_eq h, ok_bind]
    rfl
  | track_flush_token token => exact track_flush_token_eq h token

theorem holds_apply (h : t.Holds es) (call : Call) : (call.apply t).Holds (call.entries es) := by
  cases call with
  | track_new_token token id a =>
    cases a with
    | granted => exact h.track token id 0
    | reallocFails => exact h.track_fails token id 0 (by decide)
    | newBinaryFails => exact h.track_fails token id 0 (by decide)
  | track_check_token token => exact h
  | track_flush_token token => exact h.flush token

theorem Stands.fresh (h : Stands s t es) {token : Token} (hnone : mapOf s.calls token = none) :
    token ∉ es.map (·.token) := by
  rw [← h.holds.check_isSome, h.map, hnone]
  decide

theorem Stands.distinct_entries (h : Stands s t es) (hallowed : call.allowed s.calls = true) :
    ((call.entries es).map (·.token)).Nodup := by
  cases call with
  | track_new_token token id a =>
    have hfresh := h.fresh (Option.isNone_iff_eq_none.mp hallowed)
    cases a with
    | granted =>
      let e : TrackToken RequestId := ⟨id, token, 0⟩
      show ((es ++ [e]).map (·.token)).Nodup
      rw [List.map_append, List.nodup_append]
      refine ⟨h.distinct, List.nodup_singleton _, ?_⟩
      intro token' htoken' token'' htoken'' heq
      rw [heq, List.mem_singleton.mp htoken''] at htoken'
      exact hfresh htoken'
    | reallocFails => exact h.distinct
    | newBinaryFails => exact h.distinct
  | track_check_token token => exact h.distinct
  | track_flush_token token => exact h.distinct.sublist (List.eraseP_sublist.map _)

/-- What is found depends on the entries only. -/
theorem check_congr {t' : TokenTable RequestId} (h : t.Holds es) (h' : t'.Holds es)
    (token : Token) : t.track_check_token token = t'.track_check_token token := by
  rw [h.check, h'.check]

/-- The table is the map after the call, too. -/
theorem Stands.check_apply (h : Stands s t es) (hallowed : call.allowed s.calls = true)
    (token : Token) : (call.apply t).track_check_token token = mapOf (call :: s.calls) token := by
  have hafter := holds_apply h.holds call
  cases call with
  | track_new_token token' id a =>
    have hnone : mapOf s.calls token' = none := Option.isNone_iff_eq_none.mp hallowed
    cases a with
    | granted =>
      have hfound : (es.find? fun e => e.token == token).map (·.id) = mapOf s.calls token := by
        rw [← h.holds.check, h.map]
      let e' : TrackToken RequestId := ⟨id, token', 0⟩
      rw [hafter.check]
      show ((es ++ [e']).find? fun e => e.token == token).map (·.id) =
        if token = token' then some id else mapOf s.calls token
      by_cases htoken : token = token'
      · -- it was not found before, so the search ends at the new entry
        subst htoken
        rw [hnone, Option.map_eq_none_iff] at hfound
        simp [List.find?_append, hfound, e']
      · have hlast : ([e'].find? fun e => e.token == token) = none := by
          simp [e', Ne.symm htoken]
        rw [if_neg htoken, List.find?_append, hlast, Option.or_none, hfound]
    | reallocFails => exact (check_congr hafter h.holds token).trans (h.map token)
    | newBinaryFails => exact (check_congr hafter h.holds token).trans (h.map token)
  | track_check_token token' => exact h.map token
  | track_flush_token token' =>
    show (t.track_flush_token 0 token').track_check_token token = _
    rw [h.holds.check_flush h.distinct, h.map]
    rfl

theorem next_eq (hn : s.next call = some s') :
    call.allowed s.calls = true ∧ s' = ⟨s.table.bind call.exec, call :: s.calls⟩ := by
  obtain ⟨hallowed, heq⟩ := Option.ite_none_right_eq_some.mp hn
  exact ⟨hallowed, (Option.some.inj heq).symm⟩

theorem Stands.next (h : Stands s t es) (hn : s.next call = some s') :
    Stands s' (call.apply t) (call.entries es) := by
  obtain ⟨hallowed, rfl⟩ := next_eq hn
  constructor
  case table =>
    show s.table.bind call.exec = _
    rw [h.table]
    exact exec_eq h.holds call
  case holds => exact holds_apply h.holds call
  case distinct => exact h.distinct_entries hallowed
  case map => exact h.check_apply hallowed
  case tracked => exact mapOf_cons hallowed h.tracked

/-! ### What follows from it -/

theorem Stands.findsTracked (h : Stands s t es) : s.FindsTracked := by
  refine ⟨t, h.table, fun token => ⟨fun id => ?_, fun hnone => ?_⟩⟩
  · rw [← h.tracked, ← h.map, track_check_token_eq h.holds]
    cases t.track_check_token token with
    | none => simp
    | some id' => simp
  · -- with no id tracked for it, the map has none
    have hmap : t.track_check_token token = none := by
      rw [h.map, Option.eq_none_iff_forall_ne_some]
      exact fun id hid => hnone id ((h.tracked token id).mp hid)
    rw [track_check_token_eq h.holds, hmap]
    rfl

/-- A flush of a token that is absent leaves the table as it is. -/
theorem flush_absent (h : t.Holds es) {token : Token} (habsent : token ∉ es.map (·.token)) :
    t.track_flush_token 0 token = t := by
  have hnone : t.firstMatch token = none := by
    rw [← Option.not_isSome_iff_eq_none, h.firstMatch_isSome]
    exact habsent
  unfold TokenTable.track_flush_token
  rw [hnone]

theorem Stands.changes (h : Stands s t es) (call : Call) : Changes t (call.apply t) call := by
  have hbefore := h.holds.entries_eq
  have hafter := (holds_apply h.holds call).entries_eq
  cases call with
  | track_new_token token id a =>
    cases a with
    | granted =>
      show _ = t.entries ++ [⟨id, token, 0⟩]
      rw [hafter, hbefore]
      rfl
    | reallocFails => exact hafter.trans hbefore.symm
    | newBinaryFails => exact hafter.trans hbefore.symm
  | track_check_token token => rfl
  | track_flush_token token =>
    -- the first entry of the token goes out, if it has one
    by_cases hmem : token ∈ es.map (·.token)
    · left
      obtain ⟨e', he', htoken'⟩ := List.mem_map.mp hmem
      obtain ⟨e, before, after, _, htoken, hsplit, herased⟩ :=
        List.exists_of_eraseP he' (p := fun e => e.token == token) (beq_iff_eq.mpr htoken')
      refine ⟨before, e, after, beq_iff_eq.mp htoken, ?_, ?_⟩
      · rw [hbefore, hsplit]
      · rw [hafter]
        exact herased
    · right
      rw [hbefore]
      exact ⟨hmem, flush_absent h.holds hmem⟩

end TokenMemory

/-- **The array is a map**: over any run of calls that track a token only while
    it is not present, no slot outside of the allocation is used,
    `track_check_token` finds what has been tracked and not been flushed since,
    and a flush takes out the entry of its token and leaves the others in their
    order. -/
theorem tokens_are_map {s : TokenMemory.Memory} (r : Run TokenMemory.tokenMemory s) :
    r.Throughout TokenMemory.Memory.FindsTracked ∧ r.Ensures TokenMemory.ChangesOwn := by
  have hinit : ∀ s, TokenMemory.tokenMemory.init s → ∃ t es, TokenMemory.Stands s t es := by
    intro s hs
    subst hs
    exact ⟨.new, [], .new⟩
  have hstep : ∀ s call s', (∃ t es, TokenMemory.Stands s t es) →
      TokenMemory.tokenMemory.next s call = some s' → ∃ t es, TokenMemory.Stands s' t es := by
    intro s call s' hI hn
    obtain ⟨t, es, h⟩ := hI
    exact ⟨_, _, h.next hn⟩
  constructor
  · refine (Run.always hinit hstep r).mono ?_
    intro s hI
    obtain ⟨t, es, h⟩ := hI
    exact h.findsTracked
  · refine Run.ensures hinit hstep ?_ r
    intro s call s' hI hn
    obtain ⟨t, es, h⟩ := hI
    exact ⟨t, call.apply t, h.table, (h.next hn).table, h.changes call⟩


end CoapClient

end DeviceTester
