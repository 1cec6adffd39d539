import DeviceTester.CoapClient

/-! # The steps of tracking and flushing

  `track_new_token` and `track_flush_token` as other threads see them: the count
  is read, the slots are written, the count is read again, and written. What the
  loop of `track_flush_token` compares is read with the slots that it moves.

  When nobody else writes in between, the steps do what the function of
  `TokenTable` does (`Reached.returned`).
-/

namespace DeviceTester

namespace CoapClient

/-! ### The two functions in small steps -/

/-- A call of `track_new_token` or of `track_flush_token`. `doing_observe` and
    `obs_started` are 0 and nothing sets them. -/
inductive Call where
  | track_new (token : Token) (id : RequestId) (a : Allocation)
  | track_flush (token : Token)
  deriving DecidableEq, Repr

/-- Where the call is. What it has read of the count is with it. -/
inductive Pc where
  | reading
  | writing (count : Nat)
  | counting
  | storing (count : Nat)
  deriving DecidableEq, Repr

namespace Call

/-- The call in one step. -/
def whole (t : TokenTable RequestId) : Call → TokenTable RequestId
  | .track_new token id a => t.track_new_token token id 0 a
  | .track_flush token => t.track_flush_token 0 token

/-- The slots that a call writes when it has read `count`. It goes on to the
    count with `true` and returns with `false`. -/
def writeSlots (count : Nat) (slots : List (Option (TrackToken RequestId))) :
    Call → List (Option (TrackToken RequestId)) × Bool
  | .track_new _ _ .reallocFails => (slots, false)
  | .track_new _ _ .newBinaryFails => ((realloc slots (count + 1)).set count none, false)
  | .track_new token id .granted =>
      ((realloc slots (count + 1)).set count (some ⟨id, token, 0⟩), true)
  | .track_flush token =>
      match (TokenTable.mk slots count).firstMatch token with
      | none => (slots, false)
      | some i =>
          match slots[i]? with
          | some (some _) =>
              (if count - i > 1 then memmove slots i (i + 1) (count - i - 1) else slots, true)
          | _ => (slots, false)

/-- The count that is written when `count` has been read. -/
def newCount (count : Nat) : Call → Nat
  | .track_new _ _ _ => count + 1
  | .track_flush _ => count - 1

/-- One step of the call: where it is then, `none` when it has returned, and the
    table. -/
def step (call : Call) (t : TokenTable RequestId) : Pc → Option Pc × TokenTable RequestId
  | .reading => (some (.writing t.tracked_tokens_count), t)
  | .writing count =>
      let written := call.writeSlots count t.slots
      (if written.2 then some .counting else none, { t with slots := written.1 })
  | .counting => (some (.storing t.tracked_tokens_count), t)
  | .storing count => (none, { t with tracked_tokens_count := call.newCount count })

end Call

/-! ### A call that nobody interferes with -/

namespace Call

variable {call : Call} {before t t' : TokenTable RequestId} {pc pc' : Pc}

/-- The call has begun with the table `before`, and nobody else has written
    since. -/
inductive Reached (call : Call) (before : TokenTable RequestId) :
    Pc → TokenTable RequestId → Prop
  | reading : Reached call before .reading before
  | writing : Reached call before (.writing before.tracked_tokens_count) before
  | counting (h : (call.writeSlots before.tracked_tokens_count before.slots).2 = true) :
      Reached call before .counting
        { before with slots := (call.writeSlots before.tracked_tokens_count before.slots).1 }
  | storing (h : (call.writeSlots before.tracked_tokens_count before.slots).2 = true) :
      Reached call before (.storing before.tracked_tokens_count)
        { before with slots := (call.writeSlots before.tracked_tokens_count before.slots).1 }

theorem Reached.more (h : call.Reached before pc t) (hs : call.step t pc = (some pc', t')) :
    call.Reached before pc' t' := by
  cases h with
  | reading =>
    cases hs
    exact .writing
  | writing =>
    obtain ⟨hpc, rfl⟩ := Prod.mk.inj hs
    obtain ⟨hgoes, heq⟩ := Option.ite_none_right_eq_some.mp hpc
    cases heq
    exact .counting hgoes
  | counting hgoes =>
    cases hs
    exact .storing hgoes
  | storing hgoes => cases hs

/-- What the function does is what its steps do. -/
theorem whole_eq (call : Call) (t : TokenTable RequestId) :
    call.whole t =
      { slots := (call.writeSlots t.tracked_tokens_count t.slots).1
        tracked_tokens_count :=
          if (call.writeSlots t.tracked_tokens_count t.slots).2 then
            call.newCount t.tracked_tokens_count
          else t.tracked_tokens_count } := by
  cases call with
  | track_new token id a => cases a <;> rfl
  | track_flush token =>
    obtain ⟨slots, count⟩ := t
    cases hmatch : (TokenTable.mk slots count).firstMatch token with
    | none => simp [whole, TokenTable.track_flush_token, writeSlots, hmatch]
    | some i =>
      rcases hslot : slots[i]? with _ | _ | e <;>
        simp [whole, TokenTable.track_flush_token, writeSlots, newCount, hmatch, hslot]

theorem Reached.returned (h : call.Reached before pc t) (hs : call.step t pc = (none, t')) :
    t' = call.whole before := by
  rw [whole_eq]
  cases h with
  | reading => cases hs
  | writing =>
    obtain ⟨hpc, rfl⟩ := Prod.mk.inj hs
    have hstops : ¬(call.writeSlots before.tracked_tokens_count before.slots).2 = true := by
      intro hgoes
      rw [if_pos hgoes] at hpc
      cases hpc
    rw [if_neg hstops]
  | counting => cases hs
  | storing hgoes =>
    obtain ⟨_, rfl⟩ := Prod.mk.inj hs
    rw [if_pos hgoes]

/-- While a token is being tracked, the entries are the ones before. -/
theorem Reached.holds {token : Token} {id : RequestId} {a : Allocation}
    {es : List (TrackToken RequestId)} (h : (Call.track_new token id a).Reached before pc t)
    (hes : before.Holds es) : t.Holds es := by
  have hwritten : ∀ hgoes : (writeSlots before.tracked_tokens_count before.slots
      (.track_new token id a)).2 = true,
      (TokenTable.mk (writeSlots before.tracked_tokens_count before.slots
        (.track_new token id a)).1 before.tracked_tokens_count).Holds es := by
    intro hgoes
    cases a with
    | granted =>
      -- the new entry is behind the ones that are counted
      obtain ⟨rest, hslots, _⟩ := hes.track token id 0
      refine ⟨some ⟨id, token, 0⟩ :: rest, ?_, hes.choose_spec.2⟩
      show (before.track_new_token token id 0 .granted).slots = _
      rw [hslots]
      simp
    | reallocFails => cases hgoes
    | newBinaryFails => cases hgoes
  cases h with
  | reading => exact hes
  | writing => exact hes
  | counting hgoes => exact hwritten hgoes
  | storing hgoes => exact hwritten hgoes

end Call

end CoapClient

end DeviceTester
