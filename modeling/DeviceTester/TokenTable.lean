import Mathlib.Data.List.Basic
import Mathlib.Data.List.Nodup

/-! # The table of tracked tokens

  `tracked_tokens` of `libcon/src/coap_client.cpp`: an array grown by
  `realloc`, of which the first `tracked_tokens_count` slots are in use. It is
  searched from the front, and a slot is removed by moving the ones behind it.

  `Holds` relates the memory to the list of entries it stands for. The lemmas
  after it say what the three functions do to that list.
-/

namespace DeviceTester

namespace CoapClient

abbrev Token := List UInt8

/-- `struct track_token`. The model of the client keeps more than `RequestId`
    in `id`. -/
structure TrackToken (Id : Type) where
  id : Id
  token : Token
  observe : Int
  deriving DecidableEq, Repr

/-- The allocated slots, `none` where no token has been written to, and how
    many of them are in use. -/
structure TokenTable (Id : Type) where
  slots : List (Option (TrackToken Id))
  tracked_tokens_count : Nat
  deriving DecidableEq, Repr

/-- What `realloc` and `coap_new_binary` answer. -/
inductive Allocation where
  | granted
  | reallocFails
  | newBinaryFails
  deriving DecidableEq, Repr

variable {Id α : Type}

/-! ### Memory -/

/-- `realloc` to `n` slots. -/
def realloc (slots : List (Option α)) (n : Nat) : List (Option α) :=
  slots.take n ++ List.replicate (n - slots.length) none

/-- `memmove` of `n` slots from `src` to `dst`. -/
def memmove (slots : List α) (dst src n : Nat) : List α :=
  slots.take dst ++ (slots.drop src).take n ++ slots.drop (dst + n)

namespace TokenTable

/-! ### The three functions -/

def new : TokenTable Id := ⟨[], 0⟩

def track_new_token (t : TokenTable Id) (token : Token) (id : Id) (observe : Int)
    (a : Allocation) : TokenTable Id :=
  -- the table is left as it is by a failed `realloc`; a slot is left over when the token
  -- cannot be copied
  let count := t.tracked_tokens_count
  match a with
  | .reallocFails => t
  | .newBinaryFails => { t with slots := (realloc t.slots (count + 1)).set count none }
  | .granted =>
      { slots := (realloc t.slots (count + 1)).set count (some ⟨id, token, observe⟩)
        tracked_tokens_count := count + 1 }

/-- `coap_binary_equal` on a slot. -/
def slotEqual (token : Token) : Option (TrackToken Id) → Bool
  | some e => e.token == token
  | none => false

/-- The loop over the slots in use, up to the first that holds the token. -/
def firstMatch (t : TokenTable Id) (token : Token) : Option Nat :=
  (t.slots.take t.tracked_tokens_count).findIdx? (slotEqual token)

/-- The id, `none` for the pair `{false, 0}`. -/
def track_check_token (t : TokenTable Id) (token : Token) : Option Id :=
  (t.firstMatch token).bind fun i =>
    match t.slots[i]? with
    | some (some e) => some e.id
    | _ => none

def track_flush_token (t : TokenTable Id) (obs_started : Int) (token : Token) : TokenTable Id :=
  let count := t.tracked_tokens_count
  match t.firstMatch token with
  | none => t
  | some i =>
      match t.slots[i]? with
      | some (some e) =>
          -- only removed if not observing
          if e.observe = 0 ∨ obs_started = 0 then
            { slots := if count - i > 1 then memmove t.slots i (i + 1) (count - i - 1) else t.slots
              tracked_tokens_count := count - 1 }
          else t
      | _ => t

/-! ### The entries -/

/-- The slots in use hold the entries `es`. -/
def Holds (t : TokenTable Id) (es : List (TrackToken Id)) : Prop :=
  ∃ rest, t.slots = es.map some ++ rest ∧ t.tracked_tokens_count = es.length

/-- What is in use, as a list. -/
def entries (t : TokenTable Id) : List (TrackToken Id) :=
  (t.slots.take t.tracked_tokens_count).filterMap id

theorem Holds.take {t : TokenTable Id} {es : List (TrackToken Id)} (h : t.Holds es) :
    t.slots.take t.tracked_tokens_count = es.map some := by
  obtain ⟨rest, hslots, hcount⟩ := h
  rw [hslots, hcount, List.take_left' (by simp)]

theorem Holds.entries_eq {t : TokenTable Id} {es : List (TrackToken Id)} (h : t.Holds es) :
    t.entries = es := by
  unfold entries
  rw [h.take]
  simp [List.filterMap_map]

theorem Holds.new : (TokenTable.new : TokenTable Id).Holds [] :=
  ⟨[], rfl, rfl⟩

/-- Growing by one slot keeps the entries and leaves one slot behind them. -/
theorem realloc_succ (es : List α) (rest : List (Option α)) :
    ∃ slot, realloc (es.map some ++ rest) (es.length + 1) = es.map some ++ [slot] := by
  unfold realloc
  cases rest with
  | nil =>
    refine ⟨none, ?_⟩
    rw [List.take_of_length_le (by simp)]
    simp
  | cons slot rest =>
    refine ⟨slot, ?_⟩
    have hfits : es.length + 1 - (es.map some ++ slot :: rest).length = 0 := by
      simp only [List.length_append, List.length_map, List.length_cons]
      omega
    have hall : (es.map some).take (es.length + 1) = es.map some :=
      List.take_of_length_le (by simp)
    rw [hfits, List.take_append, hall]
    simp

theorem Holds.track {t : TokenTable Id} {es : List (TrackToken Id)} (h : t.Holds es)
    (token : Token) (id : Id) (observe : Int) :
    (t.track_new_token token id observe .granted).Holds (es ++ [⟨id, token, observe⟩]) := by
  obtain ⟨rest, hslots, hcount⟩ := h
  obtain ⟨slot, hgrown⟩ := realloc_succ es rest
  refine ⟨[], ?_, ?_⟩
  · simp only [track_new_token, hcount, hslots, hgrown]
    rw [List.set_append_right _ _ (by simp)]
    simp
  · simp [track_new_token, hcount]

/-- A failed allocation tracks nothing. -/
theorem Holds.track_fails {t : TokenTable Id} {es : List (TrackToken Id)} (h : t.Holds es)
    (token : Token) (id : Id) (observe : Int) {a : Allocation} (ha : a ≠ .granted) :
    (t.track_new_token token id observe a).Holds es := by
  cases a with
  | granted => exact absurd rfl ha
  | reallocFails => exact h
  | newBinaryFails =>
    obtain ⟨rest, hslots, hcount⟩ := h
    obtain ⟨slot, hgrown⟩ := realloc_succ es rest
    refine ⟨[none], ?_, hcount⟩
    simp only [track_new_token, hcount, hslots, hgrown]
    rw [List.set_append_right _ _ (by simp)]
    simp

theorem Holds.firstMatch {t : TokenTable Id} {es : List (TrackToken Id)} (h : t.Holds es)
    (token : Token) : t.firstMatch token = es.findIdx? fun e => e.token == token := by
  unfold TokenTable.firstMatch
  rw [h.take, List.findIdx?_map]
  rfl

/-- The loop finds the token when one of the entries holds it. -/
theorem Holds.firstMatch_isSome {t : TokenTable Id} {es : List (TrackToken Id)} (h : t.Holds es)
    (token : Token) : (t.firstMatch token).isSome = true ↔ token ∈ es.map (·.token) := by
  rw [h.firstMatch, List.findIdx?_isSome, List.any_eq_true, List.mem_map]
  simp only [beq_iff_eq]

/-- With a smaller count the slots hold fewer entries. -/
theorem Holds.shorter {t : TokenTable Id} {es : List (TrackToken Id)} (h : t.Holds es)
    {count : Nat} (hcount : count ≤ es.length) : (mk t.slots count).Holds (es.take count) := by
  obtain ⟨rest, hslots, _⟩ := h
  refine ⟨(es.drop count).map some ++ rest, ?_, ?_⟩
  · rw [← List.append_assoc, ← List.map_append, List.take_append_drop]
    exact hslots
  · show count = (es.take count).length
    rw [List.length_take]
    omega

/-- A slot in use holds its entry. -/
theorem Holds.getElem? {t : TokenTable Id} {es : List (TrackToken Id)} (h : t.Holds es) {i : Nat}
    (hi : i < es.length) : t.slots[i]? = some (some es[i]) := by
  obtain ⟨rest, hslots, _⟩ := h
  rw [hslots, List.getElem?_append_left (by simpa using hi)]
  simp [hi]

/-- `track_check_token` finds the first entry with the token. -/
theorem Holds.check {t : TokenTable Id} {es : List (TrackToken Id)} (h : t.Holds es)
    (token : Token) :
    t.track_check_token token = (es.find? fun e => e.token == token).map (·.id) := by
  unfold track_check_token
  rw [h.firstMatch, List.find?_eq_bind_findIdx?_getElem?]
  cases hfound : es.findIdx? fun e => e.token == token with
  | none => rfl
  | some i =>
    obtain ⟨hi, _⟩ := List.findIdx?_eq_some_iff_getElem.mp hfound
    simp [h.getElem? hi, hi]

/-- Moving the slots behind the `i`-th over it removes its entry. -/
theorem memmove_entries (es : List α) (rest : List (Option α)) {i : Nat} (hi : i < es.length) :
    ∃ rest', (if es.length - i > 1 then
        memmove (es.map some ++ rest) i (i + 1) (es.length - i - 1)
      else es.map some ++ rest) = (es.eraseIdx i).map some ++ rest' := by
  rw [List.eraseIdx_eq_take_drop_succ, List.map_append]
  by_cases hlast : es.length - i > 1
  · rw [if_pos hlast]
    refine ⟨(es.map some ++ rest).drop (i + (es.length - i - 1)), ?_⟩
    unfold memmove
    congr 1
    congr 1
    · rw [List.take_append_of_le_length (by simp; omega), List.map_take]
    · rw [List.drop_append_of_le_length (by simp; omega),
        List.take_append_of_le_length (by simp; omega), List.take_of_length_le (by simp; omega),
        List.map_drop]
  · -- the last entry is only counted out
    rw [if_neg hlast]
    have hdrop : es.drop (i + 1) = [] := List.drop_eq_nil_of_le (by omega)
    refine ⟨(es.drop i).map some ++ rest, ?_⟩
    rw [hdrop, List.map_nil, List.append_nil, ← List.append_assoc, ← List.map_append,
      List.take_append_drop]

/-- `track_flush_token` removes the first entry with the token, as long as
    nothing is observed. -/
theorem Holds.flush {t : TokenTable Id} {es : List (TrackToken Id)} (h : t.Holds es)
    (token : Token) :
    (t.track_flush_token 0 token).Holds (es.eraseP fun e => e.token == token) := by
  unfold track_flush_token
  rw [h.firstMatch, List.eraseP_eq_eraseIdx]
  cases hfound : es.findIdx? fun e => e.token == token with
  | none => exact h
  | some i =>
    obtain ⟨hi, _⟩ := List.findIdx?_eq_some_iff_getElem.mp hfound
    simp only [h.getElem? hi, or_true, if_true]
    obtain ⟨rest, hslots, hcount⟩ := h
    obtain ⟨rest', hmoved⟩ := memmove_entries es rest hi
    refine ⟨rest', ?_, ?_⟩
    · rw [← hmoved, hslots, hcount]
    · rw [hcount, List.length_eraseIdx_of_lt hi]

/-! ### The table as a map

    What `track_check_token` answers for each token, after each of the other
    two functions. -/

/-- With distinct tokens, the first entry with the token is the only one. -/
theorem eraseP_eq_filter {es : List (TrackToken Id)} (hdistinct : (es.map (·.token)).Nodup)
    (token : Token) :
    (es.eraseP fun e => e.token == token) = es.filter fun e => decide (e.token ≠ token) := by
  induction es with
  | nil => rfl
  | cons e es ih =>
    rw [List.map_cons, List.nodup_cons] at hdistinct
    by_cases htoken : e.token = token
    · rw [List.eraseP_cons_of_pos (by simp [htoken]), List.filter_cons_of_neg (by simp [htoken])]
      refine (List.filter_eq_self.mpr fun e' he' => decide_eq_true ?_).symm
      intro heq
      exact hdistinct.1 (List.mem_map.mpr ⟨e', he', heq.trans htoken.symm⟩)
    · rw [List.eraseP_cons_of_neg (by simp [htoken]), List.filter_cons_of_pos (by simp [htoken]),
        ih hdistinct.2]

theorem find?_eraseP_self {es : List (TrackToken Id)} (hdistinct : (es.map (·.token)).Nodup)
    (token : Token) :
    (es.eraseP fun e => e.token == token).find? (fun e => e.token == token) = none := by
  rw [eraseP_eq_filter hdistinct, List.find?_eq_none]
  intro e he heq
  exact of_decide_eq_true (List.mem_filter.mp he).2 (beq_iff_eq.mp heq)

/-- Of the entries with the token the first one is gone, those with another
    token stay. -/
theorem filter_eraseP (es : List (TrackToken Id)) (token token' : Token) :
    (es.eraseP fun e => e.token == token).filter (fun e => e.token == token') =
      if token' = token then (es.filter fun e => e.token == token').tail
      else es.filter fun e => e.token == token' := by
  induction es with
  | nil => simp
  | cons e es ih =>
    by_cases htoken : e.token = token
    · rw [List.eraseP_cons_of_pos (by simp [htoken])]
      by_cases hsame : token' = token
      · rw [if_pos hsame, List.filter_cons_of_pos (by simp [htoken, hsame]), List.tail_cons]
      · rw [if_neg hsame, List.filter_cons_of_neg (by simp [htoken, Ne.symm hsame])]
    · rw [List.eraseP_cons_of_neg (by simp [htoken])]
      by_cases hsame : token' = token
      · rw [List.filter_cons_of_neg (by simp [htoken, hsame]),
          List.filter_cons_of_neg (by simp [htoken, hsame]), ih]
      · rw [if_neg hsame] at ih ⊢
        rw [List.filter_cons, List.filter_cons, ih]

/-- The first entry with another token stays the first one. -/
theorem find?_eraseP_ne (es : List (TrackToken Id)) {token token' : Token} (hne : token' ≠ token) :
    (es.eraseP fun e => e.token == token).find? (fun e => e.token == token') =
      es.find? fun e => e.token == token' := by
  rw [← List.head?_filter, filter_eraseP, if_neg hne, List.head?_filter]

/-- A flush takes the token out of the map, and nothing else. -/
theorem Holds.check_flush {t : TokenTable Id} {es : List (TrackToken Id)} (h : t.Holds es)
    (hdistinct : (es.map (·.token)).Nodup) (token token' : Token) :
    (t.track_flush_token 0 token).track_check_token token' =
      if token' = token then none else t.track_check_token token' := by
  rw [(h.flush token).check, h.check]
  by_cases hsame : token' = token
  · rw [if_pos hsame, hsame, find?_eraseP_self hdistinct, Option.map_none]
  · rw [if_neg hsame, find?_eraseP_ne es hsame]

/-- A token is tracked when an entry holds it. -/
theorem Holds.check_isSome {t : TokenTable Id} {es : List (TrackToken Id)} (h : t.Holds es)
    (token : Token) :
    (t.track_check_token token).isSome = true ↔ token ∈ es.map (·.token) := by
  rw [h.check, Option.isSome_map, List.find?_isSome, List.mem_map]
  simp only [beq_iff_eq]

/-- With distinct tokens every entry is found. -/
theorem Holds.check_mem {t : TokenTable Id} {es : List (TrackToken Id)} (h : t.Holds es)
    (hdistinct : (es.map (·.token)).Nodup) {e : TrackToken Id} (he : e ∈ es) :
    t.track_check_token e.token = some e.id := by
  rw [h.check]
  cases hfound : es.find? fun e' => e'.token == e.token with
  | none =>
    have hno := List.find?_eq_none.mp hfound e he
    simp at hno
  | some e' =>
    have htoken := List.find?_some hfound
    rw [beq_iff_eq] at htoken
    have hsame := List.inj_on_of_nodup_map hdistinct (List.mem_of_find?_eq_some hfound) he htoken
    rw [hsame, Option.map_some]

end TokenTable

end CoapClient

end DeviceTester
