import DeviceTester.Framework.Run
import Mathlib.Data.List.Perm.Basic

/-! # Reads into one buffer

  An object has one buffer for all of its reads. A read that finishes writes what
  has come in to the front of the buffer. Its handler is run later, and passes on
  as many bytes from there as it is told.

  As long as no read finishes while another one waits for its handler, what is
  passed on is what has come in (`passes_all`). A read that does writes over what
  the other one has left there (`not_passesOwn`).
-/

namespace SharedBuffer

open LTS

universe u v w

variable {State : Type u} {Label : Type v} {Byte : Type w}

/-! ### Systems with a buffer -/

/-- The buffer after a read has written the chunk. -/
def fill (buffer chunk : List Byte) : List Byte := chunk ++ buffer.drop chunk.length

/-- The chunks differ in a byte that both of them have. -/
def Differ (new old : List Byte) : Prop :=
  ∃ (k : Nat) (x y : Byte), new[k]? = some x ∧ old[k]? = some y ∧ x ≠ y

/-- What the steps of a system have to do with its reads. A read carries its
    chunk until its handler is run. -/
structure Reads (sys : System State Label) (Byte : Type w) where
  /-- What has come in with the read that the step finishes. -/
  arrives : State → Label → Option (List Byte)
  /-- What had come in with the read whose handler the step runs. -/
  handled : State → Label → Option (List Byte)
  /-- The chunks of the reads that wait for their handlers. -/
  waiting : State → List (List Byte)
  /-- What the handlers have passed on, if each has passed on its own chunk. -/
  received : State → List (List Byte)
  Inv : State → Prop
  init : ∀ s, sys.init s → Inv s ∧ waiting s = [] ∧ received s = []
  next : ∀ s l s', Inv s → sys.next s l = some s' → Inv s'
  /-- No step does both. -/
  apart : ∀ s l, arrives s l = none ∨ handled s l = none
  balance : ∀ s l s', Inv s → sys.next s l = some s' →
    ((handled s l).toList ++ waiting s').Perm (waiting s ++ (arrives s l).toList)
  record : ∀ s l s', Inv s → sys.next s l = some s' →
    received s' = received s ++ (handled s l).toList

/-- A state, with the buffer and what has been passed on from it. -/
structure Buffered (State : Type u) (Byte : Type w) where
  state : State
  buffer : List Byte
  passed : List (List Byte)

namespace Reads

variable {sys : System State Label} (R : Reads sys Byte)

/-- The system with the buffer. The handlers know the number of bytes only. -/
def buffered : System (Buffered State Byte) Label where
  init := fun b => sys.init b.state ∧ b.passed = []
  next := fun b l =>
    (sys.next b.state l).map fun s' =>
      { state := s'
        buffer := (R.arrives b.state l).elim b.buffer (fill b.buffer)
        passed := b.passed ++
          ((R.handled b.state l).map fun chunk => b.buffer.take chunk.length).toList }

/-- A handler that the step runs passes on what its own read has got. -/
def PassesOwn (b : Buffered State Byte) (l : Label) (_ : Buffered State Byte) : Prop :=
  ∀ chunk, R.handled b.state l = some chunk → b.buffer.take chunk.length = chunk

/-- No read waits for its handler when the step finishes another one. -/
def arrivesAlone (b : Buffered State Byte) (l : Label) : Prop :=
  R.arrives b.state l = none ∨ R.waiting b.state = []

/-! ### One step -/

theorem buffered_next {b b' : Buffered State Byte} {l : Label}
    (hn : R.buffered.next b l = some b') :
    sys.next b.state l = some b'.state ∧
      b'.buffer = (R.arrives b.state l).elim b.buffer (fill b.buffer) ∧
      b'.passed = b.passed ++
        ((R.handled b.state l).map fun chunk => b.buffer.take chunk.length).toList := by
  obtain ⟨s', hs', rfl⟩ := Option.map_eq_some_iff.mp hn
  exact ⟨hs', rfl, rfl⟩

/-- At most one read waits for its handler, and the front of the buffer is what
    has come in with it. -/
structure Sound (b : Buffered State Byte) : Prop where
  inv : R.Inv b.state
  one : (R.waiting b.state).length ≤ 1
  kept : ∀ chunk ∈ R.waiting b.state, b.buffer.take chunk.length = chunk

variable {R} {b b' : Buffered State Byte} {l : Label}

theorem Sound.init (h : R.buffered.init b) : R.Sound b := by
  obtain ⟨hinv, hnone, _⟩ := R.init _ h.1
  refine ⟨hinv, ?_, ?_⟩
  · rw [hnone]
    exact Nat.zero_le 1
  · intro chunk hmem
    rw [hnone] at hmem
    cases hmem

/-- Where at most one read waits, the order of the chunks is theirs. -/
theorem Sound.balance (h : R.Sound b) (hC : R.arrivesAlone b l)
    (hn : R.buffered.next b l = some b') :
    (R.handled b.state l).toList ++ R.waiting b'.state =
        R.waiting b.state ++ (R.arrives b.state l).toList ∧
      (R.waiting b.state ++ (R.arrives b.state l).toList).length ≤ 1 := by
  have hperm := R.balance _ _ _ h.inv (R.buffered_next hn).1
  have hlen : (R.waiting b.state ++ (R.arrives b.state l).toList).length ≤ 1 := by
    rcases hC with hnone | hnil
    · rw [hnone]
      simpa using h.one
    · rw [hnil]
      cases R.arrives b.state l with
      | none => exact Nat.zero_le 1
      | some chunk => exact Nat.le_refl 1
  refine ⟨?_, hlen⟩
  -- a list with at most one entry has no other order
  match hchunks : R.waiting b.state ++ (R.arrives b.state l).toList with
  | [] =>
    rw [hchunks] at hperm
    exact List.perm_nil.mp hperm
  | [chunk] =>
    rw [hchunks] at hperm
    exact List.perm_singleton.mp hperm
  | _ :: _ :: _ =>
    rw [hchunks] at hlen
    simp at hlen

theorem Sound.passesOwn (h : R.Sound b) (hC : R.arrivesAlone b l)
    (hn : R.buffered.next b l = some b') : R.PassesOwn b l b' := by
  intro chunk hhandled
  have hnone : R.arrives b.state l = none := by
    rcases R.apart b.state l with hnone | hnot
    · exact hnone
    · rw [hnot] at hhandled
      cases hhandled
  have hbalance := (h.balance hC hn).1
  rw [hhandled, hnone, Option.toList_some, Option.toList_none, List.append_nil] at hbalance
  apply h.kept chunk
  rw [← hbalance]
  exact List.mem_append_left _ (List.mem_singleton_self chunk)

theorem take_fill (buffer chunk : List Byte) : (fill buffer chunk).take chunk.length = chunk :=
  List.take_left

theorem Sound.next (h : R.Sound b) (hC : R.arrivesAlone b l)
    (hn : R.buffered.next b l = some b') : R.Sound b' := by
  obtain ⟨hstate, hbuffer, _⟩ := R.buffered_next hn
  obtain ⟨hbalance, hlen⟩ := h.balance hC hn
  have hsub : ∀ chunk ∈ R.waiting b'.state,
      chunk ∈ R.waiting b.state ++ (R.arrives b.state l).toList := by
    intro chunk hmem
    rw [← hbalance]
    exact List.mem_append_right _ hmem
  refine ⟨R.next _ _ _ h.inv hstate, ?_, ?_⟩
  · rw [← hbalance, List.length_append] at hlen
    omega
  · intro chunk hmem
    have hold := hsub chunk hmem
    rw [hbuffer]
    cases harrives : R.arrives b.state l with
    | none =>
      rw [harrives, Option.toList_none, List.append_nil] at hold
      exact h.kept chunk hold
    | some new =>
      -- nothing else waits, so this is the chunk that has been written
      have hnil : R.waiting b.state = [] := hC.resolve_left (by rw [harrives]; simp)
      rw [harrives, hnil] at hold
      obtain rfl := List.mem_singleton.mp hold
      exact take_fill b.buffer chunk

/-! ### Runs -/

/-- What the handler that the step runs reads from the buffer. -/
def reading (R : Reads sys Byte) (b : Buffered State Byte) (l : Label) : List (List Byte) :=
  ((R.handled b.state l).map fun chunk => b.buffer.take chunk.length).toList

theorem passed_eq {b : Buffered State Byte} (r : Run R.buffered b) :
    b.passed = r.collect R.reading := by
  induction r with
  | start b hb => exact hb.2
  | step r l b' hn ih =>
    rw [(R.buffered_next hn).2.2, ih]
    rfl

/-- What has been passed on, and what still waits, is what has come in. -/
structure PassesAll (R : Reads sys Byte) {b : Buffered State Byte} (r : Run R.buffered b) :
    Prop where
  own : r.Ensures R.PassesOwn
  passed : b.passed = R.received b.state
  all : b.passed ++ R.waiting b.state = r.collect fun b l => (R.arrives b.state l).toList

/-- **Reads that arrive alone**: each handler passes on what its own read has
    got, and nothing of what has come in is lost. -/
theorem passes_all {b : Buffered State Byte} (r : Run R.buffered b)
    (h : r.EachStep R.arrivesAlone) : R.PassesAll r := by
  have hsound : ∀ {b} (r : Run R.buffered b), r.EachStep R.arrivesAlone → R.Sound b :=
    fun r h => (Run.guarded (fun _ hs => Sound.init hs)
      (fun _ _ _ hI hC hn => Sound.next hI hC hn) r h).last
  induction r with
  | start b hb =>
    obtain ⟨_, hnone, hreceived⟩ := R.init _ hb.1
    refine ⟨trivial, by rw [hb.2, hreceived], ?_⟩
    rw [hb.2, hnone]
    rfl
  | @step b r l b' hn ih =>
    have hbefore := ih h.1
    have hI := hsound r h.1
    obtain ⟨hstate, _, hpassed⟩ := R.buffered_next hn
    have hown := hI.passesOwn h.2 hn
    -- the handler passes on its chunk, if one is run
    have hadds : b'.passed = b.passed ++ (R.handled b.state l).toList := by
      rw [hpassed]
      cases hhandled : R.handled b.state l with
      | none => rfl
      | some chunk => rw [Option.map_some, hown chunk hhandled]
    refine ⟨⟨hbefore.own, hown⟩, ?_, ?_⟩
    · rw [hadds, R.record _ _ _ hI.inv hstate, hbefore.passed]
    · rw [hadds, List.append_assoc, (hI.balance h.2 hn).1, ← List.append_assoc, hbefore.all]
      rfl

/-- Reads that arrive alone by an invariant of the steps meeting `C`. -/
theorem passes_all_of_guarded {I : State → Prop} {C : State → Label → Prop}
    (hinit : ∀ s, sys.init s → I s)
    (hstep : ∀ s l s', I s → C s l → sys.next s l = some s' → I s')
    (halone : ∀ s l s', R.Inv s → I s → sys.next s l = some s' →
      R.arrives s l = none ∨ R.waiting s = [])
    {b : Buffered State Byte} (r : Run R.buffered b) (h : r.EachStep fun b l => C b.state l) :
    R.PassesAll r := by
  apply passes_all
  refine Run.guarded_eachStep (I := fun b => R.Inv b.state ∧ I b.state) ?_ ?_ ?_ r h
  · intro b hb
    exact ⟨(R.init _ hb.1).1, hinit _ hb.1⟩
  · intro b l b' hI hC hn
    have hstate := (R.buffered_next hn).1
    exact ⟨R.next _ _ _ hI.1 hstate, hstep _ _ _ hI.2 hC hstate⟩
  · intro b l b' hI _ hn
    exact halone _ _ _ hI.1 hI.2 (R.buffered_next hn).1

/-- The same for an invariant of all steps. -/
theorem passes_all_of_alone (halone : ∀ s l s', R.Inv s → sys.next s l = some s' →
    R.arrives s l = none ∨ R.waiting s = []) {b : Buffered State Byte} (r : Run R.buffered b) :
    R.PassesAll r :=
  passes_all_of_guarded (I := fun _ => True) (C := fun _ _ => True) (fun _ _ => trivial)
    (fun _ _ _ _ _ _ => trivial) (fun s l s' hR _ hn => halone s l s' hR hn) r
    (Run.EachStep.always (fun _ _ => trivial) r)

/-- **Reads that do not**: a chunk that waits is written over by another one that
    differs from it, and its handler passes on something else. -/
theorem not_passesOwn {b b' b'' : Buffered State Byte} {l l' : Label} {old new : List Byte}
    (hn : R.buffered.next b l = some b') (harrives : R.arrives b.state l = some new)
    (hhandled : R.handled b'.state l' = some old) (hdiffer : Differ new old) :
    ¬R.PassesOwn b' l' b'' := by
  intro hown
  obtain ⟨k, x, y, hnew, hold, hne⟩ := hdiffer
  have htake := hown _ hhandled
  rw [(R.buffered_next hn).2.1, harrives, Option.elim_some, fill] at htake
  -- the byte at `k` is in front of what is left in the buffer
  have hk := (List.getElem?_eq_some_iff.mp hnew).1
  have hk' := (List.getElem?_eq_some_iff.mp hold).1
  have hsame : old[k]? = new[k]? := by
    rw [← htake, List.getElem?_take_of_lt hk', List.getElem?_append_left hk]
  rw [hnew, hold, Option.some.injEq] at hsame
  exact hne hsame.symm

end Reads

end SharedBuffer
