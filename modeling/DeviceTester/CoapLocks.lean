import DeviceTester.Framework.Run
import DeviceTester.Framework.SharedMutex
import Mathlib.Logic.Function.Basic

/-! # The mutexes of the CoAP client

  `sendRequest` takes `coap_mtx_` in shared mode, and `large_data_mtx_` inside
  when there is a body. `createSession` and the destructor take `coap_mtx_` in
  exclusive mode. `doIO` has it in shared mode while libcoap receives, which
  calls `messageCallback` and with it the slots of `onReceive`.

  A mutex may prefer those that wait for the exclusive mode, and keep others
  waiting for the shared one as long as there are any.

  Then everybody returns, unless a slot asks for the mutex that `doIO` has
  (`calls_return_iff`). The slots of a Lua plugin post what they want to do
  instead. The slot of `DiscoverServers` does nothing, but it has the client, and
  when it is the last that has it, the destructor is called by `doIO`.
-/

namespace DeviceTester

open LTS Lock

namespace CoapClient

/-- Who asks for the mutexes. -/
inductive Agent where
  | caller (n : Nat)
  | io
  /-- The slot that `doIO` is in. -/
  | slot
  deriving DecidableEq, Repr

inductive Phase where
  | out
  | waiting (mode : Mode)
  | owning (mode : Mode)
  /-- Waiting for `large_data_mtx_`, and putting in the body. -/
  | waitingLarge
  | storing
  /-- In what is left of `sendRequest`. -/
  | sending
  deriving DecidableEq, Repr

namespace Phase

/-- The mode in which `coap_mtx_` is owned. -/
def owned : Phase → Option Mode
  | .owning mode => some mode
  | .waitingLarge => some .shared
  | .storing => some .shared
  | .sending => some .shared
  | _ => none

/-- How much is left to do. -/
def rank : Phase → Nat
  | .out => 0
  | .sending => 1
  | .storing => 2
  | .waitingLarge => 3
  | .owning _ => 4
  | .waiting _ => 5

end Phase

structure Locks where
  coap_mtx : SharedMutex Agent
  large_data_mtx : Option Agent
  /-- Those that wait for the exclusive mode. -/
  writers : List Agent
  phase : Agent → Phase

namespace Locks

def new : Locks where
  coap_mtx := .free
  large_data_mtx := none
  writers := []
  phase := fun _ => .out

inductive Label where
  /-- `sendRequest` is called. -/
  | request (a : Agent)
  /-- `setOptions` or the destructor is called. -/
  | change (a : Agent)
  /-- `doIO` is run. -/
  | doIo
  | lock (a : Agent)
  /-- `data.size() > 0`. -/
  | body (a : Agent)
  | lockLarge (a : Agent)
  | unlockLarge (a : Agent)
  /-- There is no body. -/
  | noBody (a : Agent)
  | unlock (a : Agent)

def setPhase (s : Locks) (a : Agent) (x : Phase) : Locks :=
  { s with phase := Function.update s.phase a x }

@[simp] theorem setPhase_self (s : Locks) (a : Agent) (x : Phase) :
    (s.setPhase a x).phase a = x := by
  simp [setPhase]

@[simp] theorem setPhase_ne (s : Locks) (x : Phase) {a b : Agent} (h : b ≠ a) :
    (s.setPhase a x).phase b = s.phase b := by
  simp [setPhase, h]

/-- Who can call the client: a slot only while it is called itself. -/
def mayCall (s : Locks) : Agent → Bool
  | .caller _ => true
  | .io => false
  | .slot => s.phase .io = .owning .shared

/-- Who can unlock `coap_mtx_`: `doIO` when the slots have returned. -/
def mayUnlock (s : Locks) : Agent → Bool
  | .io => s.phase .io = .owning .shared ∧ s.phase .slot = .out
  | a => s.phase a = .sending ∨ s.phase a = .owning .exclusive

def lockNext (prefersWriters : Bool) (s : Locks) (a : Agent) : Option Locks :=
  match s.phase a with
  | .waiting .shared =>
      if prefersWriters = true ∧ s.writers ≠ [] then none
      else (s.coap_mtx.lock a .shared).map fun m =>
        { s with coap_mtx := m }.setPhase a (.owning .shared)
  | .waiting .exclusive =>
      (s.coap_mtx.lock a .exclusive).map fun m =>
        { s with coap_mtx := m, writers := s.writers.erase a }.setPhase a (.owning .exclusive)
  | _ => none

def next (prefersWriters : Bool) (s : Locks) : Label → Option Locks
  | .request a =>
      if s.phase a = .out ∧ s.mayCall a then some (s.setPhase a (.waiting .shared)) else none
  | .change a =>
      if s.phase a = .out ∧ s.mayCall a then
        some ({ s with writers := s.writers ++ [a] }.setPhase a (.waiting .exclusive))
      else none
  | .doIo => if s.phase .io = .out then some (s.setPhase .io (.waiting .shared)) else none
  | .lock a => s.lockNext prefersWriters a
  | .body a =>
      if s.phase a = .owning .shared ∧ a ≠ .io then some (s.setPhase a .waitingLarge) else none
  | .lockLarge a =>
      if s.phase a = .waitingLarge ∧ s.large_data_mtx = none then
        some ({ s with large_data_mtx := some a }.setPhase a .storing)
      else none
  | .unlockLarge a =>
      if s.phase a = .storing then some ({ s with large_data_mtx := none }.setPhase a .sending)
      else none
  | .noBody a =>
      if s.phase a = .owning .shared ∧ a ≠ .io then some (s.setPhase a .sending) else none
  | .unlock a =>
      if s.mayUnlock a then
        some ({ s with coap_mtx := s.coap_mtx.unlock a }.setPhase a .out)
      else none

end Locks

/-- The mutexes, where `coap_mtx_` may prefer those that wait for the exclusive
    mode. -/
def locks (prefersWriters : Bool) : System Locks Locks.Label where
  init := fun s => s = Locks.new
  next := Locks.next prefersWriters

namespace Locks

/-! ### The property -/

/-- The step does not begin anything. -/
def Label.returning : Label → Bool
  | .request _ => false
  | .change _ => false
  | .doIo => false
  | _ => true

/-- **(R)** Everybody can return. -/
def CanReturn (prefersWriters : Bool) (s : Locks) : Prop :=
  ∃ ls s', (∀ l ∈ ls, l.returning = true) ∧ (locks prefersWriters).exec s ls = some s' ∧
    ∀ a, s'.phase a = .out

/-- No slot calls `setOptions` or the destructor. Where the mutex prefers writers,
    no slot calls `sendRequest` while one waits, and none begins to wait while a
    slot does. -/
def SlotsApart (prefersWriters : Bool) (s : Locks) : Label → Prop
  | .request .slot => prefersWriters = true → s.writers = []
  | .change .slot => False
  | .change _ => prefersWriters = true → s.phase .slot ≠ .waiting .shared
  | _ => True

/-! ### The invariant -/

structure Inv (prefersWriters : Bool) (s : Locks) : Prop where
  owners : ∀ a mode, (a, mode) ∈ s.coap_mtx.owners ↔ (s.phase a).owned = some mode
  large : ∀ a, s.large_data_mtx = some a ↔ s.phase a = .storing
  writers : ∀ a, a ∈ s.writers ↔ s.phase a = .waiting .exclusive
  distinct : s.writers.Nodup
  io : s.phase .io = .out ∨ s.phase .io = .waiting .shared ∨ s.phase .io = .owning .shared
  slot : s.phase .slot ≠ .out → s.phase .io = .owning .shared
  /-- Nobody keeps a slot waiting. -/
  passes : s.phase .slot ≠ .waiting .exclusive ∧
    (prefersWriters = true → s.phase .slot = .waiting .shared → s.writers = [])
  few : ∃ A : Finset Agent, ∀ a ∉ A, s.phase a = .out

variable {p : Bool} {s s' : Locks}

theorem Inv.new : new.Inv p where
  owners := by
    intro a mode
    simp [Locks.new, SharedMutex.free, Phase.owned]
  large := by
    intro a
    simp [Locks.new]
  writers := by
    intro a
    simp [Locks.new]
  distinct := List.nodup_nil
  io := Or.inl rfl
  slot := fun h => absurd rfl h
  passes := by simp [Locks.new]
  few := ⟨∅, fun _ _ => rfl⟩

/-- One agent moves on. -/
theorem Inv.moves (h : s.Inv p) {a : Agent} {x : Phase}
    (hphase : s'.phase = Function.update s.phase a x)
    (howners : ∀ b mode, (b, mode) ∈ s'.coap_mtx.owners ↔
      if b = a then x.owned = some mode else (b, mode) ∈ s.coap_mtx.owners)
    (hlarge : ∀ b, s'.large_data_mtx = some b ↔
      if b = a then x = .storing else s.large_data_mtx = some b)
    (hwriters : ∀ b, b ∈ s'.writers ↔
      if b = a then x = .waiting .exclusive else b ∈ s.writers)
    (hdistinct : s'.writers.Nodup)
    (hio : a = .io → x = .out ∨ x = .waiting .shared ∨ x = .owning .shared)
    (hslot : (a = .slot → x ≠ .out → s.phase .io = .owning .shared) ∧
      (a = .io → s.phase .slot ≠ .out → x = .owning .shared))
    (hpasses : (a = .slot → x ≠ .waiting .exclusive ∧
        (p = true → x = .waiting .shared → s'.writers = [])) ∧
      (a ≠ .slot → p = true → s.phase .slot = .waiting .shared → s'.writers = [])) :
    s'.Inv p := by
  have hself : s'.phase a = x := by
    rw [hphase]
    exact Function.update_self _ _ _
  have hother : ∀ b, b ≠ a → s'.phase b = s.phase b := by
    intro b hne
    rw [hphase]
    exact Function.update_of_ne hne _ _
  refine ⟨?_, ?_, ?_, hdistinct, ?_, ?_, ?_, ?_⟩
  · intro b mode
    rw [howners]
    split
    · next heq => rw [heq, hself]
    · next hne => rw [h.owners, hother b hne]
  · intro b
    rw [hlarge]
    split
    · next heq => rw [heq, hself]
    · next hne => rw [h.large, hother b hne]
  · intro b
    rw [hwriters]
    split
    · next heq => rw [heq, hself]
    · next hne => rw [h.writers, hother b hne]
  · by_cases ha : Agent.io = a
    · rw [ha, hself]
      exact hio ha.symm
    · rw [hother _ ha]
      exact h.io
  · intro hcalled
    by_cases hs : Agent.slot = a
    · rw [hs, hself] at hcalled
      have hne : Agent.io ≠ a := by
        rw [← hs]
        decide
      rw [hother _ hne]
      exact hslot.1 hs.symm hcalled
    · rw [hother _ hs] at hcalled
      by_cases ha : Agent.io = a
      · rw [ha, hself]
        exact hslot.2 ha.symm hcalled
      · rw [hother _ ha]
        exact h.slot hcalled
  · by_cases hs : Agent.slot = a
    · rw [hs, hself]
      exact hpasses.1 hs.symm
    · rw [hother _ hs]
      exact ⟨h.passes.1, hpasses.2 (Ne.symm hs)⟩
  · obtain ⟨A, hA⟩ := h.few
    refine ⟨insert a A, fun b hb => ?_⟩
    obtain ⟨hne, hno⟩ := not_or.mp (fun hor => hb (Finset.mem_insert.mpr hor))
    rw [hother b hne]
    exact hA b hno

/-- And leaves the mutexes as they are. -/
theorem Inv.stays (h : s.Inv p) {a : Agent} {x : Phase}
    (howned : (s.phase a).owned = x.owned) (hlarge : s.phase a ≠ .storing ∧ x ≠ .storing)
    (hwriter : s.phase a ≠ .waiting .exclusive ∧ x ≠ .waiting .exclusive)
    (hio : a = .io → x = .out ∨ x = .waiting .shared ∨ x = .owning .shared)
    (hslot : (a = .slot → x ≠ .out → s.phase .io = .owning .shared) ∧
      (a = .io → s.phase .slot ≠ .out → x = .owning .shared))
    (hpasses : a = .slot → p = true → x = .waiting .shared → s.writers = []) :
    (s.setPhase a x).Inv p := by
  refine h.moves rfl ?_ ?_ ?_ h.distinct hio hslot
    ⟨fun ha => ⟨hwriter.2, hpasses ha⟩, fun _ => h.passes.2⟩
  · intro b mode
    split
    · next heq =>
      rw [heq, ← howned]
      exact h.owners a mode
    · rfl
  · intro b
    split
    · next heq =>
      rw [heq]
      exact iff_of_false (fun hs => hlarge.1 ((h.large a).mp hs)) hlarge.2
    · rfl
  · intro b
    split
    · next heq =>
      rw [heq]
      exact iff_of_false (fun hs => hwriter.1 ((h.writers a).mp hs)) hwriter.2
    · rfl

/-- An agent that is called is not `doIO`, and a slot has been called by it. -/
theorem called_of_mayCall {a : Agent} (ha : s.mayCall a = true) :
    a ≠ .io ∧ (a = .slot → s.phase .io = .owning .shared) := by
  cases a with
  | caller n => exact ⟨(fun h => by cases h), (fun h => by cases h)⟩
  | io => cases ha
  | slot => exact ⟨by decide, fun _ => of_decide_eq_true ha⟩

theorem Inv.request (h : s.Inv p) {a : Agent} (hC : s.SlotsApart p (.request a))
    (hout : s.phase a = .out) (ha : s.mayCall a = true) :
    (s.setPhase a (.waiting .shared)).Inv p := by
  obtain ⟨hne, hslot⟩ := called_of_mayCall ha
  refine h.stays ?_ ?_ ?_ ?_ ⟨fun heq _ => hslot heq, fun heq => absurd heq hne⟩ ?_
  · rw [hout]
    rfl
  · rw [hout]
    decide
  · rw [hout]
    decide
  · exact fun heq => absurd heq hne
  · intro heq hp _
    subst heq
    exact hC hp

theorem Inv.change (h : s.Inv p) {a : Agent} (hC : s.SlotsApart p (.change a))
    (hout : s.phase a = .out) (ha : s.mayCall a = true) :
    Inv p ({ s with writers := s.writers ++ [a] }.setPhase a (.waiting .exclusive)) := by
  obtain ⟨hne, hslot⟩ := called_of_mayCall ha
  have hnew : a ∉ s.writers := by
    intro hmem
    rw [h.writers, hout] at hmem
    cases hmem
  have hnotslot : a ≠ .slot := by
    rintro rfl
    exact hC
  refine h.moves rfl ?_ ?_ ?_ ?_ (fun heq => absurd heq hne)
    ⟨fun heq _ => hslot heq, fun heq => absurd heq hne⟩
    ⟨fun heq => absurd heq hnotslot, fun _ hp hwaiting => ?_⟩
  · intro b mode
    show (b, mode) ∈ s.coap_mtx.owners ↔ _
    split
    · next heq =>
      rw [heq, h.owners, hout]
      rfl
    · rfl
  · intro b
    show s.large_data_mtx = some b ↔ _
    split
    · next heq =>
      rw [heq, h.large, hout]
      decide
    · rfl
  · intro b
    show b ∈ s.writers ++ [a] ↔ _
    rw [List.mem_append, List.mem_singleton]
    split
    · next heq => exact iff_of_true (Or.inr heq) rfl
    · next hb => exact or_iff_left hb
  · show (s.writers ++ [a]).Nodup
    rw [List.nodup_append]
    refine ⟨h.distinct, List.nodup_singleton a, ?_⟩
    intro b hb c hc heq
    rw [heq, List.mem_singleton.mp hc] at hb
    exact hnew hb
  · -- a slot is waiting, and so nobody else has begun to
    cases a with
    | caller n => exact absurd hwaiting (hC hp)
    | io => exact absurd rfl hne
    | slot => exact absurd rfl hnotslot

/-- An owner of the mutex who is not `doIO` goes on. -/
theorem Inv.goesOn (h : s.Inv p) {a : Agent} {x : Phase} (hne : a ≠ .io)
    (hfrom : s.phase a = .owning .shared) (hx : x = .waitingLarge ∨ x = .sending) :
    (s.setPhase a x).Inv p := by
  have hslot : a = .slot → s.phase .io = .owning .shared := by
    rintro rfl
    apply h.slot
    rw [hfrom]
    decide
  refine h.stays ?_ ?_ ?_ (fun heq => absurd heq hne)
    ⟨fun heq _ => hslot heq, fun heq => absurd heq hne⟩ ?_
  · rw [hfrom]
    rcases hx with rfl | rfl <;> rfl
  · rw [hfrom]
    rcases hx with rfl | rfl <;> decide
  · rw [hfrom]
    rcases hx with rfl | rfl <;> decide
  · rintro _ _ rfl
    rcases hx with hx | hx <;> cases hx

theorem Inv.lock (h : s.Inv p) {a : Agent} (hn : s.lockNext p a = some s') : s'.Inv p := by
  have hio : ∀ {mode : Mode}, s.phase a = .waiting mode → a = .io → mode = .shared := by
    rintro mode hwaiting rfl
    rcases h.io with hx | hx | hx
    · rw [hx] at hwaiting
      cases hwaiting
    · rw [hx] at hwaiting
      exact (Phase.waiting.inj hwaiting).symm
    · rw [hx] at hwaiting
      cases hwaiting
  have hslot : ∀ {mode : Mode}, s.phase a = .waiting mode → a = .slot →
      s.phase .io = .owning .shared := by
    rintro mode hwaiting rfl
    apply h.slot
    rw [hwaiting]
    intro hout
    cases hout
  have howners : ∀ {mode : Mode} {m : SharedMutex Agent}, s.phase a = .waiting mode →
      s.coap_mtx.lock a mode = some m → ∀ b mode', (b, mode') ∈ m.owners ↔
        if b = a then (Phase.owning mode).owned = some mode' else (b, mode') ∈ s.coap_mtx.owners := by
    intro mode m hwaiting hm b mode'
    obtain ⟨_, rfl⟩ := SharedMutex.lock_eq_some.mp hm
    have hno : ∀ mode', (a, mode') ∉ s.coap_mtx.owners := by
      intro mode' hmem
      rw [h.owners, hwaiting] at hmem
      cases hmem
    rw [List.mem_cons, Prod.mk.injEq]
    split
    · next heq =>
      rw [heq]
      constructor
      · intro hmem
        rcases hmem with ⟨_, rfl⟩ | hmem
        · rfl
        · exact absurd hmem (hno mode')
      · intro heq'
        exact Or.inl ⟨rfl, (Option.some.inj heq').symm⟩
    · next hb => exact or_iff_right fun hmem => hb hmem.1
  have hlarge : ∀ {mode : Mode}, s.phase a = .waiting mode → ∀ b,
      s.large_data_mtx = some b ↔
        if b = a then Phase.owning mode = .storing else s.large_data_mtx = some b := by
    intro mode hwaiting b
    split
    · next heq =>
      rw [heq, h.large, hwaiting]
      exact iff_of_false (fun hx => by cases hx) (fun hx => by cases hx)
    · rfl
  unfold lockNext at hn
  split at hn
  · next hwaiting =>
    split at hn
    · cases hn
    · obtain ⟨m, hm, rfl⟩ := Option.map_eq_some_iff.mp hn
      refine h.moves rfl (howners hwaiting hm) (hlarge hwaiting) ?_ h.distinct
        (fun _ => Or.inr (Or.inr rfl)) ⟨fun heq _ => hslot hwaiting heq, fun _ _ => rfl⟩
        ⟨fun _ => by simp, fun _ => h.passes.2⟩
      intro b
      show b ∈ s.writers ↔ _
      split
      · next heq =>
        rw [heq, h.writers, hwaiting]
        decide
      · rfl
  · next hwaiting =>
    obtain ⟨m, hm, rfl⟩ := Option.map_eq_some_iff.mp hn
    have hne : a ≠ .io := fun heq => by cases hio hwaiting heq
    refine h.moves rfl (howners hwaiting hm) (hlarge hwaiting) ?_ (h.distinct.erase a)
      (fun heq => absurd heq hne) ⟨fun heq _ => hslot hwaiting heq, fun heq => absurd heq hne⟩
      ⟨fun _ => by simp, fun _ hp hslotwaits => ?_⟩
    · intro b
      show b ∈ s.writers.erase a ↔ _
      rw [h.distinct.mem_erase_iff]
      split
      · next heq => exact iff_of_false (fun hmem => hmem.1 heq) (fun hx => by cases hx)
      · next hb => exact and_iff_right hb
    · show s.writers.erase a = []
      rw [h.passes.2 hp hslotwaits]
      rfl
  · cases hn

theorem Inv.unlock (h : s.Inv p) {a : Agent} (ha : s.mayUnlock a = true) :
    Inv p ({ s with coap_mtx := s.coap_mtx.unlock a }.setPhase a .out) := by
  have hfrom : s.phase a ≠ .storing ∧ s.phase a ≠ .waiting .exclusive ∧
      (a = .io → s.phase .slot = .out) := by
    cases a with
    | io =>
      obtain ⟨hx, hslot⟩ := of_decide_eq_true ha
      rw [hx]
      exact ⟨by decide, by decide, fun _ => hslot⟩
    | caller n =>
      rcases of_decide_eq_true ha with hx | hx <;> rw [hx] <;>
        exact ⟨by decide, by decide, fun heq => by cases heq⟩
    | slot =>
      rcases of_decide_eq_true ha with hx | hx <;> rw [hx] <;>
        exact ⟨by decide, by decide, fun heq => by cases heq⟩
  refine h.moves rfl ?_ ?_ ?_ h.distinct (fun _ => Or.inl rfl)
    ⟨fun _ hno => absurd rfl hno, fun heq hno => absurd (hfrom.2.2 heq) hno⟩
    ⟨fun _ => by simp, fun _ => h.passes.2⟩
  · intro b mode
    show (b, mode) ∈ (s.coap_mtx.unlock a).owners ↔ _
    rw [SharedMutex.mem_unlock]
    split
    · next heq => exact iff_of_false (fun hmem => hmem.2 heq) (fun hx => by cases hx)
    · next hb => exact and_iff_left hb
  · intro b
    show s.large_data_mtx = some b ↔ _
    split
    · next heq =>
      rw [heq, h.large]
      exact iff_of_false hfrom.1 (fun hx => by cases hx)
    · rfl
  · intro b
    show b ∈ s.writers ↔ _
    split
    · next heq =>
      rw [heq, h.writers]
      exact iff_of_false hfrom.2.1 (fun hx => by cases hx)
    · rfl

/-- The body of a request is put in. -/
theorem Inv.lockLarge (h : s.Inv p) {a : Agent} (hwaiting : s.phase a = .waitingLarge)
    (hfree : s.large_data_mtx = none) :
    Inv p ({ s with large_data_mtx := some a }.setPhase a .storing) := by
  have hne : a ≠ .io := by
    rintro rfl
    rcases h.io with hx | hx | hx <;> rw [hx] at hwaiting <;> cases hwaiting
  refine h.moves rfl ?_ ?_ ?_ h.distinct (fun heq => absurd heq hne)
    ⟨?_, fun heq => absurd heq hne⟩ ⟨fun _ => by simp, fun _ => h.passes.2⟩
  · intro b mode
    show (b, mode) ∈ s.coap_mtx.owners ↔ _
    split
    · next heq =>
      rw [heq, h.owners, hwaiting]
      rfl
    · rfl
  · intro b
    show some a = some b ↔ _
    rw [hfree]
    split
    · next heq => simp [heq]
    · next hb => simp [Ne.symm hb]
  · intro b
    show b ∈ s.writers ↔ _
    split
    · next heq =>
      rw [heq, h.writers, hwaiting]
      decide
    · rfl
  · rintro rfl _
    apply h.slot
    rw [hwaiting]
    decide

theorem Inv.unlockLarge (h : s.Inv p) {a : Agent} (hstoring : s.phase a = .storing) :
    Inv p ({ s with large_data_mtx := none }.setPhase a .sending) := by
  have hne : a ≠ .io := by
    rintro rfl
    rcases h.io with hx | hx | hx <;> rw [hx] at hstoring <;> cases hstoring
  have hown : s.large_data_mtx = some a := (h.large a).mpr hstoring
  refine h.moves rfl ?_ ?_ ?_ h.distinct (fun heq => absurd heq hne)
    ⟨?_, fun heq => absurd heq hne⟩ ⟨fun _ => by simp, fun _ => h.passes.2⟩
  · intro b mode
    show (b, mode) ∈ s.coap_mtx.owners ↔ _
    split
    · next heq =>
      rw [heq, h.owners, hstoring]
      rfl
    · rfl
  · intro b
    show none = some b ↔ _
    rw [hown]
    split
    · simp
    · next hb => simp [Ne.symm hb]
  · intro b
    show b ∈ s.writers ↔ _
    split
    · next heq =>
      rw [heq, h.writers, hstoring]
      decide
    · rfl
  · rintro rfl _
    apply h.slot
    rw [hstoring]
    decide

theorem Inv.next (h : s.Inv p) {l : Label} (hC : s.SlotsApart p l)
    (hn : s.next p l = some s') : s'.Inv p := by
  match l with
  | .request a =>
    obtain ⟨⟨hout, ha⟩, hn⟩ := Option.ite_none_right_eq_some.mp hn
    exact Option.some.inj hn ▸ h.request hC hout ha
  | .change a =>
    obtain ⟨⟨hout, ha⟩, hn⟩ := Option.ite_none_right_eq_some.mp hn
    exact Option.some.inj hn ▸ h.change hC hout ha
  | .doIo =>
    obtain ⟨hout, hn⟩ := Option.ite_none_right_eq_some.mp hn
    obtain rfl := Option.some.inj hn
    have hslot : s.phase .slot = .out := by
      by_contra hno
      have hio := h.slot hno
      rw [hout] at hio
      cases hio
    refine h.stays ?_ ?_ ?_ (fun _ => Or.inr (Or.inl rfl))
      ⟨(fun heq => by cases heq), fun _ hno => absurd hslot hno⟩ (fun heq => by cases heq) <;>
      rw [hout] <;> decide
  | .lock a => exact h.lock hn
  | .body a =>
    obtain ⟨⟨hfrom, hne⟩, hn⟩ := Option.ite_none_right_eq_some.mp hn
    exact Option.some.inj hn ▸ h.goesOn hne hfrom (Or.inl rfl)
  | .noBody a =>
    obtain ⟨⟨hfrom, hne⟩, hn⟩ := Option.ite_none_right_eq_some.mp hn
    exact Option.some.inj hn ▸ h.goesOn hne hfrom (Or.inr rfl)
  | .lockLarge a =>
    obtain ⟨⟨hwaiting, hfree⟩, hn⟩ := Option.ite_none_right_eq_some.mp hn
    exact Option.some.inj hn ▸ h.lockLarge hwaiting hfree
  | .unlockLarge a =>
    obtain ⟨hstoring, hn⟩ := Option.ite_none_right_eq_some.mp hn
    exact Option.some.inj hn ▸ h.unlockLarge hstoring
  | .unlock a =>
    obtain ⟨ha, hn⟩ := Option.ite_none_right_eq_some.mp hn
    exact Option.some.inj hn ▸ h.unlock ha

/-! ### Everybody returns -/

/-- Somebody can go on, and has less left to do then. -/
def Due (p : Bool) (s : Locks) : Prop :=
  ∃ l s' a x, l.returning = true ∧ s.next p l = some s' ∧
    s'.phase = Function.update s.phase a x ∧ x.rank < (s.phase a).rank

theorem due_of_lock {a : Agent} {mode : Mode} (hwaiting : s.phase a = .waiting mode)
    (hgrants : s.coap_mtx.grants mode = true)
    (hfirst : mode = .shared → p = true → s.writers = []) : s.Due p := by
  obtain ⟨m, hm⟩ : ∃ m, s.coap_mtx.lock a mode = some m :=
    ⟨_, SharedMutex.lock_eq_some.mpr ⟨hgrants, rfl⟩⟩
  have hless : (Phase.owning mode).rank < (s.phase a).rank := by
    rw [hwaiting]
    show 4 < 5
    omega
  cases mode with
  | shared =>
    have hn : s.next p (.lock a) =
        some ({ s with coap_mtx := m }.setPhase a (.owning .shared)) := by
      simp only [next, lockNext, hwaiting]
      rw [if_neg fun hboth => hboth.2 (hfirst rfl hboth.1), hm]
      rfl
    exact ⟨.lock a, _, a, _, rfl, hn, rfl, hless⟩
  | exclusive =>
    have hn : s.next p (.lock a) = some ({ s with
        coap_mtx := m, writers := s.writers.erase a }.setPhase a (.owning .exclusive)) := by
      simp only [next, lockNext, hwaiting]
      rw [hm]
      rfl
    exact ⟨.lock a, _, a, _, rfl, hn, rfl, hless⟩

theorem due_of_unlock {a : Agent} (ha : s.mayUnlock a = true) (hne : s.phase a ≠ .out) :
    s.Due p := by
  refine ⟨.unlock a, _, a, _, rfl, if_pos ha, rfl, ?_⟩
  show 0 < (s.phase a).rank
  cases hx : s.phase a with
  | out => exact absurd hx hne
  | _ => simp [Phase.rank]

theorem due_of_storing {a : Agent} (ha : s.phase a = .storing) : s.Due p := by
  refine ⟨.unlockLarge a, _, a, _, rfl, if_pos ha, rfl, ?_⟩
  rw [ha]
  decide

/-- An owner of `coap_mtx_` can go on, or the one can that has the other mutex;
    except `doIO` when it waits for a slot. -/
theorem Inv.due_of_owner (h : s.Inv p) {a : Agent} {mode : Mode}
    (howned : (s.phase a).owned = some mode) :
    s.Due p ∨ (a = .io ∧ mode = .shared ∧ s.phase .slot ≠ .out) := by
  by_cases hio : a = .io
  · subst hio
    rcases h.io with hx | hx | hx
    · rw [hx] at howned
      cases howned
    · rw [hx] at howned
      cases howned
    · by_cases hslot : s.phase .slot = .out
      · exact Or.inl (due_of_unlock (a := .io) (decide_eq_true ⟨hx, hslot⟩) (by simp [hx]))
      · rw [hx] at howned
        exact Or.inr ⟨rfl, (Option.some.inj howned).symm, hslot⟩
  · left
    have hmay : s.phase a = .sending ∨ s.phase a = .owning .exclusive → s.mayUnlock a = true := by
      intro hx
      cases a with
      | io => exact absurd rfl hio
      | caller n => exact decide_eq_true hx
      | slot => exact decide_eq_true hx
    cases hx : s.phase a with
    | out =>
      rw [hx] at howned
      cases howned
    | waiting mode' =>
      rw [hx] at howned
      cases howned
    | owning mode' =>
      cases mode' with
      | shared =>
        refine ⟨.noBody a, _, a, _, rfl, if_pos ⟨hx, hio⟩, rfl, ?_⟩
        rw [hx]
        decide
      | exclusive => exact due_of_unlock (hmay (Or.inr hx)) (by simp [hx])
    | waitingLarge =>
      cases hlarge : s.large_data_mtx with
      | none =>
        refine ⟨.lockLarge a, _, a, _, rfl, if_pos ⟨hx, hlarge⟩, rfl, ?_⟩
        rw [hx]
        decide
      | some b => exact due_of_storing ((h.large b).mp hlarge)
    | storing => exact due_of_storing hx
    | sending => exact due_of_unlock (hmay (Or.inl hx)) (by simp [hx])

/-- As long as somebody is at it, somebody can go on. -/
theorem Inv.due (h : s.Inv p) {a : Agent} (ha : s.phase a ≠ .out) : s.Due p := by
  by_contra hstuck
  -- nobody owns the mutex but `doIO`, which waits for a slot
  have howner : ∀ {b : Agent} {mode : Mode}, (s.phase b).owned = some mode →
      b = .io ∧ mode = .shared ∧ s.phase .slot ≠ .out :=
    fun howned => (h.due_of_owner howned).resolve_left hstuck
  have hwaits : ∀ {b : Agent}, s.phase b ≠ .out → b ≠ .io →
      ∃ mode, s.phase b = .waiting mode := by
    intro b hb hne
    cases hx : s.phase b with
    | out => exact absurd hx hb
    | waiting mode => exact ⟨mode, rfl⟩
    | _ => exact absurd (howner (b := b) (by rw [hx]; rfl)).1 hne
  by_cases hslot : s.phase .slot = .out
  · have hfree : s.coap_mtx.owners = [] := by
      apply List.eq_nil_iff_forall_not_mem.mpr
      rintro ⟨b, mode⟩ hb
      exact (howner ((h.owners b mode).mp hb)).2.2 hslot
    have hgrants : ∀ mode, s.coap_mtx.grants mode = true := by
      intro mode
      cases mode <;> simp [SharedMutex.grants, hfree]
    cases hwriters : s.writers with
    | cons b rest =>
      have hb : s.phase b = .waiting .exclusive := (h.writers b).mp (by simp [hwriters])
      exact hstuck (due_of_lock hb (hgrants _) (fun hx => by cases hx))
    | nil =>
      have hwaiting : ∃ mode, s.phase a = .waiting mode := by
        by_cases hio : a = .io
        · subst hio
          rcases h.io with hx | hx | hx
          · exact absurd hx ha
          · exact ⟨_, hx⟩
          · exact absurd hslot (howner (b := .io) (by rw [hx]; rfl)).2.2
        · exact hwaits ha hio
      obtain ⟨mode, hmode⟩ := hwaiting
      exact hstuck (due_of_lock hmode (hgrants _) fun _ _ => hwriters)
  · obtain ⟨mode, hmode⟩ := hwaits hslot (by decide)
    cases mode with
    | exclusive => exact h.passes.1 hmode
    | shared =>
      refine hstuck (due_of_lock hmode ?_ fun _ hp => h.passes.2 hp hmode)
      apply List.all_eq_true.mpr
      rintro ⟨b, mode⟩ hb
      rw [(howner ((h.owners b mode).mp hb)).2.1]
      rfl

/-- Who returns does not call anybody. -/
theorem slotsApart_of_returning {l : Label} (hl : l.returning = true) : s.SlotsApart p l := by
  cases l with
  | request a => cases hl
  | change a => cases hl
  | _ => trivial

theorem Inv.canReturn (h : s.Inv p) : s.CanReturn p := by
  obtain ⟨A, hA⟩ := h.few
  have hI : s.Inv p ∧ ∀ a ∉ A, s.phase a = .out := ⟨h, hA⟩
  apply System.reaches (I := fun s => s.Inv p ∧ ∀ a ∉ A, s.phase a = .out)
    (fun s => ∑ a ∈ A, (s.phase a).rank) ?_ hI
  intro s ⟨h, hA⟩ hnot
  obtain ⟨b, hb⟩ := not_forall.mp hnot
  obtain ⟨l, s', a, x, hl, hn, hphase, hless⟩ := h.due hb
  have ha : a ∈ A := by
    by_contra hno
    rw [hA a hno] at hless
    exact absurd hless (Nat.not_lt_zero _)
  refine ⟨l, s', hl, hn, ⟨h.next (slotsApart_of_returning hl) hn, fun c hc => ?_⟩, ?_⟩
  · have hne : c ≠ a := fun heq => hc (heq ▸ ha)
    rw [hphase, Function.update_of_ne hne]
    exact hA c hc
  · have hsum := sum_update_add ha s.phase x Phase.rank
    show ∑ c ∈ A, (s'.phase c).rank < ∑ c ∈ A, (s.phase c).rank
    rw [hphase]
    omega

/-! ### Nobody returns -/

/-- `doIO` waits for a slot that waits for what `doIO` has, or for somebody who
    does. -/
structure Stuck (p : Bool) (s : Locks) : Prop where
  owner : (.io, .shared) ∈ s.coap_mtx.owners
  io : s.phase .io = .owning .shared
  slot : s.phase .slot = .waiting .exclusive ∨
    (s.phase .slot = .waiting .shared ∧ p = true ∧ s.writers ≠ [])

theorem Stuck.called (h : s.Stuck p) : s.phase .slot ≠ .out := by
  rcases h.slot with hx | ⟨hx, _⟩ <;> rw [hx] <;> decide

/-- Somebody else moves on. -/
theorem Stuck.frame (h : s.Stuck p) {a : Agent} {x : Phase}
    (hphase : s'.phase = Function.update s.phase a x) (ha : a ≠ .io ∧ a ≠ .slot)
    (howner : (.io, .shared) ∈ s'.coap_mtx.owners) (hwriters : s.writers ≠ [] → s'.writers ≠ []) :
    s'.Stuck p := by
  have hsame : ∀ b, b = .io ∨ b = .slot → s'.phase b = s.phase b := by
    intro b hb
    rw [hphase]
    apply Function.update_of_ne
    rintro rfl
    exact hb.elim ha.1 ha.2
  refine ⟨howner, (hsame .io (Or.inl rfl)).trans h.io, ?_⟩
  rw [hsame .slot (Or.inr rfl)]
  exact h.slot.imp_right fun hx => ⟨hx.1, hx.2.1, hwriters hx.2.2⟩

theorem Stuck.not_io (h : s.Stuck p) {a : Agent} {x : Phase} (ha : s.phase a = x)
    (hx : x ≠ .owning .shared) : a ≠ .io := by
  rintro rfl
  exact hx (ha.symm.trans h.io)

theorem Stuck.not_slot (h : s.Stuck p) {a : Agent} {x : Phase} (ha : s.phase a = x)
    (hx : ∀ mode, x ≠ .waiting mode) : a ≠ .slot := by
  rintro rfl
  rcases h.slot with hy | ⟨hy, _⟩ <;> exact hx _ (ha.symm.trans hy)

/-- Neither of the two gets the mutex. -/
theorem Stuck.lock (h : s.Stuck p) {a : Agent} (hn : s.lockNext p a = some s') : s'.Stuck p := by
  unfold lockNext at hn
  split at hn
  · next hwaiting =>
    split at hn
    · cases hn
    · next hfirst =>
      obtain ⟨m, hm, rfl⟩ := Option.map_eq_some_iff.mp hn
      obtain ⟨_, rfl⟩ := SharedMutex.lock_eq_some.mp hm
      have hslot : a ≠ .slot := by
        rintro rfl
        rcases h.slot with hx | ⟨_, hp, hwriters⟩
        · rw [hx] at hwaiting
          cases hwaiting
        · exact hfirst ⟨hp, hwriters⟩
      exact h.frame rfl ⟨h.not_io hwaiting (fun hx => by cases hx), hslot⟩
        (List.mem_cons_of_mem _ h.owner) id
  · obtain ⟨m, hm, _⟩ := Option.map_eq_some_iff.mp hn
    have hnone : s.coap_mtx.owners = [] :=
      List.isEmpty_iff.mp (SharedMutex.lock_eq_some.mp hm).1
    have howner := h.owner
    rw [hnone] at howner
    cases howner
  · cases hn

theorem Stuck.unlock (h : s.Stuck p) {a : Agent} (ha : s.mayUnlock a = true) :
    Stuck p ({ s with coap_mtx := s.coap_mtx.unlock a }.setPhase a .out) := by
  have hne : a ≠ .io ∧ a ≠ .slot := by
    cases a with
    | io => exact absurd (of_decide_eq_true ha).2 h.called
    | caller n => exact ⟨(fun hx => by cases hx), fun hx => by cases hx⟩
    | slot =>
      rcases of_decide_eq_true ha with hx | hx <;>
        exact absurd rfl (h.not_slot hx fun mode heq => by cases heq)
  exact h.frame rfl hne (SharedMutex.mem_unlock.mpr ⟨h.owner, Ne.symm hne.1⟩) id

theorem Stuck.next (h : s.Stuck p) {l : Label} (hn : s.next p l = some s') : s'.Stuck p := by
  match l with
  | .request a =>
    obtain ⟨⟨hout, _⟩, hn⟩ := Option.ite_none_right_eq_some.mp hn
    obtain rfl := Option.some.inj hn
    exact h.frame rfl ⟨h.not_io hout (by decide), h.not_slot hout (fun mode hx => by cases hx)⟩
      h.owner id
  | .change a =>
    obtain ⟨⟨hout, _⟩, hn⟩ := Option.ite_none_right_eq_some.mp hn
    obtain rfl := Option.some.inj hn
    exact h.frame rfl ⟨h.not_io hout (by decide), h.not_slot hout (fun mode hx => by cases hx)⟩
      h.owner fun _ => List.append_ne_nil_of_right_ne_nil _ (List.cons_ne_nil a [])
  | .doIo =>
    obtain ⟨hout, _⟩ := Option.ite_none_right_eq_some.mp hn
    exact absurd rfl (h.not_io hout (by decide))
  | .lock a => exact h.lock hn
  | .body a =>
    obtain ⟨⟨hfrom, hne⟩, hn⟩ := Option.ite_none_right_eq_some.mp hn
    obtain rfl := Option.some.inj hn
    exact h.frame rfl ⟨hne, h.not_slot hfrom (fun mode hx => by cases hx)⟩ h.owner id
  | .noBody a =>
    obtain ⟨⟨hfrom, hne⟩, hn⟩ := Option.ite_none_right_eq_some.mp hn
    obtain rfl := Option.some.inj hn
    exact h.frame rfl ⟨hne, h.not_slot hfrom (fun mode hx => by cases hx)⟩ h.owner id
  | .lockLarge a =>
    obtain ⟨⟨hwaiting, _⟩, hn⟩ := Option.ite_none_right_eq_some.mp hn
    obtain rfl := Option.some.inj hn
    exact h.frame rfl
      ⟨h.not_io hwaiting (by decide), h.not_slot hwaiting (fun mode hx => by cases hx)⟩ h.owner id
  | .unlockLarge a =>
    obtain ⟨hstoring, hn⟩ := Option.ite_none_right_eq_some.mp hn
    obtain rfl := Option.some.inj hn
    exact h.frame rfl
      ⟨h.not_io hstoring (by decide), h.not_slot hstoring (fun mode hx => by cases hx)⟩ h.owner id
  | .unlock a =>
    obtain ⟨ha, hn⟩ := Option.ite_none_right_eq_some.mp hn
    exact Option.some.inj hn ▸ h.unlock ha

theorem Stuck.not_canReturn (h : s.Stuck p) : ¬s.CanReturn p := by
  rintro ⟨ls, s', _, hexec, hout⟩
  have hend : s'.Stuck p := System.exec_invariant (fun _ _ _ hI hn => hI.next hn) h hexec
  exact hend.called (hout .slot)

/-- A slot that asks in vain, or is kept waiting. -/
theorem Inv.exact (h : s.Inv p) {l : Label} (hn : s.next p l = some s')
    (hreturn : s'.CanReturn p) : s.SlotsApart p l := by
  have howner : s.phase .io = .owning .shared → (.io, .shared) ∈ s.coap_mtx.owners := by
    intro hio
    rw [h.owners, hio]
    rfl
  match l with
  | .request .slot =>
    obtain ⟨⟨hout, ha⟩, hn⟩ := Option.ite_none_right_eq_some.mp hn
    obtain rfl := Option.some.inj hn
    intro hp
    by_contra hwriters
    have hio : s.phase .io = .owning .shared := of_decide_eq_true ha
    have hstuck : (s.setPhase .slot (.waiting .shared)).Stuck p := by
      refine ⟨howner hio, ?_, Or.inr ⟨setPhase_self _ _ _, hp, hwriters⟩⟩
      rw [setPhase_ne s _ (by decide)]
      exact hio
    exact hstuck.not_canReturn hreturn
  | .change .slot =>
    obtain ⟨⟨hout, ha⟩, hn⟩ := Option.ite_none_right_eq_some.mp hn
    obtain rfl := Option.some.inj hn
    have hio : s.phase .io = .owning .shared := of_decide_eq_true ha
    have hstuck : Stuck p ({ s with
        writers := s.writers ++ [Agent.slot] }.setPhase .slot (.waiting .exclusive)) := by
      refine ⟨howner hio, ?_, Or.inl (setPhase_self _ _ _)⟩
      rw [setPhase_ne _ _ (by decide)]
      exact hio
    exact hstuck.not_canReturn hreturn
  | .change (.caller n) =>
    obtain ⟨_, hn⟩ := Option.ite_none_right_eq_some.mp hn
    obtain rfl := Option.some.inj hn
    intro hp hslot
    have hio : s.phase .io = .owning .shared := by
      apply h.slot
      rw [hslot]
      decide
    have hstuck : Stuck p ({ s with
        writers := s.writers ++ [Agent.caller n] }.setPhase (.caller n) (.waiting .exclusive)) := by
      refine ⟨howner hio, ?_, Or.inr ⟨?_, hp, by simp [setPhase]⟩⟩
      · rw [setPhase_ne _ _ (by simp)]
        exact hio
      · rw [setPhase_ne _ _ (by simp)]
        exact hslot
    exact hstuck.not_canReturn hreturn
  | .change .io =>
    obtain ⟨⟨_, ha⟩, _⟩ := Option.ite_none_right_eq_some.mp hn
    cases ha
  | .request (.caller _) => trivial
  | .request .io => trivial
  | .doIo => trivial
  | .lock _ => trivial
  | .body _ => trivial
  | .lockLarge _ => trivial
  | .unlockLarge _ => trivial
  | .noBody _ => trivial
  | .unlock _ => trivial

/-! ### Every run -/

/-- **Everybody can return**, from every state of a run, exactly when no slot
    calls `setOptions` or the destructor, and, where the mutex prefers writers, a
    slot and a writer do not wait together. -/
theorem calls_return_iff (p : Bool) {s : Locks} (r : Run (locks p) s) :
    r.Throughout (CanReturn p) ↔ r.EachStep (SlotsApart p) := by
  apply r.throughout_iff (I := Inv p)
  · intro s hs
    exact hs ▸ .new
  · intro s h
    exact h.canReturn
  · intro s l s' h hC hn
    exact h.next hC hn
  · intro s l s' h hn hreturn
    exact h.exact hn hreturn

/-- A slot drops the last reference to its client. -/
example : ∀ p, ((locks p).exec new [.doIo, .lock .io, .change .slot]).map
    (fun s => (s.next p (.lock .slot)).isNone && (s.next p (.unlock .io)).isNone) = some true := by
  decide

end Locks

end CoapClient

end DeviceTester
