import DeviceTester.Framework.Run

/-! # Systems in a pipe

  The steps of one system put out values, and another system takes each of them
  at once, in a step of its own. Of a run of both, `source` gives the run of the
  first one, and `sink` that of the second one, which has taken what the first one
  has put out (`collect_taken`). It does not hold up the first one if it takes
  everything (`takes_all`).
-/

namespace Pipes

open LTS

universe u v

variable {State State' : Type u} {Label Label' : Type v} {α : Type v}

/-- How the steps of `A` and `B` belong together. -/
structure Pipe (A : System State Label) (B : System State' Label') (α : Type v) where
  /-- What a step of `A` puts out. -/
  out : State → Label → List α
  /-- The step of `B` that takes it. -/
  take : α → Label'
  /-- What a step of `B` takes. -/
  taken : Label' → List α
  taken_take : ∀ a, taken (take a) = [a]

namespace Pipe

variable {A : System State Label} {B : System State' Label'} (p : Pipe A B α)

/-- Both systems. The other steps of `B` are its own. -/
def system : System (State × State') (Label ⊕ Label') where
  init := fun s => A.init s.1 ∧ B.init s.2
  next := fun s l =>
    match l with
    | .inl l =>
        (A.next s.1 l).bind fun a => (B.exec s.2 ((p.out s.1 l).map p.take)).map fun b => (a, b)
    | .inr l => if (p.taken l).isEmpty then (B.next s.2 l).map fun b => (s.1, b) else none

variable {p} {s s' : State × State'}

theorem next_inl {l : Label} (hn : p.system.next s (.inl l) = some s') :
    A.next s.1 l = some s'.1 ∧ B.exec s.2 ((p.out s.1 l).map p.take) = some s'.2 := by
  obtain ⟨a, ha, hn⟩ := Option.bind_eq_some_iff.mp hn
  obtain ⟨b, hb, rfl⟩ := Option.map_eq_some_iff.mp hn
  exact ⟨ha, hb⟩

theorem next_inr {l : Label'} (hn : p.system.next s (.inr l) = some s') :
    p.taken l = [] ∧ s'.1 = s.1 ∧ B.next s.2 l = some s'.2 := by
  obtain ⟨hown, hn⟩ := Option.ite_none_right_eq_some.mp hn
  obtain ⟨b, hb, rfl⟩ := Option.map_eq_some_iff.mp hn
  exact ⟨List.isEmpty_iff.mp hown, rfl, hb⟩

/-! ### The two systems -/

variable (p)

def source : Simulation p.system A where
  abs := Prod.fst
  labels := fun _ l =>
    match l with
    | .inl l => [l]
    | .inr _ => []
  init := fun _ h => h.1
  next := by
    intro s l s' hn
    cases l with
    | inl l => exact System.exec_cons.mpr ⟨_, (next_inl hn).1, rfl⟩
    | inr l => exact congrArg some (next_inr hn).2.1.symm

def sink : Simulation p.system B where
  abs := Prod.snd
  labels := fun s l =>
    match l with
    | .inl l => (p.out s.1 l).map p.take
    | .inr l => [l]
  init := fun _ h => h.2
  next := by
    intro s l s' hn
    cases l with
    | inl l => exact (next_inl hn).2
    | inr l => exact System.exec_cons.mpr ⟨_, (next_inr hn).2.2, rfl⟩

/-- A condition on the steps of the first system. -/
def atSource (c : State → Label → Bool) (s : State × State') : Label ⊕ Label' → Bool
  | .inl l => c s.1 l
  | .inr _ => true

theorem source_eachStep {c : State → Label → Bool} {s : State × State'} (r : Run p.system s)
    (h : r.EachStep fun s l => atSource c s l = true) :
    (p.source.run r).EachStep fun s l => c s l = true := by
  refine p.source.eachStep_run ?_ r h
  intro s l hc
  cases l with
  | inl l => exact ⟨hc, fun _ _ => trivial⟩
  | inr l => trivial

/-- What the steps of the second system satisfy, the steps of its own satisfy in
    the pipe. -/
theorem sink_ensures {I : State' → Prop} {R : State' → Label' → State' → Prop}
    (hinit : ∀ b, B.init b → I b) (hstep : ∀ b l b', I b → B.next b l = some b' → I b')
    (hR : ∀ b l b', I b → B.next b l = some b' → R b l b') {s : State × State'}
    (r : Run p.system s) : r.Ensures fun s l s' => ∀ l', l = .inr l' → R s.2 l' s'.2 := by
  refine Run.ensures (I := fun s => I s.2) ?_ ?_ ?_ r
  · intro s hs
    exact hinit s.2 hs.2
  · intro s l s' hI hn
    exact System.exec_invariant hstep hI (p.sink.next s l s' hn)
  · intro s l s' hI hn l' hl
    subst hl
    exact hR _ _ _ hI (next_inr hn).2.2

/-! ### What is taken -/

theorem emits_take {b b' : State'} {as : List α} (h : B.exec b (as.map p.take) = some b') :
    B.emits (fun _ l => p.taken l) b (as.map p.take) = as := by
  induction as generalizing b with
  | nil => rfl
  | cons a as ih =>
    obtain ⟨c, hc, hrest⟩ := System.exec_cons.mp h
    show p.taken (p.take a) ++ (B.next b (p.take a)).elim [] _ = a :: as
    rw [p.taken_take, hc]
    exact congrArg (a :: ·) (ih hrest)

/-- **What is taken is what has been put out.** -/
theorem collect_taken {s : State × State'} (r : Run p.system s) :
    (p.sink.run r).collect (fun _ l => p.taken l) = (p.source.run r).collect p.out := by
  rw [Simulation.collect_run, Simulation.collect_run]
  induction r with
  | start s h => rfl
  | @step s r l s' hn ih =>
    simp only [Run.collect]
    rw [ih]
    congr 1
    cases l with
    | inl l =>
      rw [show p.source.labels s (.inl l) = [l] from rfl, System.emits_singleton]
      exact p.emits_take (next_inl hn).2
    | inr l =>
      rw [show p.sink.labels s (.inr l) = [l] from rfl, System.emits_singleton]
      exact (next_inr hn).1

/-- A system that takes everything holds up nobody. -/
theorem takes_all {I : State' → Prop} (hstep : ∀ b l b', I b → B.next b l = some b' → I b')
    (htakes : ∀ b a, I b → (B.next b (p.take a)).isSome = true) {s : State × State'}
    (hI : I s.2) {l : Label} (hl : (A.next s.1 l).isSome = true) :
    (p.system.next s (.inl l)).isSome = true := by
  have hexec : ∀ (as : List α) b, I b → (B.exec b (as.map p.take)).isSome = true := by
    intro as
    induction as with
    | nil =>
      intro b _
      rfl
    | cons a as ih =>
      intro b hb
      obtain ⟨c, hc⟩ := Option.isSome_iff_exists.mp (htakes b a hb)
      show ((B.next b (p.take a)).bind _).isSome = true
      rw [hc]
      exact ih c (hstep b _ c hb hc)
  obtain ⟨a, ha⟩ := Option.isSome_iff_exists.mp hl
  obtain ⟨b, hb⟩ := Option.isSome_iff_exists.mp (hexec (p.out s.1 l) s.2 hI)
  show ((A.next s.1 l).bind _).isSome = true
  rw [ha, Option.bind_some, hb]
  rfl

end Pipe

end Pipes
