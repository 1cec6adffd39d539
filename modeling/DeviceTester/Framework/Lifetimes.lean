import DeviceTester.Framework.Run
import Mathlib.Logic.Function.Basic

/-! # Objects that handlers point to

  A program makes objects of several classes, uses them and destroys them. The
  asynchronous operations an object has started, and the handlers it has
  posted, outlive it: they are run later, whether or not the object that they
  have captured is still there.

  A handler that owns the object it has captured keeps it alive. One that has
  only a raw pointer is run on whatever is left of it. The rules below tell when
  the latter cannot happen to a destroyed object.
-/

namespace Lifetimes

open LTS

/-! ### Classes of objects -/

/-- What a closure holds of the object it has captured. -/
inductive Capture where
  | raw
  | shared
  deriving DecidableEq, Repr

/-- Who takes a step of an object: its user, the outside world, or a handler. -/
inductive Role where
  | call
  | event
  | handler (capture : Capture)
  deriving DecidableEq, Repr

/-- What the objects of a class do, and what is left of one in its handlers and
    operations after the destructor. -/
structure Behaviour where
  Args : Type
  State : Type
  Label : Type
  construct : Args → State
  next : State → Label → Option State
  role : Label → Role
  destruct : State → State
  /-- A step of the object, or its constructor, has ended the whole program. -/
  terminated : State → Bool

def Behaviour.system (b : Behaviour) : System b.State b.Label where
  init := fun s => ∃ a, s = b.construct a
  next := b.next

/-- Where an idle object takes no step on its own, it runs no handler. -/
theorem Behaviour.next_idle_of_none (b : Behaviour) {Idle : b.State → Prop}
    (h : ∀ s l, Idle s → b.role l ≠ .call → b.next s l = none) (s : b.State) (l : b.Label)
    (s' : b.State) (hidle : Idle s) (hrole : b.role l ≠ .call) (hn : b.next s l = some s') :
    b.role l ≠ .handler .raw ∧ Idle s' := by
  rw [h s l hidle hrole] at hn
  cases hn

/-- A handler that can be run at once. -/
theorem Behaviour.due_of_next (b : Behaviour) {s s' : b.State} {l : b.Label}
    (hraw : b.role l = .handler .raw) (hn : b.next s l = some s') :
    ∃ ls l s₁ s₂, (∀ l ∈ ls, b.role l ≠ .call) ∧ b.role l = .handler .raw ∧
      b.system.exec s ls = some s₁ ∧ b.next s₁ l = some s₂ :=
  ⟨[], l, s, s', fun _ h => absurd h List.not_mem_nil, hraw, rfl, hn⟩

structure ObjectClass extends Behaviour where
  /-- No raw pointer to the object is in a handler or an operation. -/
  Idle : State → Prop
  next_terminated : ∀ s l, terminated s = true → next s l = none
  destruct_idle : ∀ s, Idle s → Idle (destruct s)
  /-- Only a call can change that. -/
  next_idle : ∀ s l s', Idle s → role l ≠ .call → next s l = some s' →
    role l ≠ .handler .raw ∧ Idle s'
  /-- Otherwise a handler comes to be run after the destructor. -/
  due : ∀ s, terminated s = false → ¬Idle s → ∃ ls l s₁ s₂,
    (∀ l ∈ ls, role l ≠ .call) ∧ role l = .handler .raw ∧
    toBehaviour.system.exec (destruct s) ls = some s₁ ∧ next s₁ l = some s₂

/-- An object that has ended the program takes no step any more. -/
theorem ObjectClass.running_of_next (c : ObjectClass) {s t : c.State} {l : c.Label}
    (hnext : c.next s l = some t) : c.terminated s = false := by
  by_contra hterm
  rw [c.next_terminated s l (by simpa using hterm)] at hnext
  cases hnext

theorem ObjectClass.running_of_exec (c : ObjectClass) {s t : c.State} {ls : List c.Label}
    (hexec : c.system.exec s ls = some t) (ht : c.terminated t = false) :
    c.terminated s = false := by
  cases ls with
  | nil =>
    obtain rfl := Option.some.inj hexec
    exact ht
  | cons l ls =>
    obtain ⟨u, hnext, _⟩ := System.exec_cons.mp hexec
    exact c.running_of_next hnext

/-! ### The program -/

inductive Cell (State : Type) where
  | unmade
  | live (s : State)
  | destroyed (s : State)

def Cell.isDestroyed {State : Type} : Cell State → Bool
  | .destroyed _ => true
  | _ => false

/-- The object, if it is alive. -/
def Cell.object {State : Type} : Cell State → Option State
  | .live s => some s
  | _ => none

variable {K : Type} {cls : K → ObjectClass}

structure Program (cls : K → ObjectClass) where
  objects : (k : K) → Nat → Cell (cls k).State
  terminated : Bool

inductive Label (cls : K → ObjectClass) where
  | create (k : K) (n : Nat) (a : (cls k).Args)
  | step (k : K) (n : Nat) (l : (cls k).Label)
  | destroy (k : K) (n : Nat)

def Label.destroys : Label cls → Bool
  | .destroy _ _ => true
  | _ => false

/-! ### Handlers of live objects -/

namespace Program

/-- A handler that has captured its object as a raw pointer is only run while
    the object is alive. -/
def RunsOnLive (p : Program cls) (l : Label cls) (_ : Program cls) : Prop :=
  ∀ k n x, l = .step k n x → (cls k).role x = .handler .raw → ∃ s, p.objects k n = .live s

/-- Only an idle object is destroyed. -/
def destroysIdle (p : Program cls) (l : Label cls) : Prop :=
  ∀ k n s, l = .destroy k n → p.objects k n = .live s → (cls k).Idle s

theorem destroysIdle_of_not {p : Program cls} {l : Label cls} (h : l.destroys = false) :
    p.destroysIdle l := by
  intro k n s heq
  subst heq
  cases h

/-- A handler is run on what is left of the object. -/
theorem not_runsOnLive {p p' : Program cls} {k : K} {n : Nat} {x : (cls k).Label}
    (hraw : (cls k).role x = .handler .raw) (hdead : (p.objects k n).isDestroyed = true) :
    ¬p.RunsOnLive (.step k n x) p' := by
  intro h
  obtain ⟨s, hcell⟩ := h k n x rfl hraw
  rw [hcell] at hdead
  cases hdead

/-- The object has been destroyed, and is idle. -/
def Gone (p : Program cls) (k : K) (n : Nat) : Prop :=
  ∃ s, p.objects k n = .destroyed s ∧ (cls k).Idle s

theorem not_gone {p : Program cls} {k : K} {n : Nat}
    (hcell : (p.objects k n).isDestroyed = false) : ¬p.Gone k n := by
  intro hgone
  obtain ⟨s, hdead, _⟩ := hgone
  rw [hdead] at hcell
  cases hcell

end Program

/-! ### The steps -/

variable [DecidableEq K]

namespace Program

def new : Program cls := ⟨fun _ _ => .unmade, false⟩

def set (p : Program cls) (k : K) (n : Nat) (c : Cell (cls k).State) : Program cls :=
  { p with objects := Function.update p.objects k (Function.update (p.objects k) n c) }

/-- An object has been constructed or has taken a step. -/
def after (p : Program cls) (k : K) (n : Nat) (c : Cell (cls k).State) (s : (cls k).State) :
    Program cls :=
  { p.set k n c with terminated := (cls k).terminated s }

/-- A destroyed object is no longer called. Its operations still finish, and its
    handlers are run as if its memory were still there. -/
def next (p : Program cls) (l : Label cls) : Option (Program cls) :=
  if p.terminated then none
  else
    match l with
    | .create k n a =>
        match p.objects k n with
        | .unmade =>
            let s := (cls k).construct a
            some (p.after k n (.live s) s)
        | _ => none
    | .step k n l =>
        match p.objects k n with
        | .unmade => none
        | .live s => ((cls k).next s l).map fun s' => p.after k n (.live s') s'
        | .destroyed s =>
            if (cls k).role l = .call then none
            else ((cls k).next s l).map fun s' => p.after k n (.destroyed s') s'
    | .destroy k n =>
        match p.objects k n with
        | .live s => some (p.set k n (.destroyed ((cls k).destruct s)))
        | _ => none

end Program

def program (cls : K → ObjectClass) : System (Program cls) (Label cls) where
  init := fun p => p = Program.new
  next := Program.next

/-! ### Destroyed objects -/

namespace Program

/-- Whatever happens, no such handler of the object is run. -/
def Spared (p : Program cls) (k : K) (n : Nat) : Prop :=
  ∀ ls p₁ x p₂, (program cls).exec p ls = some p₁ → (cls k).role x = .handler .raw →
    p₁.next (.step k n x) ≠ some p₂

/-! ### What one step can do -/

variable {p p' : Program cls} {k k' : K} {n n' : Nat}

inductive Step (p : Program cls) : Label cls → Program cls → Prop
  | create {k : K} {n : Nat} {a : (cls k).Args} (h : p.objects k n = .unmade) :
      Step p (.create k n a) (p.after k n (.live ((cls k).construct a)) ((cls k).construct a))
  | step {k : K} {n : Nat} {l : (cls k).Label} {s s' : (cls k).State}
      (h : p.objects k n = .live s) (hs : (cls k).next s l = some s') :
      Step p (.step k n l) (p.after k n (.live s') s')
  | left {k : K} {n : Nat} {l : (cls k).Label} {s s' : (cls k).State}
      (h : p.objects k n = .destroyed s) (hrole : (cls k).role l ≠ .call)
      (hs : (cls k).next s l = some s') : Step p (.step k n l) (p.after k n (.destroyed s') s')
  | destroy {k : K} {n : Nat} {s : (cls k).State} (h : p.objects k n = .live s) :
      Step p (.destroy k n) (p.set k n (.destroyed ((cls k).destruct s)))

theorem step_of_next {l : Label cls} (hn : p.next l = some p') :
    p.terminated = false ∧ p.Step l p' := by
  unfold Program.next at hn
  split at hn
  · cases hn
  · next hrun =>
    refine ⟨by simpa using hrun, ?_⟩
    cases l with
    | create k n a =>
      cases hcell : p.objects k n with
      | unmade =>
        simp only [hcell] at hn
        exact Option.some.inj hn ▸ .create hcell
      | live s => simp [hcell] at hn
      | destroyed s => simp [hcell] at hn
    | step k n l =>
      cases hcell : p.objects k n with
      | unmade => simp [hcell] at hn
      | live s =>
        simp only [hcell] at hn
        obtain ⟨s', hs, rfl⟩ := Option.map_eq_some_iff.mp hn
        exact .step hcell hs
      | destroyed s =>
        simp only [hcell] at hn
        obtain ⟨hrole, hn⟩ := Option.ite_none_left_eq_some.mp hn
        obtain ⟨s', hs, rfl⟩ := Option.map_eq_some_iff.mp hn
        exact .left hcell hrole hs
    | destroy k n =>
      cases hcell : p.objects k n with
      | unmade => simp [hcell] at hn
      | live s =>
        simp only [hcell] at hn
        exact Option.some.inj hn ▸ .destroy hcell
      | destroyed s => simp [hcell] at hn

@[simp] theorem set_self (p : Program cls) (k : K) (n : Nat) (c : Cell (cls k).State) :
    (p.set k n c).objects k n = c := by
  simp [set]

@[simp] theorem after_objects (p : Program cls) (k : K) (n : Nat) (c : Cell (cls k).State)
    (s : (cls k).State) : (p.after k n c s).objects = (p.set k n c).objects := rfl

/-- What holds of every object, and of one after its step. -/
theorem forall_set {P : (k : K) → Nat → Cell (cls k).State → Prop} {c : Cell (cls k).State}
    (hp : ∀ k n, P k n (p.objects k n)) (hc : P k n c) (k' : K) (n' : Nat) :
    P k' n' ((p.set k n c).objects k' n') := by
  -- the states of two classes are of different types, so the class comes first
  by_cases hk : k' = k
  · subst hk
    by_cases hn : n' = n
    · subst hn
      rw [set_self]
      exact hc
    · simpa [set, hn] using hp k' n'
  · simpa [set, hk] using hp k' n'

/-! ### Live objects -/

variable {I : (k : K) → (cls k).State → Prop}

def AllLive (I : (k : K) → (cls k).State → Prop) (p : Program cls) : Prop :=
  ∀ k n s, p.objects k n = .live s → I k s

theorem AllLive.set (h : p.AllLive I) {c : Cell (cls k).State} (hc : ∀ s, c = .live s → I k s) :
    (p.set k n c).AllLive I :=
  forall_set (P := fun k _ c => ∀ s, c = .live s → I k s) h hc

/-- What the classes preserve, the program preserves. -/
theorem AllLive.next {l : Label cls} (h : p.AllLive I) (hinit : ∀ k a, I k ((cls k).construct a))
    (hstep : ∀ k s l s', I k s → (cls k).next s l = some s' → I k s')
    (hn : p.next l = some p') : p'.AllLive I := by
  obtain ⟨_, hs⟩ := step_of_next hn
  cases hs with
  | create hcell =>
    apply h.set
    intro s heq
    cases heq
    exact hinit _ _
  | step hcell hnext =>
    apply h.set
    intro s heq
    cases heq
    exact hstep _ _ _ _ (h _ _ _ hcell) hnext
  | left hcell hrole hnext =>
    apply h.set
    intro s heq
    cases heq
  | destroy hcell =>
    apply h.set
    intro s heq
    cases heq

/-! ### Destroyed objects that stay idle -/

/-- Destroyed objects are idle. -/
def LeftIdle (p : Program cls) : Prop :=
  ∀ k n s, p.objects k n = .destroyed s → (cls k).Idle s

theorem LeftIdle.set (h : p.LeftIdle) {c : Cell (cls k).State}
    (hc : ∀ s, c = .destroyed s → (cls k).Idle s) : (p.set k n c).LeftIdle :=
  forall_set (P := fun k _ c => ∀ s, c = .destroyed s → (cls k).Idle s) h hc

theorem LeftIdle.next {l : Label cls} (h : p.LeftIdle) (hidle : p.destroysIdle l)
    (hn : p.next l = some p') : p'.LeftIdle := by
  obtain ⟨_, hstep⟩ := step_of_next hn
  -- a live object may well be busy: the condition is only needed where it is destroyed
  cases hstep with
  | create hcell =>
    apply h.set
    intro s heq
    cases heq
  | step hcell hs =>
    apply h.set
    intro s heq
    cases heq
  | left hcell hrole hs =>
    apply h.set
    intro s heq
    cases heq
    exact ((cls _).next_idle _ _ _ (h _ _ _ hcell) hrole hs).2
  | destroy hcell =>
    apply h.set
    intro s heq
    cases heq
    exact (cls _).destruct_idle _ (hidle _ _ _ rfl hcell)

/-- An idle object that has been destroyed has no handler to run. -/
theorem LeftIdle.runsOnLive {l : Label cls} (h : p.LeftIdle) (hn : p.next l = some p') :
    p.RunsOnLive l p' := by
  intro k n x hl hraw
  subst hl
  obtain ⟨_, hstep⟩ := step_of_next hn
  cases hstep with
  | step hcell hs => exact ⟨_, hcell⟩
  | left hcell hrole hs =>
    -- what is left takes other steps, such as those of handlers that own something
    exact absurd hraw ((cls k).next_idle _ _ _ (h k n _ hcell) hrole hs).1

/-! ### The one object that is destroyed -/

/-- What becomes of one object does not concern those that are gone. -/
theorem Gone.set {c : Cell (cls k').State} (h : p.Gone k n)
    (hc : p.Gone k' n' → ∃ s, c = .destroyed s ∧ (cls k').Idle s) : (p.set k' n' c).Gone k n :=
  forall_set (P := fun k n c => p.Gone k n → ∃ s, c = .destroyed s ∧ (cls k).Idle s)
    (fun _ _ h => h) hc k n h

theorem Gone.next {l : Label cls} (h : p.Gone k n) (hn : p.next l = some p') : p'.Gone k n := by
  obtain ⟨_, hstep⟩ := step_of_next hn
  -- only what is left of a destroyed object can be gone already
  cases hstep with
  | create hcell =>
    apply h.set
    intro hgone
    exact absurd hgone (not_gone (by rw [hcell]; rfl))
  | step hcell hs =>
    apply h.set
    intro hgone
    exact absurd hgone (not_gone (by rw [hcell]; rfl))
  | left hcell hrole hs =>
    apply h.set
    intro hgone
    obtain ⟨s, heq, hidle⟩ := hgone
    rw [hcell] at heq
    cases heq
    exact ⟨_, rfl, ((cls _).next_idle _ _ _ hidle hrole hs).2⟩
  | destroy hcell =>
    apply h.set
    intro hgone
    exact absurd hgone (not_gone (by rw [hcell]; rfl))

theorem Gone.not_run (h : p.Gone k n) {x : (cls k).Label} (hraw : (cls k).role x = .handler .raw) :
    p.next (.step k n x) ≠ some p' := by
  intro hn
  obtain ⟨s, hcell, hidle⟩ := h
  obtain ⟨_, hstep⟩ := step_of_next hn
  cases hstep with
  | step hcell' hs =>
    rw [hcell] at hcell'
    cases hcell'
  | left hcell' hrole hs =>
    rw [hcell] at hcell'
    cases hcell'
    exact ((cls k).next_idle _ _ _ hidle hrole hs).1 hraw

theorem Gone.spared (h : p.Gone k n) : p.Spared k n := by
  intro ls p₁ x p₂ hexec hraw
  have hstep : ∀ (p : Program cls) (l : Label cls) (p' : Program cls), p.Gone k n →
      (program cls).next p l = some p' → p'.Gone k n :=
    fun _ _ _ hI hn => hI.next hn
  exact (System.exec_invariant hstep h hexec).not_run hraw

/-! ### What is left of an object that is not idle -/

/-- While the program runs, no live object has ended it. -/
def Running (p : Program cls) : Prop :=
  p.terminated = false → p.AllLive fun k s => (cls k).terminated s = false

theorem Running.next {l : Label cls} (h : p.Running) (hn : p.next l = some p') : p'.Running := by
  obtain ⟨hrun, hstep⟩ := step_of_next hn
  intro hrun'
  cases hstep with
  -- the program would have ended with the object
  | create hcell =>
    apply (h hrun).set
    intro s heq
    cases heq
    exact hrun'
  | step hcell hs =>
    apply (h hrun).set
    intro s heq
    cases heq
    exact hrun'
  | left hcell hrole hs =>
    apply (h hrun).set
    intro s heq
    cases heq
  | destroy hcell =>
    apply (h hrun).set
    intro s heq
    cases heq

/-- What is left of a destroyed object goes on in the program. -/
theorem next_left {s s' : (cls k).State} {l : (cls k).Label} (hrun : p.terminated = false)
    (hcell : p.objects k n = .destroyed s) (hrole : (cls k).role l ≠ .call)
    (hs : (cls k).next s l = some s') :
    p.next (.step k n l) = some (p.after k n (.destroyed s') s') := by
  unfold Program.next
  simp only [hrun, hcell, hs, if_neg hrole, Option.map_some]
  rfl

theorem exec_left {ls : List (cls k).Label} {s s' : (cls k).State} (hrun : p.terminated = false)
    (hcell : p.objects k n = .destroyed s) (hcalls : ∀ l ∈ ls, (cls k).role l ≠ .call)
    (hexec : (cls k).system.exec s ls = some s') (hs' : (cls k).terminated s' = false) :
    ∃ p', (program cls).exec p (ls.map (.step k n)) = some p' ∧ p'.terminated = false ∧
      p'.objects k n = .destroyed s' := by
  induction ls generalizing p s with
  | nil =>
    obtain rfl := Option.some.inj hexec
    exact ⟨p, rfl, hrun, hcell⟩
  | cons l ls ih =>
    obtain ⟨t, hnext, hrest⟩ := System.exec_cons.mp hexec
    have hstep := next_left hrun hcell (hcalls l List.mem_cons_self) hnext
    -- the rest is still to come, so this step has not ended the program
    have ht : (cls k).terminated t = false := (cls k).running_of_exec hrest hs'
    obtain ⟨p', hexec', hrun', hcell'⟩ := ih (p := p.after k n (.destroyed t) t) ht (by simp)
      (fun l hl => hcalls l (List.mem_cons_of_mem _ hl)) hrest
    exact ⟨p', System.exec_cons.mpr ⟨_, hstep, hexec'⟩, hrun', hcell'⟩

/-- What is left of an object that is not idle comes to run a handler. -/
theorem not_spared {s : (cls k).State} (hrun : p.terminated = false)
    (hcell : p.objects k n = .destroyed ((cls k).destruct s))
    (hs : (cls k).terminated s = false) (hbusy : ¬(cls k).Idle s) : ¬p.Spared k n := by
  intro hspared
  -- first what comes before the handler, then the handler itself
  obtain ⟨ls, l, s₁, s₂, hcalls, hraw, hexec, hnext⟩ := (cls k).due s hs hbusy
  obtain ⟨p₁, hexec', hrun₁, hcell₁⟩ :=
    exec_left hrun hcell hcalls hexec ((cls k).running_of_next hnext)
  have hrole : (cls k).role l ≠ .call := by
    rw [hraw]
    decide
  exact hspared _ p₁ l _ hexec' hraw (next_left hrun₁ hcell₁ hrole hnext)

end Program

/-- Where only idle objects are destroyed, no handler is run on a destroyed
    one. -/
theorem runsOnLive_of_destroysIdle {p : Program cls} (r : Run (program cls) p)
    (h : r.EachStep Program.destroysIdle) : r.Ensures Program.RunsOnLive := by
  refine Run.guarded_ensures (I := Program.LeftIdle) ?_ ?_ ?_ r h
  · intro p hp k n s hcell
    subst hp
    cases hcell
  · exact fun p l p' hI hC hn => hI.next hC hn
  · exact fun p l p' hI _ hn => hI.runsOnLive hn

/-- What holds of the objects of one class in their own runs holds of them in
    the program. -/
theorem live_invariant {I : (k : K) → (cls k).State → Prop}
    (hinit : ∀ k a, I k ((cls k).construct a))
    (hstep : ∀ k s l s', I k s → (cls k).next s l = some s' → I k s') {p : Program cls}
    (r : Run (program cls) p) : p.AllLive I := by
  refine Run.invariant (I := Program.AllLive I) ?_ (fun p l p' hI hn => hI.next hinit hstep hn) r
  intro p hp k n s hcell
  subst hp
  cases hcell

/-- In a run, the object that a step destroys is spared exactly when it was
    idle. -/
theorem spared_iff_idle {p p' : Program cls} {k : K} {n : Nat} (r : Run (program cls) p)
    (hn : p.next (.destroy k n) = some p') :
    p'.Spared k n ↔ ∀ s, p.objects k n = .live s → (cls k).Idle s := by
  have hrunning : p.Running := by
    refine Run.invariant (I := Program.Running) ?_ (fun p l p' hI hn => hI.next hn) r
    intro p hp _ k n s hcell
    subst hp
    cases hcell
  obtain ⟨hrun, hstep⟩ := Program.step_of_next hn
  cases hstep with
  | destroy hcell =>
    constructor
    · intro hspared s hs
      by_contra hbusy
      rw [hcell] at hs
      obtain rfl := Cell.live.inj hs
      exact Program.not_spared (p := p.set k n _) hrun (Program.set_self p k n _)
        (hrunning hrun k n _ hcell) hbusy hspared
    · intro hidle
      have hgone : (p.set k n (.destroyed ((cls k).destruct _))).Gone k n :=
        ⟨_, Program.set_self p k n _, (cls k).destruct_idle _ (hidle _ hcell)⟩
      exact hgone.spared

end Lifetimes
