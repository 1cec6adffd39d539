import Mathlib.Algebra.BigOperators.Group.Finset.Basic
import Mathlib.Data.Option.Basic

/-! # Labelled systems and their finite runs

  A system has initial states and a partial step function: the label of a
  step resolves every choice (a call of the environment, a result the
  operating system reports, the handler that is run next), and `none` means
  that the label is not enabled.

  A `Run` is a piece of data, so that a property can be asked of every state
  it visits (`Throughout`), of every step it takes (`EachStep`), or of the
  steps together with the states they lead to (`Ensures`). The rules below
  turn facts about one step into facts about a whole run. The rules ending in
  `_iff` also say that nothing weaker than the step condition would do.
-/

namespace LTS

universe u v w

/-! ### Systems -/

/-- A labelled transition system with a partial step function. -/
structure System (State : Type u) (Label : Type v) where
  /-- The initial states. -/
  init : State → Prop
  /-- The state after the step, `none` when the label is not enabled. -/
  next : State → Label → Option State

variable {State : Type u} {Label : Type v}

/-- The same system with only the steps that `allow` lets through. -/
def System.restrict (sys : System State Label) (allow : State → Label → Bool) :
    System State Label where
  init := sys.init
  next := fun s l => if allow s l then sys.next s l else none

theorem System.restrict_next {sys : System State Label} {allow : State → Label → Bool}
    {s s' : State} {l : Label} :
    (sys.restrict allow).next s l = some s' ↔ allow s l = true ∧ sys.next s l = some s' := by
  unfold System.restrict
  by_cases h : allow s l = true <;> simp [h]

/-- The state after a whole list of labels, `none` when one of them is not
    enabled. -/
def System.exec (sys : System State Label) : State → List Label → Option State
  | s, [] => some s
  | s, l :: ls => (sys.next s l).bind fun s' => sys.exec s' ls

@[simp] theorem System.exec_nil (sys : System State Label) (s : State) :
    sys.exec s [] = some s := rfl

theorem System.exec_cons {sys : System State Label} {s s' : State} {l : Label}
    {ls : List Label} :
    sys.exec s (l :: ls) = some s' ↔
      ∃ t, sys.next s l = some t ∧ sys.exec t ls = some s' := by
  simp [System.exec, Option.bind_eq_some_iff]

theorem System.exec_append {sys : System State Label} {s t s' : State} {ls ms : List Label}
    (h₁ : sys.exec s ls = some t) (h₂ : sys.exec t ms = some s') :
    sys.exec s (ls ++ ms) = some s' := by
  induction ls generalizing s with
  | nil =>
    simp only [System.exec_nil, Option.some.injEq] at h₁
    exact h₁ ▸ h₂
  | cons l ls ih =>
    obtain ⟨u, hnext, hrest⟩ := System.exec_cons.mp h₁
    exact System.exec_cons.mpr ⟨u, hnext, ih hrest⟩

/-- An invariant of single steps holds after any list of labels. -/
theorem System.exec_invariant {sys : System State Label} {I : State → Prop}
    (hstep : ∀ s l s', I s → sys.next s l = some s' → I s') :
    ∀ {ls : List Label} {s s' : State}, I s → sys.exec s ls = some s' → I s' := by
  intro ls
  induction ls with
  | nil =>
    intro s s' hI h
    simp only [System.exec_nil, Option.some.injEq] at h
    exact h ▸ hI
  | cons l ls ih =>
    intro s s' hI h
    obtain ⟨t, hnext, hrest⟩ := System.exec_cons.mp h
    exact ih (hstep s l t hI hnext) hrest

/-- **Rank rule**: where something allowed can be done until the goal is reached,
    and lowers a rank, the goal is reached by doing what is allowed. -/
theorem System.reaches {sys : System State Label} {I Goal : State → Prop} {A : Label → Prop}
    (rank : State → Nat)
    (hstep : ∀ s, I s → ¬Goal s → ∃ l s', A l ∧ sys.next s l = some s' ∧ I s' ∧ rank s' < rank s)
    {s : State} (hI : I s) :
    ∃ ls s', (∀ l ∈ ls, A l) ∧ sys.exec s ls = some s' ∧ Goal s' := by
  suffices h : ∀ n s, rank s ≤ n → I s →
      ∃ ls s', (∀ l ∈ ls, A l) ∧ sys.exec s ls = some s' ∧ Goal s' from
    h (rank s) s (Nat.le_refl _) hI
  intro n
  induction n with
  | zero =>
    intro s hn hI
    by_cases hgoal : Goal s
    · exact ⟨[], s, by simp, rfl, hgoal⟩
    · obtain ⟨l, s', _, _, _, hlt⟩ := hstep s hI hgoal
      omega
  | succ n ih =>
    intro s hn hI
    by_cases hgoal : Goal s
    · exact ⟨[], s, by simp, rfl, hgoal⟩
    · obtain ⟨l, t, hl, hnext, hI', hlt⟩ := hstep s hI hgoal
      obtain ⟨ls, s', hls, hrest, hgoal'⟩ := ih t (by omega) hI'
      exact ⟨l :: ls, s', List.forall_mem_cons.mpr ⟨hl, hls⟩,
        System.exec_cons.mpr ⟨t, hnext, hrest⟩, hgoal'⟩

/-- What lowers a rank cannot be done more often than the rank says. -/
theorem System.length_exec_le {sys : System State Label} {A : Label → Prop}
    (rank : State → Nat) (hrank : ∀ s l s', A l → sys.next s l = some s' → rank s' < rank s) :
    ∀ {ls : List Label} {s s' : State}, (∀ l ∈ ls, A l) → sys.exec s ls = some s' →
      ls.length + rank s' ≤ rank s := by
  intro ls
  induction ls with
  | nil =>
    intro s s' _ h
    obtain rfl := Option.some.inj h
    simp
  | cons l ls ih =>
    intro s s' hls h
    obtain ⟨hl, hls⟩ := List.forall_mem_cons.mp hls
    obtain ⟨t, hnext, hrest⟩ := System.exec_cons.mp h
    have hfirst := hrank s l t hl hnext
    have hthen := ih hls hrest
    rw [List.length_cons]
    omega

/-- A rank that adds up what each party has left, when one of them moves. -/
theorem sum_update_add {ι : Type u} {β : Type v} [DecidableEq ι] {A : Finset ι} {i : ι}
    (hi : i ∈ A) (f : ι → β) (x : β) (rank : β → Nat) :
    ∑ j ∈ A, rank (Function.update f i x j) + rank (f i) = ∑ j ∈ A, rank (f j) + rank x := by
  have hnew := Finset.add_sum_erase A (fun j => rank (Function.update f i x j)) hi
  have hold := Finset.add_sum_erase A (fun j => rank (f j)) hi
  have hothers : ∑ j ∈ A.erase i, rank (Function.update f i x j) =
      ∑ j ∈ A.erase i, rank (f j) := by
    apply Finset.sum_congr rfl
    intro j hj
    rw [Function.update_of_ne (Finset.ne_of_mem_erase hj)]
  simp only [Function.update_self] at hnew
  omega

/-- What a list of labels contributes to a list. -/
def System.emits {α : Type w} (sys : System State Label) (f : State → Label → List α) :
    State → List Label → List α
  | _, [] => []
  | s, l :: ls => f s l ++ (sys.next s l).elim [] fun s' => sys.emits f s' ls

theorem System.emits_singleton {α : Type w} (sys : System State Label)
    (f : State → Label → List α) (s : State) (l : Label) : sys.emits f s [l] = f s l := by
  unfold System.emits
  cases sys.next s l with
  | none => exact List.append_nil _
  | some s' => exact List.append_nil _

/-- Each of the labels meets `C` where it is reached. -/
def System.meets (sys : System State Label) (C : State → Label → Prop) :
    State → List Label → Prop
  | _, [] => True
  | s, l :: ls => C s l ∧ ∀ s', sys.next s l = some s' → sys.meets C s' ls

/-- Replay `ls` from `s`: every label is enabled, every step passes `c`, and the
    state reached passes `q`. -/
def System.check (sys : System State Label) (c : State → Label → Bool) (q : State → Bool) :
    State → List Label → Bool
  | s, [] => q s
  | s, l :: ls =>
      match sys.next s l with
      | some t => c s l && sys.check c q t ls
      | none => false

/-! ### Runs -/

/-- A finite run from an initial state to the state in its type. -/
inductive Run (sys : System State Label) : State → Type (max u v)
  | start (s : State) (h : sys.init s) : Run sys s
  | step {s : State} (r : Run sys s) (l : Label) (s' : State)
      (h : sys.next s l = some s') : Run sys s'

namespace Run

variable {sys : System State Label}

/-- Every state the run visits satisfies `P`. -/
def Throughout (P : State → Prop) : {s : State} → Run sys s → Prop
  | s, .start _ _ => P s
  | _, .step r _ s' _ => r.Throughout P ∧ P s'

/-- Every step of the run satisfies `C`, a condition on the state before the
    step and on its label. -/
def EachStep (C : State → Label → Prop) : {s : State} → Run sys s → Prop
  | _, .start _ _ => True
  | _, .step (s := s) r l _ _ => r.EachStep C ∧ C s l

/-- Every step of the run, with the state it leads to, satisfies `R`. -/
def Ensures (R : State → Label → State → Prop) : {s : State} → Run sys s → Prop
  | _, .start _ _ => True
  | _, .step (s := s) r l s' _ => r.Ensures R ∧ R s l s'

/-- What the steps of the run contribute to a list, in the order of the steps. -/
def collect {α : Type w} (f : State → Label → List α) : {s : State} → Run sys s → List α
  | _, .start _ _ => []
  | _, .step (s := s) r l _ _ => r.collect f ++ f s l

/-- The run continued by a list of labels. -/
def extend {s s' : State} (r : Run sys s) :
    (ls : List Label) → sys.exec s ls = some s' → Run sys s'
  | [], h => by
      simp only [System.exec_nil, Option.some.injEq] at h
      exact h ▸ r
  | l :: ls, h =>
      match hn : sys.next s l with
      | some t => (r.step l t hn).extend ls (by simpa [System.exec, hn] using h)
      | none => False.elim (by simp [System.exec, hn] at h)

theorem collect_extend {α : Type w} (f : State → Label → List α) {ls : List Label} :
    ∀ {s s' : State} (r : Run sys s) (h : sys.exec s ls = some s'),
      (r.extend ls h).collect f = r.collect f ++ sys.emits f s ls := by
  induction ls with
  | nil =>
    intro s s' r h
    obtain rfl := Option.some.inj h
    exact (List.append_nil _).symm
  | cons l ls ih =>
    intro s s' r h
    obtain ⟨t, hnext, hrest⟩ := System.exec_cons.mp h
    unfold extend
    split
    · next u hu =>
      obtain rfl : u = t := Option.some.inj (hu.symm.trans hnext)
      rw [ih]
      simp [System.emits, hu, collect]
    · next hu =>
      rw [hu] at hnext
      cases hnext

theorem collect_flatten {α : Type w} (f : State → Label → List (List α)) {s : State}
    (r : Run sys s) : r.collect (fun s l => (f s l).flatten) = (r.collect f).flatten := by
  induction r with
  | start s h => rfl
  | step r l s' hn ih =>
    show r.collect _ ++ _ = (r.collect f ++ _).flatten
    rw [ih, List.flatten_append]

/-- A condition that the continuation meets, too. -/
theorem EachStep.extend {C : State → Label → Prop} {ls : List Label} :
    ∀ {s s' : State} {r : Run sys s}, r.EachStep C → (h : sys.exec s ls = some s') →
      sys.meets C s ls → (r.extend ls h).EachStep C := by
  induction ls with
  | nil =>
    intro s s' r hr h _
    obtain rfl := Option.some.inj h
    exact hr
  | cons l ls ih =>
    intro s s' r hr h hmeets
    unfold Run.extend
    split
    · next t ht =>
      have hnext : (r.step l t ht).EachStep C := ⟨hr, hmeets.1⟩
      exact ih hnext _ (hmeets.2 t ht)
    · next hnone =>
      obtain ⟨t, ht, _⟩ := System.exec_cons.mp h
      rw [hnone] at ht
      cases ht

/-- A replay that passes gives a run. -/
theorem exists_of_check (sys : System State Label) {s : State} (hinit : sys.init s)
    (ls : List Label) (c : State → Label → Bool) (q : State → Bool) (h : sys.check c q s ls = true) :
    ∃ (s' : State) (r : Run sys s'), (r.EachStep fun s l => c s l = true) ∧ q s' = true := by
  suffices hgen : ∀ (ls : List Label) (s : State) (r : Run sys s),
      (r.EachStep fun s l => c s l = true) → sys.check c q s ls = true →
      ∃ (s' : State) (r : Run sys s'), (r.EachStep fun s l => c s l = true) ∧ q s' = true from
    hgen ls s (.start s hinit) trivial h
  intro ls
  induction ls with
  | nil =>
    intro s r hr hq
    exact ⟨s, r, hr, hq⟩
  | cons l ls ih =>
    intro s r hr hcheck
    unfold System.check at hcheck
    split at hcheck
    · next t hnext =>
      obtain ⟨hc, hrest⟩ := Bool.and_eq_true_iff.mp hcheck
      exact ih t (r.step l t hnext) ⟨hr, hc⟩ hrest
    · cases hcheck

/-- A property of the last state is a property of a visited state. -/
theorem Throughout.last {P : State → Prop} {s : State} {r : Run sys s}
    (h : r.Throughout P) : P s := by
  cases r with
  | start _ _ => exact h
  | step r l _ hn => exact h.2

/-- A replay that ends with an enabled step violating `R` gives a run that
    violates `R`. -/
theorem exists_not_ensures (sys : System State Label) {R : State → Label → State → Prop}
    {s : State} (hinit : sys.init s) (ls : List Label) (l : Label) (v : State → State → Bool)
    (hv : ∀ s s', v s s' = true → ¬ R s l s')
    (h : sys.check (fun _ _ => true) (fun s => (sys.next s l).any (v s)) s ls = true) :
    ∃ (s' : State) (r : Run sys s'), ¬ r.Ensures R := by
  obtain ⟨t, r, _, hq⟩ := exists_of_check sys hinit ls _ _ h
  obtain ⟨s', hnext, hviolated⟩ := (Option.any_eq_true _ _).mp hq
  exact ⟨s', r.step l s' hnext, fun hR => hv t s' hviolated hR.2⟩

/-! ### From steps to runs -/

/-- **Invariant rule**: what holds initially and is preserved by every step
    holds at the end of every run. -/
theorem invariant {I : State → Prop} (hinit : ∀ s, sys.init s → I s)
    (hstep : ∀ s l s', I s → sys.next s l = some s' → I s')
    {s : State} (r : Run sys s) : I s := by
  induction r with
  | start s h => exact hinit s h
  | step r l s' h ih => exact hstep _ l s' ih h

/-- An invariant holds of every state the run visits. -/
theorem always {I : State → Prop} (hinit : ∀ s, sys.init s → I s)
    (hstep : ∀ s l s', I s → sys.next s l = some s' → I s')
    {s : State} (r : Run sys s) : r.Throughout I := by
  induction r with
  | start s h => exact hinit s h
  | step r l s' h ih => exact ⟨ih, hstep _ l s' ih.last h⟩

/-- What every step from a state of the invariant satisfies, every step of the
    run satisfies. -/
theorem ensures {I : State → Prop} {R : State → Label → State → Prop}
    (hinit : ∀ s, sys.init s → I s)
    (hstep : ∀ s l s', I s → sys.next s l = some s' → I s')
    (hR : ∀ s l s', I s → sys.next s l = some s' → R s l s')
    {s : State} (r : Run sys s) : r.Ensures R := by
  induction r with
  | start s h => trivial
  | step r l s' h ih => exact ⟨ih, hR _ l s' (r.invariant hinit hstep) h⟩

/-- **Guarded invariant rule**: an invariant that only the steps meeting `C`
    preserve holds throughout the runs made of such steps. -/
theorem guarded {I : State → Prop} {C : State → Label → Prop}
    (hinit : ∀ s, sys.init s → I s)
    (hstep : ∀ s l s', I s → C s l → sys.next s l = some s' → I s')
    {s : State} (r : Run sys s) (h : r.EachStep C) : r.Throughout I := by
  induction r with
  | start s hs => exact hinit s hs
  | step r l s' hn ih =>
    have hr := ih h.1
    exact ⟨hr, hstep _ l s' hr.last h.2 hn⟩

theorem Throughout.mono {P Q : State → Prop} (hPQ : ∀ s, P s → Q s)
    {s : State} {r : Run sys s} (h : r.Throughout P) : r.Throughout Q := by
  induction r with
  | start s _ => exact hPQ s h
  | step r l s' hn ih => exact ⟨ih h.1, hPQ s' h.2⟩

/-- **Conservation rule**: if every step takes out at the front of `content`
    what `out` says and puts in at the back what `inp` says, then what has gone
    out, followed by what is left, is what has come in. -/
theorem conservation {α : Type w} {I : State → Prop} {content : State → List α}
    {out inp : State → Label → List α}
    (hinit : ∀ s, sys.init s → I s ∧ content s = [])
    (hstep : ∀ s l s', I s → sys.next s l = some s' → I s')
    (hbalance : ∀ s l s', I s → sys.next s l = some s' →
      out s l ++ content s' = content s ++ inp s l)
    {s : State} (r : Run sys s) : r.collect out ++ content s = r.collect inp := by
  induction r with
  | start s h => simp [collect, (hinit s h).2]
  | step r l s' hn ih =>
    have hI := r.invariant (fun s h => (hinit s h).1) hstep
    simp only [collect, List.append_assoc, hbalance _ l s' hI hn]
    rw [← List.append_assoc, ih]

/-- **Lossy conservation rule**: if the steps may drop some of what they take out,
    what has gone out, followed by what is left, is what has come in with some left
    out. Nothing is left out exactly when each step drops nothing. -/
theorem conservation_iff {α : Type w} {I : State → Prop} {content : State → List α}
    {out inp : State → Label → List α} {C : State → Label → Prop}
    (hinit : ∀ s, sys.init s → I s ∧ content s = [])
    (hstep : ∀ s l s', I s → sys.next s l = some s' → I s')
    (hsub : ∀ s l s', I s → sys.next s l = some s' →
      (out s l ++ content s').Sublist (content s ++ inp s l))
    (hall : ∀ s l s', I s → sys.next s l = some s' →
      (out s l ++ content s' = content s ++ inp s l ↔ C s l))
    {s : State} (r : Run sys s) :
    (r.collect out ++ content s).Sublist (r.collect inp) ∧
      (r.collect out ++ content s = r.collect inp ↔ r.EachStep C) := by
  induction r with
  | start s h =>
    have hempty : (Run.start s h).collect out ++ content s = (Run.start s h).collect inp :=
      (hinit s h).2
    refine ⟨?_, iff_of_true hempty trivial⟩
    rw [hempty]
  | @step s r l s' hn ih =>
    obtain ⟨hbefore, hiff⟩ := ih
    have hI := r.invariant (fun s h => (hinit s h).1) hstep
    have hfirst : (r.collect out ++ (out s l ++ content s')).Sublist
        (r.collect out ++ (content s ++ inp s l)) := (hsub s l s' hI hn).append_left _
    have hsecond : (r.collect out ++ content s ++ inp s l).Sublist (r.collect inp ++ inp s l) :=
      hbefore.append_right _
    simp only [collect, List.append_assoc] at hfirst hsecond ⊢
    refine ⟨hfirst.trans hsecond, ?_⟩
    constructor
    · intro heq
      -- neither of the two leaves anything out then
      have hlengths : (r.collect out ++ (out s l ++ content s')).length =
          (r.collect inp ++ inp s l).length := congrArg List.length heq
      have hle := hfirst.length_le
      have hle' := hsecond.length_le
      have hnow := hfirst.eq_of_length (by omega)
      have hthen := hsecond.eq_of_length (by omega)
      rw [← List.append_assoc] at hthen
      exact ⟨hiff.mp (List.append_cancel_right hthen),
        (hall s l s' hI hn).mp (List.append_cancel_left hnow)⟩
    · intro h
      rw [(hall s l s' hI hn).mpr h.2, ← List.append_assoc, hiff.mpr h.1]

/-- **Exact guard**: let `I` be an invariant of the steps meeting `C` that
    gives `P`, and let `P` fail after every other step. Then `P` holds
    throughout a run exactly when each of its steps meets `C`. -/
theorem throughout_iff {I P : State → Prop} {C : State → Label → Prop}
    (hinit : ∀ s, sys.init s → I s) (hP : ∀ s, I s → P s)
    (hstep : ∀ s l s', I s → C s l → sys.next s l = some s' → I s')
    (hexact : ∀ s l s', I s → sys.next s l = some s' → P s' → C s l)
    {s : State} (r : Run sys s) : r.Throughout P ↔ r.EachStep C := by
  constructor
  · intro h
    -- `I` is re-established step by step from the condition found so far
    have hboth : r.EachStep C ∧ I s := by
      induction r with
      | start s hs => exact ⟨trivial, hinit s hs⟩
      | step r l s' hn ih =>
        obtain ⟨hC, hI⟩ := ih h.1
        have hl := hexact _ l s' hI hn h.2
        exact ⟨⟨hC, hl⟩, hstep _ l s' hI hl hn⟩
    exact hboth.1
  · intro h
    exact (guarded hinit hstep r h).mono hP

/-- **Guarded step rule**: with an invariant of the steps meeting `C`, a run of
    such steps satisfies `R` at each of them. -/
theorem guarded_ensures {I : State → Prop} {R : State → Label → State → Prop}
    {C : State → Label → Prop} (hinit : ∀ s, sys.init s → I s)
    (hstep : ∀ s l s', I s → C s l → sys.next s l = some s' → I s')
    (hR : ∀ s l s', I s → C s l → sys.next s l = some s' → R s l s')
    {s : State} (r : Run sys s) (h : r.EachStep C) : r.Ensures R := by
  induction r with
  | start s hs => trivial
  | step r l s' hn ih =>
    have hI := (guarded hinit hstep r h.1).last
    exact ⟨ih h.1, hR _ l s' hI h.2 hn⟩

/-- **Step rule**: with an invariant of all steps, a step meeting `C` satisfies
    `R`. -/
theorem ensures_of_eachStep {I : State → Prop} {R : State → Label → State → Prop}
    {C : State → Label → Prop} (hinit : ∀ s, sys.init s → I s)
    (hstep : ∀ s l s', I s → sys.next s l = some s' → I s')
    (hR : ∀ s l s', I s → C s l → sys.next s l = some s' → R s l s')
    {s : State} (r : Run sys s) (h : r.EachStep C) : r.Ensures R :=
  guarded_ensures hinit (fun s l s' hI _ hn => hstep s l s' hI hn) hR r h

/-- **Guarded condition rule**: a condition that every enabled step meeting `C`
    from a state of the invariant meets is met by each step of a run of such
    steps. -/
theorem guarded_eachStep {I : State → Prop} {C D : State → Label → Prop}
    (hinit : ∀ s, sys.init s → I s)
    (hstep : ∀ s l s', I s → C s l → sys.next s l = some s' → I s')
    (hD : ∀ s l s', I s → C s l → sys.next s l = some s' → D s l) {s : State} (r : Run sys s)
    (h : r.EachStep C) : r.EachStep D := by
  induction r with
  | start s hs => trivial
  | step r l s' hn ih =>
    have hI := (guarded hinit hstep r h.1).last
    exact ⟨ih h.1, hD _ l s' hI h.2 hn⟩

theorem EachStep.mono {C D : State → Label → Prop} (hCD : ∀ s l, C s l → D s l) {s : State}
    {r : Run sys s} (h : r.EachStep C) : r.EachStep D := by
  induction r with
  | start s hs => trivial
  | step r l s' hn ih => exact ⟨ih h.1, hCD _ l h.2⟩

theorem EachStep.always {C : State → Label → Prop} (hC : ∀ s l, C s l) {s : State}
    (r : Run sys s) : r.EachStep C := by
  induction r with
  | start s hs => trivial
  | step r l s' hn ih => exact ⟨ih, hC _ l⟩

/-- **Exact guard for steps**: as `throughout_iff`, for a property `R` of a
    step and the state it leads to. -/
theorem ensures_iff {I : State → Prop} {R : State → Label → State → Prop}
    {C : State → Label → Prop} (hinit : ∀ s, sys.init s → I s)
    (hstep : ∀ s l s', I s → C s l → sys.next s l = some s' → I s')
    (hR : ∀ s l s', I s → sys.next s l = some s' → (R s l s' ↔ C s l))
    {s : State} (r : Run sys s) : r.Ensures R ↔ r.EachStep C := by
  suffices h : (r.Ensures R ↔ r.EachStep C) ∧ (r.EachStep C → I s) from h.1
  induction r with
  | start s hs => exact ⟨Iff.rfl, fun _ => hinit s hs⟩
  | step r l s' hn ih =>
    obtain ⟨hiff, hI⟩ := ih
    refine ⟨⟨fun h => ?_, fun h => ?_⟩, fun h => hstep _ l s' (hI h.1) h.2 hn⟩
    · have hC := hiff.mp h.1
      exact ⟨hC, (hR _ l s' (hI hC) hn).mp h.2⟩
    · exact ⟨hiff.mpr h.1, (hR _ l s' (hI h.1) hn).mpr h.2⟩

/-- **Lasting guard**: let `P` hold after a step from where it holds exactly when
    the step meets `C`, and after no other step. Then `P` holds at the end of a run
    exactly when each of its steps meets `C`. -/
theorem last_iff {I P : State → Prop} {C : State → Label → Prop}
    (hinit : ∀ s, sys.init s → I s ∧ P s)
    (hstep : ∀ s l s', I s → sys.next s l = some s' → I s')
    (hkeep : ∀ s l s', I s → P s → sys.next s l = some s' → (P s' ↔ C s l))
    (hback : ∀ s l s', I s → sys.next s l = some s' → P s' → P s)
    {s : State} (r : Run sys s) : P s ↔ r.EachStep C := by
  induction r with
  | start s hs => exact iff_of_true (hinit s hs).2 trivial
  | step r l s' hn ih =>
    have hI := r.invariant (fun s hs => (hinit s hs).1) hstep
    constructor
    · intro h
      have hold := hback _ l s' hI hn h
      exact ⟨ih.mp hold, (hkeep _ l s' hI hold hn).mp h⟩
    · intro h
      exact (hkeep _ l s' hI (ih.mpr h.1) hn).mpr h.2

end Run

/-! ### Simulation -/

variable {State' : Type u} {Label' : Type w}

/-- `A` refines `B`: every step of `A` is matched by the steps of `B` that
    `labels` names, none of them when the step is invisible to `B`. -/
structure Simulation (A : System State Label) (B : System State' Label') where
  /-- The state of `B` that a state of `A` stands for. -/
  abs : State → State'
  /-- The steps of `B` that match a step of `A`. -/
  labels : State → Label → List Label'
  init : ∀ s, A.init s → B.init (abs s)
  next : ∀ s l s', A.next s l = some s' → B.exec (abs s) (labels s l) = some (abs s')

/-- Every run of the refining system is a run of the abstract one. -/
def Simulation.run {A : System State Label} {B : System State' Label'}
    (sim : Simulation A B) {s : State} : Run A s → Run B (sim.abs s)
  | .start s h => .start _ (sim.init s h)
  | .step r l s' h => (sim.run r).extend (sim.labels _ l) (sim.next _ l s' h)

/-- What the abstract run collects is collected by the refining one. -/
theorem Simulation.collect_run {α : Type w} {A : System State Label} {B : System State' Label'}
    (sim : Simulation A B) (f : State' → Label' → List α) {s : State} (r : Run A s) :
    (sim.run r).collect f = r.collect fun s l => B.emits f (sim.abs s) (sim.labels s l) := by
  induction r with
  | start s h => rfl
  | step r l s' h ih =>
    show (Run.extend _ _ _).collect f = _
    rw [Run.collect_extend, ih]
    rfl

/-- A condition on the steps of the abstract run, from one on the steps that they
    match. -/
theorem Simulation.eachStep_run {A : System State Label} {B : System State' Label'}
    (sim : Simulation A B) {C : State → Label → Prop} {D : State' → Label' → Prop}
    (hCD : ∀ s l, C s l → B.meets D (sim.abs s) (sim.labels s l)) {s : State} (r : Run A s)
    (h : r.EachStep C) : (sim.run r).EachStep D := by
  induction r with
  | start s hs => trivial
  | step r l s' hn ih => exact (ih h.1).extend _ (hCD _ l h.2)

end LTS
