import Mathlib.Data.Finset.Basic
import Mathlib.Logic.Function.Basic

/-! # Views of places

  A view is opened for a place. It is registered, and a slot is connected to the
  place that passes on to the view what happens there. Nobody disconnects a
  slot: it is connected for as long as its view is held, by the registry, as the
  view of a place, or by a slot that has captured it.

  The registry, the views of the places and the connected slots are to agree.
  Opening a view keeps that, and so does taking away a place. Closing a view
  does when the slots of the place do not capture, and only then
  (`Sound.close`, `not_agree_close`).
-/

universe u v

@[ext] structure Views (Place : Type u) (View : Type v) where
  registered : Finset View
  /-- The view that is open for a place. -/
  view : Place → Option View
  /-- The views of the slots that have been connected to a place. -/
  slots : Place → List View
  /-- Slots of the place capture their view. -/
  captures : Place → Bool

namespace Views

variable {Place : Type u} {View : Type v}

/-- Somebody refers to the view. -/
def Held (s : Views Place View) (x : View) : Prop :=
  x ∈ s.registered ∨ (∃ p, s.view p = some x) ∨ ∃ p, s.captures p = true ∧ x ∈ s.slots p

/-- The slots still connected to the place are the one of its view. -/
def Connected (s : Views Place View) (p : Place) : Prop :=
  (s.slots p).Nodup ∧ ∀ x, x ∈ s.slots p ∧ s.Held x ↔ s.view p = some x

structure Agree (s : Views Place View) : Prop where
  registered : ∀ x, x ∈ s.registered ↔ ∃ p, s.view p = some x
  connected : ∀ p, s.Connected p

/-- The registry agrees, and no view has slots at two places. -/
structure Sound (s : Views Place View) : Prop extends s.Agree where
  apart : ∀ p q x, x ∈ s.slots p → x ∈ s.slots q → p = q

/-- The view has not been used. -/
def Fresh (s : Views Place View) (x : View) : Prop := x ∉ s.registered ∧ ∀ p, x ∉ s.slots p

/-! ### The operations -/

section operations

variable [DecidableEq Place] [DecidableEq View]

/-- A view is opened for the place. -/
def start (s : Views Place View) (p : Place) (x : View) : Views Place View :=
  { s with
    registered := insert x s.registered
    view := Function.update s.view p (some x)
    slots := Function.update s.slots p (s.slots p ++ [x]) }

/-- The view of the place is closed. -/
def close (s : Views Place View) (p : Place) (x : View) : Views Place View :=
  { s with
    registered := s.registered.erase x
    view := Function.update s.view p none }

/-- The place goes, and its view is closed. -/
def takeAway (s : Views Place View) (p : Place) : Views Place View :=
  { s with
    registered :=
      match s.view p with
      | some x => s.registered.erase x
      | none => s.registered
    view := Function.update s.view p none
    slots := Function.update s.slots p [] }

end operations

/-! ### What agreement gives -/

variable {s : Views Place View} {p q : Place} {x y : View}

theorem Agree.mem_slots (h : s.Agree) (hp : s.view p = some x) : x ∈ s.slots p :=
  (((h.connected p).2 x).mpr hp).1

/-- No two places have the same view. -/
theorem Sound.view_inj (h : s.Sound) (hp : s.view p = some x) (hq : s.view q = some x) : p = q :=
  h.apart p q x (h.mem_slots hp) (h.mem_slots hq)

/-- A place whose slots capture has the slot of its view, and no other. -/
theorem Agree.slots_eq_nil (h : s.Agree) (hcap : s.captures p = true) (hp : s.view p = none) :
    s.slots p = [] := by
  apply List.eq_nil_iff_forall_not_mem.mpr
  intro x hx
  have hview := ((h.connected p).2 x).mp ⟨hx, Or.inr (Or.inr ⟨p, hcap, hx⟩)⟩
  rw [hp] at hview
  cases hview

/-! ### Opening a view -/

variable [DecidableEq Place]

section opening

variable [DecidableEq View]

theorem mem_slots_start : y ∈ (s.start p x).slots q ↔ y ∈ s.slots q ∨ q = p ∧ y = x := by
  by_cases hqp : q = p
  · subst hqp
    simp [start]
  · simp [start, hqp]

theorem view_start (hp : s.view p = none) :
    (s.start p x).view q = some y ↔ s.view q = some y ∨ q = p ∧ y = x := by
  by_cases hqp : q = p
  · subst hqp
    simp [start, hp, eq_comm]
  · simp [start, hqp]

theorem held_start (hp : s.view p = none) : (s.start p x).Held y ↔ y = x ∨ s.Held y := by
  unfold Held
  simp only [mem_slots_start, view_start hp]
  show y ∈ insert x s.registered ∨ _ ∨ _ ↔ _
  rw [Finset.mem_insert]
  constructor
  · rintro ((rfl | hreg) | ⟨q, hview | ⟨-, rfl⟩⟩ | ⟨q, hcap, hmem | ⟨-, rfl⟩⟩)
    · exact Or.inl rfl
    · exact Or.inr (Or.inl hreg)
    · exact Or.inr (Or.inr (Or.inl ⟨q, hview⟩))
    · exact Or.inl rfl
    · exact Or.inr (Or.inr (Or.inr ⟨q, hcap, hmem⟩))
    · exact Or.inl rfl
  · rintro (rfl | hreg | ⟨q, hview⟩ | ⟨q, hcap, hmem⟩)
    · exact Or.inl (Or.inl rfl)
    · exact Or.inl (Or.inr hreg)
    · exact Or.inr (Or.inl ⟨q, Or.inl hview⟩)
    · exact Or.inr (Or.inr ⟨q, hcap, Or.inl hmem⟩)

theorem Sound.start (h : s.Sound) (hp : s.view p = none) (hx : s.Fresh x) :
    (s.start p x).Sound where
  registered := by
    intro y
    show y ∈ insert x s.registered ↔ _
    simp only [Finset.mem_insert, h.registered y, view_start hp]
    constructor
    · rintro (rfl | ⟨q, hq⟩)
      · exact ⟨p, Or.inr ⟨rfl, rfl⟩⟩
      · exact ⟨q, Or.inl hq⟩
    · rintro ⟨q, hq | ⟨-, rfl⟩⟩
      · exact Or.inr ⟨q, hq⟩
      · exact Or.inl rfl
  connected := by
    intro q
    obtain ⟨hnodup, hconn⟩ := h.connected q
    constructor
    · by_cases hqp : q = p
      · subst hqp
        have hslots : (s.start q x).slots q = s.slots q ++ [x] := Function.update_self _ _ _
        rw [hslots]
        refine List.nodup_append.mpr ⟨hnodup, List.nodup_singleton x, fun a ha b hb heq => ?_⟩
        rw [heq, List.mem_singleton.mp hb] at ha
        exact hx.2 q ha
      · simpa [Views.start, hqp] using hnodup
    · intro y
      rw [mem_slots_start, held_start hp, view_start hp, ← hconn y]
      constructor
      · rintro ⟨hmem | hnew, rfl | hheld⟩
        · exact absurd hmem (hx.2 q)
        · exact Or.inl ⟨hmem, hheld⟩
        · exact Or.inr hnew
        · exact Or.inr hnew
      · rintro (⟨hmem, hheld⟩ | ⟨rfl, rfl⟩)
        · exact ⟨Or.inl hmem, Or.inr hheld⟩
        · exact ⟨Or.inr ⟨rfl, rfl⟩, Or.inl rfl⟩
  apart := by
    intro q r y hq hr
    rcases mem_slots_start.mp hq with hold | ⟨rfl, rfl⟩
    · rcases mem_slots_start.mp hr with hr | ⟨-, rfl⟩
      · exact h.apart q r y hold hr
      · exact absurd hold (hx.2 q)
    · rcases mem_slots_start.mp hr with hr | ⟨rfl, -⟩
      · exact absurd hr (hx.2 r)
      · rfl

theorem Fresh.start (hy : s.Fresh y) (hne : y ≠ x) : (s.start p x).Fresh y := by
  constructor
  · show y ∉ insert x s.registered
    rw [Finset.mem_insert, not_or]
    exact ⟨hne, hy.1⟩
  · intro q hmem
    rcases mem_slots_start.mp hmem with hmem | ⟨-, heq⟩
    · exact hy.2 q hmem
    · exact hne heq

end opening

/-! ### Closing a view, and taking a place away -/

/-- The view of a place is taken out of the registry. Slots that capture have to
    go with it. -/
theorem Sound.without (h : s.Sound) {s' : Views Place View}
    (hreg : ∀ y, y ∈ s'.registered ↔ y ∈ s.registered ∧ s.view p ≠ some y)
    (hview : s'.view = Function.update s.view p none) (hcap : s'.captures = s.captures)
    (hslots : ∀ q, q ≠ p → s'.slots q = s.slots q) (hp : (s'.slots p).Sublist (s.slots p))
    (hgone : s.captures p = true → s'.slots p = []) : s'.Sound := by
  have hsub : ∀ {q y}, y ∈ s'.slots q → y ∈ s.slots q := by
    intro q y hy
    by_cases hqp : q = p
    · subst hqp
      exact hp.subset hy
    · exact hslots q hqp ▸ hy
  have hviewed : ∀ {q y}, s'.view q = some y ↔ q ≠ p ∧ s.view q = some y := by
    intro q y
    rw [hview]
    by_cases hqp : q = p
    · subst hqp
      simp
    · simp [hqp]
  have hothers : ∀ {q y}, q ≠ p → s.view q = some y → s.view p ≠ some y :=
    fun hqp hq hpy => hqp (h.view_inj hq hpy)
  have hagree : ∀ y, y ∈ s'.registered ↔ ∃ q, s'.view q = some y := by
    intro y
    rw [hreg, h.registered]
    constructor
    · rintro ⟨⟨q, hq⟩, hne⟩
      exact ⟨q, hviewed.mpr ⟨fun heq => hne (heq ▸ hq), hq⟩⟩
    · rintro ⟨q, hq⟩
      obtain ⟨hqp, hq⟩ := hviewed.mp hq
      exact ⟨⟨q, hq⟩, hothers hqp hq⟩
  have hheld : ∀ {y}, s'.Held y → s.Held y ∧ s.view p ≠ some y := by
    rintro y (hy | ⟨q, hq⟩ | ⟨q, hqcap, hmem⟩)
    · obtain ⟨hy, hne⟩ := (hreg y).mp hy
      exact ⟨Or.inl hy, hne⟩
    · obtain ⟨hqp, hq⟩ := hviewed.mp hq
      exact ⟨Or.inr (Or.inl ⟨q, hq⟩), hothers hqp hq⟩
    · rw [hcap] at hqcap
      refine ⟨Or.inr (Or.inr ⟨q, hqcap, hsub hmem⟩), fun hpy => ?_⟩
      -- the slot would be one of the place itself, and those are gone
      have hqp := h.apart q p y (hsub hmem) (h.mem_slots hpy)
      subst hqp
      rw [hgone hqcap] at hmem
      cases hmem
  refine ⟨⟨hagree, fun q => ?_⟩, fun q r y hq hr => h.apart q r y (hsub hq) (hsub hr)⟩
  obtain ⟨hnodup, hconn⟩ := h.connected q
  by_cases hqp : q = p
  · subst hqp
    refine ⟨hnodup.sublist hp, fun y => ⟨fun ⟨hmem, hy⟩ => ?_, fun hy => ?_⟩⟩
    · obtain ⟨hy, hne⟩ := hheld hy
      exact absurd ((hconn y).mp ⟨hsub hmem, hy⟩) hne
    · exact absurd rfl (hviewed.mp hy).1
  · rw [Connected, hslots q hqp]
    refine ⟨hnodup, fun y => ⟨fun ⟨hmem, hy⟩ => ?_, fun hy => ?_⟩⟩
    · exact hviewed.mpr ⟨hqp, (hconn y).mp ⟨hmem, (hheld hy).1⟩⟩
    · exact ⟨h.mem_slots (hviewed.mp hy).2, Or.inr (Or.inl ⟨q, hy⟩)⟩

variable [DecidableEq View]

theorem Sound.close (h : s.Sound) (hp : s.view p = some x) (hcap : s.captures p = false) :
    (s.close p x).Sound := by
  refine h.without (fun y => ?_) rfl rfl (fun _ _ => rfl) (List.Sublist.refl _) ?_
  · show y ∈ s.registered.erase x ↔ _
    rw [Finset.mem_erase, hp, and_comm, ne_eq, ne_eq, Option.some.injEq, eq_comm]
  · rw [hcap]
    intro hfalse
    cases hfalse

theorem Fresh.close (hy : s.Fresh y) : (s.close p x).Fresh y :=
  ⟨fun hmem => hy.1 (Finset.mem_of_mem_erase hmem), hy.2⟩

/-- A slot that captures stays behind when its view is closed. -/
theorem not_agree_close (h : s.Agree) (hp : s.view p = some x) (hcap : s.captures p = true) :
    ¬(s.close p x).Agree := by
  intro h'
  have hmem : x ∈ (s.close p x).slots p := h.mem_slots hp
  have hview := ((h'.connected p).2 x).mp ⟨hmem, Or.inr (Or.inr ⟨p, hcap, hmem⟩)⟩
  simp [close] at hview

theorem Sound.takeAway (h : s.Sound) (p : Place) : (s.takeAway p).Sound := by
  refine h.without (fun y => ?_) rfl rfl (fun q hqp => Function.update_of_ne hqp _ _) ?_ ?_
  · unfold Views.takeAway
    cases hp : s.view p with
    | none => simp
    | some x =>
      simp only [Finset.mem_erase, ne_eq, Option.some.injEq]
      rw [and_comm, eq_comm]
  · simp [Views.takeAway]
  · intro _
    simp [Views.takeAway]

theorem Fresh.takeAway (hy : s.Fresh y) : (s.takeAway p).Fresh y := by
  constructor
  · unfold Views.takeAway
    cases s.view p with
    | none => exact hy.1
    | some x => exact fun hmem => hy.1 (Finset.mem_of_mem_erase hmem)
  · intro q hmem
    by_cases hqp : q = p
    · subst hqp
      simp [Views.takeAway] at hmem
    · exact hy.2 q (by simpa [Views.takeAway, hqp] using hmem)

end Views
