import Mathlib.Data.Finset.Basic
import Mathlib.Logic.Function.Basic

/-! # What views call

  A view calls the place it has been opened for, by a pointer that nobody takes
  back. It does so for as long as it is registered, whether or not it is still
  the view of its place.

  So each registered view has to be the view of what it calls, or that place has
  been left, after which nobody opens or closes a view of it and it stays.
-/

universe u v

@[ext] structure Targets (Place : Type u) (View : Type v) where
  registered : Finset View
  /-- The view that is open for a place. -/
  view : Place → Option View
  /-- What a view calls. -/
  target : View → Option Place
  left : Place → Prop

namespace Targets

variable {Place : Type u} {View : Type v}

structure Sound (s : Targets Place View) : Prop where
  /-- A view that is open is registered and calls its place. -/
  viewed : ∀ p x, s.view p = some x → x ∈ s.registered ∧ s.target x = some p
  /-- A view that is registered calls a place whose view it is, or one that has
      been left. -/
  anchored : ∀ x ∈ s.registered, ∃ p, s.target x = some p ∧ (s.left p ∨ s.view p = some x)

variable {s s' : Targets Place View} {p q : Place} {x y : View}

/-- No two places have the same view. -/
theorem Sound.view_inj (h : s.Sound) (hp : s.view p = some x) (hq : s.view q = some x) : p = q :=
  Option.some.inj ((h.viewed p x hp).2.symm.trans (h.viewed q x hq).2)

variable [DecidableEq Place]

/-- A place is left, and its view stays registered. -/
theorem Sound.leave (h : s.Sound) (hreg : s'.registered = s.registered)
    (hview : s'.view = Function.update s.view p none) (htarget : s'.target = s.target)
    (hleft : ∀ q, s'.left q ↔ q = p ∨ s.left q) : s'.Sound where
  viewed := by
    intro q y hq
    rw [hview] at hq
    rw [hreg, htarget]
    by_cases hqp : q = p
    · rw [hqp, Function.update_self] at hq
      cases hq
    · rw [Function.update_of_ne hqp] at hq
      exact h.viewed q y hq
  anchored := by
    intro y hy
    rw [hreg] at hy
    obtain ⟨q, hcall, hq⟩ := h.anchored y hy
    rw [hview, htarget]
    refine ⟨q, hcall, ?_⟩
    rw [hleft]
    by_cases hqp : q = p
    · exact Or.inl (Or.inl hqp)
    · rw [Function.update_of_ne hqp]
      exact hq.imp_left Or.inr

variable [DecidableEq View]

/-- A view is opened. -/
theorem Sound.opened (h : s.Sound) (hp : s.view p = none) (hx : x ∉ s.registered)
    (hreg : s'.registered = insert x s.registered)
    (hview : s'.view = Function.update s.view p (some x))
    (htarget : s'.target = Function.update s.target x (some p)) (hleft : s'.left = s.left) :
    s'.Sound where
  viewed := by
    intro q y hq
    rw [hview] at hq
    rw [hreg, htarget]
    by_cases hqp : q = p
    · subst hqp
      rw [Function.update_self] at hq
      obtain rfl := Option.some.inj hq
      exact ⟨Finset.mem_insert_self _ _, Function.update_self _ _ _⟩
    · rw [Function.update_of_ne hqp] at hq
      obtain ⟨hmem, hcall⟩ := h.viewed q y hq
      have hyx : y ≠ x := fun heq => hx (heq ▸ hmem)
      rw [Function.update_of_ne hyx]
      exact ⟨Finset.mem_insert_of_mem hmem, hcall⟩
  anchored := by
    intro y hy
    rw [hreg] at hy
    rw [hview, htarget, hleft]
    rcases Finset.mem_insert.mp hy with rfl | hy
    · exact ⟨p, Function.update_self _ _ _, Or.inr (Function.update_self _ _ _)⟩
    · obtain ⟨q, hcall, hq⟩ := h.anchored y hy
      have hyx : y ≠ x := fun heq => hx (heq ▸ hy)
      rw [Function.update_of_ne hyx]
      refine ⟨q, hcall, hq.imp_right fun hview => ?_⟩
      -- another place, since that one has had no view
      have hqp : q ≠ p := by
        intro heq
        rw [heq, hp] at hview
        cases hview
      rw [Function.update_of_ne hqp]
      exact hview

/-- The view of a place is closed. -/
theorem Sound.closed (h : s.Sound) (hp : s.view p = some x)
    (hreg : s'.registered = s.registered.erase x)
    (hview : s'.view = Function.update s.view p none) (htarget : s'.target = s.target)
    (hleft : s'.left = s.left) : s'.Sound where
  viewed := by
    intro q y hq
    rw [hview] at hq
    rw [hreg, htarget]
    by_cases hqp : q = p
    · rw [hqp, Function.update_self] at hq
      cases hq
    · rw [Function.update_of_ne hqp] at hq
      obtain ⟨hmem, hcall⟩ := h.viewed q y hq
      have hyx : y ≠ x := fun heq => hqp (h.view_inj hq (heq ▸ hp))
      exact ⟨Finset.mem_erase.mpr ⟨hyx, hmem⟩, hcall⟩
  anchored := by
    intro y hy
    rw [hreg] at hy
    obtain ⟨hyx, hmem⟩ := Finset.mem_erase.mp hy
    obtain ⟨q, hcall, hq⟩ := h.anchored y hmem
    rw [hview, htarget, hleft]
    refine ⟨q, hcall, hq.imp_right fun hold => ?_⟩
    have hqp : q ≠ p := by
      intro heq
      rw [heq, hp] at hold
      exact hyx (Option.some.inj hold).symm
    rw [Function.update_of_ne hqp]
    exact hold

end Targets
