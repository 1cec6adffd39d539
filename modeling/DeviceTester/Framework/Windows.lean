import Mathlib.Data.List.DropRight
import Mathlib.Data.List.Rotate

/-! # The last elements of a sequence

  A window shows the last `n` elements of a sequence that grows at its end. It
  can be kept in an array of `n` places that is filled once and then overwritten
  from the front, again and again: read from the place that is written next, the
  array is the window (`push_of_full`).
-/

namespace Window

universe u

variable {α : Type u}

/-- One more element comes into the window, and the oldest goes when it is full. -/
def push (n : Nat) (w : List α) (x : α) : List α := (w ++ [x]).rtake n

/-- The array read from a position on, which wraps at its end. -/
def readFrom (l : List α) (k : Nat) : List α :=
  (List.range l.length).filterMap fun i => l[(k + i) % l.length]?

/-! ### What a window shows -/

/-- What is pushed into the window of a sequence gives the window of the longer
    sequence. -/
theorem push_rtake (n : Nat) (xs : List α) (x : α) :
    push n (xs.rtake n) x = (xs ++ [x]).rtake n := by
  unfold push
  cases n with
  | zero => simp
  | succ n =>
    rw [List.rtake_concat_succ, List.rtake_concat_succ]
    congr 1
    unfold List.rtake
    rw [List.drop_drop, List.length_drop]
    congr 1
    omega

/-- A window that is not full loses nothing. -/
theorem push_eq_append {w : List α} {n : Nat} (h : w.length < n) (x : α) :
    push n w x = w ++ [x] := by
  have hzero : (w ++ [x]).length - n = 0 := by
    rw [List.length_append, List.length_singleton]
    omega
  unfold push List.rtake
  rw [hzero, List.drop_zero]

/-- A full window loses its oldest element. -/
theorem push_eq_tail {w : List α} (h : 0 < w.length) (x : α) :
    push w.length w x = w.tail ++ [x] := by
  have hone : (w ++ [x]).length - w.length = 1 := by simp
  unfold push List.rtake
  rw [hone, List.drop_append_of_le_length h, List.drop_one]

/-! ### Arrays that are overwritten from the front -/

theorem filterMap_range (l : List α) : (List.range l.length).filterMap (fun i => l[i]?) = l := by
  induction l using List.reverseRecOn with
  | nil => rfl
  | append_singleton l x ih =>
    have hbefore : ∀ i ∈ List.range l.length, (l ++ [x])[i]? = l[i]? := by
      intro i hi
      exact List.getElem?_append_left (List.mem_range.mp hi)
    rw [List.length_append, List.length_singleton, List.range_succ, List.filterMap_append,
      List.filterMap_congr hbefore, ih]
    simp

theorem readFrom_eq_rotate (l : List α) (k : Nat) : readFrom l k = l.rotate k := by
  have hall : ∀ i ∈ List.range l.length, l[(k + i) % l.length]? = (l.rotate k)[i]? := by
    intro i hi
    rw [List.getElem?_rotate (List.mem_range.mp hi), Nat.add_comm]
  have hlen : List.range l.length = List.range (l.rotate k).length := by
    rw [List.length_rotate]
  unfold readFrom
  rw [List.filterMap_congr hall, hlen, filterMap_range]

/-- What is overwritten is the oldest element, and the next one is read first
    then. -/
theorem rotate_set_succ {l : List α} {k : Nat} (hk : k < l.length) (x : α) :
    (l.set k x).rotate (k + 1) = (l.rotate k).tail ++ [x] := by
  have hlen : k + 1 ≤ (l.set k x).length := by
    rw [List.length_set]
    exact hk
  have hne : l.drop k ≠ [] := by
    rw [ne_eq, List.drop_eq_nil_iff]
    omega
  rw [List.rotate_eq_drop_append_take hlen, List.rotate_eq_drop_append_take (Nat.le_of_lt hk),
    List.tail_append_of_ne_nil hne, List.tail_drop, List.drop_set_of_lt (Nat.lt_succ_self k),
    List.append_assoc]
  congr 1
  rw [List.take_set, List.take_succ_eq_append_getElem hk]
  rw [List.set_append_right _ _ (by rw [List.length_take]; omega)]
  simp [Nat.min_eq_left (Nat.le_of_lt hk)]

/-- A full array of which the window is the rotation is overwritten in one place. -/
theorem push_of_full {l : List α} {k : Nat} (hk : k < l.length) (x : α) :
    (l.set k x).rotate ((k + 1) % l.length) = push l.length (l.rotate k) x := by
  have hmod : (l.set k x).rotate ((k + 1) % l.length) = (l.set k x).rotate (k + 1) := by
    have hlen : (l.set k x).length = l.length := List.length_set
    rw [← hlen, List.rotate_mod]
  have hpos : 0 < (l.rotate k).length := by
    rw [List.length_rotate]
    omega
  have hfull := push_eq_tail hpos x
  rw [List.length_rotate] at hfull
  rw [hmod, rotate_set_succ hk, hfull]

end Window
