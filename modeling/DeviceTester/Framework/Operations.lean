import Mathlib.Data.List.Perm.Basic

/-! # Outstanding asynchronous operations

  An asynchronous operation is started, finishes at some later time with a
  result, and later still its completion handler is run with that result.
  The operations of one kind that an object has outstanding are kept as a
  list: an entry stays in it until its handler is run, and its `result` is
  `none` for as long as the operation is in progress.

  Cancelling finishes every operation still in progress with a given result;
  an operation that has finished already keeps the result it has.
-/

namespace Async

variable {κ ρ : Type}

/-- An outstanding operation: what was asked for, and the result once there
    is one. -/
structure Operation (κ ρ : Type) where
  kind : κ
  result : Option ρ
  deriving DecidableEq, Repr

/-- The operations whose completion handler has not been run. -/
abbrev Operations (κ ρ : Type) := List (Operation κ ρ)

namespace Operations

/-! ### Operations on the list -/

/-- What the outstanding operations were asked for. -/
def kinds (ops : Operations κ ρ) : List κ := ops.map (·.kind)

/-- One more operation, in progress. -/
def start (ops : Operations κ ρ) (k : κ) : Operations κ ρ := ops ++ [⟨k, none⟩]

/-- One more operation, finished as soon as it is started. -/
def startDone (ops : Operations κ ρ) (k : κ) (r : ρ) : Operations κ ρ :=
  ops ++ [⟨k, some r⟩]

/-- The operation at position `i`, when it is in progress. -/
def inProgress (ops : Operations κ ρ) (i : Nat) : Option κ :=
  match ops[i]? with
  | some ⟨k, none⟩ => some k
  | _ => none

/-- The operation at position `i` and its result, when it has finished. -/
def finished (ops : Operations κ ρ) (i : Nat) : Option (κ × ρ) :=
  match ops[i]? with
  | some ⟨k, some r⟩ => some (k, r)
  | _ => none

/-- The operation at position `i`, asked for `k`, has finished with `r`. -/
def finish (ops : Operations κ ρ) (i : Nat) (k : κ) (r : ρ) : Operations κ ρ :=
  ops.set i ⟨k, some r⟩

/-- The handler of the operation at position `i` is taken out to be run. -/
def remove (ops : Operations κ ρ) (i : Nat) : Operations κ ρ := ops.eraseIdx i

/-- Finish every operation in progress with `r`. -/
def abort (r : ρ) (ops : Operations κ ρ) : Operations κ ρ :=
  ops.map fun o => match o.result with
    | none => { o with result := some r }
    | some _ => o

/-! ### Reading an entry -/

theorem inProgress_eq_some {ops : Operations κ ρ} {i : Nat} {k : κ} :
    ops.inProgress i = some k ↔ ops[i]? = some ⟨k, none⟩ := by
  unfold inProgress
  rcases h : ops[i]? with _ | ⟨k', _ | r⟩ <;> simp

theorem finished_eq_some {ops : Operations κ ρ} {i : Nat} {k : κ} {r : ρ} :
    ops.finished i = some (k, r) ↔ ops[i]? = some ⟨k, some r⟩ := by
  unfold finished
  rcases h : ops[i]? with _ | ⟨k', _ | r'⟩ <;> simp

theorem mem_of_inProgress {ops : Operations κ ρ} {i : Nat} {k : κ}
    (h : ops.inProgress i = some k) : (⟨k, none⟩ : Operation κ ρ) ∈ ops :=
  List.mem_of_getElem? (inProgress_eq_some.mp h)

theorem mem_of_finished {ops : Operations κ ρ} {i : Nat} {k : κ} {r : ρ}
    (h : ops.finished i = some (k, r)) : (⟨k, some r⟩ : Operation κ ρ) ∈ ops :=
  List.mem_of_getElem? (finished_eq_some.mp h)

/-- Taking a finished operation out leaves the others. -/
theorem perm_remove {ops : Operations κ ρ} {i : Nat} {k : κ} {r : ρ}
    (h : ops.finished i = some (k, r)) : ops.Perm (⟨k, some r⟩ :: ops.remove i) := by
  obtain ⟨hi, hget⟩ := List.getElem?_eq_some_iff.mp (finished_eq_some.mp h)
  exact hget ▸ (List.getElem_cons_eraseIdx_perm hi).symm

/-- Finishing an operation changes that one entry. -/
theorem perm_finish {ops : Operations κ ρ} {i : Nat} {k : κ} (r : ρ)
    (h : ops.inProgress i = some k) :
    ∃ rest, ops.Perm (⟨k, none⟩ :: rest) ∧ (ops.finish i k r).Perm (⟨k, some r⟩ :: rest) := by
  obtain ⟨hi, hget⟩ := List.getElem?_eq_some_iff.mp (inProgress_eq_some.mp h)
  refine ⟨ops.eraseIdx i, ?_, List.set_perm_cons_eraseIdx hi _⟩
  exact hget ▸ (List.getElem_cons_eraseIdx_perm hi).symm

/-- The others are as they were. -/
theorem finished_finish {ops : Operations κ ρ} {i j : Nat} {k : κ} (r : ρ)
    (hi : ops.inProgress i = some k) {x : κ × ρ} (hj : ops.finished j = some x) :
    (ops.finish i k r).finished j = some x := by
  have hne : i ≠ j := by
    intro heq
    subst heq
    have hget := inProgress_eq_some.mp hi
    rw [finished_eq_some.mp hj] at hget
    cases hget
  rw [finished_eq_some] at hj ⊢
  unfold finish
  rw [List.getElem?_set_ne hne, hj]

theorem mem_start {ops : Operations κ ρ} {k : κ} {o : Operation κ ρ} :
    o ∈ ops.start k ↔ o ∈ ops ∨ o = ⟨k, none⟩ := by
  simp [start]

theorem mem_of_mem_finish {ops : Operations κ ρ} {i : Nat} {k : κ} {r : ρ}
    {o : Operation κ ρ} (h : o ∈ ops.finish i k r) : o ∈ ops ∨ o = ⟨k, some r⟩ :=
  List.mem_or_eq_of_mem_set h

theorem mem_of_mem_remove {ops : Operations κ ρ} {i : Nat} {o : Operation κ ρ}
    (h : o ∈ ops.remove i) : o ∈ ops :=
  List.mem_of_mem_eraseIdx h

theorem mem_of_mem_abort {ops : Operations κ ρ} {r : ρ} {o : Operation κ ρ}
    (h : o ∈ ops.abort r) : o ∈ ops ∨ (o.result = some r ∧ ⟨o.kind, none⟩ ∈ ops) := by
  obtain ⟨⟨k, _ | r'⟩, hmem, rfl⟩ := List.mem_map.mp h
  · exact Or.inr ⟨rfl, hmem⟩
  · exact Or.inl hmem

/-! ### What was asked for -/

@[simp] theorem kinds_nil : kinds ([] : Operations κ ρ) = [] := rfl

@[simp] theorem kinds_start (ops : Operations κ ρ) (k : κ) :
    (ops.start k).kinds = ops.kinds ++ [k] := by
  simp [kinds, start]

@[simp] theorem kinds_startDone (ops : Operations κ ρ) (k : κ) (r : ρ) :
    (ops.startDone k r).kinds = ops.kinds ++ [k] := by
  simp [kinds, startDone]

@[simp] theorem kinds_abort (ops : Operations κ ρ) (r : ρ) :
    (ops.abort r).kinds = ops.kinds := by
  unfold kinds abort
  rw [List.map_map]
  apply List.map_congr_left
  rintro ⟨k, _ | r'⟩ _ <;> rfl

theorem kinds_finish {ops : Operations κ ρ} {i : Nat} {k : κ} (r : ρ)
    (h : ops.inProgress i = some k) : (ops.finish i k r).kinds = ops.kinds := by
  have hget := inProgress_eq_some.mp h
  apply List.ext_getElem?
  intro j
  simp only [kinds, finish, List.map_set, List.getElem?_set, List.getElem?_map, List.length_map]
  by_cases hj : i = j
  · subst hj
    obtain ⟨hi, hk⟩ := List.getElem?_eq_some_iff.mp hget
    simp [hi, hk]
  · simp [hj]

theorem mem_kinds_of_finished {ops : Operations κ ρ} {i : Nat} {k : κ} {r : ρ}
    (h : ops.finished i = some (k, r)) : k ∈ ops.kinds :=
  List.mem_map.mpr ⟨_, mem_of_finished h, rfl⟩

theorem mem_kinds_of_remove {ops : Operations κ ρ} {i : Nat} {k : κ}
    (h : k ∈ (ops.remove i).kinds) : k ∈ ops.kinds := by
  obtain ⟨o, ho, rfl⟩ := List.mem_map.mp h
  exact List.mem_map.mpr ⟨o, mem_of_mem_remove ho, rfl⟩

theorem kinds_eq_nil {ops : Operations κ ρ} : ops.kinds = [] ↔ ops = [] := by
  simp [kinds]

/-- The only outstanding operation is the one whose handler is run. -/
theorem remove_of_kinds_singleton {ops : Operations κ ρ} {i : Nat} {k k' : κ} {r : ρ}
    (h : ops.finished i = some (k, r)) (hk : ops.kinds = [k']) :
    k = k' ∧ ops.remove i = [] := by
  have hperm := perm_remove h
  have hlen : (ops.remove i).length = 0 := by
    have h₁ := hperm.length_eq
    have h₂ : ops.kinds.length = 1 := by rw [hk]; rfl
    simp only [kinds, List.length_map] at h₂
    simp only [List.length_cons] at h₁
    omega
  have hmem : k ∈ ops.kinds := mem_kinds_of_finished h
  rw [hk, List.mem_singleton] at hmem
  exact ⟨hmem, List.eq_nil_of_length_eq_zero hlen⟩

/-! ### Counting -/

section count
variable (q : Operation κ ρ → Bool)

theorem countP_start (ops : Operations κ ρ) (k : κ) :
    (ops.start k).countP q = ops.countP q + if q ⟨k, none⟩ then 1 else 0 := by
  simp [start, List.countP_append, List.countP_cons]

theorem countP_startDone (ops : Operations κ ρ) (k : κ) (r : ρ) :
    (ops.startDone k r).countP q = ops.countP q + if q ⟨k, some r⟩ then 1 else 0 := by
  simp [startDone, List.countP_append, List.countP_cons]

theorem countP_remove {ops : Operations κ ρ} {i : Nat} {k : κ} {r : ρ}
    (h : ops.finished i = some (k, r)) :
    ops.countP q = (ops.remove i).countP q + if q ⟨k, some r⟩ then 1 else 0 := by
  rw [(perm_remove h).countP_eq, List.countP_cons]

theorem countP_finish {ops : Operations κ ρ} {i : Nat} {k : κ} (r : ρ)
    (h : ops.inProgress i = some k) (hq : q ⟨k, none⟩ = q ⟨k, some r⟩) :
    (ops.finish i k r).countP q = ops.countP q := by
  obtain ⟨rest, h₁, h₂⟩ := perm_finish r h
  rw [h₁.countP_eq, h₂.countP_eq, List.countP_cons, List.countP_cons, hq]

theorem countP_abort (ops : Operations κ ρ) (r : ρ)
    (hq : ∀ k, q ⟨k, some r⟩ = false) :
    (ops.abort r).countP q = ops.countP fun o => o.result.isSome && q o := by
  unfold abort
  rw [List.countP_map]
  apply List.countP_congr
  rintro ⟨k, _ | r'⟩ _ <;> simp [hq]

end count

end Operations

end Async
