import DeviceTester.Framework.Run
import Mathlib.Data.Finset.Max
import Mathlib.Data.Prod.Lex

/-! # Going through an ordered set that changes

  A loop over an ordered set keeps the place of one element, and looks for the
  next larger one when it goes on. Others may put elements into the set and take
  elements out of it meanwhile. As long as nobody takes out the element that the
  loop is at, the loop comes to each element that is there all the time, and to
  none twice (`Pass.Sound.over`).

  In a system whose steps change the set, such loops have an iterator that stays
  valid exactly as long as the steps spare the element it is at
  (`Loops.valid_iff`), and those that end have been through (`Loops.calls_all`).
  The elements are numbered, and ordered by something that need not tell them
  apart, such as an address that is used again.
-/

namespace Traversal

open LTS

universe u v w

structure Pass (K : Type u) where
  /-- Where the loop is, which is `⊤` at the end of the set. -/
  cursor : WithTop K
  /-- The loop has been through with the element at the cursor. -/
  visited : Bool
  /-- The elements the loop has come to. -/
  passed : List K
  /-- The elements that have been in the set ever since the loop has begun. -/
  stayed : Finset K

namespace Pass

variable {K : Type u}

/-- The element at the cursor. -/
def current (p : Pass K) : Option K := p.cursor

theorem current_eq_some {p : Pass K} {k : K} : p.current = some k ↔ p.cursor = (k : WithTop K) :=
  Iff.rfl

variable [LinearOrder K]

def enter (s : Finset K) : Pass K where
  cursor := s.min
  visited := false
  passed := []
  stayed := s

def visit (p : Pass K) (k : K) : Pass K :=
  { p with visited := true, passed := p.passed ++ [k] }

/-- The next element is looked for in the set as it is by now. -/
def advance (p : Pass K) (s : Finset K) : Pass K :=
  { p with cursor := (s.filter fun k : K => p.cursor < k).min, visited := false }

/-- Somebody else has changed the set. -/
def change (p : Pass K) (s : Finset K) : Pass K := { p with stayed := p.stayed ∩ s }

/-- The cursor is at an element of the set, or at its end. -/
def Valid (p : Pass K) (s : Finset K) : Prop := ∀ k, p.current = some k → k ∈ s

/-- What is known of a loop over the set. -/
structure Sound (p : Pass K) (s : Finset K) : Prop where
  present : p.stayed ⊆ s
  ordered : p.passed.Pairwise (· < ·)
  behind : ∀ k ∈ p.passed, (k : WithTop K) < p.cursor ∨ p.visited = true ∧ (k : WithTop K) = p.cursor
  ahead : ∀ k ∈ p.stayed, k ∈ p.passed ∨ p.cursor ≤ k
  here : p.visited = true → ∃ k ∈ p.passed, (k : WithTop K) = p.cursor

variable {p : Pass K} {s s' : Finset K} {k : K}

/-! ### The cursor -/

theorem Valid.enter (s : Finset K) : (enter s).Valid s :=
  fun _ hk => Finset.mem_of_min hk

theorem Valid.advance (p : Pass K) (s : Finset K) : (p.advance s).Valid s := by
  intro k hk
  exact Finset.mem_of_mem_filter k (Finset.mem_of_min hk)

/-! ### The elements that the loop comes to -/

theorem Sound.enter (s : Finset K) : (enter s).Sound s where
  present := Finset.Subset.refl s
  ordered := List.Pairwise.nil
  behind := by
    intro k hk
    cases hk
  ahead := fun _ hk => Or.inr (Finset.min_le hk)
  here := by
    intro hvisited
    cases hvisited

theorem Sound.visit (h : p.Sound s) (hk : p.current = some k) (hnew : p.visited = false) :
    (p.visit k).Sound s where
  present := h.present
  ordered := by
    apply List.pairwise_append.mpr
    refine ⟨h.ordered, List.pairwise_singleton _ k, ?_⟩
    intro a ha b hb
    obtain rfl := List.mem_singleton.mp hb
    -- the loop has not been at the element, so the ones before are smaller
    rcases h.behind a ha with hlt | ⟨hvisited, _⟩
    · rw [current_eq_some.mp hk] at hlt
      exact WithTop.coe_lt_coe.mp hlt
    · rw [hnew] at hvisited
      cases hvisited
  behind := by
    intro a ha
    rcases List.mem_append.mp ha with hold | hlast
    · rcases h.behind a hold with hlt | ⟨hvisited, _⟩
      · exact Or.inl hlt
      · rw [hnew] at hvisited
        cases hvisited
    · obtain rfl := List.mem_singleton.mp hlast
      exact Or.inr ⟨rfl, hk.symm⟩
  ahead := by
    intro a ha
    rcases h.ahead a ha with hpassed | hle
    · exact Or.inl (List.mem_append_left _ hpassed)
    · exact Or.inr hle
  here := fun _ => ⟨k, List.mem_append_right _ (List.mem_singleton_self k), hk.symm⟩

/-- The next place is behind the one before. -/
theorem cursor_lt_advance (s : Finset K) (hk : p.current = some k) :
    p.cursor < (p.advance s).cursor := by
  show p.cursor < (s.filter fun a : K => p.cursor < a).min
  cases hmin : (s.filter fun a : K => p.cursor < a).min with
  | top =>
    rw [current_eq_some.mp hk]
    exact WithTop.coe_lt_top k
  | coe a => exact (Finset.mem_filter.mp (Finset.mem_of_min hmin)).2

theorem Sound.advance (h : p.Sound s) (hvisited : p.visited = true) : (p.advance s).Sound s where
  present := h.present
  ordered := h.ordered
  behind := by
    intro a ha
    obtain ⟨k, _, hk⟩ := h.here hvisited
    have hnext := cursor_lt_advance s (current_eq_some.mpr hk.symm)
    left
    rcases h.behind a ha with hlt | ⟨_, heq⟩
    · exact hlt.trans hnext
    · exact heq.trans_lt hnext
  ahead := by
    intro a ha
    rcases h.ahead a ha with hpassed | hle
    · exact Or.inl hpassed
    · rcases hle.eq_or_lt with heq | hlt
      · -- the loop has been at the element of the cursor
        obtain ⟨k, hpassed, hk⟩ := h.here hvisited
        rw [WithTop.coe_inj.mp (heq.symm.trans hk.symm)]
        exact Or.inl hpassed
      · exact Or.inr (Finset.min_le (Finset.mem_filter.mpr ⟨h.present ha, hlt⟩))
  here := by
    intro hnew
    cases hnew

theorem Sound.change (h : p.Sound s) (s' : Finset K) : (p.change s').Sound s' where
  present := Finset.inter_subset_right
  ordered := h.ordered
  behind := h.behind
  ahead := fun a ha => h.ahead a (Finset.mem_of_mem_inter_left ha)
  here := h.here

/-- **At the end** the loop has come to all that have stayed, to none of them
    twice. -/
theorem Sound.over (h : p.Sound s) (hend : p.current = none) :
    p.passed.Nodup ∧ ∀ k ∈ p.stayed, k ∈ p.passed := by
  constructor
  · exact h.ordered.imp fun hlt => hlt.ne
  · intro k hk
    rcases h.ahead k hk with hpassed | hle
    · exact hpassed
    · have htop : p.cursor = ⊤ := hend
      rw [htop] at hle
      exact absurd hle (WithTop.coe_lt_top k).not_ge

end Pass

/-! ### The places of numbered elements -/

abbrev Place := Nat ×ₗ Nat

def placeOf (rank : Nat → Nat) (n : Nat) : Place := toLex (rank n, n)

def Place.element (k : Place) : Nat := (ofLex k).2

def places (rank : Nat → Nat) (s : Finset Nat) : Finset Place := s.image (placeOf rank)

theorem placeOf_injective (rank : Nat → Nat) : Function.Injective (placeOf rank) := by
  intro n m heq
  exact congrArg Place.element heq

theorem mem_places {rank : Nat → Nat} {s : Finset Nat} {n : Nat} :
    placeOf rank n ∈ places rank s ↔ n ∈ s :=
  (placeOf_injective rank).mem_finset_image

theorem placeOf_element {rank : Nat → Nat} {s : Finset Nat} {k : Place} (hk : k ∈ places rank s) :
    placeOf rank k.element = k := by
  obtain ⟨n, _, rfl⟩ := Finset.mem_image.mp hk
  rfl

/-- An element is at its place. -/
theorem element_mem_iff {rank : Nat → Nat} {s s' : Finset Nat} {k : Place}
    (hk : k ∈ places rank s) : k ∈ places rank s' ↔ k.element ∈ s' := by
  have hmem : placeOf rank k.element ∈ places rank s' ↔ k.element ∈ s' := mem_places
  rwa [placeOf_element hk] at hmem

/-! ### Loops in a system -/

/-- A loop that somebody is in. -/
structure Loop (Body : Type w) where
  body : Body
  /-- What the elements are ordered by. -/
  rank : Nat → Nat
  pass : Pass Place

/-- The elements that the body has been run for. -/
def Loop.called {Body : Type w} (x : Loop Body) : List Nat := x.pass.passed.map Place.element

/-- The element has been in the set ever since the loop has begun. -/
def Loop.Stayed {Body : Type w} (x : Loop Body) (n : Nat) : Prop :=
  placeOf x.rank n ∈ x.pass.stayed

structure Looping (State : Type u) (Body : Type w) where
  state : State
  loop : Option (Loop Body)

inductive LoopLabel (Label : Type v) (Body : Type w) where
  /-- A step of the system. -/
  | other (l : Label)
  | enter (body : Body) (rank : Nat → Nat)
  /-- The body is run for the element at the iterator. -/
  | visit
  | advance
  | leave

/-- What the steps of a system do to a set that is gone through, and what the
    bodies of the loops do to the system. -/
structure Loops {State : Type u} {Label : Type v} (sys : System State Label) (Body : Type w) where
  set : State → Finset Nat
  /-- The steps that are taken while somebody is in a loop. -/
  concurrent : Label → Bool
  run : Body → State → Nat → Option State
  Inv : State → Prop
  /-- The step leaves the element in the set. -/
  spares : State → Label → Nat → Bool
  init : ∀ s, sys.init s → Inv s
  next : ∀ s l s', Inv s → sys.next s l = some s' → Inv s'
  stays_iff : ∀ s l s' n, Inv s → concurrent l = true → sys.next s l = some s' → n ∈ set s →
    (n ∈ set s' ↔ spares s l n = true)
  run_inv : ∀ b s n s', Inv s → run b s n = some s' → Inv s'
  run_set : ∀ b s n s', run b s n = some s' → set s' = set s

namespace Loops

variable {State : Type u} {Label : Type v} {Body : Type w} {sys : System State Label}
variable (L : Loops sys Body)

def places (x : Loop Body) (s : State) : Finset Place := Traversal.places x.rank (L.set s)

def change (s : State) (x : Loop Body) : Loop Body :=
  { x with pass := x.pass.change (L.places x s) }

def nextLooping (s : Looping State Body) : LoopLabel Label Body → Option (Looping State Body)
  | .other l =>
      if s.loop.isSome = true → L.concurrent l = true then
        (sys.next s.state l).map fun t => ⟨t, s.loop.map (L.change t)⟩
      else none
  | .enter body rank =>
      if s.loop.isNone = true then
        some { s with loop := some ⟨body, rank, .enter (Traversal.places rank (L.set s.state))⟩ }
      else none
  | .visit =>
      s.loop.bind fun x =>
        x.pass.current.bind fun k =>
          -- an iterator to an element that is gone must not be used
          if k ∈ L.places x s.state ∧ x.pass.visited = false then
            (L.run x.body s.state k.element).map fun t =>
              ⟨t, some { x with pass := x.pass.visit k }⟩
          else none
  | .advance =>
      s.loop.bind fun x =>
        x.pass.current.bind fun k =>
          if k ∈ L.places x s.state ∧ x.pass.visited = true then
            some { s with loop := some { x with pass := x.pass.advance (L.places x s.state) } }
          else none
  | .leave =>
      s.loop.bind fun x =>
        if x.pass.current.isNone = true then some { s with loop := none } else none

/-- The system, with a loop that is entered again and again. -/
def looping : System (Looping State Body) (LoopLabel Label Body) where
  init := fun s => sys.init s.state ∧ s.loop = none
  next := L.nextLooping

/-! What one step can do. -/

inductive Step (s : Looping State Body) : LoopLabel Label Body → Looping State Body → Prop
  | other {l : Label} {t : State} (hl : s.loop.isSome = true → L.concurrent l = true)
      (hn : sys.next s.state l = some t) : Step s (.other l) ⟨t, s.loop.map (L.change t)⟩
  | enter (body : Body) (rank : Nat → Nat) (hloop : s.loop = none) :
      Step s (.enter body rank)
        { s with loop := some ⟨body, rank, .enter (Traversal.places rank (L.set s.state))⟩ }
  | visit {x : Loop Body} {k : Place} {t : State} (hloop : s.loop = some x)
      (hk : x.pass.current = some k) (hmem : k ∈ L.places x s.state)
      (hnew : x.pass.visited = false) (hrun : L.run x.body s.state k.element = some t) :
      Step s .visit ⟨t, some { x with pass := x.pass.visit k }⟩
  | advance {x : Loop Body} {k : Place} (hloop : s.loop = some x) (hk : x.pass.current = some k)
      (hmem : k ∈ L.places x s.state) (hvisited : x.pass.visited = true) :
      Step s .advance { s with loop := some { x with
        pass := x.pass.advance (L.places x s.state) } }
  | leave {x : Loop Body} (hloop : s.loop = some x) (hend : x.pass.current = none) :
      Step s .leave { s with loop := none }

variable {L} {s s' : Looping State Body} {l : LoopLabel Label Body}

theorem step_of_next (hn : L.nextLooping s l = some s') : L.Step s l s' := by
  match l with
  | .other l =>
    obtain ⟨hl, hn⟩ := Option.ite_none_right_eq_some.mp hn
    obtain ⟨t, ht, rfl⟩ := Option.map_eq_some_iff.mp hn
    exact .other hl ht
  | .enter body rank =>
    obtain ⟨hloop, heq⟩ := Option.ite_none_right_eq_some.mp hn
    exact Option.some.inj heq ▸ .enter body rank (Option.isNone_iff_eq_none.mp hloop)
  | .visit =>
    obtain ⟨x, hloop, hn⟩ := Option.bind_eq_some_iff.mp hn
    obtain ⟨k, hk, hn⟩ := Option.bind_eq_some_iff.mp hn
    obtain ⟨⟨hmem, hnew⟩, hn⟩ := Option.ite_none_right_eq_some.mp hn
    obtain ⟨t, hrun, rfl⟩ := Option.map_eq_some_iff.mp hn
    exact .visit hloop hk hmem hnew hrun
  | .advance =>
    obtain ⟨x, hloop, hn⟩ := Option.bind_eq_some_iff.mp hn
    obtain ⟨k, hk, hn⟩ := Option.bind_eq_some_iff.mp hn
    obtain ⟨⟨hmem, hvisited⟩, heq⟩ := Option.ite_none_right_eq_some.mp hn
    exact Option.some.inj heq ▸ .advance hloop hk hmem hvisited
  | .leave =>
    obtain ⟨x, hloop, hn⟩ := Option.bind_eq_some_iff.mp hn
    obtain ⟨hend, heq⟩ := Option.ite_none_right_eq_some.mp hn
    exact Option.some.inj heq ▸ .leave hloop (Option.isNone_iff_eq_none.mp hend)

/-! The iterator. -/

/-- **(V)** The iterator of a loop is at an element of the set, or at its end. -/
def Valid (L : Loops sys Body) (s : Looping State Body) : Prop :=
  ∀ x, s.loop = some x → x.pass.Valid (L.places x s.state)

/-- The step leaves the element that a loop is at in the set. -/
def Spares (L : Loops sys Body) (s : Looping State Body) : LoopLabel Label Body → Prop
  | .other l => ∀ x k, s.loop = some x → x.pass.current = some k →
      L.spares s.state l k.element = true
  | _ => True

/-- What holds of a loop whatever the steps do. -/
structure LoopInv (L : Loops sys Body) (s : Looping State Body) : Prop where
  state : L.Inv s.state
  sound : ∀ x, s.loop = some x → x.pass.Sound (L.places x s.state)
  placed : ∀ x, s.loop = some x → ∀ k ∈ x.pass.passed, placeOf x.rank k.element = k

theorem LoopInv.init (h : L.looping.init s) : L.LoopInv s where
  state := L.init _ h.1
  sound := by
    intro x hx
    rw [h.2] at hx
    cases hx
  placed := by
    intro x hx
    rw [h.2] at hx
    cases hx

theorem LoopInv.next (h : L.LoopInv s) (hn : L.nextLooping s l = some s') : L.LoopInv s' := by
  cases step_of_next hn with
  | other hl ht =>
    refine ⟨L.next _ _ _ h.state ht, ?_, ?_⟩
    · intro y hy
      obtain ⟨x, hx, rfl⟩ := Option.map_eq_some_iff.mp hy
      exact (h.sound x hx).change _
    · intro y hy
      obtain ⟨x, hx, rfl⟩ := Option.map_eq_some_iff.mp hy
      exact h.placed x hx
  | enter body rank hloop =>
    refine ⟨h.state, ?_, ?_⟩
    · intro x hx
      obtain rfl := Option.some.inj hx
      exact Pass.Sound.enter _
    · intro x hx k hk
      obtain rfl := Option.some.inj hx
      cases hk
  | @visit x k t hloop hk hmem hnew hrun =>
    refine ⟨L.run_inv _ _ _ _ h.state hrun, ?_, ?_⟩
    · intro y hy
      obtain rfl := Option.some.inj hy
      have hset : L.places { x with pass := x.pass.visit k } t = L.places x s.state := by
        unfold places
        rw [L.run_set _ _ _ _ hrun]
      rw [hset]
      exact (h.sound x hloop).visit hk hnew
    · intro y hy a ha
      obtain rfl := Option.some.inj hy
      rcases List.mem_append.mp ha with hold | hlast
      · exact h.placed x hloop a hold
      · obtain rfl := List.mem_singleton.mp hlast
        exact placeOf_element hmem
  | @advance x k hloop hk hmem hvisited =>
    refine ⟨h.state, ?_, ?_⟩
    · intro y hy
      obtain rfl := Option.some.inj hy
      exact (h.sound x hloop).advance hvisited
    · intro y hy
      obtain rfl := Option.some.inj hy
      exact h.placed x hloop
  | leave =>
    refine ⟨h.state, ?_, ?_⟩
    · intro y hy
      cases hy
    · intro y hy
      cases hy

theorem valid_of_no_loop (h : s.loop = none) : L.Valid s := by
  intro x hx
  rw [h] at hx
  cases hx

/-- A loop moves its iterator to elements of the set, so it is for the other
    steps to keep it valid. -/
theorem valid_next (hinv : L.Inv s.state) (h : L.Valid s) (hn : L.nextLooping s l = some s') :
    L.Valid s' ↔ L.Spares s l := by
  cases step_of_next hn with
  | @other l t hl ht =>
    -- the element at the iterator is there before the step
    have hstays : ∀ x k, s.loop = some x → x.pass.current = some k →
        (k ∈ L.places x t ↔ L.spares s.state l k.element = true) := by
      intro x k hx hk
      have hmem := h x hx k hk
      have hset := (element_mem_iff hmem).mp hmem
      exact (element_mem_iff hmem).trans
        (L.stays_iff _ _ _ _ hinv (hl (by rw [hx]; rfl)) ht hset)
    constructor
    · intro hvalid x k hx hk
      exact (hstays x k hx hk).mp (hvalid (L.change t x) (by rw [hx]; rfl) k hk)
    · intro hspares y hy k hk
      obtain ⟨x, hx, rfl⟩ := Option.map_eq_some_iff.mp hy
      exact (hstays x k hx hk).mpr (hspares x k hx hk)
  | enter body rank hloop =>
    refine iff_of_true ?_ trivial
    intro x hx
    obtain rfl := Option.some.inj hx
    exact Pass.Valid.enter _
  | @visit x k t hloop hk hmem hnew hrun =>
    refine iff_of_true ?_ trivial
    intro y hy a ha
    obtain rfl := Option.some.inj hy
    unfold places
    rw [L.run_set _ _ _ _ hrun]
    exact h x hloop a ha
  | @advance x k hloop hk hmem hvisited =>
    refine iff_of_true ?_ trivial
    intro y hy
    obtain rfl := Option.some.inj hy
    exact Pass.Valid.advance _ _
  | leave => exact iff_of_true (valid_of_no_loop rfl) trivial

/-- **Iterators stay valid** throughout a run exactly when no step takes out the
    element that a loop is at. -/
theorem valid_iff (r : Run L.looping s) : r.Throughout L.Valid ↔ r.EachStep L.Spares := by
  apply r.throughout_iff (I := fun s => L.Inv s.state ∧ L.Valid s)
  · intro s hs
    exact ⟨L.init _ hs.1, valid_of_no_loop hs.2⟩
  · intro s h
    exact h.2
  · intro s l s' h hspares hn
    refine ⟨?_, (valid_next h.1 h.2 hn).mpr hspares⟩
    cases step_of_next hn with
    | other hl ht => exact L.next _ _ _ h.1 ht
    | visit _ _ _ _ hrun => exact L.run_inv _ _ _ _ h.1 hrun
    | _ => exact h.1
  · intro s l s' h hn hvalid
    exact (valid_next h.1 h.2 hn).mp hvalid

/-! The elements. -/

/-- **(O)** A loop that is left has called its body for no element twice, and for
    each one that has been in the set all the time. -/
def CallsAll (s : Looping State Body) (l : LoopLabel Label Body) (_ : Looping State Body) : Prop :=
  match l with
  | .leave => ∀ x, s.loop = some x → x.called.Nodup ∧ ∀ n, x.Stayed n → n ∈ x.called
  | _ => True

theorem calls_all (r : Run L.looping s) : r.Ensures CallsAll := by
  apply r.ensures (I := L.LoopInv)
  · intro s hs
    exact .init hs
  · intro s l s' h hn
    exact h.next hn
  · intro s l s' h hn
    cases step_of_next hn with
    | @leave y hloop hend =>
      intro x hx
      obtain rfl := Option.some.inj (hx.symm.trans hloop)
      obtain ⟨hnodup, hall⟩ := (h.sound x hx).over hend
      constructor
      · -- the places tell the elements apart
        apply hnodup.map_on
        intro k hk k' hk' heq
        rw [← h.placed x hx k hk, ← h.placed x hx k' hk', heq]
      · intro n hn
        exact List.mem_map.mpr ⟨placeOf x.rank n, hall _ hn, rfl⟩
    | _ => trivial

end Loops

end Traversal
