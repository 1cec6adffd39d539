import DeviceTester.LuaPlugin

/-! # The wrappers of a Lua plugin

  A wrapper of `plugins/lua_base/src/lua_plugin.cpp` connects `onReceive` to its
  connection with a bare pointer to itself, and never disconnects it. What it
  posts has captured the same pointer. The wrapper itself belongs to the Lua
  state, as the value of a global variable.

  The connection may be there for longer: `connections_` of the plugin has it,
  and so has the window that `PluginManagerWin` registers for it. So a wrapper is
  called when it is not there any more, unless the script keeps all its
  wrappers, and the plugin is destroyed after the windows of its connections,
  with nothing left to be run (`wrappers_kept_iff`).
-/

namespace DeviceTester

open LTS

namespace LuaPlugin

/-- The wrapper that a handler has captured. -/
def Handler.wrapper : Handler → Nat
  | .callback c _ => c
  | .put c _ _ _ => c

/-! ### The plugin with who owns what -/

structure Loaded where
  impl : Impl
  /-- The plugin has not been destroyed. -/
  alive : Bool
  /-- The wrappers that have been destroyed. -/
  gone : Finset Nat
  /-- The connections that have a window. -/
  windows : Finset Nat

namespace Loaded

inductive Label where
  | plugin (l : LuaPlugin.Label)
  /-- Lua collects a wrapper that the script has let go of. -/
  | collect (c : Nat)
  /-- The window of a connection is deleted. -/
  | trash (c : Nat)
  /-- `~LuaPlugin`, called by the thread of the windows. -/
  | destroy

/-- The connections that the wrappers are for. -/
def all (s : Loaded) : Finset Nat := Finset.range s.impl.wrappers.length

/-- Who takes the step is there: a connection is as long as somebody has it. What
    has been posted is run in any case. -/
def takes (s : Loaded) : LuaPlugin.Label → Bool
  | .connection c _ => s.alive || decide (c ∈ s.windows)
  | .put _ c _ _ _ => s.alive && decide (c ∈ s.all) && decide (c ∉ s.gone)
  | .runNext _ _ _ => true
  | .lock .strand => true
  | .leave .strand => true
  | _ => s.alive

/-- `PluginManagerWin` registers all connections of a plugin that it has
    loaded. -/
def registerConnections (s : Loaded) : LuaPlugin.Label → Finset Nat
  | .constructed => s.all
  | _ => s.windows

def next (s : Loaded) : Label → Option Loaded
  | .plugin l =>
      if s.takes l then
        (s.impl.next l).map fun impl =>
          { s with impl := impl, windows := s.registerConnections l }
      else none
  | .collect c =>
      if s.alive = true ∧ (s.impl.inLua .gui || s.impl.inLua .strand) = true ∧ c ∈ s.all ∧
          c ∉ s.gone then
        some { s with gone := insert c s.gone }
      else none
  | .trash c => if c ∈ s.windows then some { s with windows := s.windows.erase c } else none
  | .destroy =>
      if s.alive = true ∧ s.impl.constructing = false ∧ s.impl.drawing = .outside then
        some { s with alive := false, gone := s.all }
      else none

end Loaded

def loaded : System Loaded Loaded.Label where
  init := fun s => s = ⟨new, true, ∅, ∅⟩
  next := Loaded.next

namespace Loaded

/-! ### The property -/

/-- The slot of the wrapper is connected, or something that it has posted is
    still to be run. -/
def MayCall (s : Loaded) (c : Nat) : Prop :=
  (c ∈ s.all ∧ (s.alive = true ∨ c ∈ s.windows)) ∨ (∃ h ∈ s.impl.strand, h.wrapper = c) ∨
    ∃ arguments, s.impl.running = .waiting c arguments

/-- **(L)** A wrapper that may be called is there, and so is the Lua state that a
    callback runs in. -/
structure Kept (s : Loaded) : Prop where
  called : ∀ c, s.MayCall c → c ∉ s.gone
  lua : s.impl.running = .inside → s.alive = true

/-- No wrapper is collected, and the plugin is destroyed when no window has one of
    its connections and nothing is posted or running. -/
def KeepsWrappers (s : Loaded) : Label → Prop
  | .collect _ => False
  | .destroy => s.windows = ∅ ∧ s.impl.strand = [] ∧ s.impl.running = .idle
  | _ => True

/-! ### One step -/

structure Inv (s : Loaded) : Prop where
  posted : ∀ h ∈ s.impl.strand, h.wrapper ∈ s.all
  waiting : ∀ c arguments, s.impl.running = .waiting c arguments → c ∈ s.all
  listed : s.windows ⊆ s.all
  /-- As long as the plugin is there, so are its wrappers. -/
  held : s.alive = true → s.gone = ∅
  /-- When it has been destroyed nothing is left. -/
  left : s.alive = false → s.windows = ∅ ∧ s.impl.strand = [] ∧ s.impl.running = .idle

variable {s s' : Loaded} {l : Label}

theorem Inv.new : Inv ⟨LuaPlugin.new, true, ∅, ∅⟩ where
  posted := by
    intro h hh
    cases hh
  waiting := by
    intro c arguments hr
    cases hr
  listed := Finset.empty_subset _
  held := fun _ => rfl
  left := by
    intro h
    cases h

theorem Inv.kept (h : s.Inv) : s.Kept := by
  cases halive : s.alive with
  | true =>
    refine ⟨fun c _ => ?_, fun _ => halive⟩
    rw [h.held halive]
    exact Finset.notMem_empty c
  | false =>
    obtain ⟨hwindows, hstrand, hidle⟩ := h.left halive
    constructor
    · intro c hcall
      rcases hcall with ⟨_, hthere⟩ | ⟨x, hx, _⟩ | ⟨arguments, hr⟩
      · rw [halive, hwindows] at hthere
        simp at hthere
      · rw [hstrand] at hx
        cases hx
      · rw [hidle] at hr
        cases hr
    · intro hinside
      rw [hidle] at hinside
      cases hinside

/-- A wrapper posts for itself. -/
theorem wrapper_of_onReceive {c : Nat} {w : Wrapper} {k : Connection} {h : Handler}
    (hmem : h ∈ Impl.onReceive c w k) : h.wrapper = c := by
  unfold Impl.onReceive at hmem
  split at hmem
  · obtain ⟨arguments, _, rfl⟩ := List.mem_map.mp hmem
    rfl
  · cases hmem

/-- A step of a plugin that is there. -/
theorem Inv.steps (h : s.Inv) {impl : Impl} {windows : Finset Nat} (halive : s.alive = true)
    (hall : s.impl.wrappers.length ≤ impl.wrappers.length)
    (hposted : ∀ x ∈ impl.strand, x ∈ s.impl.strand ∨
      x.wrapper ∈ Finset.range impl.wrappers.length)
    (hwaiting : ∀ c arguments, impl.running = .waiting c arguments →
      s.impl.running = .waiting c arguments ∨ c ∈ Finset.range impl.wrappers.length)
    (hlisted : windows ⊆ Finset.range impl.wrappers.length) :
    Inv { s with impl := impl, windows := windows } := by
  have hsub : s.all ⊆ Finset.range impl.wrappers.length := Finset.range_subset_range.mpr hall
  refine ⟨?_, ?_, hlisted, h.held, ?_⟩
  · intro x hx
    rcases hposted x hx with hold | hnew
    · exact hsub (h.posted x hold)
    · exact hnew
  · intro c arguments hr
    rcases hwaiting c arguments hr with hold | hnew
    · exact hsub (h.waiting c arguments hold)
    · exact hnew
  · intro hdead
    have hdead' : s.alive = false := hdead
    rw [halive] at hdead'
    cases hdead'

/-- Nothing is done any more when the plugin has been destroyed. -/
theorem Inv.ended (h : s.Inv) {l : LuaPlugin.Label} {impl : Impl} (hdead : s.alive = false)
    (htakes : s.takes l = true) : s.impl.next l ≠ some impl := by
  intro hn
  obtain ⟨hwindows, hstrand, hidle⟩ := h.left hdead
  cases Impl.step_of_next hn with
  | connection hw hk =>
    simp only [takes, hdead, hwindows] at htakes
    simp at htakes
  | callback hr hs =>
    rw [hstrand] at hs
    cases hs
  | request hr hs hw hk =>
    rw [hstrand] at hs
    cases hs
  | lockStrand hr hm =>
    rw [hidle] at hr
    cases hr
  | leaveStrand hr =>
    rw [hidle] at hr
    cases hr
  | put ha => simp [takes, hdead] at htakes
  | _ =>
    rw [show s.alive = true from htakes] at hdead
    cases hdead

theorem Inv.plugin (h : s.Inv) {l : LuaPlugin.Label} {impl : Impl} (htakes : s.takes l = true)
    (hn : s.impl.next l = some impl) :
    Inv { s with impl := impl, windows := s.registerConnections l } := by
  have halive : s.alive = true := by
    by_contra hdead
    exact h.ended (Bool.eq_false_of_not_eq_true hdead) htakes hn
  have hmoved : ∀ {c : Nat} {w : Wrapper} {k : Connection} {t : Impl}, t.wrappers = s.impl.wrappers →
      (t.moved c w k).wrappers.length = s.impl.wrappers.length := by
    intro c w k t ht
    show (t.wrappers.set c _).length = _
    rw [List.length_set, ht]
  cases Impl.step_of_next hn with
  | setupConnection hc =>
    refine h.steps halive ?_ (fun _ hx => Or.inl hx) (fun _ _ hr => Or.inl hr) ?_
    · simp
    · refine h.listed.trans (Finset.range_subset_range.mpr ?_)
      simp
  | constructed hc =>
    exact h.steps halive (Nat.le_refl _) (fun _ hx => Or.inl hx) (fun _ _ hr => Or.inl hr)
      (Finset.Subset.refl _)
  | @connection c l w k hw hk =>
    have hlength := hmoved (c := c) (w := w) (k := k) (t := s.impl) rfl
    have hc : c < s.impl.wrappers.length := (List.getElem?_eq_some_iff.mp hw).1
    refine h.steps halive (Nat.le_of_eq hlength.symm) ?_ (fun _ _ hr => Or.inl hr) ?_
    · intro x hx
      rw [hlength]
      rcases List.mem_append.mp hx with hold | hnew
      · exact Or.inl hold
      · rw [wrapper_of_onReceive hnew]
        exact Or.inr (Finset.mem_range.mpr hc)
    · rw [hlength]
      exact h.listed
  | @put a c id path data ha =>
    have hc : c ∈ s.all := by
      simp only [takes, Bool.and_eq_true, decide_eq_true_eq] at htakes
      exact htakes.1.2
    cases data with
    | none =>
      exact h.steps halive (Nat.le_refl _) (fun _ hx => Or.inl hx) (fun _ _ hr => Or.inl hr)
        h.listed
    | some data =>
      refine h.steps halive (Nat.le_refl _) ?_ (fun _ _ hr => Or.inl hr) h.listed
      intro x hx
      rcases List.mem_append.mp hx with hold | hnew
      · exact Or.inl hold
      · rw [List.mem_singleton.mp hnew]
        exact Or.inr hc
  | @callback token a token_added c arguments rest hr hs =>
    refine h.steps halive (Nat.le_refl _) ?_ ?_ h.listed
    · intro x hx
      left
      rw [hs]
      exact List.mem_cons_of_mem _ hx
    · intro c' arguments' hr'
      obtain ⟨rfl, _⟩ := Running.waiting.inj hr'
      right
      refine h.posted (.callback c arguments) ?_
      rw [hs]
      exact List.mem_cons_self
  | @request token a token_added c id path data rest w k hr hs hw hk =>
    have hlength := hmoved (c := c) (w := w) (k := k)
      (t := { s.impl with strand := rest }) rfl
    have hc : c < s.impl.wrappers.length := (List.getElem?_eq_some_iff.mp hw).1
    refine h.steps halive (Nat.le_of_eq hlength.symm) ?_ (fun _ _ hr' => Or.inl hr') ?_
    · intro x hx
      rcases List.mem_append.mp hx with hold | hnew
      · left
        rw [hs]
        exact List.mem_cons_of_mem _ hold
      · rw [wrapper_of_onReceive hnew]
        exact Or.inr (Finset.mem_range.mpr (hlength.symm ▸ hc))
    · show s.windows ⊆ Finset.range (Impl.moved _ c w k).wrappers.length
      rw [hlength]
      exact h.listed
  | lockStrand hr hm =>
    refine h.steps halive (Nat.le_refl _) (fun _ hx => Or.inl hx) ?_ h.listed
    intro c arguments hr'
    cases hr'
  | leaveStrand hr =>
    refine h.steps halive (Nat.le_refl _) (fun _ hx => Or.inl hx) ?_ h.listed
    intro c arguments hr'
    cases hr'
  | drawGui =>
    exact h.steps halive (Nat.le_refl _) (fun _ hx => Or.inl hx) (fun _ _ hr => Or.inl hr) h.listed
  | lockGui =>
    exact h.steps halive (Nat.le_refl _) (fun _ hx => Or.inl hx) (fun _ _ hr => Or.inl hr) h.listed
  | leaveGui =>
    exact h.steps halive (Nat.le_refl _) (fun _ hx => Or.inl hx) (fun _ _ hr => Or.inl hr) h.listed

theorem Inv.next (h : s.Inv) (hC : s.KeepsWrappers l) (hn : s.next l = some s') : s'.Inv := by
  match l with
  | .plugin l =>
    obtain ⟨htakes, hn⟩ := Option.ite_none_right_eq_some.mp hn
    obtain ⟨impl, himpl, rfl⟩ := Option.map_eq_some_iff.mp hn
    exact h.plugin htakes himpl
  | .collect c => exact hC.elim
  | .trash c =>
    obtain ⟨hc, hn⟩ := Option.ite_none_right_eq_some.mp hn
    obtain rfl := Option.some.inj hn
    refine ⟨h.posted, h.waiting, (Finset.erase_subset _ _).trans h.listed, h.held, ?_⟩
    intro hdead
    rw [(h.left hdead).1] at hc
    exact absurd hc (Finset.notMem_empty c)
  | .destroy =>
    obtain ⟨_, hn⟩ := Option.ite_none_right_eq_some.mp hn
    obtain rfl := Option.some.inj hn
    refine ⟨h.posted, h.waiting, h.listed, ?_, fun _ => hC⟩
    intro halive
    cases halive

/-- A wrapper of a plugin that is there is called by its connection, and after the
    plugin by whoever is left. -/
theorem Inv.exact (h : s.Inv) (hn : s.next l = some s') (hkept : s'.Kept) :
    s.KeepsWrappers l := by
  match l with
  | .plugin _ => trivial
  | .trash _ => trivial
  | .collect c =>
    obtain ⟨⟨halive, _, hc, _⟩, hn⟩ := Option.ite_none_right_eq_some.mp hn
    obtain rfl := Option.some.inj hn
    exact hkept.called c (Or.inl ⟨hc, Or.inl halive⟩) (Finset.mem_insert_self _ _)
  | .destroy =>
    obtain ⟨_, hn⟩ := Option.ite_none_right_eq_some.mp hn
    obtain rfl := Option.some.inj hn
    refine ⟨?_, ?_, ?_⟩
    · apply Finset.eq_empty_of_forall_notMem
      intro c hc
      exact hkept.called c (Or.inl ⟨h.listed hc, Or.inr hc⟩) (h.listed hc)
    · apply List.eq_nil_iff_forall_not_mem.mpr
      intro x hx
      exact hkept.called x.wrapper (Or.inr (Or.inl ⟨x, hx, rfl⟩)) (h.posted x hx)
    · cases hr : s.impl.running with
      | idle => rfl
      | waiting c arguments =>
        exact absurd (h.waiting c arguments hr)
          (hkept.called c (Or.inr (Or.inr ⟨arguments, hr⟩)))
      | inside => exact absurd (hkept.lua hr) Bool.false_ne_true

end Loaded

/-! ### Every run -/

/-- **No wrapper is called that is not there any more**, and no callback is run
    without the Lua state, throughout a run exactly when the script keeps all its
    wrappers, and the plugin is destroyed after the windows of its connections,
    when nothing is posted and nothing running. -/
theorem wrappers_kept_iff {s : Loaded} (r : Run loaded s) :
    r.Throughout Loaded.Kept ↔ r.EachStep Loaded.KeepsWrappers := by
  apply r.throughout_iff (I := Loaded.Inv)
  · intro s hs
    exact hs ▸ .new
  · intro s h
    exact h.kept
  · intro s l s' h hC hn
    exact h.next hC hn
  · intro s l s' h hn hkept
    exact h.exact hn hkept

/-- The plugin is destroyed with its request outstanding, and the window keeps the
    client, which gets the response. -/
example : (loaded.exec ⟨new, true, ∅, ∅⟩
      [.plugin (.setupConnection ⟨"coap-client", "::1", 5683, "", 0, true⟩
          ⟨false, .notFound, .found false true⟩),
        .plugin (.put .gui 0 1 "led" (some [1])), .plugin .constructed,
        .plugin (.runNext [1] .granted true), .destroy,
        .plugin (.connection 0 (.coapClient (.message 0 true ⟨.ack, 69, [1], some [7], none⟩)))]).map
    (fun s => (s.gone, s.impl.strand)) = some ({0}, [.callback 0 (.response 1 [7])]) := by
  decide

end LuaPlugin

end DeviceTester
