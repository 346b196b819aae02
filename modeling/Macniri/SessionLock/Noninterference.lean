import Macniri.SessionLock.State

/-! Two sessions that differ only in what is hidden by the lock look the same while they are locked. -/
namespace Macniri.SessionLock

open Option HashMap

variable {ε τ : Type} {R : Renderer ε τ} {backend : Backend} {s t s' t' : Niri ε τ} {o : ℕ}

namespace OutputState

/-- Forget what is not part of a frame. -/
def shown (state : OutputState ε τ) : OutputState ε τ :=
  { state with redrawState := .idle, frame := none, redrawnInactive := false }

/-- Forget what was captured as well. -/
def uncaptured (state : OutputState ε τ) : OutputState ε τ :=
  { state.shown with screenTransition := none }

theorem shown_eq_iff {a b : OutputState ε τ} : a.shown = b.shown ↔
    a.output = b.output ∧ a.backdropBuffer = b.backdropBuffer ∧
      a.lockRenderState = b.lockRenderState ∧ a.lockSurface = b.lockSurface ∧
      a.lockColorBuffer = b.lockColorBuffer ∧ a.screenTransition = b.screenTransition := by
  unfold shown
  rw [OutputState.mk.injEq]
  simp

theorem shown_eq_of_uncaptured {a b : OutputState ε τ} (h : a.uncaptured = b.uncaptured)
    (ha : a.screenTransition = none) (hb : b.screenTransition = none) : a.shown = b.shown := by
  have ha' : a.uncaptured = a.shown := by
    unfold uncaptured
    rw [← ha]
    rfl
  have hb' : b.uncaptured = b.shown := by
    unfold uncaptured
    rw [← hb]
    rfl
  exact ha'.symm.trans (h.trans hb')

end OutputState

namespace Niri

/-- The two differ only in the session, in the history, and in what `view` forgets of the outputs. -/
structure AgreeOn (view : OutputState ε τ → OutputState ε τ) (s t : Niri ε τ) : Prop where
  outputs : ∀ o, (s.outputState.get o).map view = (t.outputState.get o).map view
  lockState : s.lockState = t.lockState
  monitorsActive : s.monitorsActive = t.monitorsActive
  deadLocks : s.deadLocks = t.deadLocks
  mapped : s.mapped = t.mapped
  clock : s.clock = t.clock
  previewRender : s.previewRender = t.previewRender
  debugDrawOpaqueRegions : s.debugDrawOpaqueRegions = t.debugDrawOpaqueRegions
  cursorImage : s.cursorImage = t.cursorImage
  overlay : s.overlay = t.overlay
  screenshotUi : s.screenshotUi = t.screenshotUi

/-- The session and the history differ. -/
abbrev Agree (s t : Niri ε τ) : Prop := AgreeOn OutputState.shown s t

/-- What was captured for the screen transitions may differ too. -/
abbrev AgreeUncaptured (s t : Niri ε τ) : Prop := AgreeOn OutputState.uncaptured s t

theorem outputs_of_mapValues {view : OutputState ε τ → OutputState ε τ}
    (h : s.outputState.mapValues view = t.outputState.mapValues view) (o : ℕ) :
    (s.outputState.get o).map view = (t.outputState.get o).map view := by
  rw [← get_mapValues, ← get_mapValues, h]

theorem AgreeOn.isLocked {view : OutputState ε τ → OutputState ε τ} (h : AgreeOn view s t) :
    s.isLocked = t.isLocked := by
  unfold Niri.isLocked
  rw [h.lockState]

theorem Agree.of_uncaptured (h : AgreeUncaptured s t)
    (hs : ∀ o state, s.outputState.get o = some state → state.screenTransition = none)
    (ht : ∀ o state, t.outputState.get o = some state → state.screenTransition = none) :
    Agree s t := by
  refine { h with outputs := fun o => ?_ }
  have hview := h.outputs o
  cases ha : s.outputState.get o with
  | none =>
    rw [ha, map_none, eq_comm, map_eq_none_iff] at hview
    rw [hview]
  | some a =>
    rw [ha, map_some, eq_comm] at hview
    obtain ⟨b, hb, hab⟩ := of_map hview
    rw [hb, map_some, map_some,
      OutputState.shown_eq_of_uncaptured hab.symm (hs o a ha) (ht o b hb)]

/-- An output of one of the two is an output of the other. -/
theorem Agree.get (h : Agree s t) {state : OutputState ε τ} (hs : s.outputState.get o = some state) :
    ∃ state', t.outputState.get o = some state' ∧ state.shown = state'.shown := by
  have hview := h.outputs o
  rw [hs, map_some, eq_comm] at hview
  obtain ⟨state', ht, hab⟩ := of_map hview
  exact ⟨state', ht, hab.symm⟩

theorem Agree.symm (h : Agree s t) : Agree t s :=
  ⟨fun o => (h.outputs o).symm, h.2.symm, h.3.symm, h.4.symm, h.5.symm, h.6.symm, h.7.symm,
    h.8.symm, h.9.symm, h.10.symm, h.11.symm⟩

/-- Changing every output in the same way keeps the agreement. -/
theorem outputs_mapEntries {f g : ℕ → OutputState ε τ → OutputState ε τ}
    {m n : HashMap ℕ (OutputState ε τ)}
    (h : ∀ o, (m.get o).map OutputState.shown = (n.get o).map OutputState.shown)
    (hfg : ∀ o a b, a.shown = b.shown → (f o a).shown = (g o b).shown) (o : ℕ) :
    ((m.mapEntries f).get o).map OutputState.shown =
      ((n.mapEntries g).get o).map OutputState.shown := by
  rw [get_mapEntries, get_mapEntries, Option.map_map, Option.map_map]
  have ho := h o
  cases ha : m.get o with
  | none =>
    rw [ha, map_none, eq_comm, map_eq_none_iff] at ho
    rw [ho]
    rfl
  | some a =>
    rw [ha, map_some, eq_comm] at ho
    obtain ⟨b, hb, hab⟩ := of_map ho
    rw [hb]
    exact congrArg some (hfg o a b hab.symm)

theorem outputs_mapValues {f g : OutputState ε τ → OutputState ε τ}
    {m n : HashMap ℕ (OutputState ε τ)}
    (h : ∀ o, (m.get o).map OutputState.shown = (n.get o).map OutputState.shown)
    (hfg : ∀ a b, a.shown = b.shown → (f a).shown = (g b).shown) (o : ℕ) :
    ((m.mapValues f).get o).map OutputState.shown =
      ((n.mapValues g).get o).map OutputState.shown := by
  have hmap := outputs_mapEntries (f := fun _ => f) (g := fun _ => g) h (fun _ => hfg) o
  simpa using hmap

theorem Agree.modifyOutput (h : Agree s t) {f g : OutputState ε τ → OutputState ε τ}
    (hfg : ∀ a b, a.shown = b.shown → (f a).shown = (g b).shown) :
    Agree (s.modifyOutput o f) (t.modifyOutput o g) := by
  refine { h with outputs := outputs_mapEntries h.outputs fun o' a b hab => ?_ }
  split_ifs
  · exact hfg a b hab
  · exact hab

theorem Agree.all (h : Agree s t) {p q : OutputState ε τ → Bool}
    (hpq : ∀ a b, a.shown = b.shown → p a = q b) :
    s.outputState.all p = t.outputState.all q := by
  rw [Bool.eq_iff_iff, HashMap.all_eq_true, HashMap.all_eq_true]
  constructor
  · intro hp o b hb
    obtain ⟨a, ha, hab⟩ := h.symm.get hb
    rw [← hpq a b hab.symm]
    exact hp o a ha
  · intro hq o a ha
    obtain ⟨b, hb, hab⟩ := h.get ha
    rw [hpq a b hab]
    exact hq o b hb

/-! Frames. -/

/-- While locked, a frame does not depend on the session. -/
theorem Agree.render (h : Agree s t) (hl : s.isLocked = true) (o : ℕ) (includePointer : Bool)
    (target : RenderTarget) :
    s.render R o includePointer target = t.render R o includePointer target := by
  have hl' : t.isLocked = true := h.isLocked ▸ hl
  unfold Niri.render
  cases ha : s.outputState.get o with
  | none =>
    have ho := h.outputs o
    rw [ha, map_none, eq_comm, map_eq_none_iff] at ho
    rw [ho]
    rfl
  | some a =>
    obtain ⟨b, hb, hab⟩ := h.get ha
    obtain ⟨houtput, -, -, hsurface, hcolor, htransition⟩ := OutputState.shown_eq_iff.mp hab
    rw [hb]
    simp only [some_bind, hl, hl', if_true, renderLocked, Niri.target,
      h.overlay, h.cursorImage, h.clock, h.previewRender, h.debugDrawOpaqueRegions, htransition,
      hsurface, hcolor, houtput]

theorem Agree.updateRenderElements (h : Agree s t) (output : Option ℕ) :
    Agree (s.updateRenderElements output) (t.updateRenderElements output) := by
  refine { h with outputs := outputs_mapEntries h.outputs fun o a b hab => ?_ }
  split_ifs
  · obtain ⟨houtput, hbackdrop, hrender, hsurface, hcolor, htransition⟩ :=
      OutputState.shown_eq_iff.mp hab
    refine OutputState.shown_eq_iff.mpr ⟨houtput, hbackdrop, hrender, hsurface, hcolor, ?_⟩
    rw [htransition, houtput]
  · exact hab

theorem Agree.capture (h : Agree s t) (hl : s.isLocked = true) {a b : OutputState ε τ}
    (hab : a.output = b.output)
    (f : ℕ → RenderTarget → List (OutputRenderElements ε τ) → Option τ) (o : ℕ) :
    s.capture R f o a = t.capture R f o b := by
  unfold Niri.capture
  simp only [h.render hl, hab]

/-- A transition that starts while locked captures only locked frames. -/
theorem Agree.doScreenTransition (h : Agree s t) (hl : s.isLocked = true)
    (f : ℕ → RenderTarget → List (OutputRenderElements ε τ) → Option τ) (delayMs : Option ℕ) :
    Agree (s.doScreenTransition R f delayMs) (t.doScreenTransition R f delayMs) := by
  have h' := h.updateRenderElements none
  have hl' : (s.updateRenderElements none).isLocked = true := hl
  refine { h' with outputs := outputs_mapEntries h'.outputs fun o a b hab => ?_ }
  obtain ⟨houtput, hbackdrop, hrender, hsurface, hcolor, htransition⟩ :=
    OutputState.shown_eq_iff.mp hab
  rw [h'.capture hl' houtput, h'.clock]
  split
  · exact hab
  · exact OutputState.shown_eq_iff.mpr ⟨houtput, hbackdrop, hrender, hsurface, hcolor, rfl⟩

theorem Agree.advanceAnimations (h : Agree s t) :
    Agree s.advanceAnimations t.advanceAnimations := by
  refine { h with outputs := outputs_mapValues h.outputs fun a b hab => ?_ }
  obtain ⟨houtput, hbackdrop, hrender, hsurface, hcolor, htransition⟩ :=
    OutputState.shown_eq_iff.mp hab
  refine OutputState.shown_eq_iff.mpr ⟨houtput, hbackdrop, hrender, hsurface, hcolor, ?_⟩
  rw [htransition, h.clock]

/-! The lock. -/

theorem Agree.queueRedrawAll (h : Agree s t) : Agree s.queueRedrawAll t.queueRedrawAll :=
  { h with outputs := outputs_mapValues h.outputs fun _ _ hab => hab }

theorem Agree.queueRedraw (h : Agree s t) : Agree (s.queueRedraw o) (t.queueRedraw o) :=
  h.modifyOutput fun _ _ hab => hab

theorem Agree.confirm (h : Agree s t) (confirmation : ExtSessionLock) :
    Agree (s.confirm confirmation) (t.confirm confirmation) :=
  { h with lockState := rfl }

theorem Agree.allLocked (h : Agree s t) : s.allLocked = t.allLocked := by
  refine h.all fun a b hab => ?_
  rw [(OutputState.shown_eq_iff.mp hab).2.2.1]

theorem Agree.closeScreenshotUi (h : Agree s t) :
    Agree s.closeScreenshotUi.2 t.closeScreenshotUi.2 :=
  { h with screenshotUi := rfl }

theorem Agree.setCursorImage (h : Agree s t) (image : CursorImageStatus) :
    Agree (s.setCursorImage image) (t.setCursorImage image) :=
  { h with cursorImage := rfl }

theorem Agree.lock (h : Agree s t) (hl : s.isLocked = true) (confirmation : ExtSessionLock) :
    Agree (s.lock confirmation) (t.lock confirmation) := by
  unfold Niri.isLocked at hl
  unfold Niri.lock
  rw [← h.lockState]
  cases hs : s.lockState with
  | unlocked => simp [hs] at hl
  | waitingForSurfaces confirmation token => simp [hs] at hl
  | locking confirmation => exact h
  | locked lock =>
    dsimp only
    rw [h.deadLocks]
    split_ifs
    · exact h.confirm confirmation
    · exact h

theorem Agree.unlock (h : Agree s t) : Agree s.unlock t.unlock := by
  refine Agree.queueRedrawAll { h with
    lockState := rfl
    outputs := outputs_mapValues h.outputs fun a b hab => ?_ }
  obtain ⟨houtput, hbackdrop, hrender, -, hcolor, htransition⟩ := OutputState.shown_eq_iff.mp hab
  exact OutputState.shown_eq_iff.mpr ⟨houtput, hbackdrop, hrender, rfl, hcolor, htransition⟩

theorem Agree.activateMonitors (h : Agree s t) : Agree s.activateMonitors t.activateMonitors := by
  unfold Niri.activateMonitors
  rw [← h.monitorsActive]
  split_ifs
  · exact h
  · exact Agree.queueRedrawAll { h with monitorsActive := rfl }

theorem Agree.newLockSurface (h : Agree s t) (surface : LockSurface) (o : ℕ) :
    Agree (s.newLockSurface surface o) (t.newLockSurface surface o) := by
  have haccept : ∀ lock : ExtSessionLock, Agree
      (if lock.client ≠ surface.client then s
        else s.modifyOutput o fun state => { state with lockSurface := some surface })
      (if lock.client ≠ surface.client then t
        else t.modifyOutput o fun state => { state with lockSurface := some surface }) := by
    intro lock
    split_ifs
    · exact h
    · refine h.modifyOutput fun a b hab => ?_
      obtain ⟨houtput, hbackdrop, hrender, -, hcolor, htransition⟩ := OutputState.shown_eq_iff.mp hab
      exact OutputState.shown_eq_iff.mpr ⟨houtput, hbackdrop, hrender, rfl, hcolor, htransition⟩
  unfold Niri.newLockSurface
  dsimp only
  rw [← h.lockState]
  split
  · exact h
  · exact haccept _
  · exact haccept _
  · exact haccept _

/-- While locked, nothing waits for surfaces. -/
theorem maybeContinueToLocking_of_locked (hl : s.isLocked = true) :
    s.maybeContinueToLocking = s := by
  unfold isLocked at hl
  unfold maybeContinueToLocking
  cases hs : s.lockState with
  | waitingForSurfaces confirmation token => simp [hs] at hl
  | unlocked => rfl
  | locking confirmation => rfl
  | locked lock => rfl

theorem continueToLocking_of_locked (hl : s.isLocked = true) : s.continueToLocking = s := by
  unfold isLocked at hl
  unfold continueToLocking
  cases hs : s.lockState with
  | waitingForSurfaces confirmation token => simp [hs] at hl
  | unlocked => rfl
  | locking confirmation => rfl
  | locked lock => rfl

theorem commitLockSurface_of_locked {surface : ℕ} {mapped : Bool} (hl : s.isLocked = true) :
    s.commitLockSurface surface mapped o = { s with
      mapped := if mapped then surface :: s.mapped else s.mapped.filter (· ≠ surface) }.queueRedraw
        o := by
  unfold isLocked at hl
  unfold commitLockSurface
  dsimp only
  cases hs : s.lockState with
  | waitingForSurfaces confirmation token => simp [hs] at hl
  | unlocked => rfl
  | locking confirmation => rfl
  | locked lock => rfl

theorem Agree.commitLockSurface (h : Agree s t) (hl : s.isLocked = true) (surface : ℕ)
    (mapped : Bool) (o : ℕ) :
    Agree (s.commitLockSurface surface mapped o) (t.commitLockSurface surface mapped o) := by
  rw [commitLockSurface_of_locked hl, commitLockSurface_of_locked (h.isLocked ▸ hl)]
  refine Agree.queueRedraw { h with mapped := ?_ }
  dsimp only
  rw [h.mapped]

theorem Agree.addOutput (h : Agree s t) (output : Output) :
    Agree (s.addOutput o output) (t.addOutput o output) := by
  refine Agree.queueRedraw { h with outputs := fun o' => ?_ }
  rw [get_insert, get_insert, h.isLocked]
  split_ifs
  · rfl
  · rfl
  · exact h.outputs o'

theorem Agree.checkRemoved (h : Agree s t) (hl : s.isLocked = true) :
    Agree s.checkRemoved t.checkRemoved := by
  unfold Niri.checkRemoved
  rw [← h.lockState, ← h.allLocked, maybeContinueToLocking_of_locked hl,
    maybeContinueToLocking_of_locked (h.isLocked ▸ hl)]
  split
  · split_ifs
    · exact h.confirm _
    · exact h
  · exact h

theorem Agree.removeOutput (h : Agree s t) (hl : s.isLocked = true) :
    Agree (s.removeOutput o) (t.removeOutput o) := by
  have hremoved : Agree { s with outputState := s.outputState.remove o }
      { t with outputState := t.outputState.remove o } := by
    refine { h with outputs := fun o' => ?_ }
    rw [get_remove, get_remove]
    split_ifs
    · rfl
    · exact h.outputs o'
  have hchecked := hremoved.checkRemoved hl
  have hopen := congrArg Option.isSome hchecked.screenshotUi
  unfold Niri.removeOutput
  dsimp only [Niri.closeScreenshotUi]
  rw [hopen]
  split_ifs
  · exact (hchecked.closeScreenshotUi.setCursorImage .defaultNamed).queueRedrawAll
  · exact hchecked.closeScreenshotUi

theorem Agree.outputResized (h : Agree s t) (output : Output) :
    Agree (s.outputResized o output) (t.outputResized o output) := by
  refine Agree.queueRedraw (h.modifyOutput fun a b hab => ?_)
  obtain ⟨-, hbackdrop, hrender, hsurface, hcolor, htransition⟩ := OutputState.shown_eq_iff.mp hab
  refine OutputState.shown_eq_iff.mpr ⟨rfl, ?_, hrender, hsurface, ?_, htransition⟩
  · rw [hbackdrop]
  · rw [hcolor]

/-! Redraws. -/

theorem Agree.beforeRender (h : Agree s t) (o now : ℕ) :
    Agree (s.beforeRender o now) (t.beforeRender o now) := by
  have hclock : Agree { s with clock := now } { t with clock := now } := { h with clock := rfl }
  exact hclock.updateRenderElements (some o)

theorem Agree.present (h : Agree s t) (elements elements' : List (OutputRenderElements ε τ)) :
    Agree (s.present o elements) (t.present o elements') :=
  h.modifyOutput fun _ _ hab => hab

theorem Agree.renderBackend {calls : WinitCalls} {r r' : Niri ε τ × RenderResult} (h : Agree s t)
    (hs : s.renderBackend R backend o calls = some r)
    (ht : t.renderBackend R backend o calls = some r') : Agree r.1 r'.1 ∧ r.2 = r'.2 := by
  cases backend with
  | winit =>
    obtain ⟨-, hs⟩ := ite_none_right_eq_some.mp hs
    obtain ⟨-, ht⟩ := ite_none_right_eq_some.mp ht
    obtain ⟨elements, -, rfl⟩ := of_map hs
    obtain ⟨elements', -, rfl⟩ := of_map ht
    split_ifs
    · exact ⟨h, rfl⟩
    · exact ⟨h, rfl⟩
    · exact ⟨h.present elements elements', rfl⟩
  | headless =>
    obtain ⟨a, -, hs⟩ := of_bind hs
    obtain ⟨b, -, ht⟩ := of_bind ht
    split at hs
    · split at ht
      · obtain rfl := some.inj hs
        obtain rfl := some.inj ht
        exact ⟨h.modifyOutput fun _ _ hab => hab, rfl⟩
      · cases ht
    · cases hs

theorem Agree.rendered (h : Agree s t) (res : RenderResult) :
    Agree (s.rendered o res) (t.rendered o res) := by
  refine h.modifyOutput fun a b hab => ?_
  obtain ⟨houtput, hbackdrop, hrender, hsurface, hcolor, htransition⟩ :=
    OutputState.shown_eq_iff.mp hab
  refine OutputState.shown_eq_iff.mpr ⟨houtput, hbackdrop, ?_, hsurface, hcolor, htransition⟩
  rw [h.isLocked, h.monitorsActive, hrender]

theorem Agree.checkLocking (h : Agree s t) : Agree (s.checkLocking o) (t.checkLocking o) := by
  unfold Niri.checkLocking
  rw [← h.lockState, ← h.allLocked]
  split
  · cases ha : s.outputState.get o with
    | none =>
      have ho := h.outputs o
      rw [ha, map_none, eq_comm, map_eq_none_iff] at ho
      rw [ho]
      exact h
    | some a =>
      obtain ⟨b, hb, hab⟩ := h.get ha
      rw [hb]
      dsimp only
      rw [← (OutputState.shown_eq_iff.mp hab).2.2.1]
      split_ifs
      · exact Agree.unlock { h with lockState := rfl }
      · exact h.confirm _
      · exact h
  · exact h

theorem Agree.redraw {now : ℕ} {calls : WinitCalls} (h : Agree s t)
    (hs : s.redraw R backend o now calls = some s') (ht : t.redraw R backend o now calls = some t') :
    Agree s' t' := by
  obtain ⟨a, -, hs⟩ := of_bind hs
  obtain ⟨b, -, ht⟩ := of_bind ht
  obtain ⟨-, hs⟩ := ite_none_right_eq_some.mp hs
  obtain ⟨-, ht⟩ := ite_none_right_eq_some.mp ht
  obtain ⟨⟨u, res⟩, hu, rfl⟩ := of_map hs
  obtain ⟨⟨v, res'⟩, hv, rfl⟩ := of_map ht
  have hbefore := h.beforeRender o now
  rw [← hbefore.monitorsActive] at hv
  have hrendered : Agree u v ∧ res = res' := by
    split_ifs at hu hv
    · exact hbefore.renderBackend hu hv
    · obtain ⟨rfl, rfl⟩ := pair_inj hu
      obtain ⟨rfl, rfl⟩ := pair_inj hv
      exact ⟨hbefore, rfl⟩
  obtain ⟨huv, rfl⟩ := hrendered
  exact (huv.rendered res).checkLocking

end Niri

/-! Steps and runs of two sessions at once. -/

/-- The same event, or an event of the session in both. -/
def Event.Agree (e e' : Event ε τ) : Prop :=
  e = e' ∨ ∃ session session', e = .session session ∧ e' = .session session'

namespace Niri

theorem Agree.step {e e' : Event ε τ} (h : Agree s t) (hl : s.isLocked = true) (he : e.Agree e')
    (hs : s.step R backend e = some s') (ht : t.step R backend e' = some t') : Agree s' t' := by
  rcases he with rfl | ⟨session, session', rfl, rfl⟩
  · cases e with
    | redraw o now calls => exact h.redraw hs ht
    | commitLockSurface surface mapped o =>
      obtain ⟨-, rfl⟩ := of_guard hs
      obtain ⟨-, rfl⟩ := of_guard ht
      exact h.commitLockSurface hl surface mapped o
    | deadline token =>
      obtain ⟨-, rfl⟩ := of_guard hs
      obtain ⟨-, rfl⟩ := of_guard ht
      rw [continueToLocking_of_locked hl, continueToLocking_of_locked (h.isLocked ▸ hl)]
      exact { h with }
    | addOutput o output =>
      obtain ⟨-, hs⟩ := ite_none_left_eq_some.mp hs
      obtain ⟨-, ht⟩ := ite_none_left_eq_some.mp ht
      obtain rfl := some.inj hs
      obtain rfl := some.inj ht
      exact h.addOutput output
    | removeOutput o =>
      obtain ⟨-, rfl⟩ := of_guard hs
      obtain ⟨-, rfl⟩ := of_guard ht
      exact h.removeOutput hl
    | outputResized o output =>
      obtain ⟨-, rfl⟩ := of_guard hs
      obtain ⟨-, rfl⟩ := of_guard ht
      exact h.outputResized output
    | queueRedraw o =>
      obtain ⟨-, rfl⟩ := of_guard hs
      obtain ⟨-, rfl⟩ := of_guard ht
      exact h.queueRedraw
    | lock confirmation =>
      obtain rfl := some.inj hs
      obtain rfl := some.inj ht
      exact h.lock hl confirmation
    | unlock =>
      obtain rfl := some.inj hs
      obtain rfl := some.inj ht
      exact h.unlock.activateMonitors
    | lockDied lock =>
      obtain rfl := some.inj hs
      obtain rfl := some.inj ht
      exact { h with deadLocks := congrArg (lock :: ·) h.deadLocks }
    | newLockSurface surface o =>
      obtain rfl := some.inj hs
      obtain rfl := some.inj ht
      exact h.newLockSurface surface o
    | deactivateMonitors =>
      obtain rfl := some.inj hs
      obtain rfl := some.inj ht
      exact { h with monitorsActive := rfl }
    | activateMonitors =>
      obtain rfl := some.inj hs
      obtain rfl := some.inj ht
      exact h.activateMonitors
    | doScreenTransition f delayMs =>
      obtain rfl := some.inj hs
      obtain rfl := some.inj ht
      exact h.doScreenTransition hl f delayMs
    | advanceAnimations now =>
      obtain rfl := some.inj hs
      obtain rfl := some.inj ht
      have hclock : Agree { s with clock := now } { t with clock := now } := { h with clock := rfl }
      exact hclock.advanceAnimations
    | openScreenshotUi ui =>
      obtain rfl := some.inj hs
      obtain rfl := some.inj ht
      unfold openScreenshotUi
      rw [← h.isLocked, hl]
      exact h
    | closeScreenshotUi =>
      obtain rfl := some.inj hs
      obtain rfl := some.inj ht
      rw [h.screenshotUi]
      split_ifs
      · exact (h.closeScreenshotUi.setCursorImage .defaultNamed).queueRedrawAll
      · exact h
    | overlay overlay cursorImage =>
      obtain rfl := some.inj hs
      obtain rfl := some.inj ht
      exact { h with overlay := rfl, cursorImage := rfl }
    | debug previewRender drawOpaqueRegions =>
      obtain rfl := some.inj hs
      obtain rfl := some.inj ht
      exact { h with previewRender := rfl, debugDrawOpaqueRegions := rfl }
    | session session =>
      obtain rfl := some.inj hs
      obtain rfl := some.inj ht
      exact { h with }
  · obtain rfl := some.inj hs
    obtain rfl := some.inj ht
    exact { h with }

/-- One step of each session. -/
def stepBoth (R : Renderer ε τ) (backend : Backend) (p : Niri ε τ × Niri ε τ)
    (e : Event ε τ × Event ε τ) : Option (Niri ε τ × Niri ε τ) :=
  (p.1.step R backend e.1).bind fun s => (p.2.step R backend e.2).map fun t => (s, t)

/-- While unlocked the sessions are independent, except that they lock at the same time and then agree on
all but windows and what was captured; while locked the same happens to both, except in the sessions. -/
def Alike (R : Renderer ε τ) (backend : Backend) (p : Niri ε τ × Niri ε τ)
    (e : Event ε τ × Event ε τ) : Prop :=
  if p.1.isLocked = true ∧ p.2.isLocked = true then e.1.Agree e.2
  else ∀ q, stepBoth R backend p e = some q →
    q.1.isLocked = q.2.isLocked ∧ (q.1.isLocked = true → AgreeUncaptured q.1 q.2)

/-- When the step locks the session, no output has a screen transition. -/
def LocksClear (R : Renderer ε τ) (backend : Backend) (s : Niri ε τ) (e : Event ε τ) : Prop :=
  s.isLocked = false → ∀ t, s.step R backend e = some t → t.isLocked = true →
    ∀ o state, t.outputState.get o = some state → state.screenTransition = none

/-- What relates the two sessions all along. -/
def Paired (p : Niri ε τ × Niri ε τ) : Prop :=
  p.1.isLocked = p.2.isLocked ∧ (p.1.isLocked = true → Agree p.1 p.2)

theorem paired_stepBoth {p q : Niri ε τ × Niri ε τ} {e : Event ε τ × Event ε τ} (h : Paired p)
    (he : Alike R backend p e ∧ LocksClear R backend p.1 e.1 ∧ LocksClear R backend p.2 e.2)
    (hq : stepBoth R backend p e = some q) : Paired q := by
  obtain ⟨halike, hclear, hclear'⟩ := he
  have hq' := hq
  obtain ⟨s, hs, hq⟩ := of_bind hq
  obtain ⟨t, ht, rfl⟩ := of_map hq
  unfold Alike at halike
  cases hl : p.1.isLocked with
  | true =>
    rw [if_pos ⟨hl, h.1 ▸ hl⟩] at halike
    have hagree := (h.2 hl).step hl halike hs ht
    exact ⟨hagree.isLocked, fun _ => hagree⟩
  | false =>
    rw [if_neg (by simp [hl])] at halike
    obtain ⟨hlocked, hagree⟩ := halike _ hq'
    refine ⟨hlocked, fun hl' => ?_⟩
    exact Agree.of_uncaptured (hagree hl') (hclear hl s hs hl')
      (hclear' (h.1 ▸ hl) t ht (hlocked ▸ hl'))

end Niri

/-- Two sessions that are clear of screen transitions whenever they lock show the same while locked, between
the steps and in every redraw. -/
theorem locked_frames_agree (R : Renderer ε τ) (backend : Backend) (s t : Niri ε τ)
    (es : List (Event ε τ × Event ε τ)) (s' t' : Niri ε τ) (hs : s.isLocked = false)
    (ht : t.isLocked = false)
    (hes : AllAlong (Niri.stepBoth R backend) (fun p e => Niri.Alike R backend p e ∧
      Niri.LocksClear R backend p.1 e.1 ∧ Niri.LocksClear R backend p.2 e.2) (s, t) es)
    (hrun : run (Niri.stepBoth R backend) (s, t) es = some (s', t')) :
    s'.isLocked = t'.isLocked ∧ (s'.isLocked = true → ∀ o includePointer target,
      s'.render R o includePointer target = t'.render R o includePointer target ∧
      ∀ now, (s'.beforeRender o now).render R o includePointer target =
        (t'.beforeRender o now).render R o includePointer target) := by
  have hstart : Niri.Paired (s, t) := ⟨hs.trans ht.symm, fun h => absurd h (by simp [hs])⟩
  have hpaired : Niri.Paired (s', t') :=
    run_invariant_of_allAlong (I := Niri.Paired) (fun _ _ _ h he hq => Niri.paired_stepBoth h he hq)
      hstart hes hrun
  refine ⟨hpaired.1, fun hl o includePointer target => ?_⟩
  have hagree := hpaired.2 hl
  exact ⟨hagree.render hl o includePointer target,
    fun now => (hagree.beforeRender o now).render hl o includePointer target⟩

section Example

/-- Nothing but the windows is drawn. -/
def bareOverlay : Overlay ℕ ℕ where
  pointerElement _ _ := []
  exitConfirmDialog _ := []
  configErrorNotification _ := none
  surfaceTree _ _ := []

def bareRenderer : Renderer ℕ ℕ where
  regions _ _ := none
  scaleRelocateCrop element _ _ _ := some element

def bareOutput : Output := ⟨1, ⟨0, false⟩, (1, 1), (0, 0, 0, 1)⟩

/-- A session with one window on its workspace. -/
def windowSession : Session ℕ ℕ :=
  { Session.empty ℕ ℕ with monitorElements := fun _ _ => [(⟨(0, 0), (1, 1)⟩, 0, [1])] }

/-- The texture is as telling as the number of elements. -/
def countElements : ℕ → RenderTarget → List (OutputRenderElements ℕ ℕ) → Option ℕ :=
  fun _ _ elements => some elements.length

/-- The session starts a screen transition with a delay of two seconds, and is locked within it: the
deadline is a second after the request. -/
def transitionRun (session : Session ℕ ℕ) : List (Event ℕ ℕ) :=
  [.session session, .addOutput 0 bareOutput, .doScreenTransition countElements (some 2000),
    .lock ⟨0, 0⟩, .advanceAnimations 1000000000, .deadline 0]

/-- The texture of the element on top. -/
def shownTexture (elements : Option (List (OutputRenderElements ℕ ℕ))) : Option ℕ :=
  (elements.bind List.head?).bind fun
    | .texture element => some element.buffer.texture
    | _ => none

/-- What the states at the end of these runs have in common. -/
structure JustLocked (s : Niri ℕ ℕ) : Prop where
  lockState : s.lockState = .locking ⟨0, 0⟩
  monitorsActive : s.monitorsActive = true
  deadLocks : s.deadLocks = []
  mapped : s.mapped = []
  clock : s.clock = 1000000000
  previewRender : s.previewRender = none
  debugDrawOpaqueRegions : s.debugDrawOpaqueRegions = false
  cursorImage : s.cursorImage = .defaultNamed
  overlay : s.overlay = bareOverlay
  screenshotUi : s.screenshotUi = none

theorem JustLocked.agree {s t : Niri ℕ ℕ} (hs : JustLocked s) (ht : JustLocked t)
    (h : s.outputState.mapValues OutputState.uncaptured =
      t.outputState.mapValues OutputState.uncaptured) : Niri.AgreeUncaptured s t :=
  ⟨Niri.outputs_of_mapValues h, hs.1.trans ht.1.symm, hs.2.trans ht.2.symm, hs.3.trans ht.3.symm,
    hs.4.trans ht.4.symm, hs.5.trans ht.5.symm, hs.6.trans ht.6.symm, hs.7.trans ht.7.symm,
    hs.8.trans ht.8.symm, hs.9.trans ht.9.symm, hs.10.trans ht.10.symm⟩

theorem uncaptured_mapValues {f : OutputState ε τ → OutputState ε τ} (m : HashMap ℕ (OutputState ε τ))
    (hf : ∀ state, (f state).uncaptured = state.uncaptured) :
    (m.mapValues f).mapValues OutputState.uncaptured = m.mapValues OutputState.uncaptured := by
  refine HashMap.ext_get fun o => ?_
  rw [get_mapValues, get_mapValues, get_mapValues, map_map]
  exact congrArg (fun view => (m.get o).map view) (funext hf)

theorem uncaptured_continueToLocking (s : Niri ε τ) :
    s.continueToLocking.outputState.mapValues OutputState.uncaptured =
      s.outputState.mapValues OutputState.uncaptured := by
  unfold Niri.continueToLocking
  split
  · dsimp only
    split
    · rfl
    · exact uncaptured_mapValues _ fun _ => rfl
  · rfl

/-- The frame of the locked session still shows how many windows there were. -/
theorem locked_frame_shows_session :
    ∃ s t, run (Niri.step bareRenderer .winit) (.new bareOverlay (.empty ℕ ℕ))
        (transitionRun windowSession) = some s ∧
      run (Niri.step bareRenderer .winit) (.new bareOverlay (.empty ℕ ℕ))
        (transitionRun (.empty ℕ ℕ)) = some t ∧
      s.isLocked = true ∧ t.isLocked = true ∧ Niri.AgreeUncaptured s t ∧
      s.render bareRenderer 0 true .output ≠ t.render bareRenderer 0 true .output := by
  refine ⟨_, _, rfl, rfl, rfl, rfl, ?_, fun h => ?_⟩
  · refine JustLocked.agree ⟨rfl, rfl, rfl, rfl, rfl, rfl, rfl, rfl, rfl, rfl⟩
      ⟨rfl, rfl, rfl, rfl, rfl, rfl, rfl, rfl, rfl, rfl⟩ ?_
    have hsame (s : Niri ℕ ℕ) :
        s.advanceAnimations.continueToLocking.outputState.mapValues OutputState.uncaptured =
          s.outputState.mapValues OutputState.uncaptured :=
      (uncaptured_continueToLocking _).trans (uncaptured_mapValues _ fun _ => rfl)
    refine (hsame _).trans ?_
    refine Eq.trans ?_ (hsame _).symm
    rfl
  · have hshown := congrArg shownTexture h
    change some 3 = some 1 at hshown
    cases hshown

/-- Two sessions that are locked with no transition under way. -/
def lockBoth : List (Event ℕ ℕ × Event ℕ ℕ) :=
  [(.addOutput 0 bareOutput, .addOutput 0 bareOutput), (.lock ⟨0, 0⟩, .lock ⟨0, 0⟩),
    (.advanceAnimations 1000000000, .advanceAnimations 1000000000), (.deadline 0, .deadline 0)]

theorem locksClear_of_all {s t : Niri ℕ ℕ} {e : Event ℕ ℕ}
    (ht : s.step bareRenderer .winit e = some t)
    (hall : t.outputState.all (·.screenTransition.isNone) = true) :
    s.LocksClear bareRenderer .winit e := by
  intro _ u hu _ o state hget
  obtain rfl := some.inj (ht.symm.trans hu)
  exact isNone_iff_eq_none.mp (all_eq_true.mp hall o state hget)

theorem locked_frames_agree_plain :
    ∃ s' t', run (Niri.stepBoth bareRenderer .winit)
        (.new bareOverlay windowSession, .new bareOverlay (.empty ℕ ℕ)) lockBoth = some (s', t') ∧
      s'.isLocked = true ∧
      s'.render bareRenderer 0 true .output = t'.render bareRenderer 0 true .output := by
  refine ⟨_, _, rfl, rfl, ?_⟩
  refine ((locked_frames_agree bareRenderer .winit (.new bareOverlay windowSession)
    (.new bareOverlay (.empty ℕ ℕ)) lockBoth _ _ rfl rfl ?_ rfl).2 rfl 0 true .output).1
  refine ⟨⟨?_, locksClear_of_all rfl rfl, locksClear_of_all rfl rfl⟩, fun p hp => ?_⟩
  · intro q hq
    obtain rfl := some.inj hq
    exact ⟨rfl, fun h => nomatch h⟩
  obtain rfl := some.inj hp
  refine ⟨⟨?_, locksClear_of_all rfl rfl, locksClear_of_all rfl rfl⟩, fun p hp => ?_⟩
  · intro q hq
    obtain rfl := some.inj hq
    exact ⟨rfl, fun h => nomatch h⟩
  obtain rfl := some.inj hp
  refine ⟨⟨?_, locksClear_of_all rfl rfl, locksClear_of_all rfl rfl⟩, fun p hp => ?_⟩
  · intro q hq
    obtain rfl := some.inj hq
    exact ⟨rfl, fun h => nomatch h⟩
  obtain rfl := some.inj hp
  refine ⟨⟨?_, locksClear_of_all rfl rfl, locksClear_of_all rfl rfl⟩, fun _ _ => trivial⟩
  intro q hq
  obtain rfl := some.inj hq
  refine ⟨rfl, fun _ => ?_⟩
  exact JustLocked.agree ⟨rfl, rfl, rfl, rfl, rfl, rfl, rfl, rfl, rfl, rfl⟩
    ⟨rfl, rfl, rfl, rfl, rfl, rfl, rfl, rfl, rfl, rfl⟩ rfl

end Example

end Macniri.SessionLock
