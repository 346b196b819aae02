import Macniri.SessionLock.State
import Mathlib.Tactic.FinCases

/-! What is on the screens when the lock is confirmed. -/
namespace Macniri.SessionLock

open Option List HashMap

variable {ε τ : Type} {R : Renderer ε τ} {backend : Backend} {s t u : Niri ε τ} {o : ℕ}

namespace OutputState

/-- No frame was presented, or the last one was rendered while locked. -/
def ShowsLocked (state : OutputState ε τ) : Prop :=
  ∀ frame, state.frame = some frame → frame.locked = true

/-- The screen is locked, or the monitors were inactive when a locked frame was due. -/
def Covered (state : OutputState ε τ) : Prop := state.ShowsLocked ∨ state.redrawnInactive = true

/-- The lock render state and the history agree. -/
structure Same (state state' : OutputState ε τ) : Prop where
  lockRenderState : state'.lockRenderState = state.lockRenderState
  frame : state'.frame = state.frame
  redrawnInactive : state'.redrawnInactive = state.redrawnInactive

theorem Same.covered {state state' : OutputState ε τ} (h : state.Same state') (hc : state.Covered) :
    state'.Covered := by
  unfold Covered ShowsLocked
  rw [h.frame, h.redrawnInactive]
  exact hc

theorem Same.trans {a b c : OutputState ε τ} (h : a.Same b) (h' : b.Same c) : a.Same c :=
  ⟨h'.1.trans h.1, h'.2.trans h.2, h'.3.trans h.3⟩

end OutputState

namespace Niri

/-- The outputs of `t` are outputs of `s` with the same history, and `t` is locked only if `s` is. -/
structure Keeps (s t : Niri ε τ) : Prop where
  outputs : ∀ o state', t.outputState.get o = some state' →
    ∃ state, s.outputState.get o = some state ∧ state.Same state'
  locked : ∀ lock, t.lockState = .locked lock → s.lockState = .locked lock
  confirmed : t.confirmed = s.confirmed

theorem Keeps.refl (s : Niri ε τ) : Keeps s s :=
  ⟨fun _ state h => ⟨state, h, rfl, rfl, rfl⟩, fun _ h => h, rfl⟩

theorem Keeps.trans (h : Keeps s t) (h' : Keeps t u) : Keeps s u := by
  refine ⟨fun o state'' hget => ?_, fun lock hl => h.locked lock (h'.locked lock hl),
    h'.confirmed.trans h.confirmed⟩
  obtain ⟨state', hget', hsame'⟩ := h'.outputs o state'' hget
  obtain ⟨state, hget, hsame⟩ := h.outputs o state' hget'
  exact ⟨state, hget, hsame.trans hsame'⟩

theorem keeps_of_mapEntries (f : ℕ → OutputState ε τ → OutputState ε τ)
    (ht : t.outputState = s.outputState.mapEntries f)
    (hf : ∀ o state, OutputState.Same state (f o state))
    (hl : ∀ lock, t.lockState = .locked lock → s.lockState = .locked lock)
    (hc : t.confirmed = s.confirmed) : Keeps s t := by
  refine ⟨fun o state' hget => ?_, hl, hc⟩
  rw [ht, get_mapEntries] at hget
  obtain ⟨state, hstate, rfl⟩ := of_map hget
  exact ⟨state, hstate, hf o state⟩

theorem keeps_of_mapValues (f : OutputState ε τ → OutputState ε τ)
    (ht : t.outputState = s.outputState.mapValues f)
    (hf : ∀ state, OutputState.Same state (f state))
    (hl : ∀ lock, t.lockState = .locked lock → s.lockState = .locked lock)
    (hc : t.confirmed = s.confirmed) : Keeps s t := by
  refine ⟨fun o state' hget => ?_, hl, hc⟩
  rw [ht, get_mapValues] at hget
  obtain ⟨state, hstate, rfl⟩ := of_map hget
  exact ⟨state, hstate, hf state⟩

theorem keeps_modifyOutput {f : OutputState ε τ → OutputState ε τ}
    (hf : ∀ state, OutputState.Same state (f state)) : Keeps s (s.modifyOutput o f) := by
  refine keeps_of_mapEntries (fun o' state => if o' = o then f state else state) rfl
    (fun o' state => ?_) (fun _ h => h) rfl
  split_ifs
  · exact hf state
  · exact ⟨rfl, rfl, rfl⟩

theorem keeps_queueRedrawAll : Keeps s s.queueRedrawAll :=
  keeps_of_mapValues (fun state => { state with redrawState := state.redrawState.queueRedraw }) rfl
    (fun _ => ⟨rfl, rfl, rfl⟩) (fun _ h => h) rfl

theorem keeps_queueRedraw : Keeps s (s.queueRedraw o) :=
  keeps_modifyOutput fun _ => ⟨rfl, rfl, rfl⟩

theorem keeps_closeScreenshotUi : Keeps s (s.closeScreenshotUi.2.setCursorImage .defaultNamed) :=
  ⟨(Keeps.refl s).outputs, fun _ h => h, rfl⟩

/-- The screen transitions are not part of the lock. -/
theorem keeps_screenTransitions {g : ℕ → OutputState ε τ → Option (ScreenTransition τ)}
    (ht : ∀ o, t.outputState.get o =
      (s.outputState.get o).map fun state => { state with screenTransition := g o state })
    (hl : t.lockState = s.lockState) (hc : t.confirmed = s.confirmed) : Keeps s t := by
  refine ⟨fun o state' hget => ?_, fun _ h => hl ▸ h, hc⟩
  rw [ht] at hget
  obtain ⟨state, hstate, rfl⟩ := of_map hget
  exact ⟨state, hstate, rfl, rfl, rfl⟩

theorem keeps_updateRenderElements (output : Option ℕ) :
    Keeps s (s.updateRenderElements output) := by
  refine keeps_screenTransitions (g := fun o state =>
    if output.all (· = o) then
      state.screenTransition.map (·.updateRenderElements state.output.scale state.output.transform)
    else state.screenTransition) (fun o => ?_) rfl rfl
  unfold updateRenderElements
  rw [get_mapEntries]
  congr 1
  funext state
  split_ifs <;> rfl

theorem keeps_doScreenTransition
    {f : ℕ → RenderTarget → List (OutputRenderElements ε τ) → Option τ} {delayMs : Option ℕ} :
    Keeps s (s.doScreenTransition R f delayMs) := by
  refine (keeps_updateRenderElements none).trans ?_
  generalize hs : s.updateRenderElements none = s'
  refine keeps_screenTransitions (g := fun o state =>
    (s'.capture R f o state).elim state.screenTransition fun fromTexture =>
      some (.new fromTexture ((delayMs.map (· * 1000000)).getD DELAY) s'.clock)) (fun o => ?_) ?_ ?_
  all_goals unfold doScreenTransition; rw [hs]
  dsimp only
  rw [get_mapEntries]
  congr 1
  funext state
  cases s'.capture R f o state <;> rfl

theorem keeps_advanceAnimations : Keeps s s.advanceAnimations :=
  keeps_of_mapValues (fun state =>
    { state with screenTransition := state.screenTransition.filter (!·.isDone s.clock) }) rfl
    (fun _ => ⟨rfl, rfl, rfl⟩) (fun _ h => h) rfl

theorem keeps_activateMonitors : Keeps s s.activateMonitors := by
  unfold activateMonitors
  split_ifs
  · exact .refl s
  · have hactive : Keeps s { s with monitorsActive := true } :=
      ⟨(Keeps.refl s).outputs, fun _ h => h, rfl⟩
    exact hactive.trans keeps_queueRedrawAll

theorem keeps_openScreenshotUi {ui : ℕ → RenderTarget → List ε} : Keeps s (s.openScreenshotUi ui) := by
  unfold openScreenshotUi
  split_ifs
  · exact .refl s
  · have hopen : Keeps s ({ s with screenshotUi := some ui }.setCursorImage .crosshair) :=
      ⟨(Keeps.refl s).outputs, fun _ h => h, rfl⟩
    exact hopen.trans keeps_queueRedrawAll

theorem keeps_unlock : Keeps s s.unlock := by
  unfold unlock
  refine Keeps.trans ?_ keeps_queueRedrawAll
  exact keeps_of_mapValues (fun state => { state with lockSurface := none }) rfl
    (fun _ => ⟨rfl, rfl, rfl⟩) (fun _ h => nomatch h) rfl

theorem keeps_newLockSurface {surface : LockSurface} : Keeps s (s.newLockSurface surface o) := by
  have haccept : ∀ lock : ExtSessionLock, Keeps s (if lock.client ≠ surface.client then s
      else s.modifyOutput o fun state => { state with lockSurface := some surface }) := by
    intro lock
    split_ifs
    · exact .refl s
    · exact keeps_modifyOutput fun _ => ⟨rfl, rfl, rfl⟩
  unfold newLockSurface
  dsimp only
  split
  · exact .refl s
  · exact haccept _
  · exact haccept _
  · exact haccept _

/-! The invariant. -/

structure Inv (backend : Backend) (s : Niri ε τ) : Prop where
  covered : ∀ o state, s.outputState.get o = some state → state.lockRenderState = .locked →
    state.Covered
  locked : ∀ lock, s.lockState = .locked lock → ∀ o state, s.outputState.get o = some state →
    state.lockRenderState = .locked
  /-- The headless backend presents nothing. -/
  headless : backend = .headless → ∀ o state, s.outputState.get o = some state → state.frame = none
  confirmed : ∀ c ∈ s.confirmed, ∀ o state, c.outputs.get o = some state → state.Covered

theorem Inv.keep (hi : Inv backend s) (h : Keeps s t) : Inv backend t := by
  refine ⟨fun o state' hget hl => ?_, fun lock hlock o state' hget => ?_,
    fun hb o state' hget => ?_, h.confirmed ▸ hi.confirmed⟩
  all_goals obtain ⟨state, hstate, hsame⟩ := h.outputs o state' hget
  · exact hsame.covered (hi.covered o state hstate (hsame.lockRenderState ▸ hl))
  · rw [hsame.lockRenderState]
    exact hi.locked lock (h.locked lock hlock) o state hstate
  · rw [hsame.frame]
    exact hi.headless hb o state hstate

/-- The lock may be confirmed once every output shows a locked frame. -/
theorem Inv.confirm (hi : Inv backend s) (confirmation : ExtSessionLock)
    (hall : ∀ o state, s.outputState.get o = some state → state.lockRenderState = .locked) :
    Inv backend (s.confirm confirmation) := by
  refine ⟨hi.covered, fun _ _ => hall, hi.headless, fun c hc o state hget => ?_⟩
  rcases mem_append.mp hc with hc | hc
  · exact hi.confirmed c hc o state hget
  · obtain rfl := mem_singleton.mp hc
    exact hi.covered o state hget (hall o state hget)

theorem allLocked_iff : s.allLocked = true ↔
    ∀ o state, s.outputState.get o = some state → state.lockRenderState = .locked := by
  unfold allLocked
  rw [HashMap.all_eq_true]
  simp only [decide_eq_true_eq]

theorem locked_of_isEmpty (h : s.outputState.isEmpty = true) (o : ℕ) (state : OutputState ε τ)
    (hget : s.outputState.get o = some state) : state.lockRenderState = .locked := by
  rw [isEmpty_eq_true.mp h o] at hget
  cases hget

theorem inv_lock (hi : Inv backend s) (confirmation : ExtSessionLock) :
    Inv backend (s.lock confirmation) := by
  unfold lock
  split
  · exact hi
  · exact hi
  next l hl =>
    split_ifs
    -- A dead lock is replaced: the outputs have been locked since it was confirmed.
    · exact hi.confirm confirmation (hi.locked l hl)
    · exact hi
  · split_ifs with hempty
    · exact (hi.keep keeps_closeScreenshotUi).confirm confirmation (locked_of_isEmpty hempty)
    · exact hi.keep ⟨(Keeps.refl s).outputs, (fun _ h => nomatch h), rfl⟩

theorem inv_continueToLocking (hi : Inv backend s) : Inv backend s.continueToLocking := by
  unfold continueToLocking
  split
  next confirmation token hl =>
    have hi' : Inv backend ({ s with
        lockState := .unlocked
        timers := s.timers.filter (· ≠ token) }.closeScreenshotUi.2.setCursorImage .defaultNamed) :=
      hi.keep ⟨(Keeps.refl s).outputs, (fun _ h => nomatch h), rfl⟩
    dsimp only
    split_ifs with hempty
    · exact hi'.confirm confirmation (locked_of_isEmpty hempty)
    · refine Inv.keep (hi'.keep ?_) keeps_queueRedrawAll
      exact ⟨(Keeps.refl _).outputs, (fun _ h => nomatch h), rfl⟩
  · exact hi

theorem inv_maybeContinueToLocking (hi : Inv backend s) :
    Inv backend s.maybeContinueToLocking := by
  unfold maybeContinueToLocking
  split
  · dsimp only
    split_ifs
    · exact inv_continueToLocking hi
    · exact hi
  · exact hi

/-- An output on which nothing was presented may be added. -/
theorem Inv.insert (hi : Inv backend s) {state : OutputState ε τ} (hframe : state.frame = none)
    (hl : s.isLocked = true → state.lockRenderState = .locked) :
    Inv backend { s with outputState := s.outputState.insert o state } := by
  have hget : ∀ o' state', (s.outputState.insert o state).get o' = some state' →
      state' = state ∨ s.outputState.get o' = some state' := by
    intro o' state' h
    rw [get_insert] at h
    split_ifs at h
    · exact Or.inl (some.inj h).symm
    · exact Or.inr h
  refine ⟨fun o' state' h hlocked => ?_, fun lock hlock o' state' h => ?_, fun hb o' state' h => ?_,
    hi.confirmed⟩
  all_goals obtain rfl | h := hget o' state' h
  · refine Or.inl fun frame hf => ?_
    rw [hframe] at hf
    cases hf
  · exact hi.covered o' state' h hlocked
  · refine hl ?_
    unfold isLocked
    rw [show s.lockState = .locked lock from hlock]
  · exact hi.locked lock hlock o' state' h
  · exact hframe
  · exact hi.headless hb o' state' h

theorem inv_addOutput (hi : Inv backend s) (output : Output) :
    Inv backend (s.addOutput o output) :=
  (hi.insert rfl fun h => if_pos h).keep keeps_queueRedraw

theorem inv_commitLockSurface {surface : ℕ} {mapped : Bool} (hi : Inv backend s) :
    Inv backend (s.commitLockSurface surface mapped o) := by
  have hmapped : ∀ mapped, Inv backend { s with mapped } := fun _ =>
    hi.keep ⟨(Keeps.refl s).outputs, fun _ h => h, rfl⟩
  unfold commitLockSurface
  dsimp only
  split
  · exact inv_maybeContinueToLocking (hmapped _)
  · exact (hmapped _).keep keeps_queueRedraw

theorem keeps_removeOutput :
    Keeps s { s with outputState := s.outputState.remove o } := by
  refine ⟨fun o' state hget => ?_, fun _ h => h, rfl⟩
  rw [get_remove] at hget
  split_ifs at hget
  exact ⟨state, hget, rfl, rfl, rfl⟩

theorem inv_checkRemoved (hi : Inv backend s) : Inv backend s.checkRemoved := by
  unfold checkRemoved
  split
  · split_ifs with hall
    · exact hi.confirm _ (allLocked_iff.mp hall)
    · exact hi
  · exact inv_maybeContinueToLocking hi

theorem inv_removeOutput (hi : Inv backend s) : Inv backend (s.removeOutput o) := by
  have hchecked := inv_checkRemoved (hi.keep (keeps_removeOutput (o := o)))
  unfold removeOutput
  dsimp only
  split_ifs
  · exact (hchecked.keep keeps_closeScreenshotUi).keep keeps_queueRedrawAll
  · exact hchecked.keep ⟨(Keeps.refl _).outputs, fun _ h => h, rfl⟩

/-! Redraws. -/

/-- What a redraw leaves of an output, before the lock is checked. -/
theorem get_rendered {res : RenderResult} (o' : ℕ) (state : OutputState ε τ)
    (hget : (s.rendered o res).outputState.get o' = some state) :
    ∃ old, s.outputState.get o' = some old ∧ state.frame = old.frame ∧
      ((o' ≠ o ∧ state = old) ∨ (o' = o ∧
        state.redrawnInactive = (old.redrawnInactive || s.isLocked && !s.monitorsActive) ∧
        state.lockRenderState = (if res ≠ .skipped || !s.monitorsActive then
          if s.isLocked then .locked else .unlocked else old.lockRenderState))) := by
  change (s.outputState.mapEntries _).get o' = some state at hget
  rw [get_mapEntries] at hget
  obtain ⟨old, hold, rfl⟩ := of_map hget
  refine ⟨old, hold, ?_⟩
  by_cases heq : o' = o
  · rw [if_pos heq]
    exact ⟨rfl, Or.inr ⟨heq, rfl, rfl⟩⟩
  · rw [if_neg heq]
    exact ⟨rfl, Or.inl ⟨heq, rfl⟩⟩

/-- The lock render state of a redrawn output says `locked` only if a locked frame was presented, none was
ever presented, or the monitors are inactive. -/
theorem inv_rendered {res : RenderResult} (hi : Inv backend s)
    (hres : s.isLocked = true → res ≠ .skipped → ∀ state, s.outputState.get o = some state →
      state.ShowsLocked) :
    Inv backend (s.rendered o res) := by
  refine ⟨fun o' state hget hl => ?_, fun lock hlock o' state hget => ?_, fun hb o' state hget => ?_,
    hi.confirmed⟩
  all_goals obtain ⟨old, hold, hframe, ⟨hne, rfl⟩ | ⟨rfl, hinactive, hstate⟩⟩ := get_rendered o' state hget
  · exact hi.covered o' state hold hl
  · rw [hstate] at hl
    unfold OutputState.Covered OutputState.ShowsLocked
    rw [hframe, hinactive]
    cases hlocked : s.isLocked with
    | false =>
      simp only [hlocked, Bool.false_eq_true, if_false] at hl
      split_ifs at hl
      simpa [OutputState.Covered, OutputState.ShowsLocked] using hi.covered o' old hold hl
    | true =>
      by_cases hskip : res = .skipped
      · cases hactive : s.monitorsActive with
        | false => simp
        | true =>
          simp only [hskip, hactive, ne_eq, not_true_eq_false, decide_false, Bool.not_true,
            Bool.or_self, Bool.false_eq_true, if_false] at hl
          simpa [OutputState.Covered, OutputState.ShowsLocked] using hi.covered o' old hold hl
      · exact Or.inl (hres hlocked hskip old hold)
  · exact hi.locked lock hlock o' state hold
  · have hlocked : s.isLocked = true := by
      unfold isLocked
      rw [show s.lockState = .locked lock from hlock]
    rw [hstate, if_pos hlocked, hi.locked lock hlock o' old hold, ite_self]
  · exact hi.headless hb o' state hold
  · rw [hframe]
    exact hi.headless hb o' old hold

theorem inv_checkLocking (hi : Inv backend s) : Inv backend (s.checkLocking o) := by
  unfold checkLocking
  split
  · split
    · exact hi
    · split_ifs with hun hall
      · have hkeeps : Keeps s { s with lockState := .unlocked } :=
          ⟨(Keeps.refl s).outputs, (fun _ h => nomatch h), rfl⟩
        exact (hi.keep hkeeps).keep keeps_unlock
      · exact hi.confirm _ (allLocked_iff.mp hall)
      · exact hi
  · exact hi

/-- What a redraw with the monitors active leaves of an output. -/
theorem get_submitted {calls : WinitCalls} {elements : List (OutputRenderElements ε τ)} (o' : ℕ)
    (state : OutputState ε τ)
    (hget : ((if calls.presents then s.present o elements else s).rendered o
      .submitted).outputState.get o' = some state) :
    ∃ old, s.outputState.get o' = some old ∧ ((o' ≠ o ∧ state = old) ∨ (o' = o ∧
      state.lockRenderState = (if s.isLocked then .locked else .unlocked) ∧
      (calls.presents = true → state.frame = some ⟨elements, s.isLocked⟩))) := by
  obtain ⟨mid, hmid, hframe, hstate⟩ := get_rendered o' state hget
  cases hpresents : calls.presents with
  | false =>
    simp only [hpresents, Bool.false_eq_true, if_false] at hmid hstate
    refine ⟨mid, hmid, ?_⟩
    obtain hstate | ⟨rfl, -, hstate⟩ := hstate
    · exact Or.inl hstate
    · exact Or.inr ⟨rfl, hstate, by simp⟩
  | true =>
    simp only [hpresents, if_true] at hmid hstate
    change (s.outputState.mapEntries _).get o' = some mid at hmid
    rw [get_mapEntries] at hmid
    obtain ⟨old, hold, rfl⟩ := of_map hmid
    refine ⟨old, hold, ?_⟩
    obtain ⟨hne, rfl⟩ | ⟨rfl, -, hstate⟩ := hstate
    · exact Or.inl ⟨hne, if_neg hne⟩
    · rw [if_pos rfl] at hframe
      exact Or.inr ⟨rfl, hstate, fun _ => hframe⟩

theorem inv_submitted {calls : WinitCalls} {elements : List (OutputRenderElements ε τ)}
    (hi : Inv .winit s) (hpresents : s.isLocked = true → calls.presents = true) :
    Inv .winit ((if calls.presents then s.present o elements else s).rendered o .submitted) := by
  have hlockState : ((if calls.presents then s.present o elements else s).rendered o
      .submitted).lockState = s.lockState := by
    cases calls.presents <;> rfl
  have hconfirmed : ((if calls.presents then s.present o elements else s).rendered o
      .submitted).confirmed = s.confirmed := by
    cases calls.presents <;> rfl
  refine ⟨fun o' state hget hl => ?_, fun lock hlock o' state hget => ?_, (fun hb => nomatch hb),
    hconfirmed ▸ hi.confirmed⟩
  · obtain ⟨old, hold, ⟨hne, rfl⟩ | ⟨rfl, hstate, hframe⟩⟩ := get_submitted o' state hget
    · exact hi.covered o' state hold hl
    · rw [hstate] at hl
      split_ifs at hl with hlocked
      refine Or.inl fun frame h => ?_
      rw [hframe (hpresents hlocked)] at h
      obtain rfl := some.inj h
      exact hlocked
  · rw [hlockState] at hlock
    obtain ⟨old, hold, ⟨hne, rfl⟩ | ⟨rfl, hstate, hframe⟩⟩ := get_submitted o' state hget
    · exact hi.locked lock hlock o' state hold
    · have hlocked : s.isLocked = true := by
        unfold isLocked
        rw [hlock]
      rw [hstate, if_pos hlocked]

/-- While locked and with the monitors active, the window system takes the frame without error. -/
def Presents (backend : Backend) (s : Niri ε τ) : Event ε τ → Prop
  | .redraw _ _ calls =>
    backend = .winit → s.monitorsActive = true → s.isLocked = true → calls.presents = true
  | _ => True

theorem renderWinit_eq {calls : WinitCalls} {r : Niri ε τ × RenderResult}
    (h : s.renderWinit R o calls = some r) :
    ∃ elements, r = (if calls.presents then s.present o elements else s, .submitted) := by
  obtain ⟨-, h⟩ := ite_none_right_eq_some.mp h
  obtain ⟨elements, -, rfl⟩ := of_map h
  refine ⟨elements, ?_⟩
  unfold WinitCalls.presents
  cases calls.renderOutput <;> cases calls.swapBuffers <;> rfl

/-- A headless redraw has nothing to present. -/
theorem inv_rendered_headless {r : Niri ε τ × RenderResult} (hi : Inv .headless s)
    (h : s.renderHeadless o = some r) : Inv .headless (r.1.rendered o r.2) := by
  obtain ⟨state, -, h⟩ := of_bind h
  split at h
  · obtain rfl := some.inj h
    have hi' := hi.keep (keeps_modifyOutput (o := o)
      (f := fun state => { state with redrawState := .idle }) fun _ => ⟨rfl, rfl, rfl⟩)
    refine inv_rendered hi' fun _ _ state hget frame hframe => ?_
    rw [hi'.headless rfl o state hget] at hframe
    cases hframe
  · cases h

theorem inv_redraw {time : ℕ} {calls : WinitCalls} (hi : Inv backend s)
    (hp : Presents backend s (.redraw o time calls)) (ht : s.redraw R backend o time calls = some t) :
    Inv backend t := by
  obtain ⟨state, hstate, ht⟩ := of_bind ht
  split_ifs at ht
  obtain ⟨⟨u, res⟩, hu, rfl⟩ := of_map ht
  have hclock : Keeps s { s with clock := time } := ⟨(Keeps.refl s).outputs, fun _ h => h, rfl⟩
  have hi' := (hi.keep hclock).keep (keeps_updateRenderElements (some o))
  refine inv_checkLocking ?_
  split_ifs at hu with hactive
  · cases backend with
    | winit =>
      obtain ⟨elements, hr⟩ := renderWinit_eq hu
      obtain ⟨rfl, rfl⟩ := Prod.mk.inj hr
      exact inv_submitted hi' (hp rfl hactive)
    | headless => exact inv_rendered_headless hi' hu
  · obtain ⟨rfl, rfl⟩ := pair_inj hu
    exact inv_rendered hi' fun _ h => absurd rfl h

theorem inv_step {e : Event ε τ} (hi : Inv backend s) (hp : Presents backend s e)
    (ht : s.step R backend e = some t) : Inv backend t := by
  cases e with
  | lock confirmation =>
    obtain rfl := some.inj ht
    exact inv_lock hi confirmation
  | unlock =>
    obtain rfl := some.inj ht
    exact (hi.keep keeps_unlock).keep keeps_activateMonitors
  | newLockSurface surface o =>
    obtain rfl := some.inj ht
    exact hi.keep keeps_newLockSurface
  | commitLockSurface surface mapped o =>
    obtain ⟨-, rfl⟩ := of_guard ht
    exact inv_commitLockSurface hi
  | deadline token =>
    obtain ⟨-, rfl⟩ := of_guard ht
    exact (inv_continueToLocking hi).keep ⟨(Keeps.refl _).outputs, fun _ h => h, rfl⟩
  | addOutput o output =>
    obtain ⟨-, ht⟩ := ite_none_left_eq_some.mp ht
    obtain rfl := some.inj ht
    exact inv_addOutput hi output
  | removeOutput o =>
    obtain ⟨-, rfl⟩ := of_guard ht
    exact inv_removeOutput hi
  | outputResized o output =>
    obtain ⟨-, rfl⟩ := of_guard ht
    unfold outputResized
    refine Inv.keep (hi.keep (keeps_modifyOutput fun _ => ?_)) keeps_queueRedraw
    exact ⟨rfl, rfl, rfl⟩
  | activateMonitors =>
    obtain rfl := some.inj ht
    exact hi.keep keeps_activateMonitors
  | queueRedraw o =>
    obtain ⟨-, rfl⟩ := of_guard ht
    exact hi.keep keeps_queueRedraw
  | redraw o time calls => exact inv_redraw hi hp ht
  | doScreenTransition f delayMs =>
    obtain rfl := some.inj ht
    exact hi.keep keeps_doScreenTransition
  | advanceAnimations now =>
    obtain rfl := some.inj ht
    have hclock : Keeps s { s with clock := now } := ⟨(Keeps.refl s).outputs, fun _ h => h, rfl⟩
    exact (hi.keep hclock).keep keeps_advanceAnimations
  | openScreenshotUi ui =>
    obtain rfl := some.inj ht
    exact hi.keep keeps_openScreenshotUi
  | closeScreenshotUi =>
    obtain rfl := some.inj ht
    split_ifs
    · exact (hi.keep keeps_closeScreenshotUi).keep keeps_queueRedrawAll
    · exact hi
  -- The rest does not touch the outputs or the lock.
  | lockDied | deactivateMonitors | overlay | debug | session =>
    obtain rfl := some.inj ht
    exact hi.keep ⟨(Keeps.refl s).outputs, fun _ h => h, rfl⟩

theorem inv_new {overlay : Overlay ε τ} {session : Session ε τ} :
    Inv backend (new overlay session) :=
  ⟨(fun _ _ h => nomatch h), (fun _ h => nomatch h), (fun _ _ _ h => nomatch h),
    (fun _ h => nomatch h)⟩

end Niri

/-- Whenever the lock is confirmed, every output shows nothing or a locked frame, or was last due one while
the monitors were inactive. -/
theorem confirmed_covered (R : Renderer ε τ) (backend : Backend) (overlay : Overlay ε τ)
    (session : Session ε τ) (xs : List (Event ε τ)) (s : Niri ε τ)
    (hp : AllAlong (Niri.step R backend) (Niri.Presents backend) (.new overlay session) xs)
    (hrun : run (Niri.step R backend) (.new overlay session) xs = some s) :
    ∀ c ∈ s.confirmed, ∀ o state, c.outputs.get o = some state →
      state.frame = none ∨ (∃ frame, state.frame = some frame ∧ frame.locked = true) ∨
        state.redrawnInactive = true := by
  have hinv : s.Inv backend :=
    run_invariant_of_allAlong (I := Niri.Inv backend) (fun _ _ _ hi hp ht => Niri.inv_step hi hp ht)
      Niri.inv_new hp hrun
  intro c hc o state hget
  rcases hinv.confirmed c hc o state hget with hshows | hinactive
  · cases hframe : state.frame with
    | none => exact Or.inl rfl
    | some frame => exact Or.inr (Or.inl ⟨frame, rfl, hshows frame hframe⟩)
  · exact Or.inr (Or.inr hinactive)

/-! One output, on which a frame of the session was presented before the monitors were turned off. -/

section Example

def exampleOverlay : Overlay Unit Unit where
  pointerElement _ _ := []
  exitConfirmDialog _ := []
  configErrorNotification _ := none
  surfaceTree _ _ := []

def exampleRenderer : Renderer Unit Unit where
  regions _ _ := none
  scaleRelocateCrop element _ _ _ := some element

def exampleOutput : Output := ⟨1, ⟨0, false⟩, (1, 1), (0, 0, 0, 1)⟩

def exampleStart : Niri Unit Unit := .new exampleOverlay (.empty Unit Unit)

def success : WinitCalls := ⟨true, true, true, true⟩

/-- With the monitors off, the lock is confirmed although the session is the last thing presented. -/
def inactiveRun : List (Event Unit Unit) :=
  [.addOutput 0 exampleOutput, .redraw 0 0 success, .deactivateMonitors, .lock ⟨0, 0⟩, .deadline 0,
    .redraw 0 0 success]

theorem confirmed_while_inactive :
    ∃ s, run (Niri.step exampleRenderer .winit) exampleStart inactiveRun = some s ∧
      ∃ c ∈ s.confirmed, ∃ state frame, c.outputs.get 0 = some state ∧ state.frame = some frame ∧
        frame.locked = false := by
  refine ⟨_, rfl, _, mem_singleton_self _, _, _, rfl, rfl, rfl⟩

/-- With the monitors on, the lock waits for the locked frame. -/
def activeRun : List (Event Unit Unit) :=
  [.addOutput 0 exampleOutput, .redraw 0 0 success, .lock ⟨0, 0⟩, .deadline 0, .redraw 0 0 success]

theorem confirmed_covered_active :
    ∃ s, run (Niri.step exampleRenderer .winit) exampleStart activeRun = some s ∧
      ∃ c ∈ s.confirmed, ∃ state, c.outputs.get 0 = some state ∧
        (state.frame = none ∨ (∃ frame, state.frame = some frame ∧ frame.locked = true) ∨
          state.redrawnInactive = true) := by
  refine ⟨_, rfl, _, mem_singleton_self _, _, rfl, ?_⟩
  refine confirmed_covered exampleRenderer .winit exampleOverlay (.empty Unit Unit) activeRun _ ?_ rfl
    _ (mem_singleton_self _) 0 _ rfl
  refine allAlong_of_forall fun e he s => ?_
  fin_cases he <;> first | trivial | exact fun _ _ _ => rfl

end Example

end Macniri.SessionLock
