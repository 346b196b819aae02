import Macniri.SessionLock.State

/-! The throttling of frame callbacks to the refresh cycles of the outputs. -/
namespace Macniri.FrameCallbacks

open Option

open SessionLock (RedrawState RenderResult Backend)

/-- What the compositor keeps with a surface. -/
structure SurfaceData where
  primaryScanoutOutput : Option ℕ
  lastSentAt : Option (ℕ × UInt32)

structure OutputState where
  redrawState : RedrawState
  frameCallbackSequence : UInt32

structure Niri where
  monitorsActive : Bool
  outputState : HashMap ℕ OutputState
  surfaces : ℕ → SurfaceData

/-- The surfaces that belong to an output at a redraw. -/
structure Scene where
  windows : List ℕ
  layers : List ℕ
  lockSurface : List ℕ
  dndIcon : List ℕ
  cursorImage : List ℕ
  /-- Those that the frame shows. -/
  shown : List ℕ

def Scene.surfaces (scene : Scene) : List ℕ :=
  scene.windows ++ scene.layers ++ scene.lockSurface ++ scene.dndIcon ++ scene.cursorImage

/-- The output whose frame callback a surface gets, if any. -/
def shouldSend (output : ℕ) (sequence : UInt32) (states : SurfaceData) : SurfaceData × Option ℕ :=
  if states.primaryScanoutOutput ≠ some output then (states, none)
  -- a callback was already sent this refresh cycle
  else if states.lastSentAt = some (output, sequence) then (states, none)
  else ({ states with lastSentAt := some (output, sequence) }, some output)

namespace Niri

def new : Niri := ⟨true, ∅, fun _ => ⟨none, none⟩⟩

def sequence (s : Niri) (output : ℕ) : Option UInt32 :=
  (s.outputState.get output).map OutputState.frameCallbackSequence

/-- One surface, and the surfaces let through so far. -/
def sendFrame (output : ℕ) (sequence : UInt32) (r : Niri × List ℕ) (surface : ℕ) : Niri × List ℕ :=
  let res := shouldSend output sequence (r.1.surfaces surface)
  ({ r.1 with surfaces := Function.update r.1.surfaces surface res.1 },
    if res.2.isSome then r.2 ++ [surface] else r.2)

def sendFrameCallbacks (s : Niri) (output : ℕ) (scene : Scene) : Option (Niri × List ℕ) :=
  (s.sequence output).map fun sequence =>
    scene.surfaces.foldl (sendFrame output sequence) (s, [])

/-- Neither backend updates the primary scanout outputs of the surfaces. -/
def render (backend : Backend) (s : Niri) (output : ℕ) : Option (Niri × RenderResult) :=
  match backend with
  | .winit => some (s, .submitted)
  | .headless =>
    (s.outputState.get output).bind fun state =>
      -- in any other state the source is unreachable
      if state.redrawState = .queued then
        let outputState := s.outputState.insert output ⟨.idle, state.frameCallbackSequence + 1⟩
        some ({ s with outputState }, .submitted)
      else none

def modifyRedrawState (s : Niri) (output : ℕ) (f : RedrawState → RedrawState) : Niri :=
  match s.outputState.get output with
  | some state =>
    let redrawState := f state.redrawState
    { s with outputState := s.outputState.insert output { state with redrawState } }
  | none => s

/-- The redraw state after a frame. -/
def afterRender (res : RenderResult) (redrawState : RedrawState) : RedrawState :=
  if res = .skipped then
    match redrawState with
    | .waitingForEstimatedVBlank token | .waitingForEstimatedVBlankAndQueued token =>
      .waitingForEstimatedVBlank token
    | _ => .idle
  else .idle

/-- The state, the result of the render, and the surfaces that were let through. -/
def redraw (backend : Backend) (s : Niri) (output : ℕ) (scene : Scene) :
    Option (Niri × RenderResult × List ℕ) :=
  (s.outputState.get output).bind fun state =>
    -- the source asserts that a redraw is queued
    if state.redrawState.isQueued then
      let res := if s.monitorsActive then s.render backend output else some (s, .skipped)
      res.bind fun r =>
        let s := r.1.modifyRedrawState output (afterRender r.2)
        (s.sendFrameCallbacks output scene).map fun q => (q.1, r.2, q.2)
    else none

end Niri

inductive Event
  | addOutput (output : ℕ)
  | removeOutput (output : ℕ)
  | activateMonitors (active : Bool)
  | queueRedraw (output : ℕ)
  | newSurface (surface : ℕ)
  | redraw (output : ℕ) (scene : Scene)

def step (backend : Backend) (s : Niri) : Event → Option Niri
  | .addOutput output =>
    some { s with outputState := s.outputState.insert output ⟨.idle, 0⟩ }
  | .removeOutput output => some { s with outputState := s.outputState.remove output }
  | .activateMonitors active => some { s with monitorsActive := active }
  | .queueRedraw output =>
    (s.outputState.get output).map fun _ => s.modifyRedrawState output .queueRedraw
  | .newSurface surface =>
    some { s with surfaces := Function.update s.surfaces surface ⟨none, none⟩ }
  | .redraw output scene => (s.redraw backend output scene).map Prod.fst

/-- A submitted render starts a refresh cycle, and each surface it shows gets one frame callback. -/
structure StartsCycle (s t : Niri) (output : ℕ) (scene : Scene) (sent : List ℕ) : Prop where
  sequence : t.sequence output = (s.sequence output).map (· + 1)
  primary : ∀ surface ∈ scene.shown, (t.surfaces surface).primaryScanoutOutput = some output
  once : ∀ surface ∈ scene.shown, sent.count surface = 1

variable {backend : Backend} {s t u : Niri} {output surface : ℕ} {scene : Scene} {sent : List ℕ}
  {res : RenderResult}

/-- No surface has a primary scanout output. -/
def NoPrimary (s : Niri) : Prop := ∀ surface, (s.surfaces surface).primaryScanoutOutput = none

theorem NoPrimary.shouldSend (hs : NoPrimary s) (sequence : UInt32) :
    shouldSend output sequence (s.surfaces surface) = (s.surfaces surface, none) := by
  unfold FrameCallbacks.shouldSend
  rw [if_pos]
  rw [hs surface]
  exact nofun

/-- Without a primary scanout output no surface is let through. -/
theorem NoPrimary.sendFrame (hs : NoPrimary s) (sequence : UInt32) :
    Niri.sendFrame output sequence (s, sent) surface = (s, sent) := by
  unfold Niri.sendFrame
  dsimp only
  rw [hs.shouldSend, Function.update_eq_self]
  rfl

theorem NoPrimary.sendFrameCallbacks (hs : NoPrimary s) {q : Niri × List ℕ}
    (h : s.sendFrameCallbacks output scene = some q) : q = (s, []) := by
  obtain ⟨sequence, -, rfl⟩ := of_map h
  induction scene.surfaces with
  | nil => rfl
  | cons surface surfaces ih => rw [List.foldl_cons, hs.sendFrame, ih]

@[simp] theorem Niri.surfaces_modifyRedrawState {f : RedrawState → RedrawState} :
    (s.modifyRedrawState output f).surfaces = s.surfaces := by
  unfold modifyRedrawState
  split <;> rfl

@[simp] theorem Niri.sequence_modifyRedrawState {f : RedrawState → RedrawState} {o : ℕ} :
    (s.modifyRedrawState output f).sequence o = s.sequence o := by
  unfold modifyRedrawState sequence
  split
  · rename_i state hstate
    by_cases ho : o = output
    · simp [ho, hstate]
    · simp [ho]
  · rfl

theorem Niri.surfaces_render (h : s.render backend output = some (t, res)) :
    t.surfaces = s.surfaces := by
  cases backend with
  | winit => rw [← (pair_inj h).1]
  | headless =>
    obtain ⟨state, -, h⟩ := of_bind h
    obtain ⟨-, h⟩ := ite_none_right_eq_some.mp h
    rw [← (pair_inj h).1]

/-- A redraw renders, or skips the frame, and then lets no surface through. -/
theorem NoPrimary.redraw (hs : NoPrimary s) (h : s.redraw backend output scene = some (t, res, sent)) :
    NoPrimary t ∧ sent = [] ∧ ∃ r, t.sequence output = r.sequence output ∧
      ((s.monitorsActive = true ∧ s.render backend output = some (r, res)) ∨
        (r = s ∧ res = .skipped)) := by
  obtain ⟨state, hstate, h⟩ := of_bind h
  obtain ⟨-, h⟩ := ite_none_right_eq_some.mp h
  obtain ⟨⟨r, res'⟩, hres, h⟩ := of_bind h
  obtain ⟨q, hq, h⟩ := of_map h
  obtain ⟨rfl, rfl, rfl⟩ : q.1 = t ∧ res' = res ∧ q.2 = sent := by
    simpa using h
  have hkept : r.surfaces = s.surfaces ∧ ((s.monitorsActive = true ∧
      s.render backend output = some (r, res')) ∨ (r = s ∧ res' = .skipped)) := by
    cases hactive : s.monitorsActive with
    | true =>
      rw [hactive, if_pos rfl] at hres
      exact ⟨Niri.surfaces_render hres, .inl ⟨rfl, hres⟩⟩
    | false =>
      rw [hactive, if_neg Bool.false_ne_true] at hres
      obtain ⟨rfl, rfl⟩ := pair_inj hres
      exact ⟨rfl, .inr ⟨rfl, rfl⟩⟩
  have hr : NoPrimary (r.modifyRedrawState output (Niri.afterRender res')) := by
    intro surface
    rw [Niri.surfaces_modifyRedrawState, hkept.1]
    exact hs surface
  obtain rfl := hr.sendFrameCallbacks hq
  exact ⟨hr, rfl, r, Niri.sequence_modifyRedrawState, hkept.2⟩

theorem NoPrimary.step (hs : NoPrimary s) {e : Event} (h : step backend s e = some t) :
    NoPrimary t := by
  cases e with
  | addOutput output =>
    obtain rfl := some.inj h
    exact hs
  | removeOutput output =>
    obtain rfl := some.inj h
    exact hs
  | activateMonitors active =>
    obtain rfl := some.inj h
    exact hs
  | queueRedraw output =>
    obtain ⟨state, -, rfl⟩ := of_map h
    intro surface
    rw [Niri.surfaces_modifyRedrawState]
    exact hs surface
  | newSurface surface =>
    obtain rfl := some.inj h
    intro other
    by_cases ho : other = surface
    · subst ho
      simp
    · simpa [ho] using hs other
  | redraw output scene =>
    obtain ⟨⟨u, res, sent⟩, hredraw, rfl⟩ := of_map h
    exact (hs.redraw hredraw).1

theorem noPrimary_run {events : List Event} (h : run (step backend) .new events = some t) :
    NoPrimary t :=
  run_invariant (fun _ _ _ hs => hs.step) (fun _ => rfl) h

theorem Niri.render_winit (h : s.render .winit output = some (t, res)) : t = s :=
  (pair_inj h).1.symm

theorem Niri.sequence_render_headless (h : s.render .headless output = some (t, res)) :
    t.sequence output = (s.sequence output).map (· + 1) := by
  obtain ⟨state, hstate, h⟩ := of_bind h
  obtain ⟨-, h⟩ := ite_none_right_eq_some.mp h
  obtain ⟨rfl, -⟩ := pair_inj h
  simp [sequence, hstate]

/-- A submitted render starts a refresh cycle exactly on the headless backend and with nothing to show. -/
theorem starts_cycle_iff (events : List Event) (hrun : run (step backend) .new events = some s)
    (hredraw : s.redraw backend output scene = some (t, .submitted, sent)) :
    StartsCycle s t output scene sent ↔ backend = .headless ∧ scene.shown = [] := by
  obtain ⟨hnone, rfl, r, hsequence, hrender⟩ := (noPrimary_run hrun).redraw hredraw
  have hrender : s.render backend output = some (r, .submitted) := by
    rcases hrender with h | h
    · exact h.2
    · exact nomatch h.2
  constructor
  · intro h
    constructor
    · cases backend with
      | headless => rfl
      | winit =>
        -- the sequence stays where it was
        obtain ⟨state, hstate, -⟩ := of_bind hredraw
        have hsame := hsequence.symm.trans h.sequence
        rw [Niri.render_winit hrender, Niri.sequence, hstate] at hsame
        exact absurd (some.inj hsame) (by simp)
    · rw [List.eq_nil_iff_forall_not_mem]
      intro surface hmem
      have := (h.primary surface hmem).symm.trans (hnone surface)
      exact nomatch this
  · rintro ⟨rfl, hshown⟩
    constructor
    · rw [hsequence, Niri.sequence_render_headless hrender]
    · simp [hshown]
    · simp [hshown]

/-- One window, which the frame shows. -/
def oneWindow : Scene := ⟨[1], [], [], [], [], [1]⟩

/-- On the headless backend, with a window that the frame does not show. -/
theorem starts_cycle_iff_headless : ∃ s t sent,
    run (step .headless) .new [.addOutput 0, .newSurface 1, .queueRedraw 0] = some s ∧
      s.redraw .headless 0 ⟨[1], [], [], [], [], []⟩ = some (t, .submitted, sent) ∧
      StartsCycle s t 0 ⟨[1], [], [], [], [], []⟩ sent :=
  ⟨_, _, _, rfl, rfl, (starts_cycle_iff [.addOutput 0, .newSurface 1, .queueRedraw 0] rfl rfl).mpr
    ⟨rfl, rfl⟩⟩

/-- A frame of the Winit backend that shows a window leaves the sequence, and the window gets no callback. -/
theorem winit_frame_starts_no_cycle :
    ¬∀ s t sent, run (step .winit) .new [.addOutput 0, .newSurface 1, .queueRedraw 0] = some s →
      s.redraw .winit 0 oneWindow = some (t, .submitted, sent) → StartsCycle s t 0 oneWindow sent := by
  intro h
  have := (h _ _ _ rfl rfl).once 1 (by decide)
  exact absurd this (by decide)

end Macniri.FrameCallbacks
