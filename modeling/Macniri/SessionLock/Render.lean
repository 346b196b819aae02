import Macniri.Lib.HashMap
import Mathlib.Data.Rat.Defs
import Mathlib.Tactic.SplitIfs

/-! What is drawn on an output: the state of the session lock, the screen transition, and `render`. -/
namespace Macniri.SessionLock

inductive RenderTarget
  | output
  | screencast
  | screenCapture
  deriving DecidableEq

inductive PreviewRender
  | screencast
  | screenCapture
  deriving DecidableEq

inductive Layer
  | background
  | bottom
  | top
  | overlay
  deriving DecidableEq

/-- How an output is turned; `swaps` is what happens to its sides. -/
structure Transform where
  code : ℕ
  swaps : Bool
  deriving DecidableEq

structure Rect where
  loc : ℚ × ℚ
  size : ℚ × ℚ
  deriving DecidableEq

abbrev Color := ℚ × ℚ × ℚ × ℚ

structure SolidColorBuffer where
  size : ℚ × ℚ
  color : Color
  deriving DecidableEq

def SolidColorBuffer.resize (buffer : SolidColorBuffer) (size : ℚ × ℚ) : SolidColorBuffer :=
  { buffer with size }

structure SolidColorRenderElement where
  geometry : Rect
  color : Color
  alpha : ℚ
  deriving DecidableEq

def SolidColorRenderElement.fromBuffer (buffer : SolidColorBuffer) (loc : ℚ × ℚ) (alpha : ℚ) :
    SolidColorRenderElement :=
  ⟨⟨loc, buffer.size⟩, buffer.color, alpha⟩

structure TextureBuffer (τ : Type) where
  texture : τ
  scale : ℚ
  transform : Transform
  deriving DecidableEq

structure TextureRenderElement (τ : Type) where
  buffer : TextureBuffer τ
  location : ℚ × ℚ
  alpha : ℚ
  deriving DecidableEq

/-- The elements of a frame; `ε` is what a surface, a tile or a panel draws, `τ` a texture. -/
inductive OutputRenderElements (ε τ : Type)
  | monitor (element : ε)
  | rescaledTile (element : ε)
  | layerSurface (element : ε)
  | relocatedLayerSurface (element : ε)
  | wayland (element : ε)
  | namedPointer (element : ε)
  | solidColor (element : SolidColorRenderElement)
  | screenshotUi (element : ε)
  | windowMruUi (element : ε)
  | exitConfirmDialog (element : ε)
  | texture (element : TextureRenderElement τ)
  | relocatedMemoryBuffer (element : ε)
  deriving DecidableEq

structure SplitElements (ε : Type) where
  normal : List ε
  popups : List ε

namespace SplitElements

variable {ε : Type}

def toList (elements : SplitElements ε) : List ε := elements.popups ++ elements.normal

def extend (elements other : SplitElements ε) : SplitElements ε where
  popups := elements.popups ++ other.popups
  normal := elements.normal ++ other.normal

end SplitElements

/-! The screen transition. Times are in nanoseconds. -/

def DELAY : ℕ := 250000000

def DURATION : ℕ := 500000000

structure ScreenTransition (τ : Type) where
  /-- Texture to crossfade from for each render target. -/
  fromTexture : RenderTarget → TextureBuffer τ
  startAt : ℕ

namespace ScreenTransition

variable {ε τ : Type}

def new (fromTexture : RenderTarget → TextureBuffer τ) (delay now : ℕ) : ScreenTransition τ where
  fromTexture
  startAt := now + delay

def isDone (t : ScreenTransition τ) (now : ℕ) : Bool := t.startAt + DURATION ≤ now

def updateRenderElements (t : ScreenTransition τ) (scale : ℚ) (transform : Transform) :
    ScreenTransition τ :=
  { t with fromTexture := fun target => { t.fromTexture target with scale, transform } }

def alpha (t : ScreenTransition τ) (now : ℕ) : ℚ :=
  if t.startAt + DURATION ≤ now then 0
  else if t.startAt ≤ now then 1 - ((now - t.startAt : ℕ) : ℚ) / DURATION
  else 1

def render (t : ScreenTransition τ) (now : ℕ) (target : RenderTarget) : TextureRenderElement τ where
  buffer := t.fromTexture target
  location := (0, 0)
  alpha := t.alpha now

end ScreenTransition

/-! The state. -/

inductive RedrawState
  | idle
  | queued
  | waitingForVBlank (redrawNeeded : Bool)
  | waitingForEstimatedVBlank (token : ℕ)
  | waitingForEstimatedVBlankAndQueued (token : ℕ)
  deriving DecidableEq

namespace RedrawState

def queueRedraw : RedrawState → RedrawState
  | idle => queued
  | waitingForEstimatedVBlank token => waitingForEstimatedVBlankAndQueued token
  | queued => queued
  | waitingForEstimatedVBlankAndQueued token => waitingForEstimatedVBlankAndQueued token
  | waitingForVBlank _ => waitingForVBlank true

def isQueued : RedrawState → Bool
  | queued | waitingForEstimatedVBlankAndQueued _ => true
  | _ => false

end RedrawState

inductive LockRenderState
  | unlocked
  | locked
  deriving DecidableEq

structure LockSurface where
  wlSurface : ℕ
  client : ℕ
  deriving DecidableEq

structure ExtSessionLock where
  id : ℕ
  client : ℕ
  deriving DecidableEq

inductive LockState
  | unlocked
  | waitingForSurfaces (confirmation : ExtSessionLock) (deadlineToken : ℕ)
  | locking (confirmation : ExtSessionLock)
  | locked (lock : ExtSessionLock)
  deriving DecidableEq

/-- What the backend put on the screen. -/
structure Frame (ε τ : Type) where
  elements : List (OutputRenderElements ε τ)
  /-- Whether `is_locked()` held when it was rendered. -/
  locked : Bool

/-- The properties of an output that rendering reads. -/
structure Output where
  scale : ℚ
  transform : Transform
  modeSize : ℚ × ℚ
  backdropColor : Color
  deriving DecidableEq

def outputSize (output : Output) : ℚ × ℚ :=
  let logical := (output.modeSize.1 / output.scale, output.modeSize.2 / output.scale)
  if output.transform.swaps then (logical.2, logical.1) else logical

structure OutputState (ε τ : Type) where
  output : Output
  redrawState : RedrawState
  backdropBuffer : SolidColorBuffer
  lockRenderState : LockRenderState
  lockSurface : Option LockSurface
  lockColorBuffer : SolidColorBuffer
  screenTransition : Option (ScreenTransition τ)
  /-- History: the frame that was presented last. -/
  frame : Option (Frame ε τ)
  /-- History: redrawn while locked with the monitors inactive, since that frame. -/
  redrawnInactive : Bool

/-- What the windows, the layer surfaces, the workspaces and the UI of the session draw. -/
structure Session (ε τ : Type) where
  hotkeyOverlay : ℕ → Option (TextureRenderElement τ)
  windowMruUi : ℕ → RenderTarget → List ε
  /-- For each workspace its geometry, its background and its elements. -/
  monitorElements : ℕ → RenderTarget → List (Rect × ε × List ε)
  overviewZoom : ℕ → ℚ
  workspaceShadows : ℕ → List ε
  insertHint : ℕ → List ε
  interactiveMove : ℕ → RenderTarget → List ε
  renderAboveTopLayer : ℕ → Bool
  /-- The surfaces of a layer, within the backdrop or not. -/
  layer : ℕ → RenderTarget → Layer → Bool → SplitElements ε

/-- A session without windows. -/
def Session.empty (ε τ : Type) : Session ε τ where
  hotkeyOverlay _ := none
  windowMruUi _ _ := []
  monitorElements _ _ := []
  overviewZoom _ := 1
  workspaceShadows _ := []
  insertHint _ := []
  interactiveMove _ _ := []
  renderAboveTopLayer _ := false
  layer _ _ _ _ := ⟨[], []⟩

inductive CursorImageStatus
  | defaultNamed
  | crosshair
  | surface (wlSurface : ℕ)
  deriving DecidableEq

/-- What is drawn whether or not the session is locked: the cursor with the dragged icon, the exit
dialog, the notification, and the contents of the lock surfaces. -/
structure Overlay (ε τ : Type) where
  pointerElement : CursorImageStatus → ℕ → List (OutputRenderElements ε τ)
  exitConfirmDialog : ℕ → List ε
  configErrorNotification : ℕ → Option (TextureRenderElement τ)
  surfaceTree : ℕ → ℚ → List ε

/-- One call of `confirmation.lock()`, with the outputs at that moment. -/
structure Confirmation (ε τ : Type) where
  lock : ExtSessionLock
  outputs : HashMap ℕ (OutputState ε τ)

structure Niri (ε τ : Type) where
  outputState : HashMap ℕ (OutputState ε τ)
  lockState : LockState
  monitorsActive : Bool
  /-- The deadline timers in the event loop. -/
  timers : List ℕ
  nextToken : ℕ
  /-- The locks whose client is gone. -/
  deadLocks : List ℕ
  /-- The surfaces with a buffer. -/
  mapped : List ℕ
  /-- `clock.now_unadjusted()`. -/
  clock : ℕ
  previewRender : Option PreviewRender
  debugDrawOpaqueRegions : Bool
  cursorImage : CursorImageStatus
  overlay : Overlay ε τ
  /-- What the screenshot UI draws, if it is open. -/
  screenshotUi : Option (ℕ → RenderTarget → List ε)
  session : Session ε τ
  /-- History: the confirmed locks. -/
  confirmed : List (Confirmation ε τ)

/-- The traits of the elements, which the renderer provides. -/
structure Renderer (ε τ : Type) where
  /-- The opaque and the semitransparent parts of an element, unless it is only extra damage. -/
  regions : OutputRenderElements ε τ → ℚ → Option (List Rect × List Rect)
  scaleRelocateCrop : ε → ℚ → ℚ → Rect → Option ε

variable {ε τ : Type}

/-- The debug colors are inserted right above the element they belong to. -/
def Renderer.drawOpaqueRegions (R : Renderer ε τ) (elements : List (OutputRenderElements ε τ))
    (scale : ℚ) : List (OutputRenderElements ε τ) :=
  elements.flatMap fun element =>
    match R.regions element scale with
    | none => [element]
    | some (opaqueRects, semitransparent) =>
      opaqueRects.map (fun rect => .solidColor ⟨rect, (0, 0, 1 / 5, 1 / 5), 1⟩) ++
        semitransparent.map (fun rect => .solidColor ⟨rect, (3 / 10, 0, 0, 3 / 10), 1⟩) ++ [element]

namespace Niri

def isLocked (s : Niri ε τ) : Bool :=
  match s.lockState with
  | .unlocked | .waitingForSurfaces .. => false
  | .locking _ | .locked _ => true

def target (s : Niri ε τ) (target : RenderTarget) : RenderTarget :=
  match target, s.previewRender with
  | .output, some .screencast => .screencast
  | .output, some .screenCapture => .screenCapture
  | target, _ => target

/-- The windows with the layers between and around them. -/
def renderWorkspaces (R : Renderer ε τ) (s : Niri ε τ) (o : ℕ) (scale : ℚ)
    (target : RenderTarget) : List (OutputRenderElements ε τ) :=
  let monitorElements := s.session.monitorElements o target
  let topLayer := (s.session.layer o target .top false).toList.map .layerSurface
  let intMoveElements := (s.session.interactiveMove o target).map .rescaledTile
  let insertHintElements := (s.session.insertHint o).map .monitor
  let shadowElements := (s.session.workspaceShadows o).map .monitor
  let layerElements :=
    (s.session.layer o target .bottom false).extend (s.session.layer o target .background false)
  if s.session.renderAboveTopLayer o then
    intMoveElements ++ insertHintElements ++
      (monitorElements.flatMap fun (_, _, elements) => elements.map .monitor) ++
      topLayer ++ layerElements.toList.map .layerSurface ++
      -- Only the background of the last workspace is left in the variable.
      (monitorElements.getLast?.map fun (_, background, _) =>
        OutputRenderElements.monitor background).toList ++ shadowElements
  else
    let crop (geo : Rect) (elements : List ε) : List (OutputRenderElements ε τ) :=
      elements.filterMap fun element =>
        (R.scaleRelocateCrop element scale (s.session.overviewZoom o) geo).map .relocatedLayerSurface
    topLayer ++ intMoveElements ++ insertHintElements ++
      (monitorElements.flatMap fun (geo, background, elements) =>
        crop geo layerElements.popups ++ elements.map .monitor ++ crop geo layerElements.normal ++
          [.monitor background]) ++ shadowElements

/-- What is drawn on an output of an unlocked session, below the overlay. -/
def renderSession (R : Renderer ε τ) (s : Niri ε τ) (o : ℕ) (state : OutputState ε τ)
    (target : RenderTarget) : List (OutputRenderElements ε τ) :=
  let backdrop := .solidColor (.fromBuffer state.backdropBuffer (0, 0) 1)
  match s.screenshotUi with
  | some ui => (ui o target).map .screenshotUi ++ [backdrop]
  | none =>
    ((s.session.hotkeyOverlay o).map .texture).toList ++
      (s.session.windowMruUi o target).map .windowMruUi ++
      (s.session.layer o target .overlay false).toList.map .layerSurface ++
      s.renderWorkspaces R o state.output.scale target ++
      (s.session.layer o target .background true).toList.map .layerSurface ++ [backdrop]

/-- What is drawn on an output of a locked session, below the overlay. -/
def renderLocked (s : Niri ε τ) (state : OutputState ε τ) : List (OutputRenderElements ε τ) :=
  (state.lockSurface.toList.flatMap fun surface =>
    (s.overlay.surfaceTree surface.wlSurface state.output.scale).map .wayland) ++
    [.solidColor (.fromBuffer state.lockColorBuffer (0, 0) 1)]

/-- `None` where the source panics, on an output that is not connected. -/
def render (R : Renderer ε τ) (s : Niri ε τ) (o : ℕ) (includePointer : Bool)
    (target : RenderTarget) : Option (List (OutputRenderElements ε τ)) := do
  let state ← s.outputState.get o
  let target := s.target target
  let elements :=
    (if includePointer then s.overlay.pointerElement s.cursorImage o else []) ++
      (state.screenTransition.map fun transition =>
        OutputRenderElements.texture (transition.render s.clock target)).toList ++
      (s.overlay.exitConfirmDialog o).map .exitConfirmDialog ++
      ((s.overlay.configErrorNotification o).map .texture).toList ++
      (if s.isLocked then s.renderLocked state else s.renderSession R o state target)
  some (if s.debugDrawOpaqueRegions then R.drawOpaqueRegions elements state.output.scale
    else elements)

/-! The screen transition of every output. -/

def updateRenderElements (s : Niri ε τ) (output : Option ℕ) : Niri ε τ :=
  { s with
    outputState := s.outputState.mapEntries fun o state =>
      if output.all (· = o) then
        { state with
          screenTransition := state.screenTransition.map
            (·.updateRenderElements state.output.scale state.output.transform) }
      else state }

/-- The screens, captured for each target; `none` if some target could not be rendered. -/
def capture (R : Renderer ε τ) (s : Niri ε τ)
    (renderToTexture : ℕ → RenderTarget → List (OutputRenderElements ε τ) → Option τ)
    (o : ℕ) (state : OutputState ε τ) : Option (RenderTarget → TextureBuffer τ) := do
  let texture (target : RenderTarget) : Option (TextureBuffer τ) := do
    let elements ← s.render R o false target
    let texture ← renderToTexture o target elements.reverse
    some ⟨texture, state.output.scale, state.output.transform⟩
  let output ← texture .output
  let screencast ← texture .screencast
  let screenCapture ← texture .screenCapture
  some fun
    | .output => output
    | .screencast => screencast
    | .screenCapture => screenCapture

def doScreenTransition (R : Renderer ε τ) (s : Niri ε τ)
    (renderToTexture : ℕ → RenderTarget → List (OutputRenderElements ε τ) → Option τ)
    (delayMs : Option ℕ) : Niri ε τ :=
  let s := s.updateRenderElements none
  let delay := (delayMs.map (· * 1000000)).getD DELAY
  { s with
    outputState := s.outputState.mapEntries fun o state =>
      match s.capture R renderToTexture o state with
      | none => state
      | some fromTexture =>
        { state with screenTransition := some (.new fromTexture delay s.clock) } }

/-- Transitions that are done are dropped. -/
def advanceAnimations (s : Niri ε τ) : Niri ε τ :=
  { s with
    outputState := s.outputState.mapValues fun state =>
      { state with screenTransition := state.screenTransition.filter (!·.isDone s.clock) } }

end Niri

end Macniri.SessionLock
