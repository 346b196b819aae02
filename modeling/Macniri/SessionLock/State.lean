import Macniri.SessionLock.Render
import Macniri.Lib.Run

/-! The session lock: requests, outputs, monitors and redraws, and the steps of a run. -/
namespace Macniri.SessionLock

variable {ε τ : Type}

def CLEAR_COLOR_LOCKED : Color := (3 / 10, 1 / 10, 1 / 10, 1)

inductive RenderResult
  | submitted
  | noDamage
  | skipped
  deriving DecidableEq

inductive Backend
  | winit
  | headless
  deriving DecidableEq

/-- How the calls of one `Winit::render` into the renderer and the window end. -/
structure WinitCalls where
  bind : Bool
  renderOutput : Bool
  makeCurrent : Bool
  swapBuffers : Bool
  deriving DecidableEq

/-- A frame is on the screen if it was rendered and swapped without error. -/
def WinitCalls.presents (calls : WinitCalls) : Bool := calls.renderOutput && calls.swapBuffers

namespace Niri

/-- Change the state of one output. -/
def modifyOutput (s : Niri ε τ) (o : ℕ) (f : OutputState ε τ → OutputState ε τ) : Niri ε τ :=
  { s with outputState := s.outputState.mapEntries fun o' state => if o' = o then f state else state }

def queueRedrawAll (s : Niri ε τ) : Niri ε τ :=
  { s with
    outputState := s.outputState.mapValues fun state =>
      { state with redrawState := state.redrawState.queueRedraw } }

def queueRedraw (s : Niri ε τ) (o : ℕ) : Niri ε τ :=
  s.modifyOutput o fun state => { state with redrawState := state.redrawState.queueRedraw }

/-- `confirmation.lock()`, after which the lock is the state. -/
def confirm (s : Niri ε τ) (confirmation : ExtSessionLock) : Niri ε τ :=
  { s with
    confirmed := s.confirmed ++ [⟨confirmation, s.outputState⟩]
    lockState := .locked confirmation }

/-- Whether the UI was open, and the state without it. -/
def closeScreenshotUi (s : Niri ε τ) : Bool × Niri ε τ :=
  (s.screenshotUi.isSome, { s with screenshotUi := none })

def setCursorImage (s : Niri ε τ) (image : CursorImageStatus) : Niri ε τ :=
  { s with cursorImage := image }

def lock (s : Niri ε τ) (confirmation : ExtSessionLock) : Niri ε τ :=
  match s.lockState with
  | .waitingForSurfaces .. | .locking _ => s
  | .locked lock => if lock.id ∉ s.deadLocks then s else s.confirm confirmation
  | .unlocked =>
    if s.outputState.isEmpty then
      (s.closeScreenshotUi.2.setCursorImage .defaultNamed).confirm confirmation
    else
      { s with
        timers := s.timers ++ [s.nextToken]
        nextToken := s.nextToken + 1
        lockState := .waitingForSurfaces confirmation s.nextToken }

def continueToLocking (s : Niri ε τ) : Niri ε τ :=
  match s.lockState with
  | .waitingForSurfaces confirmation deadlineToken =>
    let s := { s with lockState := .unlocked, timers := s.timers.filter (· ≠ deadlineToken) }
    let s := s.closeScreenshotUi.2.setCursorImage .defaultNamed
    if s.outputState.isEmpty then s.confirm confirmation
    else { s with lockState := .locking confirmation }.queueRedrawAll
  | _ => s

def maybeContinueToLocking (s : Niri ε τ) : Niri ε τ :=
  match s.lockState with
  | .waitingForSurfaces .. =>
    let ready := s.outputState.all fun state =>
      match state.lockSurface with
      | none => false
      | some surface => surface.wlSurface ∈ s.mapped
    if ready then s.continueToLocking else s
  | _ => s

def unlock (s : Niri ε τ) : Niri ε τ :=
  let timers :=
    match s.lockState with
    | .waitingForSurfaces _ deadlineToken => s.timers.filter (· ≠ deadlineToken)
    | _ => s.timers
  { s with
    timers
    lockState := .unlocked
    outputState := s.outputState.mapValues fun state => { state with lockSurface := none }
  }.queueRedrawAll

def newLockSurface (s : Niri ε τ) (surface : LockSurface) (o : ℕ) : Niri ε τ :=
  let accept (lock : ExtSessionLock) : Niri ε τ :=
    if lock.client ≠ surface.client then s
    else s.modifyOutput o fun state => { state with lockSurface := some surface }
  match s.lockState with
  | .unlocked => s
  | .waitingForSurfaces confirmation _ => accept confirmation
  | .locking confirmation => accept confirmation
  | .locked lock => accept lock

/-- The commit of a lock surface, which is found on the output `o`. -/
def commitLockSurface (s : Niri ε τ) (surface : ℕ) (mapped : Bool) (o : ℕ) : Niri ε τ :=
  let s := { s with
    mapped := if mapped then surface :: s.mapped else s.mapped.filter (· ≠ surface) }
  match s.lockState with
  | .waitingForSurfaces .. => s.maybeContinueToLocking
  | _ => s.queueRedraw o

def addOutput (s : Niri ε τ) (o : ℕ) (output : Output) : Niri ε τ :=
  let state : OutputState ε τ :=
    { output
      redrawState := .idle
      backdropBuffer := ⟨outputSize output, output.backdropColor⟩
      -- We haven't rendered anything yet so it's as good as locked.
      lockRenderState := if s.isLocked then .locked else .unlocked
      lockSurface := none
      lockColorBuffer := ⟨outputSize output, CLEAR_COLOR_LOCKED⟩
      screenTransition := none
      frame := none
      redrawnInactive := false }
  { s with outputState := s.outputState.insert o state }.queueRedraw o

def allLocked (s : Niri ε τ) : Bool :=
  s.outputState.all fun state => state.lockRenderState = .locked

/-- An output was removed, check if the requirements of the lock are now met. -/
def checkRemoved (s : Niri ε τ) : Niri ε τ :=
  match s.lockState with
  | .locking confirmation => if s.allLocked then s.confirm confirmation else s
  | _ => s.maybeContinueToLocking

def removeOutput (s : Niri ε τ) (o : ℕ) : Niri ε τ :=
  let (wasOpen, s) := { s with outputState := s.outputState.remove o }.checkRemoved.closeScreenshotUi
  if wasOpen then (s.setCursorImage .defaultNamed).queueRedrawAll else s

def outputResized (s : Niri ε τ) (o : ℕ) (output : Output) : Niri ε τ :=
  (s.modifyOutput o fun state =>
    { state with
      output
      backdropBuffer := state.backdropBuffer.resize (outputSize output)
      lockColorBuffer := state.lockColorBuffer.resize (outputSize output) }).queueRedraw o

def deactivateMonitors (s : Niri ε τ) : Niri ε τ := { s with monitorsActive := false }

def activateMonitors (s : Niri ε τ) : Niri ε τ :=
  if s.monitorsActive then s else { s with monitorsActive := true }.queueRedrawAll

def openScreenshotUi (s : Niri ε τ) (ui : ℕ → RenderTarget → List ε) : Niri ε τ :=
  if s.isLocked || s.screenshotUi.isSome then s
  else ({ s with screenshotUi := some ui }.setCursorImage .crosshair).queueRedrawAll

/-- The frame that is on the screen once the backend presented one. -/
def present (s : Niri ε τ) (o : ℕ) (elements : List (OutputRenderElements ε τ)) : Niri ε τ :=
  s.modifyOutput o fun state =>
    { state with frame := some ⟨elements, s.isLocked⟩, redrawnInactive := false }

/-- `Winit::render`: an error of the renderer or of the window is only logged. -/
def renderWinit (R : Renderer ε τ) (s : Niri ε τ) (o : ℕ) (calls : WinitCalls) :
    Option (Niri ε τ × RenderResult) :=
  if calls.bind then
    (s.render R o true .output).map fun elements =>
      if !calls.renderOutput then (s, .submitted)
      else if !calls.swapBuffers then (s, .submitted)
      else (s.present o elements, .submitted)
  else none

/-- `Headless::render` draws nothing. -/
def renderHeadless (s : Niri ε τ) (o : ℕ) : Option (Niri ε τ × RenderResult) := do
  let state ← s.outputState.get o
  match state.redrawState with
  | .queued => some (s.modifyOutput o fun state => { state with redrawState := .idle }, .submitted)
  | _ => none

def renderBackend (R : Renderer ε τ) (backend : Backend) (s : Niri ε τ) (o : ℕ)
    (calls : WinitCalls) : Option (Niri ε τ × RenderResult) :=
  match backend with
  | .winit => s.renderWinit R o calls
  | .headless => s.renderHeadless o

/-- After the backend: the redraw state and the lock render state of the output. -/
def rendered (s : Niri ε τ) (o : ℕ) (res : RenderResult) : Niri ε τ :=
  s.modifyOutput o fun state =>
    { state with
      redrawState :=
        if res = .skipped then
          match state.redrawState with
          | .waitingForEstimatedVBlank token => .waitingForEstimatedVBlank token
          | .waitingForEstimatedVBlankAndQueued token => .waitingForEstimatedVBlank token
          | _ => .idle
        else .idle
      lockRenderState :=
        if res ≠ .skipped || !s.monitorsActive then
          if s.isLocked then .locked else .unlocked
        else state.lockRenderState
      redrawnInactive := state.redrawnInactive || s.isLocked && !s.monitorsActive }

/-- If we are in process of locking the session, check if the requirements were met. -/
def checkLocking (s : Niri ε τ) (o : ℕ) : Niri ε τ :=
  match s.lockState with
  | .locking confirmation =>
    match s.outputState.get o with
    | none => s
    | some state =>
      if state.lockRenderState = .unlocked then { s with lockState := .unlocked }.unlock
      else if s.allLocked then s.confirm confirmation
      else s
  | _ => s

/-- The state in which the backend renders. -/
def beforeRender (s : Niri ε τ) (o : ℕ) (targetPresentationTime : ℕ) : Niri ε τ :=
  { s with clock := targetPresentationTime }.updateRenderElements (some o)

def redraw (R : Renderer ε τ) (backend : Backend) (s : Niri ε τ) (o : ℕ)
    (targetPresentationTime : ℕ) (calls : WinitCalls) : Option (Niri ε τ) :=
  (s.outputState.get o).bind fun state =>
    -- The source asserts that a redraw is queued.
    if state.redrawState.isQueued then
      let s := s.beforeRender o targetPresentationTime
      let res := if s.monitorsActive then s.renderBackend R backend o calls else some (s, .skipped)
      res.map fun (s, res) => (s.rendered o res).checkLocking o
    else none

end Niri

inductive Event (ε τ : Type)
  | lock (confirmation : ExtSessionLock)
  | unlock
  | lockDied (lock : ℕ)
  | newLockSurface (surface : LockSurface) (o : ℕ)
  | commitLockSurface (surface : ℕ) (mapped : Bool) (o : ℕ)
  | deadline (token : ℕ)
  | addOutput (o : ℕ) (output : Output)
  | removeOutput (o : ℕ)
  | outputResized (o : ℕ) (output : Output)
  | deactivateMonitors
  | activateMonitors
  | queueRedraw (o : ℕ)
  | redraw (o : ℕ) (targetPresentationTime : ℕ) (calls : WinitCalls)
  | doScreenTransition
      (renderToTexture : ℕ → RenderTarget → List (OutputRenderElements ε τ) → Option τ)
      (delayMs : Option ℕ)
  | advanceAnimations (now : ℕ)
  | openScreenshotUi (ui : ℕ → RenderTarget → List ε)
  | closeScreenshotUi
  | overlay (overlay : Overlay ε τ) (cursorImage : CursorImageStatus)
  | debug (previewRender : Option PreviewRender) (drawOpaqueRegions : Bool)
  | session (session : Session ε τ)

namespace Niri

def step (R : Renderer ε τ) (backend : Backend) (s : Niri ε τ) : Event ε τ → Option (Niri ε τ)
  | .lock confirmation => some (s.lock confirmation)
  -- `SessionLockHandler::unlock`, the request of a client.
  | .unlock => some s.unlock.activateMonitors
  | .lockDied lock => some { s with deadLocks := lock :: s.deadLocks }
  | .newLockSurface surface o => some (s.newLockSurface surface o)
  | .commitLockSurface surface mapped o =>
    if ((s.outputState.get o).bind (·.lockSurface)).any (·.wlSurface = surface) then
      some (s.commitLockSurface surface mapped o)
    else none
  | .deadline token =>
    if token ∈ s.timers then
      some { s.continueToLocking with timers := s.continueToLocking.timers.filter (· ≠ token) }
    else none
  | .addOutput o output =>
    -- The source asserts that the output was not tracked.
    if (s.outputState.get o).isSome then none else some (s.addOutput o output)
  | .removeOutput o => if (s.outputState.get o).isSome then some (s.removeOutput o) else none
  | .outputResized o output =>
    if (s.outputState.get o).isSome then some (s.outputResized o output) else none
  | .deactivateMonitors => some s.deactivateMonitors
  | .activateMonitors => some s.activateMonitors
  | .queueRedraw o => if (s.outputState.get o).isSome then some (s.queueRedraw o) else none
  | .redraw o targetPresentationTime calls => s.redraw R backend o targetPresentationTime calls
  | .doScreenTransition renderToTexture delayMs =>
    some (s.doScreenTransition R renderToTexture delayMs)
  | .advanceAnimations now => some { s with clock := now }.advanceAnimations
  | .openScreenshotUi ui => some (s.openScreenshotUi ui)
  | .closeScreenshotUi =>
    some (if s.screenshotUi.isSome then
      (s.closeScreenshotUi.2.setCursorImage .defaultNamed).queueRedrawAll else s)
  | .overlay overlay cursorImage => some { s with overlay, cursorImage }
  | .debug previewRender drawOpaqueRegions =>
    some { s with previewRender, debugDrawOpaqueRegions := drawOpaqueRegions }
  | .session session => some { s with session }

/-- The compositor at startup: unlocked, without outputs. -/
def new (overlay : Overlay ε τ) (session : Session ε τ) : Niri ε τ where
  outputState := ∅
  lockState := .unlocked
  monitorsActive := true
  timers := []
  nextToken := 0
  deadLocks := []
  mapped := []
  clock := 0
  previewRender := none
  debugDrawOpaqueRegions := false
  cursorImage := .defaultNamed
  overlay
  screenshotUi := none
  session
  confirmed := []

end Niri

end Macniri.SessionLock
