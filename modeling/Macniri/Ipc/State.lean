import Mathlib.Data.Rat.Defs
import Macniri.Lib.HashMap
import Macniri.Lib.Run

/-! The event stream state of `niri-ipc`: events, `apply` and `replicate`. -/
namespace Macniri.Ipc

structure Workspace where
  id : ℕ
  idx : ℕ
  name : Option String
  output : Option String
  isUrgent : Bool
  isActive : Bool
  isFocused : Bool
  activeWindowId : Option ℕ
  deriving DecidableEq, Repr

structure Timestamp where
  secs : ℕ
  nanos : ℕ
  deriving DecidableEq, Repr

structure WindowLayout where
  posInScrollingLayout : Option (ℕ × ℕ)
  tileSize : ℚ × ℚ
  windowSize : ℤ × ℤ
  tilePosInWorkspaceView : Option (ℚ × ℚ)
  windowOffsetInTile : ℚ × ℚ
  deriving DecidableEq, Repr

structure Window where
  id : ℕ
  title : Option String
  appId : Option String
  pid : Option ℤ
  workspaceId : Option ℕ
  isFocused : Bool
  isFloating : Bool
  isUrgent : Bool
  layout : WindowLayout
  focusTimestamp : Option Timestamp
  deriving DecidableEq, Repr

structure KeyboardLayouts where
  names : List String
  currentIdx : ℕ
  deriving DecidableEq, Repr

inductive Event where
  | workspacesChanged (workspaces : List Workspace)
  | workspaceUrgencyChanged (id : ℕ) (urgent : Bool)
  | workspaceActivated (id : ℕ) (focused : Bool)
  | workspaceActiveWindowChanged (workspaceId : ℕ) (activeWindowId : Option ℕ)
  | windowsChanged (windows : List Window)
  | windowOpenedOrChanged (window : Window)
  | windowClosed (id : ℕ)
  | windowFocusChanged (id : Option ℕ)
  | windowFocusTimestampChanged (id : ℕ) (focusTimestamp : Option Timestamp)
  | windowUrgencyChanged (id : ℕ) (urgent : Bool)
  | windowLayoutsChanged (changes : List (ℕ × WindowLayout))
  | keyboardLayoutsChanged (keyboardLayouts : KeyboardLayouts)
  | keyboardLayoutSwitched (idx : ℕ)
  | overviewOpenedOrClosed (isOpen : Bool)
  | configLoaded (failed : Bool)
  | screenshotCaptured (path : Option String)
  deriving DecidableEq, Repr

structure WorkspacesState where
  workspaces : HashMap ℕ Workspace

structure WindowsState where
  windows : HashMap ℕ Window

structure KeyboardLayoutsState where
  keyboardLayouts : Option KeyboardLayouts

structure OverviewState where
  isOpen : Bool

structure ConfigState where
  failed : Bool

structure EventStreamState where
  workspaces : WorkspacesState
  windows : WindowsState
  keyboardLayouts : KeyboardLayoutsState
  overview : OverviewState
  config : ConfigState

/-- `EventStreamState::default()`. -/
def EventStreamState.default : EventStreamState :=
  ⟨⟨∅⟩, ⟨∅⟩, ⟨none⟩, ⟨false⟩, ⟨false⟩⟩

/-- What `WorkspaceActivated` writes to one workspace, given the activated one's output. -/
def Workspace.activate (id : ℕ) (focused : Bool) (output : Option String) (ws : Workspace) :
    Workspace :=
  let gotActivated := ws.id == id
  { ws with
    isActive := if ws.output = output then gotActivated else ws.isActive
    isFocused := if focused then gotActivated else ws.isFocused }

/-- The outer `none` is a failed `expect`. The inner option is the Rust return
value: the event when this part of the state ignores it. -/
def WorkspacesState.apply (st : WorkspacesState) :
    Event → Option (WorkspacesState × Option Event)
  | .workspacesChanged workspaces => some (⟨HashMap.collect Workspace.id workspaces⟩, none)
  | .workspaceUrgencyChanged id urgent =>
    some (⟨st.workspaces.mapValues fun ws =>
      if ws.id = id then { ws with isUrgent := urgent } else ws⟩, none)
  | .workspaceActivated id focused => do
    let ws ← st.workspaces.get id
    some (⟨st.workspaces.mapValues (Workspace.activate id focused ws.output)⟩, none)
  | .workspaceActiveWindowChanged workspaceId activeWindowId => do
    let ws ← st.workspaces.get workspaceId
    some (⟨st.workspaces.insert workspaceId { ws with activeWindowId := activeWindowId }⟩, none)
  | event => some (st, some event)

/-- A loop over `values_mut` that updates the first window with this id and breaks. -/
def WindowsState.updateFirst (ord : IterOrder) (st : WindowsState) (id : ℕ)
    (f : Window → Window) : WindowsState :=
  match (ord.iter st.windows).find? (fun e => e.2.id == id) with
  | some e => ⟨st.windows.insert e.1 (f e.2)⟩
  | none => st

/-- The loop of `WindowLayoutsChanged`, stopping at a missing window. -/
def WindowsState.changeLayouts (st : WindowsState) :
    List (ℕ × WindowLayout) → Option WindowsState
  | [] => some st
  | (id, update) :: changes => do
    let win ← st.windows.get id
    changeLayouts ⟨st.windows.insert id { win with layout := update }⟩ changes

def WindowsState.apply (ord : IterOrder) (st : WindowsState) :
    Event → Option (WindowsState × Option Event)
  | .windowsChanged windows => some (⟨HashMap.collect Window.id windows⟩, none)
  | .windowOpenedOrChanged window =>
    let windows := st.windows.insert window.id window
    if window.isFocused then
      some (⟨windows.mapValues fun win =>
        if win.id ≠ window.id then { win with isFocused := false } else win⟩, none)
    else some (⟨windows⟩, none)
  | .windowClosed id => do
    let _ ← st.windows.get id
    some (⟨st.windows.remove id⟩, none)
  | .windowFocusChanged id =>
    some (⟨st.windows.mapValues fun win =>
      { win with isFocused := decide (some win.id = id) }⟩, none)
  | .windowFocusTimestampChanged id focusTimestamp =>
    some (st.updateFirst ord id fun win => { win with focusTimestamp := focusTimestamp }, none)
  | .windowUrgencyChanged id urgent =>
    some (st.updateFirst ord id fun win => { win with isUrgent := urgent }, none)
  | .windowLayoutsChanged changes => do
    let st ← st.changeLayouts changes
    some (st, none)
  | event => some (st, some event)

def KeyboardLayoutsState.apply (st : KeyboardLayoutsState) :
    Event → Option (KeyboardLayoutsState × Option Event)
  | .keyboardLayoutsChanged keyboardLayouts => some (⟨some keyboardLayouts⟩, none)
  | .keyboardLayoutSwitched idx => do
    let kb ← st.keyboardLayouts
    some (⟨some { kb with currentIdx := idx }⟩, none)
  | event => some (st, some event)

def OverviewState.apply (st : OverviewState) : Event → OverviewState × Option Event
  | .overviewOpenedOrClosed isOpen => (⟨isOpen⟩, none)
  | event => (st, some event)

def ConfigState.apply (st : ConfigState) : Event → ConfigState × Option Event
  | .configLoaded failed => (⟨failed⟩, none)
  | event => (st, some event)

/-- Each part is offered the event in turn until one of them takes it. -/
def EventStreamState.apply (ord : IterOrder) (st : EventStreamState) (event : Event) :
    Option (EventStreamState × Option Event) := do
  let (workspaces, rest) ← st.workspaces.apply event
  let st := { st with workspaces }
  let some event := rest | return (st, none)
  let (windows, rest) ← st.windows.apply ord event
  let st := { st with windows }
  let some event := rest | return (st, none)
  let (keyboardLayouts, rest) ← st.keyboardLayouts.apply event
  let st := { st with keyboardLayouts }
  let some event := rest | return (st, none)
  let (overview, rest) := st.overview.apply event
  let st := { st with overview }
  let some event := rest | return (st, none)
  let (config, rest) := st.config.apply event
  return ({ st with config }, rest)

def WorkspacesState.replicate (ord : IterOrder) (st : WorkspacesState) : List Event :=
  [.workspacesChanged ((ord.iter st.workspaces).map Sigma.snd)]

def WindowsState.replicate (ord : IterOrder) (st : WindowsState) : List Event :=
  [.windowsChanged ((ord.iter st.windows).map Sigma.snd)]

def KeyboardLayoutsState.replicate (st : KeyboardLayoutsState) : List Event :=
  match st.keyboardLayouts with
  | some keyboardLayouts => [.keyboardLayoutsChanged keyboardLayouts]
  | none => []

def OverviewState.replicate (st : OverviewState) : List Event :=
  [.overviewOpenedOrClosed st.isOpen]

def ConfigState.replicate (st : ConfigState) : List Event :=
  [.configLoaded st.failed]

def EventStreamState.replicate (ord : IterOrder) (st : EventStreamState) : List Event :=
  st.workspaces.replicate ord ++ st.windows.replicate ord ++ st.keyboardLayouts.replicate ++
    st.overview.replicate ++ st.config.replicate

/-- Fold `apply` over a list of events, as both the server and a client do. -/
def applyAll {σ : Type} (apply : σ → Event → Option (σ × Option Event)) :
    σ → List Event → Option σ :=
  run fun st event => (apply st event).map Prod.fst

@[simp] theorem applyAll_nil {σ : Type} {apply : σ → Event → Option (σ × Option Event)}
    {st : σ} : applyAll apply st [] = some st := rfl

@[simp] theorem applyAll_cons {σ : Type} {apply : σ → Event → Option (σ × Option Event)}
    {st : σ} {event : Event} {events : List Event} :
    applyAll apply st (event :: events) =
      ((apply st event).map Prod.fst).bind fun st => applyAll apply st events := rfl

theorem applyAll_append {σ : Type} {apply : σ → Event → Option (σ × Option Event)}
    (st : σ) (xs ys : List Event) :
    applyAll apply st (xs ++ ys) =
      (applyAll apply st xs).bind fun st => applyAll apply st ys :=
  run_append st xs ys

end Macniri.Ipc
