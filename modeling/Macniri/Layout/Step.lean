import Macniri.Layout.Ops
import Macniri.Layout.WorkspaceEffects
import Macniri.Lib.Run

/-! The operations of the layout as steps of one machine. -/
namespace Macniri.Layout

/-- The operations of the active monitor. -/
inductive ActiveMonitorOp where
  | moveDownOrToWorkspaceDown
  | moveUpOrToWorkspaceUp
  | focusWindowOrWorkspaceDown
  | focusWindowOrWorkspaceUp
  | moveToWorkspaceUp (focus : Bool)
  | moveToWorkspaceDown (focus : Bool)
  | moveColumnToWorkspaceUp (activate : Bool)
  | moveColumnToWorkspaceDown (activate : Bool)
  | moveColumnToWorkspace (idx : ℕ) (activate : Bool)
  | switchWorkspaceUp
  | switchWorkspaceDown
  | switchWorkspace (idx : ℕ)
  | switchWorkspaceAutoBackAndForth (idx : ℕ)
  | switchWorkspacePrevious
  | moveWorkspaceDown
  | moveWorkspaceUp

def Monitor.applyActive (m : Monitor) : ActiveMonitorOp → Option Monitor
  | .moveDownOrToWorkspaceDown => m.moveDownOrToWorkspaceDown
  | .moveUpOrToWorkspaceUp => m.moveUpOrToWorkspaceUp
  | .focusWindowOrWorkspaceDown => m.focusWindowOrWorkspaceDown
  | .focusWindowOrWorkspaceUp => m.focusWindowOrWorkspaceUp
  | .moveToWorkspaceUp focus => m.moveToWorkspaceUp focus
  | .moveToWorkspaceDown focus => m.moveToWorkspaceDown focus
  | .moveColumnToWorkspaceUp activate => m.moveColumnToWorkspaceUp activate
  | .moveColumnToWorkspaceDown activate => m.moveColumnToWorkspaceDown activate
  | .moveColumnToWorkspace idx activate => m.moveColumnToWorkspace idx activate
  | .switchWorkspaceUp => m.switchWorkspaceUp
  | .switchWorkspaceDown => m.switchWorkspaceDown
  | .switchWorkspace idx => m.switchWorkspace idx
  | .switchWorkspaceAutoBackAndForth idx => m.switchWorkspaceAutoBackAndForth idx
  | .switchWorkspacePrevious => m.switchWorkspacePrevious
  | .moveWorkspaceDown => m.moveWorkspaceDown
  | .moveWorkspaceUp => m.moveWorkspaceUp

/-- Outputs come and go, and their size and config change. -/
inductive OutputOp where
  | addOutput (output : Output) (layoutConfig : Option LayoutPart)
  | removeOutput (output : Output)
  | focusOutput (output : Output)
  | updateOutputSize (output : Output)
  | updateLayoutConfig (output : Output) (layoutConfig : Option LayoutPart)

/-- Windows, columns and workspaces move between outputs. -/
inductive TransferOp where
  | moveToOutput (window : Option ℕ) (output : Output) (targetWsIdx : Option ℕ)
      (activate : ActivateWindow)
  | moveColumnToOutput (output : Output) (targetWsIdx : Option ℕ) (activate : Bool)
  | moveWorkspaceToOutput (output : Output)
  | moveWorkspaceToOutputById (oldIdx : ℕ) (oldOutput : Option Output) (newOutput : Output)
  | moveColumnLeftOrToOutput (output : Output)
  | moveColumnRightOrToOutput (output : Output)
  | focusWindowUpOrOutput (output : Output)
  | focusWindowDownOrOutput (output : Output)
  | focusColumnLeftOrOutput (output : Output)
  | focusColumnRightOrOutput (output : Output)

/-- The operations of one window, wherever it is. -/
inductive LayoutWindowOp where
  | addWindow (window : Window) (target : AddWindowTarget) (opening : WindowOpening)
  | removeWindow (window : ℕ)
  | moveToWorkspace (window : Option ℕ) (idx : ℕ) (activate : ActivateWindow)
  | activateWindow (window : ℕ)
  | activateWindowWithoutRaising (window : ℕ)
  | descendantsAdded (window : ℕ)
  | updateWindow (window : ℕ) (commit : Commit) (ongoingResizeAnim : Bool)
  | setParent (window : ℕ) (parent : Option ℕ)
  | toggleWindowFloating (window : Option ℕ) (renderPos : Point)
  | setWindowFloating (window : Option ℕ) (floating : Bool) (renderPos : Point)
  | setFullscreen (window : ℕ) (isFullscreen : Bool) (renderPos : Point)
  | toggleFullscreen (window : ℕ) (renderPos : Point)
  | toggleWindowedFullscreen (window : ℕ) (renderPos : Point)
  | setMaximized (window : ℕ) (maximize : Bool) (renderPos : Point)
  | toggleMaximized (window : ℕ) (renderPos : Point)
  | interactiveResizeBegin (window : ℕ) (edges : ResizeEdge)
  | interactiveResizeUpdate (window : ℕ) (delta : Point)
  | interactiveResizeEnd (window : ℕ)
  | interactiveMoveBegin (window : ℕ) (output : Output) (visible : Bool)
  | interactiveMoveUpdate (window : ℕ) (delta : Point) (output : Output) (workspaceUnder : Option ℕ)
      (renderPos : Point)
  | interactiveMoveEnd (window : ℕ) (drop : DropPoint)

/-- The operations that name, create and reorder workspaces, and the config. -/
inductive NamingOp where
  | moveWorkspaceToIdx (reference : Option (Option Output × ℕ)) (newIdx : ℕ)
  | setWorkspaceName (name : String) (reference : Option WorkspaceReference)
  | unsetWorkspaceName (reference : Option WorkspaceReference)
  | unnameWorkspace (name : String)
  | ensureNamedWorkspace (config : WorkspaceConfig)
  | updateConfig (config : Config)

/-- The overview, gestures, drags and time. -/
inductive ProgressOp where
  | toggleOverview
  | openOverview
  | closeOverview
  | toggleOverviewToWorkspace (idx : ℕ)
  | overviewGestureBegin
  | overviewGestureUpdate (deltaY timestamp : ℚ)
  | overviewGestureEnd
  | workspaceSwitchGestureBegin (output : Output) (isTouchpad : Bool)
  | workspaceSwitchGestureUpdate (deltaY timestamp : ℚ) (isTouchpad : Bool)
  | workspaceSwitchGestureEnd (isTouchpad : Option Bool)
  | viewOffsetGestureBegin (output : Output) (workspaceIdx : Option ℕ) (isTouchpad : Bool)
  | viewOffsetGestureUpdate (deltaX timestamp : ℚ) (isTouchpad : Bool)
  | viewOffsetGestureEnd (isTouchpad : Option Bool)
  | dndUpdate (output : Output)
  | dndEnd
  | setClock (now : ℚ) (anim : AnimationState)
  | advanceAnimations (anim : AnimationState) (pointer : PointerState)
  | refresh

inductive LayoutOp where
  | active (op : ActiveOp)
  | window (window : Option ℕ) (op : WindowOp)
  | activeMonitor (op : ActiveMonitorOp)
  | output (op : OutputOp)
  | transfer (op : TransferOp)
  | layoutWindow (op : LayoutWindowOp)
  | naming (op : NamingOp)
  | progress (op : ProgressOp)

def applyOutput (l : Layout) : OutputOp → Option Layout
  | .addOutput output layoutConfig => l.addOutput output layoutConfig
  | .removeOutput output => l.removeOutput output
  | .focusOutput output => some (l.focusOutput output)
  | .updateOutputSize output => l.updateOutputSize output
  | .updateLayoutConfig output layoutConfig => l.updateLayoutConfig output layoutConfig

def applyTransfer (l : Layout) : TransferOp → Option Layout
  | .moveToOutput window output targetWsIdx activate => l.moveToOutput window output targetWsIdx activate
  | .moveColumnToOutput output targetWsIdx activate => l.moveColumnToOutput output targetWsIdx activate
  | .moveWorkspaceToOutput output => l.moveWorkspaceToOutput output
  | .moveWorkspaceToOutputById oldIdx oldOutput newOutput =>
    l.moveWorkspaceToOutputById oldIdx oldOutput newOutput
  | .moveColumnLeftOrToOutput output => l.moveColumnLeftOrToOutput output
  | .moveColumnRightOrToOutput output => l.moveColumnRightOrToOutput output
  | .focusWindowUpOrOutput output => l.focusWindowUpOrOutput output
  | .focusWindowDownOrOutput output => l.focusWindowDownOrOutput output
  | .focusColumnLeftOrOutput output => l.focusColumnLeftOrOutput output
  | .focusColumnRightOrOutput output => l.focusColumnRightOrOutput output

def applyLayoutWindow (l : Layout) : LayoutWindowOp → Option Layout
  | .addWindow window target opening => l.addWindow window target opening
  | .removeWindow window => (l.removeWindow window).map (·.2)
  | .moveToWorkspace window idx activate => l.moveToWorkspace window idx activate
  | .activateWindow window => l.activateWindow window
  | .activateWindowWithoutRaising window => l.activateWindowWithoutRaising window
  | .descendantsAdded window => l.descendantsAdded window
  | .updateWindow window commit ongoingResizeAnim => l.updateWindow window commit ongoingResizeAnim
  | .setParent window parent => l.setParent window parent
  | .toggleWindowFloating window renderPos => l.toggleWindowFloating window renderPos
  | .setWindowFloating window floating renderPos => l.setWindowFloating window floating renderPos
  | .setFullscreen window isFullscreen renderPos => l.setFullscreen window isFullscreen renderPos
  | .toggleFullscreen window renderPos => l.toggleFullscreen window renderPos
  | .toggleWindowedFullscreen window renderPos => l.toggleWindowedFullscreen window renderPos
  | .setMaximized window maximize renderPos => l.setMaximized window maximize renderPos
  | .toggleMaximized window renderPos => l.toggleMaximized window renderPos
  | .interactiveResizeBegin window edges => l.interactiveResizeBegin window edges
  | .interactiveResizeUpdate window delta => l.interactiveResizeUpdate window delta
  | .interactiveResizeEnd window => l.interactiveResizeEnd window
  | .interactiveMoveBegin window output visible => l.interactiveMoveBegin window output visible
  | .interactiveMoveUpdate window delta output workspaceUnder renderPos =>
    l.interactiveMoveUpdate window delta output workspaceUnder renderPos
  | .interactiveMoveEnd window drop => l.interactiveMoveEnd window drop

def applyNaming (l : Layout) : NamingOp → Option Layout
  | .moveWorkspaceToIdx reference newIdx => l.moveWorkspaceToIdx reference newIdx
  | .setWorkspaceName name reference => l.setWorkspaceName name reference
  | .unsetWorkspaceName reference => l.unsetWorkspaceName reference
  | .unnameWorkspace name => l.unnameWorkspace name
  | .ensureNamedWorkspace config => l.ensureNamedWorkspace config
  | .updateConfig config => l.updateConfig config

def applyProgress (l : Layout) : ProgressOp → Option Layout
  | .toggleOverview => l.toggleOverview
  | .openOverview => l.openOverview
  | .closeOverview => l.closeOverview
  | .toggleOverviewToWorkspace idx => l.toggleOverviewToWorkspace idx
  | .overviewGestureBegin => l.overviewGestureBegin
  | .overviewGestureUpdate deltaY timestamp => l.overviewGestureUpdate deltaY timestamp
  | .overviewGestureEnd => l.overviewGestureEnd
  | .workspaceSwitchGestureBegin output isTouchpad => l.workspaceSwitchGestureBegin output isTouchpad
  | .workspaceSwitchGestureUpdate deltaY timestamp isTouchpad =>
    l.workspaceSwitchGestureUpdate deltaY timestamp isTouchpad
  | .workspaceSwitchGestureEnd isTouchpad => l.workspaceSwitchGestureEnd isTouchpad
  | .viewOffsetGestureBegin output workspaceIdx isTouchpad =>
    l.viewOffsetGestureBegin output workspaceIdx isTouchpad
  | .viewOffsetGestureUpdate deltaX timestamp isTouchpad =>
    l.viewOffsetGestureUpdate deltaX timestamp isTouchpad
  | .viewOffsetGestureEnd isTouchpad => l.viewOffsetGestureEnd isTouchpad
  | .dndUpdate output => l.dndUpdate output
  | .dndEnd => l.dndEnd
  | .setClock now anim => l.setClock now anim
  | .advanceAnimations anim pointer => l.advanceAnimations anim pointer
  | .refresh => l.refresh

def apply (l : Layout) : LayoutOp → Option Layout
  | .active op => l.onActiveWorkspace (·.applyActive op)
  | .window window op => l.onWindow window (·.applyWindow window op)
  | .activeMonitor op => l.onActiveMonitor (·.applyActive op)
  | .output op => l.applyOutput op
  | .transfer op => l.applyTransfer op
  | .layoutWindow op => l.applyLayoutWindow op
  | .naming op => l.applyNaming op
  | .progress op => l.applyProgress op

end Macniri.Layout
