import Macniri.Lib.Run
import Macniri.XdgShell.Unmapped

/-! The requests of a toplevel and its mapping commit. What happens around it in between changes its
surroundings. -/
namespace Macniri.XdgShell

open Layout

inductive Request where
  | setMaximized
  | unsetMaximized
  | setFullscreen (output : Option Output)
  | unsetFullscreen
  deriving DecidableEq, Repr

/-- What the mapping commit finds: the size and the mode that the client committed, whether its
activation token is still valid, the focus policy, and where the parent is drawn. -/
structure MappingCommit where
  size : Layout.ISize
  sizingMode : SizingMode
  hasValidToken : Bool
  strictNewWindowFocusPolicy : Bool
  renderPos : Point
  deriving DecidableEq, Repr

inductive Event where
  | request (request : Request) (renderPos : Point)
  | sendInitialConfigure (rules : WindowRules)
  | updateWindowRules (rules : WindowRules)
  | map (commit : MappingCommit)
  | other (surroundings : Surroundings)

/-- For a window that is mapped without a proper initial configure. -/
def Configured.default : Configured where
  rules := .default
  width := none
  height := none
  floatingWidth := none
  floatingHeight := none
  isFullWidth := false
  output := none
  workspaceName := none
  isPendingMaximized := false

/-- What the window is opened with. -/
def InitialConfigureState.opens : InitialConfigureState → Configured
  | notConfigured _ _ => .default
  | configured c => c

namespace State

variable (s : State)

def withLayout (l : Layout) : State := { s with layout := l }

def withConfigured (r : Configured × ToplevelState) : State :=
  { s with unmapped := some (.configured r.1), pending := r.2 }

/-! Requests. -/

def maximizeRequest (renderPos : Point) : Option State :=
  match s.unmapped with
  | none => (s.layout.setMaximized s.id true renderPos).map s.withLayout
  | some (.notConfigured wantsFullscreen _) =>
    -- The required configure will be the initial configure.
    some { s with unmapped := some (.notConfigured wantsFullscreen true) }
  | some (.configured c) => (s.maximizeConfigured c s.pending).map s.withConfigured

def unmaximizeRequest (renderPos : Point) : Option State :=
  match s.unmapped with
  | none => (s.layout.setMaximized s.id false renderPos).map s.withLayout
  | some (.notConfigured wantsFullscreen _) =>
    some { s with unmapped := some (.notConfigured wantsFullscreen false) }
  | some (.configured c) => (s.unmaximizeConfigured c s.pending).map s.withConfigured

/-- Move a mapped window to the output that it wants to be fullscreen on. -/
def moveToRequested (requestedOutput : Option Output) : Option Layout :=
  match requestedOutput with
  | none => some s.layout
  | some output =>
    if (s.layout.findOutputOfWindow s.id).join.any (·.same output) then some s.layout
    else s.layout.moveToOutput (some s.id) output none .smart

def fullscreenRequest (requestedOutput : Option Output) (renderPos : Point) : Option State :=
  match s.unmapped with
  | none => do
    let l ← s.moveToRequested requestedOutput
    let l ← l.setFullscreen s.id true renderPos
    return s.withLayout l
  | some (.notConfigured _ wantsMaximized) =>
    some { s with unmapped := some (.notConfigured (some requestedOutput) wantsMaximized) }
  | some (.configured c) => (s.fullscreenConfigured requestedOutput c s.pending).map s.withConfigured

def unfullscreenRequest (renderPos : Point) : Option State :=
  match s.unmapped with
  | none => (s.layout.setFullscreen s.id false renderPos).map s.withLayout
  | some (.notConfigured _ wantsMaximized) =>
    some { s with unmapped := some (.notConfigured none wantsMaximized) }
  | some (.configured c) => (s.unfullscreenConfigured c s.pending).map s.withConfigured

def handle (renderPos : Point) : Request → Option State
  | .setMaximized => s.maximizeRequest renderPos
  | .unsetMaximized => s.unmaximizeRequest renderPos
  | .setFullscreen output => s.fullscreenRequest output renderPos
  | .unsetFullscreen => s.unfullscreenRequest renderPos

/-! Configuring and mapping. -/

def configure (rules : WindowRules) : Option State :=
  match s.unmapped with
  | some (.notConfigured wantsFullscreen wantsMaximized) =>
    (s.sendInitialConfigure rules wantsFullscreen wantsMaximized s.pending).map s.withConfigured
  -- It must be present and not configured already.
  | _ => some s

/-- The rules are kept up-to-date between the initial configure and mapping. -/
def updateWindowRules (rules : WindowRules) : State :=
  match s.unmapped with
  | some (.configured c) => { s with unmapped := some (.configured { c with rules := rules }) }
  | _ => s

/-- The window as it goes to the layout. -/
def newWindow (rules : WindowRules) (commit : MappingCommit) : Window where
  id := s.id
  size := commit.size
  minSize := rules.applyMinSize s.minSize
  maxSize := rules.applyMaxSize s.maxSize
  sizingMode := commit.sizingMode
  pendingSizingMode := s.pending.mode
  isPendingWindowedFullscreen := false
  requestedSize := s.pending.size
  rules := rules.layout
  interactiveResizeData := none
  parent := s.parent

/-- The parent to open next to. Only consider the parent if we configured the window for the same
output. -/
def openingParent (output : Option Output) : Option ℕ :=
  s.parent.filter fun parent => (s.layout.findOutputOfWindow parent).any fun parentOutput =>
    match output, parentOutput with
    | some output, some parentOutput => output.same parentOutput
    | _, _ => true

/-- Open dialogs next to their parent window. The output and the workspace have to exist still. -/
def openingTarget (c : Configured) : AddWindowTarget :=
  let output := c.output.filter fun o => (s.layout.monitorForOutput o).isSome
  let workspaceId := (c.workspaceName.bind s.layout.findWorkspaceByName).map (·.id)
  match s.openingParent output, workspaceId, output with
  | some parent, _, _ => .nextTo parent
  | none, some id, _ => .workspace id
  | none, none, some output => .output output
  | none, none, none => .auto

/-- Figure out if we should activate the window. -/
def activation (rules : WindowRules) (commit : MappingCommit) : ActivateWindow :=
  match rules.openFocused with
  | some true => .yes
  | some false => .no
  | none =>
    if commit.hasValidToken then .yes
    else if commit.strictNewWindowFocusPolicy then .no
    else .smart

/-- The window state cannot contain Fullscreen and Maximized at once, so tell the layout about the
latter for a window that ended up fullscreen. -/
def maximizeFullscreen (l : Layout) (window : ℕ) (isPendingMaximized : Bool) (renderPos : Point) :
    Option Layout :=
  if (l.findWindow window).any (·.pendingSizingMode == .fullscreen) && isPendingMaximized then
    l.setMaximized window true renderPos
  else some l

def map (commit : MappingCommit) : Option State := do
  let c := (← s.unmapped).opens
  let l ← s.layout.addWindow (s.newWindow c.rules commit) (s.openingTarget c)
    ⟨c.width, c.height, c.isFullWidth, s.isFloating c.rules, activation c.rules commit,
      commit.renderPos⟩
  let l ← maximizeFullscreen l s.id c.isPendingMaximized commit.renderPos
  return { s with layout := l, unmapped := none }

def step (s : State) : Event → Option State
  | .request request renderPos => s.handle renderPos request
  | .sendInitialConfigure rules => s.configure rules
  | .updateWindowRules rules => some (s.updateWindowRules rules)
  | .map commit => s.map commit
  | .other surroundings => some { s with toSurroundings := surroundings }

end State

end Macniri.XdgShell
