import Macniri.Layout.Ops

/-! Toplevels that are not mapped yet: what they ask for, and the initial configure. -/
namespace Macniri

namespace XdgShell

open Layout

/-- The window rules that a window opens with. The layout reads its own part of them. -/
structure WindowRules where
  layout : ResolvedWindowRules
  defaultWidth : Option (Option PresetSize)
  defaultHeight : Option (Option PresetSize)
  openOnOutput : Option String
  openOnWorkspace : Option String
  openMaximized : Option Bool
  openMaximizedToEdges : Option Bool
  openFullscreen : Option Bool
  openFloating : Option Bool
  openFocused : Option Bool
  minWidth : Option ℕ
  minHeight : Option ℕ
  maxWidth : Option ℕ
  maxHeight : Option ℕ
  deriving DecidableEq, Repr

namespace WindowRules

def default : WindowRules where
  layout := ⟨⟨false, false, none⟩, none, none⟩
  defaultWidth := none
  defaultHeight := none
  openOnOutput := none
  openOnWorkspace := none
  openMaximized := none
  openMaximizedToEdges := none
  openFullscreen := none
  openFloating := none
  openFocused := none
  minWidth := none
  minHeight := none
  maxWidth := none
  maxHeight := none

def applyMinSize (rules : WindowRules) (minSize : Layout.ISize) : Layout.ISize where
  w := rules.minWidth.elim minSize.w fun x => max minSize.w x
  h := rules.minHeight.elim minSize.h fun x => max minSize.h x

/-- Zero is no maximum. -/
def limitBy (size : ℤ) : Option ℕ → ℤ
  | none => size
  | some x => if size = 0 then x else if 0 < x then min size x else size

def applyMaxSize (rules : WindowRules) (maxSize : Layout.ISize) : Layout.ISize where
  w := limitBy maxSize.w rules.maxWidth
  h := limitBy maxSize.h rules.maxHeight

def computeOpenFloating (rules : WindowRules) (parent : Option ℕ) (minSize maxSize : Layout.ISize) :
    Bool :=
  match rules.openFloating with
  | some res => res
  | none =>
    -- Windows with a parent (usually dialogs) open as floating by default.
    if parent.isSome then true
    else
      let minHeight := (rules.applyMinSize minSize).h
      -- We open fixed-height windows as floating.
      0 < minHeight && minHeight == (rules.applyMaxSize maxSize).h

end WindowRules

end XdgShell

namespace Layout

open XdgShell

/-! The size that a new window is configured with. -/

/-- Without the border, if there is one. -/
def ResolvedSize.withoutBorder (border : Border) : ResolvedSize → ℚ
  | tile size => if border.off then size else size - border.width * 2
  | window size => size

def ScrollingSpace.newWindowSize (s : ScrollingSpace) (width height : Option PresetSize)
    (rules : ResolvedWindowRules) : ISize :=
  let border := s.options.border.mergedWith rules.border
  let willTab := rules.defaultColumnDisplay.getD s.options.defaultColumnDisplay = .tabbed
  let extra := if willTab then s.options.tabIndicator.extraSize 1 s.scale else ⟨0, 0⟩
  let resolve (size : PresetSize) (available extra : ℚ) : ℚ :=
    (resolvePresetSize size s.options available extra).withoutBorder border
  let fullHeight := s.workingArea.size.h - s.options.gaps * 2
  let fullHeight := if border.off then fullHeight else fullHeight - border.width * 2
  ⟨width.elim 0 fun size => max 1 ⌊resolve size s.workingArea.size.w extra.w⌋,
    max ⌊height.elim fullHeight fun size =>
      min (resolve size s.workingArea.size.h extra.h) fullHeight⌋ 1⟩

def FloatingSpace.newWindowSize (s : FloatingSpace) (width height : Option PresetSize)
    (rules : ResolvedWindowRules) : ISize :=
  let border := s.options.border.mergedWith rules.border
  let resolve (size : Option PresetSize) (available : ℚ) : ℤ :=
    size.elim 0 fun size => max 1 ⌊(match size with
      | .proportion p => ResolvedSize.tile (available * p)
      | .fixed f => ResolvedSize.window f).withoutBorder border⌋
  ⟨resolve width s.workingArea.size.w, resolve height s.workingArea.size.h⟩

def Workspace.newWindowSize (ws : Workspace) (width height : Option PresetSize) (isFloating : Bool)
    (rules : WindowRules) (minSize maxSize : ISize) : ISize :=
  let size := if isFloating then ws.floating.newWindowSize width height rules.layout
    else ws.scrolling.newWindowSize width height rules.layout
  let minSize := rules.applyMinSize minSize
  let maxSize := rules.applyMaxSize maxSize
  ⟨ensureMinMaxSizeMaybeZero size.w minSize.w maxSize.w,
    -- For scrolling only ensure fixed height, since at runtime it will only honor fixed height.
    if minSize.h = maxSize.h then ensureMinMaxSize size.h minSize.h maxSize.h
    else if 0 < size.h then max size.h minSize.h
    else size.h⟩

def Workspace.resolveDefaultWidth (columnWidth : Option PresetSize)
    (defaultWidth : Option (Option PresetSize)) (isFloating : Bool) : Option PresetSize :=
  match defaultWidth with
  | some width => width
  | none => if isFloating then none else columnWidth

/-- There is no global default height. -/
def Workspace.resolveDefaultHeight (defaultHeight : Option (Option PresetSize)) : Option PresetSize :=
  defaultHeight.join

/-! Looking things up. -/

def Monitor.findNamedWorkspace (m : Monitor) (name : String) : Option Workspace :=
  m.workspaces.find? (·.isNamed name)

def monitorForOutput (l : Layout) (output : Output) : Option Monitor :=
  l.monitors.find? (·.output.same output)

def monitorForWorkspace (l : Layout) (name : String) : Option Monitor :=
  l.monitors.find? (·.workspaces.any (·.isNamed name))

/-- Where a window is, if it is in the layout. -/
def findOutputOfWindow (l : Layout) (window : ℕ) : Option (Option Output) :=
  match l.moving.filter (·.tile.id == window) with
  | some d => some (some d.output)
  | none =>
    match l.monitorSet with
    | .normal monitors _ _ => (monitors.find? (·.hasWindow window)).map fun m => some m.output
    | .noOutputs workspaces => (workspaces.find? (·.hasWindow window)).map fun _ => none

end Layout

namespace XdgShell

open Layout

/-- The state that the next configure of a toplevel sends. -/
structure ToplevelState where
  fullscreen : Bool
  maximized : Bool
  size : Option Layout.ISize
  deriving DecidableEq, Repr

def ToplevelState.mode (state : ToplevelState) : SizingMode :=
  if state.fullscreen then .fullscreen else if state.maximized then .maximized else .normal

/-- What a window is configured for. The output is not set if the window follows its parent. -/
structure Configured where
  rules : WindowRules
  width : Option PresetSize
  height : Option PresetSize
  floatingWidth : Option PresetSize
  floatingHeight : Option PresetSize
  isFullWidth : Bool
  output : Option Output
  workspaceName : Option String
  isPendingMaximized : Bool
  deriving DecidableEq, Repr

inductive InitialConfigureState where
  | notConfigured (wantsFullscreen : Option (Option Output)) (wantsMaximized : Bool)
  | configured (configured : Configured)
  deriving DecidableEq, Repr

/-- What the handlers read besides the toplevel: the layout, the outputs of the global space, and the
default column widths of the workspaces; and what the client set. -/
structure Surroundings where
  layout : Layout
  outputs : List Output
  defaultColumnWidth : ℕ → Option PresetSize
  parent : Option ℕ
  minSize : Layout.ISize
  maxSize : Layout.ISize

/-- A toplevel, unmapped or in the layout. -/
structure State extends Surroundings where
  id : ℕ
  pending : ToplevelState
  unmapped : Option InitialConfigureState

namespace Surroundings

variable (s : Surroundings)

/-- The monitor of the parent or, if there is none, the active one. The flag tells them apart. -/
def parentOrActiveMonitor : Option (Monitor × Bool) :=
  let output := (s.parent.bind s.layout.findOutputOfWindow).join
  ((output.bind s.layout.monitorForOutput).map (·, true)).or
    (s.layout.activeMonitor.map (·, false))

/-- If we're following the parent, don't set the target output. -/
def targetOutput (mon : Option (Monitor × Bool)) : Option Output :=
  (mon.filter (!·.2)).map (·.1.output)

/-- The active workspace of the monitor or, without one, of the layout. -/
def activeWorkspaceOf : Option (Monitor × Bool) → Option (Option Workspace)
  | some (m, _) => m.activeWorkspace.map some
  | none => some s.layout.activeWorkspace

/-- With a name and a monitor, the workspace with that name there. -/
def workspaceFor (name : Option String) (mon : Option (Monitor × Bool)) :
    Option (Option Workspace) :=
  match name, mon with
  | some name, some (m, _) => some (m.findNamedWorkspace name)
  | _, _ => s.activeWorkspaceOf mon

def isFloating (rules : WindowRules) : Bool := rules.computeOpenFloating s.parent s.minSize s.maxSize

/-- The size for the likely workspace. -/
def configureNewWindow (ws : Workspace) (state : ToplevelState) (width height : Option PresetSize)
    (isFloating : Bool) (rules : WindowRules) : ToplevelState :=
  { state with size := some (
      if state.fullscreen then ws.viewSize.toI32Round
      else if state.maximized then ws.workingArea.size.toI32Round
      else ws.newWindowSize width height isFloating rules s.minSize s.maxSize) }

/-- The size that a configured window would get in the normal mode. -/
def configureNormal (c : Configured) (ws : Workspace) (state : ToplevelState) : ToplevelState :=
  let isFloating := s.isFloating c.rules
  s.configureNewWindow ws state
    (if isFloating then c.floatingWidth
    else if c.isFullWidth then some (.proportion 1)
    else c.width)
    (if isFloating then c.floatingHeight else c.height) isFloating c.rules

/-! Requests after the initial configure. -/

/-- The monitor for a request of a mode. -/
def monitorForRequest (output : Option Output) : Option (Monitor × Bool) :=
  ((output.bind s.layout.monitorForOutput).map (·, false)).or s.parentOrActiveMonitor

/-- The monitor for going back from a mode: the one of the workspace comes first. -/
def monitorForUnset (c : Configured) : Option (Monitor × Bool) :=
  ((c.workspaceName.bind s.layout.monitorForWorkspace).map (·, false)).or
    (s.monitorForRequest c.output)

def maximizeConfigured (c : Configured) (state : ToplevelState) :
    Option (Configured × ToplevelState) := do
  let mon := s.monitorForRequest c.output
  let c := { c with output := targetOutput mon }
  match ← s.activeWorkspaceOf mon with
  | none => return (c, state)
  | some ws =>
    -- If the window is pending fullscreen, the state remains, and we remember the maximized one.
    let state := if state.fullscreen then state else { state with maximized := true }
    return ({ c with isPendingMaximized := true },
      s.configureNewWindow ws state none none false c.rules)

def unmaximizeConfigured (c : Configured) (state : ToplevelState) :
    Option (Configured × ToplevelState) := do
  let mon := s.monitorForUnset c
  let c := { c with output := targetOutput mon }
  match ← s.workspaceFor c.workspaceName mon with
  | none => return (c, state)
  | some ws =>
    return ({ c with isPendingMaximized := false },
      s.configureNormal c ws { state with maximized := false })

def fullscreenConfigured (requestedOutput : Option Output) (c : Configured) (state : ToplevelState) :
    Option (Configured × ToplevelState) := do
  let mon := s.monitorForRequest (requestedOutput.or c.output)
  let c := { c with output := targetOutput mon }
  match ← s.activeWorkspaceOf mon with
  | none => return (c, state)
  | some ws =>
    return (c, s.configureNewWindow ws { state with fullscreen := true, maximized := false } none none
      false c.rules)

def unfullscreenConfigured (c : Configured) (state : ToplevelState) :
    Option (Configured × ToplevelState) := do
  let mon := s.monitorForUnset c
  let c := { c with output := targetOutput mon }
  match ← s.workspaceFor c.workspaceName mon with
  | none => return (c, state)
  | some ws =>
    return (c, s.configureNormal c ws
      { state with fullscreen := false, maximized := state.maximized || c.isPendingMaximized })

/-! The initial configure. -/

/-- The target monitor: the one of the workspace in the rules, the output in the rules, the output
that was requested, the one of the parent, or else the active one. -/
def initialMonitor (rules : WindowRules) (wantsFullscreen : Option (Option Output)) :
    Option (Monitor × Bool) :=
  let ofWorkspace := rules.openOnWorkspace.bind s.layout.monitorForWorkspace
  let ofOutput := (rules.openOnOutput.bind fun name => s.outputs.find? (·.name.matches name)).bind
    s.layout.monitorForOutput
  -- The monitor might not exist if the output was disconnected.
  let requested := wantsFullscreen.join.bind s.layout.monitorForOutput
  (((ofWorkspace.or ofOutput).or requested).map (·, false)).or s.parentOrActiveMonitor

/-- The states based on what the window wants and the window rules. -/
def initialState (rules : WindowRules) (wantsFullscreen : Option (Option Output))
    (isPendingMaximized : Bool) (state : ToplevelState) : ToplevelState :=
  if (wantsFullscreen.isSome && rules.openFullscreen.isNone) || rules.openFullscreen == some true then
    { state with fullscreen := true }
  else if isPendingMaximized then { state with maximized := true }
  else state

def sendInitialConfigure (rules : WindowRules) (wantsFullscreen : Option (Option Output))
    (wantsMaximized : Bool) (state : ToplevelState) : Option (Configured × ToplevelState) := do
  let mon := s.initialMonitor rules wantsFullscreen
  let c : Configured :=
    { rules := rules
      width := none
      height := none
      floatingWidth := none
      floatingHeight := none
      isFullWidth := rules.openMaximized.getD false
      output := targetOutput mon
      workspaceName := none
      isPendingMaximized := false }
  -- Tell the surface the preferred size and bounds for its likely output.
  match ← s.workspaceFor rules.openOnWorkspace mon with
  | none => return (c, state)
  | some ws =>
    let isPendingMaximized := (wantsMaximized && rules.openMaximizedToEdges.isNone) ||
      rules.openMaximizedToEdges == some true
    let columnWidth := s.defaultColumnWidth ws.id
    let c := { c with
      width := Workspace.resolveDefaultWidth columnWidth rules.defaultWidth false
      height := Workspace.resolveDefaultHeight rules.defaultHeight
      floatingWidth := Workspace.resolveDefaultWidth columnWidth rules.defaultWidth true
      floatingHeight := Workspace.resolveDefaultHeight rules.defaultHeight
      workspaceName := ws.name
      isPendingMaximized := isPendingMaximized }
    return (c, s.configureNormal c ws (initialState rules wantsFullscreen isPendingMaximized state))

end Surroundings

end XdgShell

end Macniri
