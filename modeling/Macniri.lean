import Macniri.Lib.HashMap
import Macniri.Ipc.State
import Macniri.Ipc.Workspaces
import Macniri.Ipc.Windows
import Macniri.Ipc.EventStream
import Macniri.Layout.Basic
import Macniri.Layout.Tile
import Macniri.Lib.ListEdit
import Macniri.Scrolling.Column
import Macniri.Scrolling.ColumnInvariant
import Macniri.Scrolling.ColumnOps
import Macniri.Scrolling.Effects
import Macniri.Scrolling.MoveEffects
import Macniri.Scrolling.SizingEffects
import Macniri.Scrolling.Step
import Macniri.Scrolling.StoredOffsets
import Macniri.Scrolling.Windows
import Macniri.Scrolling.Columns
import Macniri.Scrolling.ActiveWindow
import Macniri.Scrolling.KeepsFocus
import Macniri.Lib.Nearest
import Macniri.Scrolling.InsertPosition
import Macniri.Layout.ActiveWorkspace
import Macniri.Layout.DropTile
import Macniri.Scrolling.ViewFit
import Macniri.Scrolling.Distribution
import Macniri.Scrolling.Heights
import Macniri.Scrolling.LoneTile
import Macniri.Scrolling.AutoHeights
import Macniri.Scrolling.Swap
import Macniri.Scrolling.ColumnPositions
import Macniri.Scrolling.OpenClose
import Macniri.Scrolling.NoJumps
import Macniri.Scrolling.InView
import Macniri.Scrolling.RoomFor
import Macniri.Floating.Space
import Macniri.Floating.Windows
import Macniri.Floating.Focus
import Macniri.Lib.Stacking
import Macniri.Floating.Stacking
import Macniri.Floating.StackingRun
import Macniri.Layout.Config
import Macniri.Layout.Workspace
import Macniri.Layout.WorkspaceOps
import Macniri.Layout.WorkspaceEffects
import Macniri.Layout.WorkspaceSteps
import Macniri.Layout.WorkspaceFocus
import Macniri.Layout.Monitor
import Macniri.Layout.MonitorSet
import Macniri.Layout.Windows
import Macniri.Layout.Ops
import Macniri.Layout.MonitorInvariant
import Macniri.Layout.MonitorWindows
import Macniri.Layout.MonitorEffects
import Macniri.Layout.MonitorWorkspaces
import Macniri.Layout.MonitorRun
import Macniri.Layout.NamedWorkspaces
import Macniri.Layout.Reload
import Macniri.Layout.WorkspaceOutput
import Macniri.Layout.MonitorOutput
import Macniri.Layout.Step
import Macniri.Layout.Homes
import Macniri.Layout.HomesSteps
import Macniri.Layout.HomesOps
import Macniri.Layout.HomesRun
import Macniri.Layout.Reconnect
import Macniri.OutputManagement.State
import Macniri.OutputManagement.View
import Macniri.OutputManagement.Frame
import Macniri.OutputManagement.Mirror
import Macniri.OutputManagement.Run
import Macniri.OutputManagement.Outcome
import Macniri.OutputManagement.Managers
import Macniri.OutputManagement.Independence
import Macniri.OutputManagement.Apply
import Macniri.Window.Mapped
import Macniri.Window.Toplevel
import Macniri.Window.Convergence
import Macniri.Window.RequestSizeOnce
import Macniri.Window.Transaction
import Macniri.Window.PreCommit
import Macniri.Window.Blocking
import Macniri.ExtWorkspace.State
import Macniri.ExtWorkspace.View
import Macniri.ExtWorkspace.Mirror
import Macniri.ExtWorkspace.Refresh
import Macniri.ExtWorkspace.Managers
import Macniri.ExtWorkspace.Run
import Macniri.SessionLock.Render
import Macniri.SessionLock.State
import Macniri.SessionLock.Confirmation
import Macniri.SessionLock.Noninterference
import Macniri.NiriConfig.Binds
import Macniri.NiriConfig.Parse
import Macniri.NiriConfig.Expansion
import Macniri.NiriConfig.Includes
import Macniri.NiriConfig.IncludeChains
import Macniri.Lib.Query
import Macniri.NiriConfig.Load
import Macniri.NiriConfig.Watcher
import Macniri.Input.Keyboard
import Macniri.Input.Winit
import Macniri.FrameCallbacks
import Macniri.ForeignToplevel.State
import Macniri.ForeignToplevel.View
import Macniri.ForeignToplevel.Mirror
import Macniri.ForeignToplevel.Refresh
import Macniri.ForeignToplevel.Handles
import Macniri.ForeignToplevel.Tracks
import Macniri.ForeignToplevel.Managers
import Macniri.ForeignToplevel.Run
import Macniri.Lib.Cursor
import Macniri.Ui.Mru
import Macniri.Ui.MruCommit
import Macniri.Screencopy.State
import Macniri.Screencopy.Answers
import Macniri.Screencopy.Run
import Macniri.Input.PointContents
import Macniri.Ui.ScreenshotUi
import Macniri.Layer.Surfaces
import Macniri.Lib.FirstMatch
import Macniri.Scrolling.OwnColumn
import Macniri.Layout.Tiled
import Macniri.XdgShell.Unmapped
import Macniri.XdgShell.Step
import Macniri.XdgShell.Mode
import Macniri.Floating.Position
import Macniri.Floating.ActiveRectangle
import Macniri.Niri.RepositionOutputs
import Macniri.Scrolling.ExpandFills
import Macniri.Layout.SoundRun
import Macniri.Layout.Conserved
import Macniri.Layout.ColumnToOutput
import Macniri.Animation.Clock
import Macniri.FrameClock
import Macniri.Lib.Truncate
import Macniri.Input.ScrollTracker
import Macniri.NiriConfig.OutputName
import Macniri.Layout.TabIndicator
import Macniri.Lib.Moved
import Macniri.Layout.ReorderFocus
import Macniri.Layout.Standing
import Macniri.Layout.MovedFullscreen
import Macniri.Scrolling.ConsumeExpel
import Macniri.Layout.Checks
import Macniri.Window.Rules
import Macniri.Lib.Held
import Macniri.Dbus.ScreenSaver
import Macniri.Input.BindTimers
