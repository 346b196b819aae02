import Macniri.Layout.MonitorWindows
import Macniri.Layout.Ops
import Macniri.Scrolling.OwnColumn

/-! A window that is alone in a column of its workspace, and the requests that change its mode. -/
namespace Macniri.Layout

open Option List

variable {window : ℕ} {w w' : Wishes} {v : Bool} {renderPos : Point}

/-- The default height of a new window ends the maximized state. -/
def Wishes.opened (w : Wishes) (height : Option PresetSize) : Wishes :=
  if height.isSome then { w with maximized := false } else w

namespace Workspace

variable {ws ws' : Workspace} {tile : Tile}

/-- The window is not floating, and its column wants what the window wants. -/
structure Tiled (window : ℕ) (w : Wishes) (ws : Workspace) : Prop where
  floating : ws.floating.hasWindow window = false
  scrolling : ws.scrolling.OwnColumn window w

/-- The tile of the window on its workspace. -/
theorem Tiled.find?_tiles (h : ws.Tiled window w) :
    ∃ t, ws.tiles.find? (·.id == window) = some t ∧ t.window.pendingSizingMode = w.mode ∧
      t.Unmarked := by
  obtain ⟨t, ht, hmode, hmarks⟩ := h.scrolling.findTile
  refine ⟨t, ?_, hmode, hmarks⟩
  rw [tiles, find?_append]
  exact (congrArg (Option.or · _) ht).trans some_or

theorem Tiled.hasWindow (h : ws.Tiled window w) : ws.hasWindow window = true := by
  obtain ⟨t, ht, -⟩ := h.find?_tiles
  have hid : (t.id == window) = true := by simpa using find?_some ht
  exact List.any_eq_true.mpr ⟨t, mem_of_find?_eq_some ht, hid⟩

theorem Tiled.setScrollingPending {set : ScrollingSpace → Option ScrollingSpace}
    (h : ws.Tiled window w) (hset : ∀ s, set ws.scrolling = some s → s.OwnColumn window w')
    (hws : ws.setScrollingPending window false set = some ws') : ws'.Tiled window w' := by
  obtain ⟨t, -, hws⟩ := of_bind hws
  obtain ⟨s, hs, hws⟩ := of_bind hws
  obtain ⟨t', -, rfl⟩ := of_bind_some hws
  refine ⟨h.floating, ?_⟩
  dsimp only
  split
  · exact (hset s hs).modifyTile
  · exact hset s hs

theorem Tiled.setFullscreen (h : ws.Tiled window w)
    (hws : ws.setFullscreen window v renderPos = some ws') :
    ws'.Tiled window { w with fullscreen := v } := by
  unfold Workspace.setFullscreen at hws
  rw [h.floating] at hws
  simp only [Bool.false_eq_true, if_false] at hws
  cases v with
  | true =>
    rw [if_pos rfl] at hws
    exact h.setScrollingPending (fun _ hs => h.scrolling.setFullscreen hs) hws
  | false =>
    simp only [Bool.false_eq_true, if_false] at hws
    obtain ⟨toFloating, hto, hws⟩ := of_bind hws
    -- The tile does not come back to floating.
    have hstays : toFloating = false := by
      obtain ⟨c, hc, hown⟩ := h.scrolling.find?
      obtain ⟨c', hc', hto⟩ := of_bind hto
      obtain rfl := some.inj (hc.symm.trans hc')
      obtain ⟨t, ht, rfl⟩ := of_bind_some hto
      rw [(hown.unmarked t (mem_of_find?_eq_some ht)).restore, Bool.and_false]
    rw [hstays, if_neg Bool.false_ne_true] at hws
    exact h.setScrollingPending (fun _ hs => h.scrolling.setFullscreen hs) hws

theorem Tiled.setMaximized (h : ws.Tiled window w)
    (hws : ws.setMaximized window v renderPos = some ws') :
    ws'.Tiled window { w with maximized := v } := by
  unfold Workspace.setMaximized at hws
  rw [h.floating] at hws
  simp only [Bool.false_eq_true, if_false] at hws
  cases v with
  | true =>
    rw [if_pos rfl] at hws
    exact h.setScrollingPending (fun _ hs => h.scrolling.setMaximized hs) hws
  | false =>
    simp only [Bool.false_eq_true, if_false] at hws
    obtain ⟨toFloating, hto, hws⟩ := of_bind hws
    have hstays : toFloating = false := by
      obtain ⟨t, ht, -, hmarks⟩ := h.scrolling.findTile
      obtain ⟨t', ht', hto⟩ := of_bind hto
      obtain rfl := some.inj (ht.symm.trans ht')
      obtain rfl := some.inj hto
      rw [hmarks.restore, Bool.and_false]
    rw [hstays, if_neg Bool.false_ne_true] at hws
    exact h.setScrollingPending (fun _ hs => h.scrolling.setMaximized hs) hws

/-! Opening. -/

theorem tiled_addTile {target : WorkspaceAddWindowTarget} {activate : ActivateWindow}
    {width : ColumnWidth} {isFullWidth : Bool} (hfresh : ws.hasWindow tile.id = false)
    (hwindowed : tile.window.isPendingWindowedFullscreen = false)
    (hws : ws.addTile tile target activate width isFullWidth false renderPos = some ws') :
    ws'.Tiled tile.id (.ofMode tile.window.pendingSizingMode) := by
  obtain ⟨hscrolling, hfloating⟩ : ws.scrolling.hasWindow tile.id = false ∧
      ws.floating.hasWindow tile.id = false := by
    have hall : ∀ t ∈ ws.tiles, ¬(t.id == tile.id) = true := List.any_eq_false.mp hfresh
    constructor
    · refine List.any_eq_false.mpr fun c hc hcontains => ?_
      obtain ⟨t, ht, hid⟩ := List.any_eq_true.mp hcontains
      exact hall t (mem_append_left _ (mem_flatMap.mpr ⟨c, hc, ht⟩)) hid
    · exact List.any_eq_false.mpr fun t ht => hall t (mem_append_right _ ht)
  obtain ⟨pos, a, ⟨hf, -⟩ | ⟨colIdx, width', isFullWidth', s, hs, rfl⟩⟩ := addTile_cases hws
  · cases hf
  · let placed : Tile := { tile with restoreToFloating := false, floatingPos := pos }
    have hmarks : placed.Unmarked := ⟨rfl, hwindowed⟩
    have hplaced : ws.scrolling.hasWindow placed.id = false := hscrolling
    have hown := ScrollingSpace.ownColumn_addTile hplaced hmarks hs
    unfold focusAddedScrolling
    split
    · exact ⟨hfloating, hown⟩
    · exact ⟨hfloating, hown⟩

theorem Tiled.setOpeningHeight (h : ws.Tiled window w) {opening : WindowOpening}
    (htiled : opening.isFloating = false) (hws : ws.setOpeningHeight window opening = some ws') :
    ws'.Tiled window (w.opened opening.height) := by
  unfold Workspace.setOpeningHeight at hws
  unfold Wishes.opened
  cases hheight : opening.height with
  | none =>
    rw [hheight] at hws
    exact some.inj hws ▸ h
  | some height =>
    rw [hheight] at hws
    dsimp only at hws
    rw [htiled, if_neg Bool.false_ne_true] at hws
    have htargets : ws.targetsFloating (some window) = false := h.floating
    unfold setWindowHeight onSpaceOf at hws
    rw [htargets, if_neg Bool.false_ne_true] at hws
    obtain ⟨s, hs, rfl⟩ := of_map hws
    exact ⟨h.floating, h.scrolling.setWindowHeight hs⟩

end Workspace

/-- The window is tiled on the first workspace that has it. -/
def TiledIn (window : ℕ) (w : Wishes) (workspaces : List Workspace) : Prop :=
  ∃ ws, workspaces.find? (·.hasWindow window) = some ws ∧ ws.Tiled window w

namespace Monitor

variable {m m' : Monitor} {tile : Tile} {i : ℕ}

theorem tiledIn_addWorkspaceAt (h : TiledIn window w m.workspaces) (i : ℕ) :
    TiledIn window w (m.addWorkspaceAt i).workspaces := by
  obtain ⟨ws, hws, htiled⟩ := h
  refine ⟨ws, ?_, htiled⟩
  rw [← hws]
  exact find?_insertIdx_of_not rfl i

theorem tiledIn_padEnds (h : TiledIn window w m.workspaces) (i : ℕ) :
    TiledIn window w (m.padEnds i).1.workspaces := by
  have hbottom : TiledIn window w
      (if i + 1 = m.workspaces.length then m.addWorkspaceBottom else m).workspaces := by
    split
    · exact tiledIn_addWorkspaceAt h _
    · exact h
  unfold padEnds
  dsimp only
  generalize (if i + 1 = m.workspaces.length then m.addWorkspaceBottom else m) = n at hbottom
  split
  · exact tiledIn_addWorkspaceAt hbottom 0
  · exact hbottom

theorem tiledIn_adoptWorkspace (h : TiledIn window w m.workspaces) (i : ℕ) :
    TiledIn window w (m.adoptWorkspace i).workspaces := by
  refine exists_find?_modify (fun ws => ?_) (fun ws hws => ?_) h i
  · split <;> rfl
  · split
    · exact ⟨hws.floating, hws.scrolling⟩
    · exact hws

theorem workspaces_activateIf {activate : Bool} (h : m.activateIf activate i = some m') :
    m'.workspaces = m.workspaces := by
  unfold activateIf at h
  split at h
  · obtain ⟨ws, -, rfl⟩ := of_bind_some h
    rfl
  · exact some.inj h ▸ rfl

theorem tiledIn_addTile {target : MonitorAddWindowTarget} {activate : ActivateWindow} {allow : Bool}
    {width : ColumnWidth} {isFullWidth : Bool}
    (hfresh : ∀ ws ∈ m.workspaces, ws.hasWindow tile.id = false)
    (hwindowed : tile.window.isPendingWindowedFullscreen = false)
    (hm : m.addTile tile target activate allow width isFullWidth false renderPos = some m') :
    TiledIn tile.id (.ofMode tile.window.pendingSizingMode) m'.workspaces := by
  obtain ⟨⟨wsIdx, wsTarget⟩, -, hm⟩ := of_bind hm
  obtain ⟨mt, hmt, hm⟩ := of_bind hm
  obtain ⟨ws, ws', hws, hadd, rfl⟩ := onWorkspace_spec hmt
  have htiled := Workspace.tiled_addTile (hfresh ws (mem_of_getElem? hws)) hwindowed hadd
  have hset : TiledIn tile.id (.ofMode tile.window.pendingSizingMode)
      (m.setWorkspace wsIdx ws').workspaces :=
    ⟨ws', find?_set_of_not hfresh htiled.hasWindow (lt_length_of_getElem? hws), htiled⟩
  rw [workspaces_activateIf hm]
  exact tiledIn_padEnds (tiledIn_adoptWorkspace hset wsIdx) wsIdx

theorem tiledIn_openWindow {x : Window} {target : MonitorAddWindowTarget} {opening : WindowOpening}
    (hfresh : ∀ ws ∈ m.workspaces, ws.hasWindow x.id = false)
    (hwindowed : x.isPendingWindowedFullscreen = false) (htiled : opening.isFloating = false)
    (hm : m.openWindow x target opening = some m') :
    TiledIn x.id ((Wishes.ofMode x.pendingSizingMode).opened opening.height) m'.workspaces := by
  obtain ⟨⟨wsIdx, wsTarget⟩, -, hm⟩ := of_bind hm
  obtain ⟨ws, -, hm⟩ := of_bind hm
  obtain ⟨mt, hmt, hm⟩ := of_bind hm
  obtain ⟨first, -, hmt⟩ := of_bind hmt
  rw [htiled] at hmt
  have hadded : TiledIn x.id (.ofMode x.pendingSizingMode) mt.workspaces :=
    tiledIn_addTile hfresh hwindowed hmt
  obtain ⟨ws, hws, hopened⟩ := hadded
  obtain ⟨i, hi, hm⟩ := of_bind hm
  obtain ⟨u, u', hu, hset, rfl⟩ := onWorkspace_spec hm
  obtain rfl := some.inj ((find?_of_findIdx? hi hu).symm.trans hws)
  have hheight := hopened.setOpeningHeight htiled hset
  exact ⟨u', find?_set hi hheight.hasWindow, hheight⟩

end Monitor

variable {l l' : Layout}

/-- The window is in the layout, on a column of its own that wants what the window wants. -/
structure Tiled (window : ℕ) (w : Wishes) (l : Layout) : Prop where
  unmoved : l.isMoving window = false
  workspace : TiledIn window w l.workspaces

/-- The window of the layout is pending what it wants. -/
theorem Tiled.findWindow (h : l.Tiled window w) :
    ∃ x, l.findWindow window = some x ∧ x.pendingSizingMode = w.mode ∧
      x.isPendingWindowedFullscreen = false := by
  obtain ⟨ws, hws, htiled⟩ := h.workspace
  obtain ⟨t, ht, hmode, hmarks⟩ := htiled.find?_tiles
  refine ⟨t.window, ?_, hmode, hmarks.windowed⟩
  have hmoving : l.movingTile.toList.find? (·.id == window) = none := by
    have hunmoved := h.unmoved
    unfold isMoving at hunmoved
    cases htile : l.movingTile with
    | none => rfl
    | some u =>
      rw [htile] at hunmoved
      simpa using hunmoved
  unfold Layout.findWindow
  rw [find?_map, find?_append]
  have hrest : (l.workspaces.flatMap (·.tiles)).find? (·.id == window) = some t :=
    (find?_flatMap hws).trans ht
  exact congrArg (Option.map _) ((congrArg₂ Option.or hmoving hrest).trans none_or)

theorem find?_onFirstWorkspace {p : Workspace → Bool} {f : Workspace → Option Workspace}
    (h : l.onFirstWorkspace p f = some l') :
    ∃ ws ws', l.workspaces.find? p = some ws ∧ f ws = some ws' ∧
      (p ws' = true → l'.workspaces.find? p = some ws') ∧ l'.interactiveMove = l.interactiveMove := by
  unfold onFirstWorkspace at h
  split at h
  · rename_i monitors primaryIdx activeMonitorIdx hset
    obtain ⟨idx, hidx, h⟩ := of_bind h
    obtain ⟨m, hm, h⟩ := of_bind h
    obtain ⟨m', hm', rfl⟩ := of_bind_some h
    obtain ⟨m₀, hm₀, rfl⟩ := of_map hm
    obtain ⟨i, hi, hm'⟩ := of_bind hm'
    obtain ⟨ws, ws', hws, hf, rfl⟩ := Monitor.onWorkspace_spec hm'
    have hmonitors : l.monitors = monitors := by simp [Layout.monitors, hset]
    rw [hmonitors] at hm₀
    refine ⟨ws, ws', ?_, hf, fun hp => ?_, ?_⟩
    · simp only [Layout.workspaces, hset]
      exact (find?_flatMap (find?_of_findIdx? hidx hm₀)).trans (find?_of_findIdx? hi hws)
    · simp only [Layout.workspaces, setMonitor, hset]
      refine (find?_flatMap (find?_set hidx ?_)).trans (find?_set hi hp)
      exact List.any_eq_true.mpr ⟨ws', mem_of_getElem? (getElem?_set_self
        (lt_length_of_getElem? hws)), hp⟩
    · simp only [setMonitor, hset]
  · rename_i workspaces hset
    obtain ⟨idx, hidx, h⟩ := of_bind h
    obtain ⟨ws, hws, h⟩ := of_bind h
    obtain ⟨ws', hws', rfl⟩ := of_bind_some h
    refine ⟨ws, ws', ?_, hws', fun hp => ?_, rfl⟩
    · simpa only [Layout.workspaces, hset] using find?_of_findIdx? hidx hws
    · exact find?_set hidx hp

/-- An operation of the workspace of a tiled window. -/
theorem Tiled.onUnmoved {f : Workspace → Option Workspace} (h : l.Tiled window w)
    (hf : ∀ ws ws', ws.Tiled window w → f ws = some ws' → ws'.Tiled window w')
    (hl : l.onUnmoved window f = some l') : l'.Tiled window w' := by
  obtain ⟨ws, hws, htiled⟩ := h.workspace
  have hany : l.workspaces.any (·.hasWindow window) = true :=
    List.any_eq_true.mpr ⟨ws, mem_of_find?_eq_some hws, htiled.hasWindow⟩
  unfold Layout.onUnmoved onWorkspaceOf at hl
  rw [h.unmoved, if_neg Bool.false_ne_true, hany, if_pos rfl] at hl
  obtain ⟨u, u', hu, hf', hfind, hmove⟩ := find?_onFirstWorkspace hl
  obtain rfl := some.inj (hu.symm.trans hws)
  have htiled' := hf u u' htiled hf'
  refine ⟨?_, u', hfind htiled'.hasWindow, htiled'⟩
  have hunmoved := h.unmoved
  unfold isMoving movingTile moving at hunmoved ⊢
  rwa [hmove]

theorem Tiled.setFullscreen (h : l.Tiled window w)
    (hl : l.setFullscreen window v renderPos = some l') :
    l'.Tiled window { w with fullscreen := v } := by
  obtain ⟨x, hx, -, hwindowed⟩ := h.findWindow
  unfold Layout.setFullscreen at hl
  rw [hx, any_some, hwindowed, if_neg (by simp)] at hl
  exact h.onUnmoved (fun _ _ hws => hws.setFullscreen) hl

theorem Tiled.setMaximized (h : l.Tiled window w) (hl : l.setMaximized window v renderPos = some l') :
    l'.Tiled window { w with maximized := v } :=
  h.onUnmoved (fun _ _ hws => hws.setMaximized) hl

theorem workspaces_activateMonitorIf (l : Layout) (activate : Bool) (idx : ℕ) :
    (l.activateMonitorIf activate idx).workspaces = l.workspaces := by
  unfold activateMonitorIf activateMonitor
  split
  · split
    · rename_i hset
      simp only [Layout.workspaces, hset]
    · rfl
  · rfl

theorem interactiveMove_activateMonitorIf (l : Layout) (activate : Bool) (idx : ℕ) :
    (l.activateMonitorIf activate idx).interactiveMove = l.interactiveMove := by
  unfold activateMonitorIf activateMonitor
  split
  · split <;> rfl
  · rfl

/-- A new window that opens tiled, with an output to open on. -/
theorem tiled_addWindow {x : Window} {target : AddWindowTarget} {opening : WindowOpening}
    (hconnected : l.activeMonitor.isSome = true) (hmoving : l.isMoving x.id = false)
    (hfresh : ∀ ws ∈ l.workspaces, ws.hasWindow x.id = false)
    (hwindowed : x.isPendingWindowedFullscreen = false) (htiled : opening.isFloating = false)
    (hl : l.addWindow x target opening = some l') :
    l'.Tiled x.id ((Wishes.ofMode x.pendingSizingMode).opened opening.height) := by
  unfold addWindow at hl
  split at hl
  · rename_i monitors primaryIdx activeMonitorIdx hset
    obtain ⟨⟨idx, monTarget⟩, -, hl⟩ := of_bind hl
    obtain ⟨lt, hlt, rfl⟩ := of_bind_some hl
    obtain ⟨m, hm, hlt⟩ := of_bind hlt
    obtain ⟨m', hm', rfl⟩ := of_bind_some hlt
    obtain ⟨m₀, hm₀, rfl⟩ := of_map hm
    have hmonitors : l.monitors = monitors := by simp [Layout.monitors, hset]
    rw [hmonitors] at hm₀
    have hnone : ∀ m ∈ monitors, ∀ ws ∈ m.workspaces, ws.hasWindow x.id = false := by
      intro m hm ws hws
      refine hfresh ws ?_
      simp only [Layout.workspaces, hset]
      exact mem_flatMap.mpr ⟨m, hm, hws⟩
    have hnone₀ : ∀ ws ∈ ({ m₀ with nextId := l.nextId } : Monitor).workspaces,
        ws.hasWindow x.id = false := hnone m₀ (mem_of_getElem? hm₀)
    obtain ⟨ws, hws, hopened⟩ := Monitor.tiledIn_openWindow hnone₀ hwindowed htiled hm'
    have hset' : (monitors.set idx m').find? (·.workspaces.any (·.hasWindow x.id)) = some m' := by
      refine find?_set_of_not (fun m hm => ?_) ?_ (lt_length_of_getElem? hm₀)
      · exact List.any_eq_false.mpr fun ws hws => by simp [hnone m hm ws hws]
      · exact List.any_eq_true.mpr ⟨ws, mem_of_find?_eq_some hws, hopened.hasWindow⟩
    have hfind : (l.setMonitor idx m').workspaces.find? (·.hasWindow x.id) = some ws := by
      simp only [Layout.workspaces, setMonitor, hset]
      exact (find?_flatMap hset').trans hws
    have hmove : (l.setMonitor idx m').interactiveMove = l.interactiveMove := by
      simp only [setMonitor, hset]
    refine ⟨?_, ws, ?_, hopened⟩
    · rw [← hmoving]
      unfold isMoving movingTile moving
      rw [interactiveMove_activateMonitorIf, hmove]
    · rw [workspaces_activateMonitorIf]
      exact hfind
  · rename_i workspaces hset
    simp [activeMonitor, activeMonitorIdx, hset] at hconnected

end Macniri.Layout
