import Macniri.Layout.ActiveWorkspace
import Macniri.Layout.Windows
import Macniri.Scrolling.InsertPosition
import Macniri.Scrolling.KeepsFocus
import Macniri.Scrolling.Swap

/-! The end of an interactive move: the window is inserted where its hint was. -/
namespace Macniri.Layout

open Option

namespace ScrollingSpace

variable {s s' : ScrollingSpace} {i k t w : ℕ} {tile : Tile} {p : InsertPosition}

/-- The windows of a space after a window was inserted. -/
def InsertedAt (s : ScrollingSpace) (w : ℕ) (s' : ScrollingSpace) : InsertPosition → Prop
  | .newColumn i => s'.arrangement = s.arrangement.insertIdx i [w]
  | .inColumn k t => ∃ ids, s.arrangement[k]? = some ids ∧
    s'.arrangement = s.arrangement.set k (ids.insertIdx t w)
  | .floating => False

theorem exists_addTile_inserted (hi : i ≤ s.columns.length) (tile : Tile) (width : ColumnWidth)
    (isFullWidth : Bool) : ∃ s', s.addTile (some i) tile true width isFullWidth = some s' ∧
      s.InsertedAt tile.id s' (.newColumn i) ∧ s'.activeId = some tile.id := by
  have hidx : s.insertionIdx (some i) ≤ s.columns.length := hi
  obtain ⟨s', h⟩ := exists_addColumn hidx
    (Column.newWithTile tile s.viewSize s.workingArea s.parentArea s.scale width isFullWidth) true
  refine ⟨s', h, ?_, activeId_addTile_true h⟩
  have hmap := map_addColumn windowIds_ignores_animation h
  have hnew (c : Column) : (s.adopt c).windowIds = c.windowIds := Column.windowIds_updateConfig
  rw [hnew, Column.windowIds_newWithTile] at hmap
  exact hmap

theorem exists_addTileToColumn_inserted {c : Column} (hc : s.columns[k]? = some c)
    (ht : t ≤ c.tiles.length) (tile : Tile) :
    ∃ s', s.addTileToColumn k (some t) tile true = some s' ∧
      s.InsertedAt tile.id s' (.inColumn k t) ∧ s'.activeId = some tile.id := by
  obtain ⟨s', h⟩ := exists_addTileToColumn_of_le hc (some t) ht tile true
  refine ⟨s', h, ⟨c.windowIds, ?_, ?_⟩, activeId_addTileToColumn_true h⟩
  · rw [arrangement, List.getElem?_map, hc]
    rfl
  · obtain ⟨d, hd, -, hmap⟩ := map_addTileToColumn windowIds_ignores_animation h
    obtain rfl := some.inj (hc.symm.trans hd)
    exact hmap.trans (congrArg _ (Column.windowIds_insertTile ..))

end ScrollingSpace

namespace Workspace

variable {ws : Workspace} {i k t : ℕ}

/-- The window is where the pointer was, and active. -/
structure Dropped (ws : Workspace) (w : ℕ) (position : InsertPosition) (ws' : Workspace) : Prop where
  id : ws'.id = ws.id
  inserted : ws.scrolling.InsertedAt w ws'.scrolling position
  floating : ws'.floating = ws.floating
  active : ws'.activeId = some w

theorem dropped_of_inserted {s : ScrollingSpace} {w : ℕ} {position : InsertPosition}
    (hinserted : ws.scrolling.InsertedAt w s position) (hactive : s.activeId = some w) :
    ws.Dropped w position ({ ws with scrolling := s }.focusAddedScrolling true) where
  id := rfl
  inserted := hinserted
  floating := rfl
  active := by
    unfold activeId
    rw [← hactive, ← ScrollingSpace.activeWindow_id]
    rfl

theorem exists_addTile_dropped (hi : i ≤ ws.scrolling.columns.length) (tile : Tile)
    (width : ColumnWidth) (isFullWidth : Bool) (renderPos : Point) : ∃ ws',
    ws.addTile tile (.newColumnAt i) .yes width isFullWidth false renderPos = some ws' ∧
      ws.Dropped tile.id (.newColumn i) ws' := by
  obtain ⟨s, hs, hinserted, hactive⟩ := ScrollingSpace.exists_addTile_inserted hi
    { tile with restoreToFloating := false } width isFullWidth
  refine ⟨_, ?_, dropped_of_inserted hinserted hactive⟩
  unfold addTile addScrolling liftScrolling
  dsimp only [ActivateWindow.mapSmart]
  rw [hs]
  rfl

theorem exists_addTileToColumn_dropped {c : Column} (hc : ws.scrolling.columns[k]? = some c)
    (ht : t ≤ c.tiles.length) (tile : Tile) : ∃ ws',
    ws.addTileToColumn k (some t) tile true = some ws' ∧ ws.Dropped tile.id (.inColumn k t) ws' := by
  obtain ⟨s, hs, hinserted, hactive⟩ := ScrollingSpace.exists_addTileToColumn_inserted hc ht tile
  refine ⟨_, ?_, dropped_of_inserted hinserted hactive⟩
  unfold addTileToColumn liftScrolling
  dsimp only
  rw [hs]
  rfl

theorem Dropped.adopted {w : ℕ} {position : InsertPosition} {ws' : Workspace}
    (h : ws.Dropped w position ws') (output : Output) :
    ws.Dropped w position (Monitor.adopted output ws') := by
  unfold Monitor.adopted
  split
  · exact ⟨h.id, h.inserted, h.floating, h.active⟩
  · exact h

end Workspace

namespace Monitor

variable {m m' mt : Monitor} {ws ws' : Workspace} {i k w : ℕ} {p : InsertPosition} {allow : Bool}

theorem exists_activateIf (h : m.activeWorkspace.isSome) (activate : Bool) (i : ℕ) :
    ∃ m', m.activateIf activate i = some m' := by
  obtain ⟨active, hactive⟩ := isSome_iff_exists.mp h
  unfold activateIf activateWorkspace
  rw [hactive]
  split <;> exact ⟨_, rfl⟩

/-- The workspace that the window is dropped on is filled, and shown unless in the overview. -/
structure DroppedOn (m : Monitor) (ws : Workspace) (w : ℕ) (p : InsertPosition) (allow : Bool)
    (m' : Monitor) (ws' : Workspace) : Prop where
  mem : ws' ∈ m'.workspaces
  dropped : ws.Dropped w p ws'
  active : allow = true → m'.activeWorkspace = some ws'

theorem isSome_filledAt (hactive : m.activeWorkspace.isSome) (hi : i < m.workspaces.length)
    (ws : Workspace) : (m.filledAt i ws).activeWorkspace.isSome := by
  rw [activeWorkspace_filledAt hi]
  split
  · rfl
  · exact hactive

/-- A filled workspace may be shown. -/
theorem exists_filled (hactive : m.activeWorkspace.isSome) (hi : i < m.workspaces.length) (ws : Workspace)
    (activate : Bool) :
    ∃ m', (((m.setWorkspace i ws).adoptWorkspace i).padEnds i).1.activateIf activate
      (((m.setWorkspace i ws).adoptWorkspace i).padEnds i).2 = some m' := by
  have hlen : (m.filledAt i ws).workspaces.length = m.workspaces.length := List.length_set
  have hpadded := padEnds_workspaces (m := m.filledAt i ws) (i := i) (by omega)
  rw [adoptWorkspace_setWorkspace hi ws]
  exact exists_activateIf (hpadded.2 ▸ isSome_filledAt hactive hi ws) activate _

theorem exists_addTile_droppedOn (hactive : m.activeWorkspace.isSome)
    (hi : m.workspaces.findIdx? (·.id == ws.id) = some i) (hws : m.workspaces[i]? = some ws)
    (hk : k ≤ ws.scrolling.columns.length) (tile : Tile) (width : ColumnWidth) (isFullWidth : Bool) :
    ∃ m' ws', m.addTile tile (.workspace ws.id (some k)) .yes allow width isFullWidth false ⟨0, 0⟩ =
        some m' ∧ m.DroppedOn ws tile.id (.newColumn k) allow m' ws' := by
  have hlt := lt_length_of_getElem? hws
  obtain ⟨ws', hadd, hdropped⟩ := Workspace.exists_addTile_dropped hk tile width isFullWidth ⟨0, 0⟩
  obtain ⟨mt, hmt⟩ : ∃ mt, mt = m.setWorkspace i ws' := ⟨_, rfl⟩
  obtain ⟨m', hm'⟩ := exists_filled hactive hlt ws' (allow && true)
  rw [← hmt] at hm'
  obtain ⟨hmem, hshown⟩ := filled_active hws hmt hm'
  refine ⟨m', adopted m.output ws', ?_, hmem, hdropped.adopted m.output, fun h => ?_⟩
  · unfold addTile resolveAddWindowTarget onWorkspace
    dsimp only [some_bind, pure]
    rw [hi]
    dsimp only [some_bind]
    rw [hws]
    dsimp only [some_bind]
    rw [hadd]
    dsimp only [some_bind]
    rw [← hmt]
    exact hm'
  · rw [hshown, h]
    rfl

theorem exists_addTileToColumn_droppedOn {c : Column} {t : ℕ} (hactive : m.activeWorkspace.isSome)
    (hws : m.workspaces[i]? = some ws) (hc : ws.scrolling.columns[k]? = some c)
    (ht : t ≤ c.tiles.length) (tile : Tile) :
    ∃ m' ws', m.addTileToColumn i k (some t) tile true allow = some m' ∧
      m.DroppedOn ws tile.id (.inColumn k t) allow m' ws' := by
  have hlt := lt_length_of_getElem? hws
  obtain ⟨ws', hadd, hdropped⟩ := Workspace.exists_addTileToColumn_dropped hc ht tile
  obtain ⟨m', hm'⟩ := exists_activateIf (isSome_filledAt hactive hlt ws') (allow && true) i
  have hself : (m.filledAt i ws').workspaces[i]? = some (adopted m.output ws') :=
    List.getElem?_set_self hlt
  refine ⟨m', adopted m.output ws', ?_, ?_, hdropped.adopted m.output, fun h => ?_⟩
  · unfold addTileToColumn onWorkspace
    dsimp only [some_bind, pure]
    rw [hws]
    dsimp only [some_bind]
    rw [hadd]
    dsimp only [some_bind]
    rw [adoptWorkspace_setWorkspace hlt]
    exact hm'
  · rw [(activateIf_spec hm').1]
    exact List.mem_of_getElem? hself
  · rw [activeWorkspace_activateIf hm', hself, h]
    rfl

/-- A window that is dropped where the pointer is gets there, and is active. -/
theorem exists_dropTile {d : InteractiveMoveData} (hactive : m.activeWorkspace.isSome)
    (hi : m.workspaces.findIdx? (·.id == ws.id) = some i) (hws : m.workspaces[i]? = some ws)
    (hd : d.isFloating = false) (hp : ws.scrolling.InRange p) (pos : Point) :
    ∃ m' ws', m.dropTile d ⟨.existing ws.id, p, pos⟩ allow = some m' ∧
      m.DroppedOn ws d.tile.id p allow m' ws' := by
  have hposition : dropPosition d.isFloating ⟨.existing ws.id, p, pos⟩ = p := by
    rw [hd]
    rfl
  unfold dropTile resolveInsertWorkspace
  dsimp only
  rw [hi]
  dsimp only [map_some, some_bind]
  rw [hws]
  dsimp only [some_bind]
  rw [hposition]
  cases p with
  | newColumn k => exact exists_addTile_droppedOn hactive hi hws hp d.tile d.width d.isFullWidth
  | inColumn k t =>
    obtain ⟨c, hc, ht⟩ := hp
    exact exists_addTileToColumn_droppedOn hactive hws hc ht d.tile
  | floating => exact hp.elim

end Monitor

/-- The place that is found for a dragged window is the gap nearest to the pointer. Neither the hint
nor the insertion at the end of the move indexes out of range with it, and the insertion puts the
window there. -/
theorem ScrollingSpace.insertPosition_nearest {s : ScrollingSpace} (hs : s.Inv) (h : s.Spread)
    (pos : Point) : ∃ p, s.insertPosition pos = some p ∧ s.IsNearest (s.aim pos) p ∧ s.InRange p ∧
      (∃ area, s.insertHintArea p = some area) ∧
      ∀ (m : Monitor) (ws : Workspace) (i : ℕ) (d : InteractiveMoveData) (at_ : Point) (allow : Bool),
        ws.scrolling = s → m.activeWorkspace.isSome →
        m.workspaces.findIdx? (·.id == ws.id) = some i → m.workspaces[i]? = some ws →
        d.isFloating = false →
        ∃ m' ws', m.dropTile d ⟨.existing ws.id, p, at_⟩ allow = some m' ∧
          m.DroppedOn ws d.tile.id p allow m' ws' := by
  obtain ⟨p, hp, hnearest⟩ := exists_insertPosition h hs pos
  have hrange := hnearest.inRange hs
  refine ⟨p, hp, hnearest, hrange, exists_insertHintArea hs hrange, ?_⟩
  rintro m ws i d at_ allow rfl hactive hi hws hd
  exact Monitor.exists_dropTile hactive hi hws hd hrange at_

namespace ScrollingSpace

theorem insertPosition_nearest_two : ∃ s p, run step testSpace [openOp 1, openOp 2] = some s ∧
    s.insertPosition ⟨600, 300⟩ = some p ∧ s.IsNearest (s.aim ⟨600, 300⟩) p := by
  have hrun : (run step testSpace [openOp 1, openOp 2]).any (fun s =>
      decide (0 ≤ s.options.gaps) && s.tiles.all fun t => decide (0 ≤ t.tileSize.w)) = true := by
    decide +kernel
  obtain ⟨s, hs, hspread⟩ := (Option.any_eq_true _ _).mp hrun
  obtain ⟨hgaps, hwidths⟩ := Bool.and_eq_true_iff.mp hspread
  have hspread : s.Spread :=
    ⟨of_decide_eq_true hgaps, fun t ht => of_decide_eq_true (List.all_eq_true.mp hwidths t ht)⟩
  obtain ⟨p, hp, hnearest, -⟩ := insertPosition_nearest (inv_run inv_new hs) hspread ⟨600, 300⟩
  exact ⟨s, p, hs, hp, hnearest⟩

end ScrollingSpace

end Macniri.Layout
