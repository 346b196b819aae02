import Macniri.Scrolling.Step

/-! No operation on a scrolling space loses or duplicates a window. -/
namespace Macniri.Layout

open ScrollingSpace

namespace ScrollingSpace

open List Option

variable {s s' t : ScrollingSpace} {i : ℕ} {c : Column} {window : Option ℕ}

theorem windowIds_congr (h : s'.columns = s.columns) : s'.windowIds = s.windowIds := by
  unfold ScrollingSpace.windowIds arrangement
  rw [h]

/-! Focus and view. -/

theorem perm_modify {f : Column → Column} (hf : ∀ c, (f c).windowIds.Perm c.windowIds) :
    ({ s with columns := s.columns.modify i f } : ScrollingSpace).windowIds.Perm s.windowIds := by
  have h : Forall₂ (fun c c' => (Column.windowIds c').Perm c.windowIds) s.columns
      (s.columns.modify i f) := forall₂_modify (fun c => .refl _) fun c _ => hf c
  refine Forall₂.flatten_perm ?_
  unfold arrangement
  rw [forall₂_map_left_iff, forall₂_map_right_iff]
  exact h.flip

theorem perm_modifyActiveColumn {f : Column → Column} (hf : ∀ c : Column, c.Like (f c)) :
    (s.modifyActiveColumn f).windowIds.Perm s.windowIds :=
  (s.like_modifyActiveColumn hf).windowIds

theorem windowIds_focusOn (s : ScrollingSpace) (i : ℕ) : (s.focusOn i).windowIds = s.windowIds :=
  windowIds_congr (columns_focusOn s i)

theorem perm_activateColumn (s : ScrollingSpace) (i : ℕ) :
    (s.activateColumn i).windowIds.Perm s.windowIds := by
  rw [← s.windowIds_focusOn i]
  exact (s.like_activateColumn i).windowIds

theorem perm_activateWindow (s : ScrollingSpace) (w : ℕ) :
    (s.activateWindow w).windowIds.Perm s.windowIds := by
  unfold activateWindow
  split
  · exact .refl _
  · exact (perm_activateColumn ..).trans (perm_modify fun c => .refl _)

theorem perm_focusLeft (s : ScrollingSpace) : s.focusLeft.windowIds.Perm s.windowIds := by
  unfold focusLeft
  split
  · exact .refl _
  · exact perm_activateColumn ..

theorem perm_focusRight (s : ScrollingSpace) : s.focusRight.windowIds.Perm s.windowIds := by
  unfold focusRight
  split
  · exact .refl _
  · exact perm_activateColumn ..

theorem perm_focusColumnLast (s : ScrollingSpace) :
    s.focusColumnLast.windowIds.Perm s.windowIds := by
  unfold focusColumnLast
  split
  · exact .refl _
  · exact perm_activateColumn ..

theorem perm_focusColumn (s : ScrollingSpace) (index : ℕ) :
    (s.focusColumn index).windowIds.Perm s.windowIds := by
  unfold focusColumn
  split
  · exact .refl _
  · exact perm_activateColumn ..

theorem perm_focusInColumnOr {f : Column → Column} {other : ScrollingSpace → ScrollingSpace}
    (hf : ∀ c : Column, c.Like (f c)) (ho : (other s).windowIds.Perm s.windowIds) :
    (s.focusInColumnOr f other).windowIds.Perm s.windowIds := by
  unfold focusInColumnOr
  split
  · exact .refl _
  · split
    · exact ho
    · exact perm_modifyActiveColumn hf

theorem perm_applyFocus (s : ScrollingSpace) (op : FocusOp) :
    (s.applyFocus op).windowIds.Perm s.windowIds := by
  cases op with
  | activateWindow w => exact s.perm_activateWindow w
  | focusLeft => exact s.perm_focusLeft
  | focusRight => exact s.perm_focusRight
  | focusColumnFirst => exact s.perm_activateColumn 0
  | focusColumnLast => exact s.perm_focusColumnLast
  | focusColumn index => exact s.perm_focusColumn index
  | focusWindowInColumn index => exact perm_modifyActiveColumn (·.like_focusIndex index)
  | focusDown => exact perm_modifyActiveColumn Column.like_focusDown
  | focusUp => exact perm_modifyActiveColumn Column.like_focusUp
  | focusTop => exact perm_modifyActiveColumn Column.like_focusTop
  | focusBottom => exact perm_modifyActiveColumn Column.like_focusBottom
  | focusDownOrLeft => exact perm_focusInColumnOr Column.like_focusDown s.perm_focusLeft
  | focusDownOrRight => exact perm_focusInColumnOr Column.like_focusDown s.perm_focusRight
  | focusUpOrLeft => exact perm_focusInColumnOr Column.like_focusUp s.perm_focusLeft
  | focusUpOrRight => exact perm_focusInColumnOr Column.like_focusUp s.perm_focusRight

/-! Moves: a removal followed by an insertion. -/

theorem perm_cancelResizeForColumn (s : ScrollingSpace) (i : ℕ) :
    (s.cancelResizeForColumn i).windowIds.Perm s.windowIds := by
  unfold cancelResizeForColumn
  cases hc : s.columns[i]? with
  | none => exact .refl _
  | some c => exact (like_setColumn hc c.like_cancelResize).windowIds

theorem perm_reorderColumn {j : ℕ} {d : ColumnData} (hc : s.columns[i]? = some c)
    (hj : j < s.columns.length) : (s.reorderColumn i j c d).windowIds.Perm s.windowIds :=
  ((perm_move hc hj).map Column.windowIds).flatten

theorem perm_moveColumnTo {j : ℕ} (hj : j < s.columns.length) :
    (s.moveColumnTo j).windowIds.Perm s.windowIds := by
  unfold moveColumnTo
  dsimp only
  split
  · exact .refl _
  split
  · rename_i hc hd
    have hcancel := columns_cancelResizeForColumn hc
    refine (perm_activateColumn ..).trans ((like_animateColumnMove ..).windowIds.trans ?_)
    refine (perm_reorderColumn ?_ ?_).trans (perm_cancelResizeForColumn ..)
    · rw [hcancel]
      simp [lt_length_of_getElem? hc]
    · simpa [hcancel] using hj
  · exact .refl _

theorem perm_moveColumnToIndex (s : ScrollingSpace) (index : ℕ) :
    (s.moveColumnToIndex index).windowIds.Perm s.windowIds := by
  unfold moveColumnToIndex
  split
  · exact .refl _
  · rename_i h
    have : s.columns.length ≠ 0 := by simpa using h
    exact perm_moveColumnTo (by omega)

theorem perm_moveLeft (hs : s.Inv) : s.moveLeft.windowIds.Perm s.windowIds := by
  unfold moveLeft
  split
  · exact .refl _
  · have hne : s.columns ≠ [] := fun h => ‹¬_› (hs.empty h)
    have := hs.active hne
    exact perm_moveColumnTo (by omega)

theorem perm_moveRight (s : ScrollingSpace) : s.moveRight.windowIds.Perm s.windowIds := by
  unfold moveRight
  split
  · exact .refl _
  · exact perm_moveColumnTo (by omega)

theorem perm_moveColumnToFirst (hs : s.Inv) : s.moveColumnToFirst.windowIds.Perm s.windowIds := by
  unfold moveColumnToFirst
  by_cases hne : s.columns = []
  · simp [moveColumnTo, hs.empty hne]
  · exact perm_moveColumnTo (length_pos_iff.mpr hne)

theorem perm_moveColumnToLast (s : ScrollingSpace) :
    s.moveColumnToLast.windowIds.Perm s.windowIds := by
  unfold moveColumnToLast
  split
  · exact .refl _
  · rename_i h
    have : s.columns.length ≠ 0 := by simpa using h
    exact perm_moveColumnTo (by omega)

/-- A tile that is removed and added to a column again. -/
theorem perm_moveTile {tileIdx j : ℕ} {r : RemovedTile} {k : Option ℕ} {activate : Bool}
    (hr : s.removeTileByIdx i tileIdx = some (r, t))
    (ha : t.addTileToColumn j k r.tile activate = some s') : s'.windowIds.Perm s.windowIds :=
  (addTileToColumn_perm ha).trans (removeTileByIdx_perm hr).symm

/-- A tile that is removed and added as a column of its own. -/
theorem perm_expelTile {tileIdx : ℕ} {r : RemovedTile} {idx : Option ℕ} {activate : Bool}
    {width : ColumnWidth} {isFullWidth : Bool} (hr : s.removeTileByIdx i tileIdx = some (r, t))
    (ha : t.addTile idx r.tile activate width isFullWidth = some s') :
    s'.windowIds.Perm s.windowIds :=
  (addTile_perm ha).trans (removeTileByIdx_perm hr).symm

theorem perm_consumeOrExpelWindowLeft (h : s.consumeOrExpelWindowLeft window = some s') :
    s'.windowIds.Perm s.windowIds := by
  unfold consumeOrExpelWindowLeft at h
  split at h
  · exact some.inj h ▸ .refl _
  obtain ⟨⟨i, k⟩, -, h⟩ := of_bind h
  obtain ⟨c, -, h⟩ := of_bind h
  dsimp only at h
  split at h
  · split at h
    · exact some.inj h ▸ .refl _
    · obtain ⟨⟨r, t⟩, hr, ha⟩ := of_bind h
      refine (perm_moveTile hr ha).trans (.of_eq (windowIds_congr ?_))
      split <;> rfl
  · obtain ⟨⟨r, t⟩, hr, h⟩ := of_bind h
    obtain ⟨u, ha, rfl⟩ := of_bind_some h
    refine Perm.trans (.of_eq (windowIds_congr ?_)) (perm_expelTile hr ha)
    split <;> rfl

theorem perm_consumeOrExpelWindowRight (h : s.consumeOrExpelWindowRight window = some s') :
    s'.windowIds.Perm s.windowIds := by
  unfold consumeOrExpelWindowRight at h
  split at h
  · exact some.inj h ▸ .refl _
  obtain ⟨⟨i, k⟩, -, h⟩ := of_bind h
  obtain ⟨c, -, h⟩ := of_bind h
  dsimp only at h
  split at h
  · split at h
    · exact some.inj h ▸ .refl _
    · obtain ⟨⟨r, t⟩, hr, ha⟩ := of_bind h
      refine (perm_moveTile hr ha).trans (.of_eq (windowIds_congr ?_))
      split <;> rfl
  · obtain ⟨⟨r, t⟩, hr, ha⟩ := of_bind h
    exact perm_expelTile hr ha

theorem perm_consumeIntoColumn (h : s.consumeIntoColumn = some s') :
    s'.windowIds.Perm s.windowIds := by
  unfold consumeIntoColumn at h
  split at h
  · exact some.inj h ▸ .refl _
  · obtain ⟨⟨r, t⟩, hr, ha⟩ := of_bind h
    exact perm_moveTile hr ha

theorem perm_expelFromColumn (h : s.expelFromColumn = some s') :
    s'.windowIds.Perm s.windowIds := by
  unfold expelFromColumn at h
  split at h
  · exact some.inj h ▸ .refl _
  obtain ⟨c, -, h⟩ := of_bind h
  split at h
  · exact some.inj h ▸ .refl _
  · obtain ⟨⟨r, t⟩, hr, ha⟩ := of_bind h
    exact perm_expelTile hr ha

theorem addSwapped_perm {drained : Bool} {j k : ℕ} {tile : Tile} {width : ColumnWidth}
    {isFullWidth : Bool} (h : s.addSwapped drained j k tile width isFullWidth = some s') :
    s'.windowIds.Perm (tile.id :: s.windowIds) := by
  unfold addSwapped at h
  split at h
  · exact addTile_perm h
  · exact addTileToColumn_perm h

theorem perm_setActiveTileIdx (s : ScrollingSpace) (j k : ℕ) :
    (s.setActiveTileIdx j k).windowIds.Perm s.windowIds :=
  perm_modify fun c => .refl c.windowIds

theorem perm_swapWithColumn {a b : ℕ} {direction : ScrollDirection}
    (h : s.swapWithColumn a b direction = some s') : s'.windowIds.Perm s.windowIds := by
  unfold swapWithColumn at h
  obtain ⟨source, -, h⟩ := of_bind h
  obtain ⟨target, htarget, h⟩ := of_bind h
  split at h
  · exact some.inj h ▸ perm_moveColumnTo (lt_length_of_getElem? htarget)
  -- The source tile is moved next to the target one, which then goes to its place.
  obtain ⟨⟨r, t⟩, hr, h⟩ := of_bind h
  obtain ⟨u, hu, h⟩ := of_bind h
  obtain ⟨⟨r', t'⟩, hr', h⟩ := of_bind h
  obtain ⟨u', hu', rfl⟩ := of_bind_some h
  have hback : u'.windowIds.Perm s.windowIds :=
    ((addSwapped_perm hu').trans (removeTileByIdx_perm hr').symm).trans (perm_moveTile hr hu)
  exact (perm_activateColumn ..).trans
    ((perm_setActiveTileIdx ..).trans ((perm_setActiveTileIdx ..).trans hback))

theorem perm_swapWindowInDirection {direction : ScrollDirection}
    (h : s.swapWindowInDirection direction = some s') : s'.windowIds.Perm s.windowIds := by
  unfold swapWindowInDirection at h
  split at h
  · exact some.inj h ▸ .refl _
  cases direction with
  | left =>
    dsimp only at h
    split at h
    · exact some.inj h ▸ .refl _
    · exact perm_swapWithColumn h
  | right =>
    dsimp only at h
    split at h
    · exact some.inj h ▸ .refl _
    · exact perm_swapWithColumn h

theorem perm_applyMove (hs : s.Inv) {op : MoveOp} (h : s.applyMove op = some s') :
    s'.windowIds.Perm s.windowIds := by
  cases op with
  | moveColumnToIndex index => exact some.inj h ▸ s.perm_moveColumnToIndex index
  | moveLeft => exact some.inj h ▸ perm_moveLeft hs
  | moveRight => exact some.inj h ▸ s.perm_moveRight
  | moveColumnToFirst => exact some.inj h ▸ perm_moveColumnToFirst hs
  | moveColumnToLast => exact some.inj h ▸ s.perm_moveColumnToLast
  | moveDown => exact some.inj h ▸ perm_modifyActiveColumn Column.like_moveDown
  | moveUp => exact some.inj h ▸ perm_modifyActiveColumn Column.like_moveUp
  | consumeIntoColumn => exact perm_consumeIntoColumn h
  | expelFromColumn => exact perm_expelFromColumn h
  | swapWindowInDirection direction => exact perm_swapWindowInDirection h

/-! Sizing. -/

theorem perm_set {c' : Column} (hc : s.columns[i]? = some c) (h : c'.windowIds.Perm c.windowIds) :
    (s.setColumn i c').windowIds.Perm s.windowIds := by
  unfold ScrollingSpace.windowIds arrangement setColumn
  rw [map_set]
  exact flatten_set_perm_of_perm (by simp [hc]) h

theorem perm_setPending {isPending : Column → Bool} {set : Column → Bool → Column}
    (hseen : ∀ (c : Column) v, c.Seen (set c v)) {w : ℕ} {enable : Bool}
    (h : setPending isPending set s w enable = some s') : s'.windowIds.Perm s.windowIds := by
  unfold setPending at h
  obtain ⟨i, -, h⟩ := of_bind h
  obtain ⟨c, -, h⟩ := of_bind h
  split at h
  · exact some.inj h ▸ .refl _
  obtain ⟨t, ht, h⟩ := of_bind h
  obtain ⟨c', hc', rfl⟩ := of_bind_some h
  have hextract : t.windowIds.Perm (s.cancelResizeForColumn i).windowIds := by
    unfold extractWindow at ht
    split at ht
    · exact perm_consumeOrExpelWindowRight ht
    · exact some.inj ht ▸ .refl _
  exact (perm_set hc' (hseen c' enable).ids).trans (hextract.trans (perm_cancelResizeForColumn ..))

theorem perm_setFullscreen {w : ℕ} {enable : Bool} (h : s.setFullscreen w enable = some s') :
    s'.windowIds.Perm s.windowIds := perm_setPending Column.seen_setFullscreen h

theorem perm_setMaximized {w : ℕ} {enable : Bool} (h : s.setMaximized w enable = some s') :
    s'.windowIds.Perm s.windowIds := perm_setPending Column.seen_setMaximized h

theorem perm_setColumnDisplay {display : ColumnDisplay} (h : s.setColumnDisplay display = some s') :
    s'.windowIds.Perm s.windowIds := by
  unfold setColumnDisplay at h
  split at h
  · exact some.inj h ▸ .refl _
  obtain ⟨c, hc, h⟩ := of_bind h
  split at h
  · exact some.inj h ▸ .refl _
  have hcancel := columns_cancelResizeForColumn hc
  have hset : (((s.cancelResizeForColumn s.activeColumnIdx).setColumn
      (s.cancelResizeForColumn s.activeColumnIdx).activeColumnIdx
      (c.cancelResize.setColumnDisplay display).updateTileSizes)).windowIds.Perm s.windowIds := by
    refine (perm_set (c := c.cancelResize) ?_ ?_).trans (perm_cancelResizeForColumn ..)
    · rw [activeColumnIdx_cancelResizeForColumn, hcancel]
      simp [lt_length_of_getElem? hc]
    · rw [Column.windowIds_updateTileSizes]
      exact (Column.kin_setColumnDisplay ..).1.ids
  dsimp only at h
  split at h
  · obtain ⟨tile, -, h⟩ := of_bind h
    obtain ⟨t, ht, h⟩ := of_bind h
    exact (perm_setMaximized h).trans ((perm_setFullscreen ht).trans hset)
  · exact some.inj h ▸ hset

theorem perm_toggleColumnTabbedDisplay (h : s.toggleColumnTabbedDisplay = some s') :
    s'.windowIds.Perm s.windowIds := by
  unfold toggleColumnTabbedDisplay at h
  split at h
  · exact some.inj h ▸ .refl _
  · exact perm_setColumnDisplay h

theorem perm_centerColumn (s : ScrollingSpace) : s.centerColumn.windowIds.Perm s.windowIds := by
  unfold centerColumn
  split
  · exact .refl _
  · exact perm_cancelResizeForColumn ..

theorem perm_centerWindow (h : s.centerWindow window = some s') :
    s'.windowIds.Perm s.windowIds := by
  unfold centerWindow at h
  split at h
  · exact some.inj h ▸ .refl _
  obtain ⟨i, -, rfl⟩ := of_bind_some h
  split
  · exact .refl _
  · exact s.perm_centerColumn

theorem perm_centerVisibleColumns (s : ScrollingSpace) :
    s.centerVisibleColumns.windowIds.Perm s.windowIds := by
  unfold centerVisibleColumns
  split
  · exact .refl _
  dsimp only
  split
  · exact .refl _
  · exact perm_cancelResizeForColumn ..

theorem perm_resizeWindow {f : Column → Option ℕ → Column} (hf : ∀ (c : Column) k, c.Like (f c k))
    (h : resizeWindow f s window = some s') : s'.windowIds.Perm s.windowIds := by
  unfold resizeWindow at h
  split at h
  · exact some.inj h ▸ .refl _
  obtain ⟨⟨i, k⟩, -, h⟩ := of_bind h
  obtain ⟨c, hc, rfl⟩ := of_bind_some h
  exact (perm_cancelResizeForColumn ..).trans (like_setColumn hc (hf c k)).windowIds

theorem perm_expandColumnToAvailableWidth (s : ScrollingSpace) :
    s.expandColumnToAvailableWidth.windowIds.Perm s.windowIds := by
  unfold expandColumnToAvailableWidth
  split
  · exact .refl _
  split
  · exact .refl _
  split
  · exact (perm_cancelResizeForColumn ..).trans
      (perm_modifyActiveColumn Column.like_toggleFullWidth)
  dsimp only
  split
  · exact .refl _
  split
  · exact .refl _
  split
  · exact (perm_modifyActiveColumn Column.like_toggleFullWidth).trans
      (perm_cancelResizeForColumn ..)
  · refine Perm.trans (perm_modify fun c => ?_) (perm_cancelResizeForColumn ..)
    exact .of_eq (Column.windowIds_updateTileSizes _)

theorem perm_applySize {op : SizeOp} (h : s.applySize op = some s') :
    s'.windowIds.Perm s.windowIds := by
  cases op with
  | toggleColumnTabbedDisplay => exact perm_toggleColumnTabbedDisplay h
  | setColumnDisplay display => exact perm_setColumnDisplay h
  | centerColumn => exact some.inj h ▸ s.perm_centerColumn
  | centerWindow window => exact perm_centerWindow h
  | centerVisibleColumns => exact some.inj h ▸ s.perm_centerVisibleColumns
  | toggleWidth forwards => exact perm_resizeWindow (fun c _ => c.like_toggleWidth none forwards) h
  | toggleFullWidth => exact perm_resizeWindow (fun c _ => c.like_toggleFullWidth) h
  | setWindowWidth window change =>
    exact perm_resizeWindow (fun c k => c.like_setColumnWidth change k) h
  | setWindowHeight window change =>
    exact perm_resizeWindow (fun c k => c.like_setWindowHeight change k) h
  | resetWindowHeight window => exact perm_resizeWindow (fun c k => c.like_resetWindowHeight k) h
  | toggleWindowWidth window forwards =>
    exact perm_resizeWindow (fun c k => c.like_toggleWidth k forwards) h
  | toggleWindowHeight window forwards =>
    exact perm_resizeWindow (fun c k => c.like_toggleWindowHeight k forwards) h
  | expandColumnToAvailableWidth =>
    exact some.inj h ▸ s.perm_expandColumnToAvailableWidth

/-! Gestures, interactive resizes, time and commits. -/

theorem perm_endGesture (s : ScrollingSpace) (g : ViewGesture) :
    (s.endGesture g).windowIds.Perm s.windowIds := by
  unfold endGesture
  dsimp only
  split
  · exact .refl _
  split
  · exact .refl _
  · exact .refl _

theorem perm_viewOffsetGestureEnd (s : ScrollingSpace) (isTouchpad : Option Bool) :
    (s.viewOffsetGestureEnd isTouchpad).windowIds.Perm s.windowIds := by
  unfold viewOffsetGestureEnd
  split
  · split
    · exact .refl _
    · exact perm_endGesture ..
  · exact .refl _

theorem perm_dndScrollGestureEnd (s : ScrollingSpace) :
    s.dndScrollGestureEnd.windowIds.Perm s.windowIds := by
  unfold dndScrollGestureEnd
  split
  · split
    · dsimp only
      split <;> exact .refl _
    · exact perm_viewOffsetGestureEnd ..
  · exact .refl _

theorem perm_interactiveResizeBegin {w : ℕ} {edges : ResizeEdge}
    (h : s.interactiveResizeBegin w edges = some s') : s'.windowIds.Perm s.windowIds := by
  unfold interactiveResizeBegin at h
  split at h
  · exact some.inj h ▸ .refl _
  obtain ⟨⟨i, k⟩, -, h⟩ := of_bind h
  obtain ⟨c, -, h⟩ := of_bind h
  split at h
  · exact some.inj h ▸ .refl _
  · obtain ⟨tile, -, h⟩ := of_bind h
    exact some.inj h ▸ .refl _

theorem perm_interactiveResizeUpdate {w : ℕ} {delta : Point}
    (h : s.interactiveResizeUpdate w delta = some s') : s'.windowIds.Perm s.windowIds := by
  unfold interactiveResizeUpdate at h
  split at h
  · exact some.inj h ▸ .refl _
  split at h
  · exact some.inj h ▸ .refl _
  obtain ⟨⟨i, k⟩, -, h⟩ := of_bind h
  obtain ⟨c, hc, h⟩ := of_bind h
  exact some.inj h ▸ perm_set hc (like_resizeByDelta ..).ids

theorem perm_interactiveResizeEnd (h : s.interactiveResizeEnd window = some s') :
    s'.windowIds.Perm s.windowIds := by
  unfold interactiveResizeEnd at h
  split at h
  · exact some.inj h ▸ .refl _
  · exact some.inj h ▸ .refl _
  split at h
  · exact some.inj h ▸ .refl _
  obtain ⟨c, -, rfl⟩ := of_bind_some h
  refine .of_eq (windowIds_congr ?_)
  split <;> rfl

theorem perm_applyView {op : ViewOp} (h : s.applyView op = some s') :
    s'.windowIds.Perm s.windowIds := by
  cases op with
  | viewOffsetGestureBegin b => exact some.inj h ▸ (s.like_viewOffsetGestureBegin b).windowIds
  | viewOffsetGestureUpdate x y b =>
    exact some.inj h ▸ (s.like_viewOffsetGestureUpdate x y b).windowIds
  | dndScrollGestureBegin =>
    obtain rfl := some.inj h
    refine .of_eq (windowIds_congr ?_)
    unfold dndScrollGestureBegin
    split <;> rfl
  | dndScrollGestureScroll x =>
    exact some.inj h ▸ (s.like_dndScrollGestureScroll x).windowIds
  | interactiveResizeBegin window edges => exact perm_interactiveResizeBegin h
  | interactiveResizeUpdate window delta => exact perm_interactiveResizeUpdate h
  | interactiveResizeEnd window => exact perm_interactiveResizeEnd h
  | refresh => exact some.inj h ▸ s.like_refresh.windowIds
  | setClock now x f => exact some.inj h ▸ (s.like_setClock now x f).windowIds
  | advanceAnimations b f => exact some.inj h ▸ (s.like_advanceAnimations b f).windowIds

theorem perm_updateViewAfterCommit (s : ScrollingSpace) (i : ℕ) (wasNormal isNormal : Bool)
    (resize : Option ResizeEdge) (offset : ℚ) :
    (s.updateViewAfterCommit i wasNormal isNormal resize offset).windowIds.Perm s.windowIds := by
  refine (like_updateViewAfterCommit ..).windowIds.trans
    (Perm.trans (.of_eq ?_) (s.like_followInteractiveResize i resize offset).windowIds)
  apply windowIds_congr
  unfold storeViewOffset
  split
  · rfl
  · split <;> rfl

theorem perm_updateWindow {w : ℕ} {commit : Commit} {ongoing : Bool}
    (h : s.updateWindow w commit ongoing = some s') : s'.windowIds.Perm s.windowIds := by
  obtain ⟨⟨i, k⟩, -, h⟩ := of_bind h
  obtain ⟨c, hc, h⟩ := of_bind h
  obtain ⟨tile, -, h⟩ := of_bind h
  have hset : ((s.setColumn i (c.updateWindow k commit).updateTileSizes).updateData i
      (c.updateWindow k commit)).windowIds.Perm s.windowIds := by
    refine perm_set hc (.of_eq ?_)
    rw [Column.windowIds_updateTileSizes, Column.windowIds_updateWindow]
  have hfollow := (like_followResize ((s.setColumn i (c.updateWindow k commit).updateTileSizes).updateData
    i (c.updateWindow k commit)) i (s.dataWidth i - dataWidth ((s.setColumn i
      (c.updateWindow k commit).updateTileSizes).updateData i (c.updateWindow k commit)) i)
    ongoing).windowIds.trans hset
  rw [← some.inj h]
  split
  · exact (perm_updateViewAfterCommit ..).trans hfollow
  · exact hfollow

theorem perm_updateConfig (s : ScrollingSpace) (viewSize : Size) (parentArea : Rectangle) (scale : ℚ)
    (options : Options) :
    (s.updateConfig viewSize parentArea scale options).windowIds.Perm s.windowIds := by
  refine .of_eq ?_
  have hcols : (s.updateConfig viewSize parentArea scale options).columns = s.columns.map
      (·.updateConfig viewSize (computeWorkingArea parentArea scale options.struts) parentArea scale
        options) := by
    unfold updateConfig
    dsimp only
    split <;> rfl
  unfold ScrollingSpace.windowIds arrangement
  rw [hcols, List.map_map]
  exact congrArg List.flatten (map_congr_left fun c _ => Column.windowIds_updateConfig)

/-! Adding and removing. -/

theorem removeColumnByIdx_perm (h : s.removeColumnByIdx i = some (c, s')) :
    s.windowIds.Perm (c.windowIds ++ s'.windowIds) := by
  obtain ⟨hc, hlike⟩ := removeColumnByIdx_spec h
  have hcols : ((s.dropColumn i c).refocused i).windowIds = (s.dropColumn i c).windowIds :=
    windowIds_congr (by simp)
  exact (windowIds_dropColumn hc).trans (Perm.append_left _ (hcols ▸ hlike.windowIds.symm))

theorem wf_removed (hs : s.Inv) (h : s.removeColumnByIdx i = some (c, s')) : c.Wf :=
  hs.columns c (mem_of_getElem? (removeColumnByIdx_spec h).1)

/-- The tile of a window is the one that is removed. -/
theorem removeTile_id {w : ℕ} {r : RemovedTile} (h : s.removeTile w = some (r, s')) :
    r.tile.id = w := by
  obtain ⟨⟨i, k⟩, hfind, hremove⟩ := of_bind h
  obtain ⟨c, hc, htile, -⟩ := removeTileByIdx_spec hremove
  obtain ⟨d, tile, hd, ht, hid⟩ := findWindow_spec hfind
  obtain rfl := some.inj (hc.symm.trans hd)
  rw [← hid, some.inj (htile.symm.trans ht)]

theorem perm_step {op : Op} (hs : s.Inv) (h : s.step op = some s')
    (hop : ∀ o, op ≠ .remove o) : s'.windowIds.Perm (op.added ++ s.windowIds) := by
  unfold step at h
  split at h
  swap
  · simp at h
  cases op with
  | updateConfig => exact some.inj h ▸ perm_updateConfig ..
  | addTile => exact addTile_perm h
  | addTileToColumn => exact addTileToColumn_perm h
  | addTileRightOf =>
    obtain ⟨i, -, h⟩ := of_bind h
    exact addTile_perm h
  | addColumn => exact addColumn_perm h
  | remove o => exact absurd rfl (hop o)
  | updateWindow => exact perm_updateWindow h
  | focus op => exact some.inj h ▸ perm_applyFocus s op
  | move op => exact perm_applyMove hs h
  | consumeOrExpelWindowLeft => exact perm_consumeOrExpelWindowLeft h
  | consumeOrExpelWindowRight => exact perm_consumeOrExpelWindowRight h
  | size op => exact perm_applySize h
  | setFullscreen => exact perm_setFullscreen h
  | setMaximized => exact perm_setMaximized h
  | view op => exact perm_applyView h
  | viewOffsetGestureEnd b => exact some.inj h ▸ perm_viewOffsetGestureEnd s b
  | dndScrollGestureEnd => exact some.inj h ▸ perm_dndScrollGestureEnd s

end ScrollingSpace

end Macniri.Layout
