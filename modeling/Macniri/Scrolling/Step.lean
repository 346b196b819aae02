import Macniri.Lib.Run
import Macniri.Scrolling.SizingEffects

/-! The operations on a scrolling space as the steps of a state machine, and its invariant over
whole runs. -/
namespace Macniri.Layout

open Option

open ScrollingSpace

/-- A column as one space hands it out to another. -/
abbrev WfColumn := { c : Column // c.Wf }

inductive RemoveOp where
  | removeActiveTile
  | removeTile (window : ℕ)
  | removeTileByIdx (columnIdx tileIdx : ℕ)
  | removeActiveColumn
  | removeColumnByIdx (columnIdx : ℕ)

inductive FocusOp where
  | activateWindow (window : ℕ)
  | focusLeft
  | focusRight
  | focusColumnFirst
  | focusColumnLast
  | focusColumn (index : ℕ)
  | focusWindowInColumn (index : ℕ)
  | focusDown
  | focusUp
  | focusTop
  | focusBottom
  | focusDownOrLeft
  | focusDownOrRight
  | focusUpOrLeft
  | focusUpOrRight

inductive MoveOp where
  | moveColumnToIndex (index : ℕ)
  | moveLeft
  | moveRight
  | moveColumnToFirst
  | moveColumnToLast
  | moveDown
  | moveUp
  | consumeIntoColumn
  | expelFromColumn
  | swapWindowInDirection (direction : ScrollDirection)

inductive SizeOp where
  | toggleColumnTabbedDisplay
  | setColumnDisplay (display : ColumnDisplay)
  | centerColumn
  | centerWindow (window : Option ℕ)
  | centerVisibleColumns
  | toggleWidth (forwards : Bool)
  | toggleFullWidth
  | setWindowWidth (window : Option ℕ) (change : SizeChange)
  | setWindowHeight (window : Option ℕ) (change : SizeChange)
  | resetWindowHeight (window : Option ℕ)
  | toggleWindowWidth (window : Option ℕ) (forwards : Bool)
  | toggleWindowHeight (window : Option ℕ) (forwards : Bool)
  | expandColumnToAvailableWidth

/-- Gestures before their end, interactive resizes, and the passing of time. -/
inductive ViewOp where
  | viewOffsetGestureBegin (isTouchpad : Bool)
  | viewOffsetGestureUpdate (deltaX timestamp : ℚ) (isTouchpad : Bool)
  | dndScrollGestureBegin
  | dndScrollGestureScroll (delta : ℚ)
  | interactiveResizeBegin (window : ℕ) (edges : ResizeEdge)
  | interactiveResizeUpdate (window : ℕ) (delta : Point)
  | interactiveResizeEnd (window : Option ℕ)
  | refresh
  | setClock (now viewValue : ℚ) (moveValue : ℕ → ℚ)
  | advanceAnimations (viewDone : Bool) (moveDone : ℕ → Bool)

inductive Op where
  | updateConfig (viewSize : Size) (parentArea : Rectangle) (scale : ℚ) (options : Options)
  | addTile (colIdx : Option ℕ) (tile : Tile) (activate : Bool) (width : ColumnWidth)
      (isFullWidth : Bool)
  | addTileToColumn (colIdx : ℕ) (tileIdx : Option ℕ) (tile : Tile) (activate : Bool)
  | addTileRightOf (rightOf : ℕ) (tile : Tile) (activate : Bool) (width : ColumnWidth)
      (isFullWidth : Bool)
  | addColumn (idx : Option ℕ) (column : WfColumn) (activate : Bool)
  | remove (op : RemoveOp)
  | updateWindow (window : ℕ) (commit : Commit) (ongoingResizeAnim : Bool)
  | focus (op : FocusOp)
  | move (op : MoveOp)
  | consumeOrExpelWindowLeft (window : Option ℕ)
  | consumeOrExpelWindowRight (window : Option ℕ)
  | size (op : SizeOp)
  | setFullscreen (window : ℕ) (isFullscreen : Bool)
  | setMaximized (window : ℕ) (maximize : Bool)
  | view (op : ViewOp)
  | viewOffsetGestureEnd (isTouchpad : Option Bool)
  | dndScrollGestureEnd

/-- The windows that an operation brings along. -/
def Op.added : Op → List ℕ
  | addTile _ tile _ _ _ | addTileToColumn _ _ tile _ | addTileRightOf _ tile _ _ _ => [tile.id]
  | addColumn _ column _ => column.1.windowIds
  | _ => []

namespace ScrollingSpace

def applyRemove (s : ScrollingSpace) : RemoveOp → Option ScrollingSpace
  | .removeActiveTile => if s.columns.isEmpty then some s else s.removeActiveTile.map (·.2)
  | .removeTile window => (s.removeTile window).map (·.2)
  | .removeTileByIdx columnIdx tileIdx => (s.removeTileByIdx columnIdx tileIdx).map (·.2)
  | .removeActiveColumn => if s.columns.isEmpty then some s else s.removeActiveColumn.map (·.2)
  | .removeColumnByIdx columnIdx => (s.removeColumnByIdx columnIdx).map (·.2)

def applyFocus (s : ScrollingSpace) : FocusOp → ScrollingSpace
  | .activateWindow window => s.activateWindow window
  | .focusLeft => s.focusLeft
  | .focusRight => s.focusRight
  | .focusColumnFirst => s.focusColumnFirst
  | .focusColumnLast => s.focusColumnLast
  | .focusColumn index => s.focusColumn index
  | .focusWindowInColumn index => s.focusWindowInColumn index
  | .focusDown => s.focusDown
  | .focusUp => s.focusUp
  | .focusTop => s.focusTop
  | .focusBottom => s.focusBottom
  | .focusDownOrLeft => s.focusDownOrLeft
  | .focusDownOrRight => s.focusDownOrRight
  | .focusUpOrLeft => s.focusUpOrLeft
  | .focusUpOrRight => s.focusUpOrRight

def applyMove (s : ScrollingSpace) : MoveOp → Option ScrollingSpace
  | .moveColumnToIndex index => some (s.moveColumnToIndex index)
  | .moveLeft => some s.moveLeft
  | .moveRight => some s.moveRight
  | .moveColumnToFirst => some s.moveColumnToFirst
  | .moveColumnToLast => some s.moveColumnToLast
  | .moveDown => some s.moveDown
  | .moveUp => some s.moveUp
  | .consumeIntoColumn => s.consumeIntoColumn
  | .expelFromColumn => s.expelFromColumn
  | .swapWindowInDirection direction => s.swapWindowInDirection direction

def applySize (s : ScrollingSpace) : SizeOp → Option ScrollingSpace
  | .toggleColumnTabbedDisplay => s.toggleColumnTabbedDisplay
  | .setColumnDisplay display => s.setColumnDisplay display
  | .centerColumn => some s.centerColumn
  | .centerWindow window => s.centerWindow window
  | .centerVisibleColumns => some s.centerVisibleColumns
  | .toggleWidth forwards => s.toggleWidth forwards
  | .toggleFullWidth => s.toggleFullWidth
  | .setWindowWidth window change => s.setWindowWidth window change
  | .setWindowHeight window change => s.setWindowHeight window change
  | .resetWindowHeight window => s.resetWindowHeight window
  | .toggleWindowWidth window forwards => s.toggleWindowWidth window forwards
  | .toggleWindowHeight window forwards => s.toggleWindowHeight window forwards
  | .expandColumnToAvailableWidth => some s.expandColumnToAvailableWidth

def applyView (s : ScrollingSpace) : ViewOp → Option ScrollingSpace
  | .viewOffsetGestureBegin isTouchpad => some (s.viewOffsetGestureBegin isTouchpad)
  | .viewOffsetGestureUpdate deltaX timestamp isTouchpad =>
    some (s.viewOffsetGestureUpdate deltaX timestamp isTouchpad)
  | .dndScrollGestureBegin => some s.dndScrollGestureBegin
  | .dndScrollGestureScroll delta => some (s.dndScrollGestureScroll delta)
  | .interactiveResizeBegin window edges => s.interactiveResizeBegin window edges
  | .interactiveResizeUpdate window delta => s.interactiveResizeUpdate window delta
  | .interactiveResizeEnd window => s.interactiveResizeEnd window
  | .refresh => some s.refresh
  | .setClock now viewValue moveValue => some (s.setClock now viewValue moveValue)
  | .advanceAnimations viewDone moveDone => some (s.advanceAnimations viewDone moveDone)

def apply (s : ScrollingSpace) : Op → Option ScrollingSpace
  | .updateConfig viewSize parentArea scale options =>
    some (s.updateConfig viewSize parentArea scale options)
  | .addTile colIdx tile activate width isFullWidth =>
    s.addTile colIdx tile activate width isFullWidth
  | .addTileToColumn colIdx tileIdx tile activate => s.addTileToColumn colIdx tileIdx tile activate
  | .addTileRightOf rightOf tile activate width isFullWidth =>
    s.addTileRightOf rightOf tile activate width isFullWidth
  | .addColumn idx column activate => s.addColumn idx column.1 activate
  | .remove op => s.applyRemove op
  | .updateWindow window commit ongoing => s.updateWindow window commit ongoing
  | .focus op => some (s.applyFocus op)
  | .move op => s.applyMove op
  | .consumeOrExpelWindowLeft window => s.consumeOrExpelWindowLeft window
  | .consumeOrExpelWindowRight window => s.consumeOrExpelWindowRight window
  | .size op => s.applySize op
  | .setFullscreen window isFullscreen => s.setFullscreen window isFullscreen
  | .setMaximized window maximize => s.setMaximized window maximize
  | .view op => s.applyView op
  | .viewOffsetGestureEnd isTouchpad => some (s.viewOffsetGestureEnd isTouchpad)
  | .dndScrollGestureEnd => some s.dndScrollGestureEnd

/-- One step of the space. Window ids are unique, so a window that is added is not there yet. -/
def step (s : ScrollingSpace) (op : Op) : Option ScrollingSpace :=
  if ∀ w ∈ op.added, w ∉ s.windowIds then s.apply op else none

/-! What the steps do that is not plain: opening a column, inserting one just left of the active
one, inserting a normal column in the place of a fullscreen one, and ending a gesture on another
column. -/

/-- Whether the step adds a column and activates it. -/
def opens (s : ScrollingSpace) : Op → Bool
  | .addTile _ _ activate _ _ | .addTileRightOf _ _ activate _ _ | .addColumn _ _ activate =>
    activate
  | .consumeOrExpelWindowRight window => (s.expelSource window).isSome && s.isActiveTile window
  | .setFullscreen window enable =>
    (extractSource (·.isPendingFullscreen) s window enable).isSome && s.isActiveTile (some window)
  | .setMaximized window enable =>
    (extractSource (·.isPendingMaximized) s window enable).isSome && s.isActiveTile (some window)
  | _ => false

/-- The index where the step inserts a column, if it names one. -/
def insertsAt (s : ScrollingSpace) : Op → Option ℕ
  | .addTile idx _ _ _ _ | .addColumn idx _ _ =>
    if s.columns.isEmpty then none else some (s.insertionIdx idx)
  | .addTileRightOf window _ _ _ _ => (s.columns.findIdx? (·.contains window)).map (· + 1)
  | .consumeOrExpelWindowLeft window => s.expelSource window
  | .consumeOrExpelWindowRight window => (s.expelSource window).map (· + 1)
  | .setFullscreen window enable =>
    (extractSource (·.isPendingFullscreen) s window enable).map (· + 1)
  | .setMaximized window enable =>
    (extractSource (·.isPendingMaximized) s window enable).map (· + 1)
  | _ => none

/-- Whether the step may put another column between the active one and its left neighbour. -/
def insertsLeft (s : ScrollingSpace) (op : Op) : Bool :=
  s.insertsAt op == some s.activeColumnIdx

/-- Whether the column that the step adds and activates has no fullscreen or maximized tile. -/
def addsNormal (s : ScrollingSpace) : Op → Bool
  | .addTile _ tile activate _ _ | .addTileRightOf _ tile activate _ _ =>
    activate && tile.sizingMode == .normal
  | .addColumn _ column activate => activate && column.1.isNormal
  | .consumeOrExpelWindowLeft window =>
    s.isActiveTile window && s.activeTile.any (·.sizingMode == .normal)
  | _ => false

/-- A view offset is stored for the active column, and the step puts a normal column in its place
and activates it: the index of the active column does not change. -/
def strandsOffset (s : ScrollingSpace) (op : Op) : Bool :=
  s.viewOffsetToRestore.isSome && s.insertsLeft op && s.addsNormal op

/-- The step ends a gesture on another column while the offset of the previous one is stored. -/
def endsElsewhere (s : ScrollingSpace) : Op → Bool
  | .viewOffsetGestureEnd isTouchpad => s.movesAway (s.gestureEndColumn isTouchpad)
  | .dndScrollGestureEnd => s.movesAway s.dndEndColumn
  | _ => false

structure Effect (s : ScrollingSpace) (op : Op) (s' : ScrollingSpace) : Prop where
  inv : s'.Inv
  restore : s.RestoreOk → s.strandsOffset op = false → s'.RestoreOk
  prev : s.PrevOk → s.endsElsewhere op = false →
    s'.PrevOk ∧ (Kept (s.insertsLeft op) s s' ∨ s.opens op = true ∧ Opened s s')

variable {s s' : ScrollingSpace} {op : Op}

theorem Effect.of_tame (hs : s.Inv) (h : Tame (s.insertsLeft op) s s') : Effect s op s' :=
  ⟨h.inv hs, fun hr _ => h.restore hs hr, fun hp _ => (h.prev hs hp).imp_right .inl⟩

theorem Effect.of_opens {P : Prop} (h : Opens s s' P) (hopens : s.opens op = true)
    (hp : s.strandsOffset op = false → P) : Effect s op s' :=
  ⟨h.inv, fun hr hs => h.restore hr (hp hs), fun _ _ => ⟨h.prev, .inr ⟨hopens, h.opened⟩⟩⟩

/-- Adding a tile or a column, activated or not. -/
theorem effect_addColumn (hs : s.Inv) {idx : Option ℕ} {c : Column} {activate : Bool} (hc : c.Wf)
    (hfresh : ∀ w ∈ c.windowIds, w ∉ s.windowIds) (h : s.addColumn idx c activate = some s')
    (hopens : s.opens op = activate)
    (hat : s.columns ≠ [] → s.insertsAt op = some (s.insertionIdx idx))
    (hnormal : s.addsNormal op = (activate && c.isNormal)) : Effect s op s' := by
  have hleft (hne : s.columns ≠ []) :
      s.insertsLeft op = (s.insertionIdx idx == s.activeColumnIdx) := by
    unfold insertsLeft
    rw [hat hne]
    rfl
  cases activate with
  | false =>
    refine .of_tame hs (tame_addColumn hc hfresh (fun hn hne => ?_) h)
    rw [hleft hne] at hn
    simpa using hn
  | true =>
    have hopen := opens_addColumn hs hc hfresh h
    refine ⟨hopen.inv, fun hr hstrand => hopen.restore hr fun hsome hidx => ?_,
      fun _ _ => ⟨hopen.prev, .inr ⟨hopens, hopen.opened⟩⟩⟩
    have hne : s.columns ≠ [] := by
      obtain ⟨d, hd, -⟩ := hr hsome
      exact ne_nil_of_getElem? hd
    simpa [strandsOffset, hsome, hleft hne, hidx, hnormal] using hstrand

theorem effect_addTile (hs : s.Inv) {idx : Option ℕ} {tile : Tile} {activate : Bool}
    {width : ColumnWidth} {isFullWidth : Bool} (hfresh : tile.id ∉ s.windowIds)
    (h : s.addTile idx tile activate width isFullWidth = some s') (hopens : s.opens op = activate)
    (hat : s.columns ≠ [] → s.insertsAt op = some (s.insertionIdx idx))
    (hnormal : s.addsNormal op = (activate && tile.sizingMode == .normal)) : Effect s op s' := by
  refine effect_addColumn hs (Column.wf_newWithTile ..) ?_ h hopens hat ?_
  · rw [Column.windowIds_newWithTile]
    simpa using hfresh
  · rw [hnormal, Column.isNormal_newWithTile]

theorem effect_consumeOrExpelWindowLeft (hs : s.Inv) {window : Option ℕ}
    (h : s.consumeOrExpelWindowLeft window = some s') :
    Effect s (.consumeOrExpelWindowLeft window) s' := by
  rcases consumeOrExpelWindowLeft_cases hs h with htame | ⟨hsource, hactive, hinv, hprev, hrestore⟩
  · refine .of_tame hs (htame.mono fun hn => ?_)
    have hn : (s.expelSource window == some s.activeColumnIdx) = false := hn
    rw [hn, Bool.false_and]
  · refine ⟨hinv, fun hr hstrand => hrestore hr fun hsome => ?_,
      fun _ _ => ⟨fun hsome => by simp [hprev] at hsome, .inl (.inl hprev)⟩⟩
    have hany : s.activeTile.any (·.sizingMode == .normal) = false := by
      simpa [strandsOffset, insertsLeft, insertsAt, addsNormal, hsome, hsource, hactive] using hstrand
    cases ht : s.activeTile with
    | none => rfl
    | some tile =>
      rw [ht] at hany
      simpa using hany

/-- The operations that expel a window to the right of its column. -/
theorem effect_expelRight (hs : s.Inv) {source : Option ℕ} {window : Option ℕ}
    (h : Tame (source.any (· + 1 == s.activeColumnIdx)) s s' ∨
      (source.isSome ∧ s.isActiveTile window ∧ Opens s s' True))
    (hopens : s.opens op = (source.isSome && s.isActiveTile window))
    (hat : s.insertsAt op = source.map (· + 1)) : Effect s op s' := by
  rcases h with htame | ⟨hsource, hactive, hopen⟩
  · refine .of_tame hs (htame.mono fun hn => ?_)
    cases source with
    | none => rfl
    | some i => simpa [insertsLeft, hat] using hn
  · exact .of_opens hopen (by rw [hopens, hsource, hactive]; rfl) fun _ => trivial

variable {near : Bool}

theorem tame_applyRemove {op : RemoveOp} (h : s.applyRemove op = some s') : Tame near s s' := by
  cases op with
  | removeActiveTile =>
    dsimp only [applyRemove] at h
    split at h
    · exact some.inj h ▸ .refl s
    · obtain ⟨⟨r, t⟩, hremove, rfl⟩ := of_map h
      obtain ⟨c, -, hremove⟩ := of_bind hremove
      exact tame_removeTileByIdx hremove
  | removeTile window =>
    obtain ⟨⟨r, t⟩, hremove, rfl⟩ := of_map h
    obtain ⟨⟨i, k⟩, -, hremove⟩ := of_bind hremove
    exact tame_removeTileByIdx hremove
  | removeTileByIdx columnIdx tileIdx =>
    obtain ⟨⟨r, t⟩, hremove, rfl⟩ := of_map h
    exact tame_removeTileByIdx hremove
  | removeActiveColumn =>
    dsimp only [applyRemove] at h
    split at h
    · exact some.inj h ▸ .refl s
    · obtain ⟨⟨c, t⟩, hremove, rfl⟩ := of_map h
      exact tame_removeColumnByIdx hremove
  | removeColumnByIdx columnIdx =>
    obtain ⟨⟨c, t⟩, hremove, rfl⟩ := of_map h
    exact tame_removeColumnByIdx hremove

theorem tame_applyFocus (hs : s.Inv) (op : FocusOp) : Tame near s (s.applyFocus op) := by
  cases op with
  | activateWindow window => exact s.tame_activateWindow window
  | focusLeft => exact tame_focusLeft hs
  | focusRight => exact s.tame_focusRight
  | focusColumnFirst => exact tame_focusColumnFirst hs
  | focusColumnLast => exact s.tame_focusColumnLast
  | focusColumn index => exact s.tame_focusColumn index
  | focusWindowInColumn index =>
    exact (s.like_modifyActiveColumn (·.like_focusIndex index)).tame
  | focusDown => exact (s.like_modifyActiveColumn Column.like_focusDown).tame
  | focusUp => exact (s.like_modifyActiveColumn Column.like_focusUp).tame
  | focusTop => exact (s.like_modifyActiveColumn Column.like_focusTop).tame
  | focusBottom => exact (s.like_modifyActiveColumn Column.like_focusBottom).tame
  | focusDownOrLeft => exact tame_focusInColumnOr Column.like_focusDown (tame_focusLeft hs)
  | focusDownOrRight => exact tame_focusInColumnOr Column.like_focusDown s.tame_focusRight
  | focusUpOrLeft => exact tame_focusInColumnOr Column.like_focusUp (tame_focusLeft hs)
  | focusUpOrRight => exact tame_focusInColumnOr Column.like_focusUp s.tame_focusRight

theorem tame_applyMove (hs : s.Inv) {op : MoveOp} (h : s.applyMove op = some s') :
    Tame near s s' := by
  cases op with
  | moveColumnToIndex index => exact some.inj h ▸ s.tame_moveColumnToIndex index
  | moveLeft => exact some.inj h ▸ tame_moveLeft hs
  | moveRight => exact some.inj h ▸ s.tame_moveRight
  | moveColumnToFirst => exact some.inj h ▸ tame_moveColumnToFirst hs
  | moveColumnToLast => exact some.inj h ▸ s.tame_moveColumnToLast
  | moveDown => exact some.inj h ▸ (s.like_modifyActiveColumn Column.like_moveDown).tame
  | moveUp => exact some.inj h ▸ (s.like_modifyActiveColumn Column.like_moveUp).tame
  | consumeIntoColumn => exact tame_consumeIntoColumn hs h
  | expelFromColumn => exact tame_expelFromColumn hs h
  | swapWindowInDirection direction => exact tame_swapWindowInDirection hs h

theorem tame_applySize (hs : s.Inv) {op : SizeOp} (h : s.applySize op = some s') :
    Tame near s s' := by
  cases op with
  | toggleColumnTabbedDisplay => exact tame_toggleColumnTabbedDisplay hs h
  | setColumnDisplay display => exact tame_setColumnDisplay hs h
  | centerColumn => exact some.inj h ▸ s.tame_centerColumn
  | centerWindow window => exact tame_centerWindow h
  | centerVisibleColumns => exact some.inj h ▸ s.tame_centerVisibleColumns
  | toggleWidth forwards => exact tame_resizeWindow (fun c _ => c.like_toggleWidth none forwards) h
  | toggleFullWidth => exact tame_resizeWindow (fun c _ => c.like_toggleFullWidth) h
  | setWindowWidth window change =>
    exact tame_resizeWindow (fun c k => c.like_setColumnWidth change k) h
  | setWindowHeight window change =>
    exact tame_resizeWindow (fun c k => c.like_setWindowHeight change k) h
  | resetWindowHeight window => exact tame_resizeWindow (fun c k => c.like_resetWindowHeight k) h
  | toggleWindowWidth window forwards =>
    exact tame_resizeWindow (fun c k => c.like_toggleWidth k forwards) h
  | toggleWindowHeight window forwards =>
    exact tame_resizeWindow (fun c k => c.like_toggleWindowHeight k forwards) h
  | expandColumnToAvailableWidth =>
    exact some.inj h ▸ s.tame_expandColumnToAvailableWidth

theorem tame_applyView {op : ViewOp} (h : s.applyView op = some s') : Tame near s s' := by
  cases op with
  | viewOffsetGestureBegin b => exact some.inj h ▸ (s.like_viewOffsetGestureBegin b).tame
  | viewOffsetGestureUpdate x y b =>
    exact some.inj h ▸ (s.like_viewOffsetGestureUpdate x y b).tame
  | dndScrollGestureBegin => exact some.inj h ▸ s.tame_dndScrollGestureBegin
  | dndScrollGestureScroll x => exact some.inj h ▸ (s.like_dndScrollGestureScroll x).tame
  | interactiveResizeBegin window edges => exact tame_interactiveResizeBegin h
  | interactiveResizeUpdate window delta => exact tame_interactiveResizeUpdate h
  | interactiveResizeEnd window => exact tame_interactiveResizeEnd h
  | refresh => exact some.inj h ▸ s.like_refresh.tame
  | setClock now x f => exact some.inj h ▸ (s.like_setClock now x f).tame
  | advanceAnimations b f => exact some.inj h ▸ (s.like_advanceAnimations b f).tame

/-- What every step does, whichever operation it is. -/
theorem effect_step (hs : s.Inv) (h : s.step op = some s') : Effect s op s' := by
  unfold step at h
  split at h
  swap
  · simp at h
  rename_i hfresh
  cases op with
  | updateConfig => exact .of_tame hs (some.inj h ▸ tame_updateConfig ..)
  | addTile idx tile activate width isFullWidth =>
    exact effect_addTile hs (by simpa [Op.added] using hfresh) h rfl
      (fun hne => by simp [insertsAt, hne]) rfl
  | addTileToColumn =>
    exact .of_tame hs (tame_addTileToColumn (by simpa [Op.added] using hfresh) h)
  | addTileRightOf rightOf tile activate width isFullWidth =>
    obtain ⟨idx, hidx, h⟩ := of_bind h
    exact effect_addTile hs (by simpa [Op.added] using hfresh) h rfl
      (fun _ => by simp [insertsAt, hidx, insertionIdx]) rfl
  | addColumn idx column activate =>
    exact effect_addColumn hs column.2 hfresh h rfl (fun hne => by simp [insertsAt, hne]) rfl
  | remove op => exact .of_tame hs (tame_applyRemove h)
  | updateWindow => exact .of_tame hs (tame_updateWindow hs h)
  | focus op => exact .of_tame hs (some.inj h ▸ tame_applyFocus hs op)
  | move op => exact .of_tame hs (tame_applyMove hs h)
  | consumeOrExpelWindowLeft => exact effect_consumeOrExpelWindowLeft hs h
  | consumeOrExpelWindowRight =>
    exact effect_expelRight hs (consumeOrExpelWindowRight_cases hs h) rfl rfl
  | size op => exact .of_tame hs (tame_applySize hs h)
  | setFullscreen => exact effect_expelRight hs (setFullscreen_cases hs h) rfl rfl
  | setMaximized => exact effect_expelRight hs (setMaximized_cases hs h) rfl rfl
  | view op => exact .of_tame hs (tame_applyView h)
  | viewOffsetGestureEnd isTouchpad =>
    obtain rfl := some.inj h
    exact ⟨hs.viewOffsetGestureEnd isTouchpad, fun hr _ => hr.viewOffsetGestureEnd isTouchpad,
      fun hp hstay => ((tame_viewOffsetGestureEnd hstay).prev hs hp).imp_right .inl⟩
  | dndScrollGestureEnd =>
    obtain rfl := some.inj h
    exact ⟨hs.dndScrollGestureEnd, fun hr _ => hr.dndScrollGestureEnd,
      fun hp hstay => ((tame_dndScrollGestureEnd hstay).prev hs hp).imp_right .inl⟩

end ScrollingSpace

/-! The representation invariant over whole runs. -/

structure Column.RepInvariant (c : Column) (options : Options) : Prop where
  nonempty : c.tiles ≠ []
  data_length : c.tiles.length = c.data.length
  active : c.activeTileIdx < c.tiles.length
  sizes : ∀ (i : ℕ) t d, c.tiles[i]? = some t → c.data[i]? = some d → d.size = t.tileSize
  heights : c.data.countP (!·.height.isAuto) ≤ 1
  presetWidth : ∀ i, c.presetWidthIdx = some i → i < options.presetColumnWidths.length
  presetHeight : ∀ d ∈ c.data, ∀ i, d.height = .preset i → i < options.presetWindowHeights.length
  pending : c.isPendingFullscreen ∨ c.isPendingMaximized →
    c.tiles.length = 1 ∨ c.displayMode = .tabbed
  modes : ∀ t ∈ c.tiles, t.window.pendingSizingMode = c.pendingSizingMode

structure ScrollingSpace.RepInvariant (s : ScrollingSpace) : Prop where
  data_length : s.columns.length = s.data.length
  data_width : ∀ (i : ℕ) c d, s.columns[i]? = some c → s.data[i]? = some d →
    d.width = c.actualWidth
  active : s.columns ≠ [] → s.activeColumnIdx < s.columns.length
  active_empty : s.columns = [] → s.activeColumnIdx = 0
  columns : ∀ c ∈ s.columns, c.RepInvariant s.options
  resize : ∀ r, s.interactiveResize = some r → ∃ c ∈ s.columns, c.contains r.window

theorem Column.Wf.repInvariant {c : Column} (h : c.Wf) : c.RepInvariant c.options where
  nonempty := h.nonempty
  data_length := h.length_data.symm
  active := h.active
  sizes i t d ht hd := by
    have hget := congrArg (·[i]?) h.sizes
    simpa [ht, hd] using hget
  heights := by simpa [nonAuto, List.countP_map, Function.comp_def] using h.heights
  presetWidth := h.presetWidth
  presetHeight := h.presetHeight
  pending hp := h.single (by
    unfold pendingSizingMode
    rcases hp with hp | hp
    · simp [hp]
    · simp only [hp, if_true]
      split <;> simp)
  modes := h.modes

namespace ScrollingSpace

variable {viewSize : Size} {parentArea : Rectangle} {scale now : ℚ} {options : Options}
variable {s s' : ScrollingSpace} {ops : List Op}

theorem Inv.repInvariant (h : s.Inv) : s.RepInvariant where
  data_length := by simp [h.data]
  data_width i c d hc hd := by
    rw [h.data_getElem? hc] at hd
    exact some.inj hd ▸ rfl
  active := h.active
  active_empty := h.empty
  columns c hc := h.options c hc ▸ (h.columns c hc).repInvariant
  resize r hr := by
    obtain ⟨ids, hids, hmem⟩ := List.mem_flatten.mp (h.resize r hr)
    obtain ⟨c, hc, rfl⟩ := List.mem_map.mp hids
    exact ⟨c, hc, Column.mem_windowIds.mp hmem⟩

theorem inv_new : (new viewSize parentArea scale options now).Inv :=
  ⟨⟨rfl, by simp [new], by simp [new], by simp [new], by simp [new, windowIds, arrangement],
    by simp [new], by simp [new]⟩, by simp [new], fun _ => rfl⟩

theorem inv_run (hs : s.Inv) (h : run step s ops = some s') : s'.Inv :=
  run_invariant (fun _ _ _ ht hstep => (effect_step ht hstep).inv) hs h

/-- Every state that a space reaches represents its columns consistently. -/
theorem repInvariant_reachable (h : run step (new viewSize parentArea scale options now) ops = some s) :
    s.RepInvariant :=
  (inv_run inv_new h).repInvariant

/-! A small space. -/

def testWindow (id : ℕ) : Window where
  id := id
  size := ⟨1000, 200⟩
  minSize := ⟨0, 0⟩
  maxSize := ⟨0, 0⟩
  sizingMode := .normal
  pendingSizingMode := .normal
  isPendingWindowedFullscreen := false
  requestedSize := none
  rules := ⟨⟨false, false, none⟩, none, none⟩
  interactiveResizeData := none
  parent := none

def testTile (id : ℕ) : Tile := Tile.new (testWindow id) ⟨1280, 720⟩ 1 .default

def testSpace : ScrollingSpace := new ⟨1280, 720⟩ ⟨⟨0, 0⟩, ⟨1280, 720⟩⟩ 1 .default 0

/-- Open a window in a column right of the active one. -/
def openOp (id : ℕ) : Op := .addTile none (testTile id) true (.proportion (1 / 2)) false

/-- A window commits its fullscreen size. -/
def fullscreenCommit : Commit :=
  ⟨⟨1280, 720⟩, ⟨0, 0⟩, ⟨0, 0⟩, .fullscreen, ⟨⟨false, false, none⟩, none, none⟩, none⟩

theorem repInvariant_extracted : ∃ s, run step testSpace [openOp 1, openOp 2,
    .consumeOrExpelWindowLeft none, .setFullscreen 1 true, .updateWindow 1 fullscreenCommit false,
    .move (.swapWindowInDirection .left)] = some s ∧ s.RepInvariant := by
  have hrun : (run step testSpace [openOp 1, openOp 2, .consumeOrExpelWindowLeft none,
      .setFullscreen 1 true, .updateWindow 1 fullscreenCommit false,
      .move (.swapWindowInDirection .left)]).isSome := by decide +kernel
  obtain ⟨s, hs⟩ := isSome_iff_exists.mp hrun
  exact ⟨s, hs, repInvariant_reachable hs⟩

end ScrollingSpace

end Macniri.Layout
