import Macniri.Layout.WorkspaceEffects

/-! Adding, removing and moving windows between the spaces of a workspace, and the steps of a
workspace as a whole. -/
namespace Macniri.Layout

open List Option

namespace ScrollingSpace

variable {s : ScrollingSpace}

theorem like_modifyTile (s : ScrollingSpace) (w : ℕ) {f : Tile → Tile} (hf : ∀ t : Tile, t.Alike (f t)) :
    s.Like (s.modifyTile w f) := by
  unfold modifyTile
  split
  · exact .refl s
  · exact ⟨forall₂_modify Column.Like.refl fun c _ => c.like_modifyTile _ hf, rfl, rfl, rfl, rfl, rfl,
      rfl, rfl⟩

end ScrollingSpace

namespace Workspace

variable {ws ws' wt : Workspace} {s : ScrollingSpace} {f : FloatingSpace} {ids : List ℕ}
variable {window : Option ℕ} {w : ℕ} {tile : Tile}

theorem kept_modifyTile (hws : ws.Ok) (w : ℕ) {g : Tile → Tile} (hg : ∀ t : Tile, t.Alike (g t)) :
    Kept ws { ws with scrolling := ws.scrolling.modifyTile w g } :=
  have hlike := ws.scrolling.like_modifyTile w hg
  kept_scrolling hws (hlike.inv hws.scrolling) hlike.windowIds

theorem kept_moveFloatingWindow (hws : ws.Ok) {x y : PositionChange}
    (h : ws.moveFloatingWindow window x y = some ws') : Kept ws ws' := by
  unfold moveFloatingWindow at h
  split at h
  · exact kept_liftFloating hws (fun _ hf => .of_eq (FloatingSpace.windowIds_moveWindow hf)) h
  · split at h
    · exact some.inj h ▸ .refl hws
    · obtain ⟨tile, -, rfl⟩ := of_bind_some h
      split
      · exact .refl hws
      · exact kept_modifyTile hws _ fun _ => ⟨rfl, rfl, rfl, rfl⟩

theorem kept_applyWindow (hws : ws.Ok) {op : WindowOp} (h : ws.applyWindow window op = some ws') :
    Kept ws ws' := by
  cases op with
  | consumeOrExpelWindowLeft =>
    exact kept_onSpaceOf hws (fun _ hf => some.inj hf ▸ .refl _)
      (fun _ => kept_op hws (.consumeOrExpelWindowLeft window) rfl) h
  | consumeOrExpelWindowRight =>
    exact kept_onSpaceOf hws (fun _ hf => some.inj hf ▸ .refl _)
      (fun _ => kept_op hws (.consumeOrExpelWindowRight window) rfl) h
  | centerWindow =>
    exact kept_onSpaceOf hws (fun _ hf => .of_eq (FloatingSpace.windowIds_centerWindow hf))
      (fun _ => kept_op hws (.size (.centerWindow window)) rfl) h
  | toggleWindowWidth forwards =>
    exact kept_onSpaceOf hws (fun _ hf => .of_eq (FloatingSpace.windowIds_toggleWindowWidth hf))
      (fun _ => kept_op hws (.size (.toggleWindowWidth window forwards)) rfl) h
  | toggleWindowHeight forwards =>
    exact kept_onSpaceOf hws (fun _ hf => .of_eq (FloatingSpace.windowIds_toggleWindowHeight hf))
      (fun _ => kept_op hws (.size (.toggleWindowHeight window forwards)) rfl) h
  | setWindowWidth change =>
    exact kept_onSpaceOf hws (fun _ hf => .of_eq (FloatingSpace.windowIds_setWindowWidth hf))
      (fun _ => kept_op hws (.size (.setWindowWidth window change)) rfl) h
  | setWindowHeight change =>
    exact kept_onSpaceOf hws (fun _ hf => .of_eq (FloatingSpace.windowIds_setWindowHeight hf))
      (fun _ => kept_op hws (.size (.setWindowHeight window change)) rfl) h
  | resetWindowHeight =>
    exact kept_onSpaceOf hws (fun _ hf => some.inj hf ▸ .refl _)
      (fun _ => kept_op hws (.size (.resetWindowHeight window)) rfl) h
  | moveFloatingWindow x y => exact kept_moveFloatingWindow hws h

/-! Adding. -/

theorem kept_focusAddedFloating (hws : ws.Ok) (activate : Bool) :
    Kept ws (ws.focusAddedFloating activate) := by
  unfold focusAddedFloating
  split
  · exact kept_floatingIsActive hws _
  · exact .refl hws

theorem kept_focusAddedScrolling (hws : ws.Ok) (activate : Bool) :
    Kept ws (ws.focusAddedScrolling activate) := by
  unfold focusAddedScrolling
  split
  · exact kept_floatingIsActive hws _
  · exact .refl hws

/-- An operation of the scrolling space that brings windows along. -/
theorem edit_op (hws : ws.Ok) (op : Op) (h : ws.scrolling.apply op = some s)
    (hfresh : ∀ w ∈ op.added, w ∉ ws.windowIds) (hnodup : op.added.Nodup)
    (hop : ∀ o, op ≠ .remove o) : Edit op.added ws { ws with scrolling := s } := by
  have hstep : ws.scrolling.step op = some s := by
    unfold ScrollingSpace.step
    rw [if_pos fun w hw => fresh_scrolling (hfresh w hw)]
    exact h
  exact edit_scrolling hws hfresh hnodup (ScrollingSpace.effect_step hws.scrolling hstep).inv
    (ScrollingSpace.perm_step hws.scrolling hstep hop)

theorem edit_scrollingAdd (hws : ws.Ok) (op : Op) {activate : Bool}
    (hfresh : ∀ w ∈ op.added, w ∉ ws.windowIds) (hnodup : op.added.Nodup)
    (h : (ws.liftScrolling (·.apply op)).map (·.focusAddedScrolling activate) = some ws')
    (hop : ∀ o, op ≠ .remove o) : Edit op.added ws ws' := by
  obtain ⟨wt, hwt, rfl⟩ := of_map h
  obtain ⟨s, hs, rfl⟩ := of_map hwt
  have hedit := edit_op hws op hs hfresh hnodup hop
  exact hedit.trans (kept_focusAddedScrolling hedit.ok activate)

theorem fresh_singleton (hfresh : w ∉ ws.windowIds) : ∀ v ∈ [w], v ∉ ws.windowIds :=
  fun _ hv => mem_singleton.mp hv ▸ hfresh

/-- The tile goes to the floating space. -/
def AddsFloating (ws : Workspace) (tile : Tile) (activate : Bool) (ws' : Workspace) : Prop :=
  ∃ i f, ws.floating.addTileAt i tile activate = some f ∧
    ws' = { ws with floating := f }.focusAddedFloating activate

/-- The tile goes to a new column of the scrolling space. -/
def AddsScrolling (ws : Workspace) (tile : Tile) (activate : Bool) (ws' : Workspace) : Prop :=
  ∃ colIdx width isFullWidth s,
    ws.scrolling.addTile colIdx tile activate width isFullWidth = some s ∧
      ws' = { ws with scrolling := s }.focusAddedScrolling activate

theorem addsFloating_addFloating {activate : Bool} (h : ws.addFloating tile activate = some ws') :
    ws.AddsFloating tile activate ws' := by
  obtain ⟨wt, hwt, rfl⟩ := of_map h
  obtain ⟨f, hf, rfl⟩ := of_map hwt
  exact ⟨0, f, hf, rfl⟩

theorem addsScrolling_addScrolling {colIdx : Option ℕ} {activate : Bool} {width : ColumnWidth}
    {isFullWidth : Bool} (h : ws.addScrolling colIdx tile activate width isFullWidth = some ws') :
    ws.AddsScrolling tile activate ws' := by
  obtain ⟨wt, hwt, rfl⟩ := of_map h
  obtain ⟨s, hs, rfl⟩ := of_map hwt
  exact ⟨colIdx, width, isFullWidth, s, hs, rfl⟩

/-- Which space a window opens on; next to another window it may get a floating position. -/
theorem addTileNextTo_cases {activate : Bool} {width : ColumnWidth} {isFullWidth isFloating : Bool}
    {renderPos : Point}
    (h : ws.addTileNextTo tile w activate width isFullWidth isFloating renderPos = some ws') :
    if isFloating ∧ tile.window.pendingSizingMode = .normal
    then ∃ pos, ws.AddsFloating { tile with floatingPos := some pos } activate ws'
    else ws.AddsScrolling tile activate ws' := by
  unfold addTileNextTo at h
  split at h
  · rename_i hfloating
    rw [if_pos hfloating]
    split at h
    · obtain ⟨wt, hwt, rfl⟩ := of_map h
      obtain ⟨f, hf, rfl⟩ := of_map hwt
      obtain ⟨i, -, hf⟩ := of_bind hf
      obtain ⟨d, -, hf⟩ := of_bind hf
      exact ⟨_, i, f, hf, rfl⟩
    · obtain ⟨nextTo, -, h⟩ := of_bind h
      exact ⟨_, addsFloating_addFloating h⟩
  · rename_i hfloating
    rw [if_neg hfloating]
    split at h
    · exact addsScrolling_addScrolling h
    · obtain ⟨wt, hwt, rfl⟩ := of_map h
      obtain ⟨s, hs, rfl⟩ := of_map hwt
      obtain ⟨i, -, hs⟩ := of_bind hs
      exact ⟨_, _, _, s, hs, rfl⟩

theorem addTile_cases {target : WorkspaceAddWindowTarget} {activate : ActivateWindow}
    {width : ColumnWidth} {isFullWidth isFloating : Bool} {renderPos : Point}
    (h : ws.addTile tile target activate width isFullWidth isFloating renderPos = some ws') :
    ∃ pos a, let placed : Tile := { tile with restoreToFloating := isFloating, floatingPos := pos }
      (isFloating = true ∧ tile.window.pendingSizingMode = .normal ∧ ws.AddsFloating placed a ws') ∨
        ws.AddsScrolling placed a ws' := by
  unfold addTile at h
  cases target with
  | auto =>
    dsimp only at h
    split at h
    · rename_i hfloating
      exact ⟨_, _, .inl ⟨hfloating.1, hfloating.2, addsFloating_addFloating h⟩⟩
    · exact ⟨_, _, .inr (addsScrolling_addScrolling h)⟩
  | newColumnAt colIdx => exact ⟨_, _, .inr (addsScrolling_addScrolling h)⟩
  | nextTo nextTo =>
    obtain ⟨a, -, h⟩ := of_bind h
    have hcases := addTileNextTo_cases h
    split at hcases
    · rename_i hfloating
      obtain ⟨pos, hadds⟩ := hcases
      exact ⟨_, _, .inl ⟨hfloating.1, hfloating.2, hadds⟩⟩
    · exact ⟨_, _, .inr hcases⟩

theorem AddsScrolling.edit {activate : Bool} (h : ws.AddsScrolling tile activate ws') (hws : ws.Ok)
    (hfresh : tile.id ∉ ws.windowIds) : Edit [tile.id] ws ws' := by
  obtain ⟨colIdx, width, isFullWidth, s, hs, rfl⟩ := h
  have hedit := edit_op hws (.addTile colIdx tile activate width isFullWidth) hs
    (fresh_singleton hfresh) (nodup_singleton _) (by simp)
  exact hedit.trans (kept_focusAddedScrolling hedit.ok activate)

theorem AddsFloating.edit {activate : Bool} (h : ws.AddsFloating tile activate ws') (hws : ws.Ok)
    (hfresh : tile.id ∉ ws.windowIds) : Edit [tile.id] ws ws' := by
  obtain ⟨i, f, hf, rfl⟩ := h
  have hedit := edit_floating hws (fresh_singleton hfresh) (nodup_singleton _)
    (FloatingSpace.addTileAt_perm hf)
  exact hedit.trans (kept_focusAddedFloating hedit.ok activate)

theorem edit_addTile (hws : ws.Ok) (hfresh : tile.id ∉ ws.windowIds) {activate : ActivateWindow}
    {target : WorkspaceAddWindowTarget} {width : ColumnWidth} {isFullWidth isFloating : Bool}
    {renderPos : Point}
    (h : ws.addTile tile target activate width isFullWidth isFloating renderPos = some ws') :
    Edit [tile.id] ws ws' := by
  obtain ⟨pos, a, ⟨-, -, hadds⟩ | hadds⟩ := addTile_cases h
  · exact hadds.edit hws hfresh
  · exact hadds.edit hws hfresh

theorem edit_addTileToColumn (hws : ws.Ok) (hfresh : tile.id ∉ ws.windowIds) {colIdx : ℕ}
    {tileIdx : Option ℕ} {activate : Bool}
    (h : ws.addTileToColumn colIdx tileIdx tile activate = some ws') : Edit [tile.id] ws ws' :=
  edit_scrollingAdd hws (.addTileToColumn colIdx tileIdx tile activate) (fresh_singleton hfresh)
    (nodup_singleton _) h (by simp)

theorem edit_addColumn (hws : ws.Ok) {column : WfColumn} {activate : Bool}
    (hfresh : ∀ w ∈ column.1.windowIds, w ∉ ws.windowIds)
    (h : ws.addColumn column.1 activate = some ws') : Edit column.1.windowIds ws ws' :=
  edit_scrollingAdd hws (.addColumn none column activate) hfresh column.2.ids h (by simp)

/-! Removing. -/

theorem kept_updateFocus (hws : ws.Ok) (removedFromFloating : Bool) :
    Kept ws (ws.updateFocusFloatingTilingAfterRemoving removedFromFloating) := by
  unfold updateFocusFloatingTilingAfterRemoving
  split
  · split
    · exact kept_floatingIsActive hws _
    · exact .refl hws
  · split
    · exact kept_floatingIsActive hws _
    · exact .refl hws

/-- A window was removed from the floating space. -/
def DropsFloating (ws : Workspace) (removed : RemovedTile) (ws' : Workspace) : Prop :=
  ∃ f, ws.floating.removeTile removed.tile.id = some (removed, f) ∧
    ws' = { ws with floating := f }.updateFocusFloatingTilingAfterRemoving true

/-- A window was removed from the scrolling space. -/
def DropsScrolling (ws : Workspace) (removed : RemovedTile) (ws' : Workspace) : Prop :=
  ∃ colIdx tileIdx s, ws.scrolling.removeTileByIdx colIdx tileIdx = some (removed, s) ∧
    ws' = { ws with scrolling := s }.updateFocusFloatingTilingAfterRemoving false

variable {removed : RemovedTile}

theorem dropsFloating_removeFloating (h : ws.removeFloating w = some (removed, ws')) :
    ws.DropsFloating removed ws' ∧ removed.tile.id = w := by
  obtain ⟨⟨r, f⟩, hf, h⟩ := of_bind h
  obtain ⟨rfl, rfl⟩ := pair_inj h
  have hid := (FloatingSpace.removeTile_perm hf).1
  exact ⟨⟨f, hid ▸ hf, rfl⟩, hid⟩

theorem removeTile_cases (h : ws.removeTile w = some (removed, ws')) :
    (ws.DropsFloating removed ws' ∨ ws.DropsScrolling removed ws') ∧ removed.tile.id = w := by
  unfold removeTile at h
  split at h
  · obtain ⟨hdrops, hid⟩ := dropsFloating_removeFloating h
    exact ⟨.inl hdrops, hid⟩
  · obtain ⟨⟨r, s⟩, hs, h⟩ := of_bind h
    obtain ⟨rfl, rfl⟩ := pair_inj h
    have hid := ScrollingSpace.removeTile_id hs
    obtain ⟨⟨i, k⟩, -, hs⟩ := of_bind hs
    exact ⟨.inr ⟨i, k, s, hs, rfl⟩, hid⟩

theorem removeActiveTile_cases (h : ws.removeActiveTile = some (some (removed, ws'))) :
    ws.DropsFloating removed ws' ∨ ws.DropsScrolling removed ws' := by
  unfold removeActiveTile at h
  split at h
  · obtain ⟨taken, htaken, h⟩ := of_bind h
    obtain ⟨⟨r, f⟩, hr, hpair⟩ := of_map (some.inj h)
    obtain ⟨rfl, rfl⟩ := Prod.mk.inj hpair
    subst hr
    obtain ⟨id, -, hf⟩ := FloatingSpace.removeActiveTile_spec htaken
    exact .inl ⟨f, (FloatingSpace.removeTile_perm hf).1 ▸ hf, rfl⟩
  · split at h
    · cases h
    · obtain ⟨⟨r, s⟩, hs, h⟩ := of_bind h
      obtain ⟨rfl, rfl⟩ := pair_inj (some.inj h)
      obtain ⟨c, -, hs⟩ := of_bind hs
      exact .inr ⟨_, _, s, hs, rfl⟩

theorem DropsFloating.cut (h : ws.DropsFloating removed ws') (hws : ws.Ok) :
    Cut [removed.tile.id] ws ws' := by
  obtain ⟨f, hf, rfl⟩ := h
  have hcut : Cut [removed.tile.id] ws { ws with floating := f } :=
    cut_floating hws (FloatingSpace.removeTile_perm hf).2
  exact hcut.trans (kept_updateFocus hcut.ok true)

theorem DropsScrolling.cut (h : ws.DropsScrolling removed ws') (hws : ws.Ok) :
    Cut [removed.tile.id] ws ws' := by
  obtain ⟨i, k, s, hs, rfl⟩ := h
  have htame : ScrollingSpace.Tame true ws.scrolling s := ScrollingSpace.tame_removeTileByIdx hs
  have hcut : Cut [removed.tile.id] ws { ws with scrolling := s } :=
    cut_scrolling hws (htame.inv hws.scrolling) (ScrollingSpace.removeTileByIdx_perm hs)
  exact hcut.trans (kept_updateFocus hcut.ok false)

theorem removeActiveColumn_cases {column : Column}
    (h : ws.removeActiveColumn = some (some (column, ws'))) :
    ∃ s, ws.scrolling.removeActiveColumn = some (column, s) ∧
      ws' = { ws with scrolling := s }.updateFocusFloatingTilingAfterRemoving false := by
  unfold removeActiveColumn at h
  split at h
  · cases h
  · obtain ⟨⟨c, s⟩, hs, h⟩ := of_bind h
    obtain ⟨rfl, rfl⟩ := pair_inj (some.inj h)
    exact ⟨s, hs, rfl⟩

theorem cut_removeActiveColumn (hws : ws.Ok) {column : Column}
    (h : ws.removeActiveColumn = some (some (column, ws'))) : Cut column.windowIds ws ws' := by
  obtain ⟨s, hs, rfl⟩ := removeActiveColumn_cases h
  have htame : ScrollingSpace.Tame true ws.scrolling s := ScrollingSpace.tame_removeColumnByIdx hs
  have hcut := cut_scrolling hws (htame.inv hws.scrolling) (ScrollingSpace.removeColumnByIdx_perm hs)
  exact hcut.trans (kept_updateFocus hcut.ok false)

/-! Between the spaces. -/

def activeId (ws : Workspace) : Option ℕ := ws.activeWindow.map (·.id)

/-- A window went from the floating to the scrolling space. -/
def ToScrolling (ws : Workspace) (w : ℕ) (activate : Bool) (ws' : Workspace) : Prop :=
  ∃ removed f, ws.floating.removeTile w = some (removed, f) ∧
    { ws with floating := f }.AddsScrolling removed.tile activate ws'

/-- A window went from the scrolling to the floating space. -/
def ToFloating (ws : Workspace) (w : ℕ) (activate : Bool) (renderPos : Point) (ws' : Workspace) :
    Prop :=
  ∃ removed s f, ws.scrolling.removeTile w = some (removed, s) ∧
    ws.floating.addTileAt 0 (ws.withFloatingPos removed.tile renderPos) activate = some f ∧
    ws' = { ws with
      scrolling := s
      floating := f
      floatingIsActive := if activate then .yes else ws.floatingIsActive }

/-- A window went to the other space; it is active there if and only if it was active. -/
def Toggles (ws : Workspace) (w : ℕ) (renderPos : Point) (ws' : Workspace) : Prop :=
  if ws.floating.hasWindow w then ws.ToScrolling w (some w == ws.activeId) ws'
  else ws.ToFloating w (some w == ws.activeId) renderPos ws'

theorem toggles_of_eq {a : Bool} (ha : a = (some w == ws.activeId)) {renderPos : Point}
    (h : (if ws.floating.hasWindow w then ws.floatingToScrolling w a
      else ws.scrollingToFloating w a renderPos) = some ws') : ws.Toggles w renderPos ws' := by
  subst ha
  unfold Toggles
  split at h
  · rename_i hw
    obtain ⟨⟨removed, f⟩, hf, h⟩ := of_bind h
    rw [if_pos hw]
    exact ⟨removed, f, hf, addsScrolling_addScrolling h⟩
  · rename_i hw
    obtain ⟨⟨removed, s⟩, hs, h⟩ := of_bind h
    obtain ⟨wt, hwt, h⟩ := of_bind h
    obtain ⟨f, hf, rfl⟩ := of_map hwt
    obtain rfl := some.inj h
    rw [if_neg hw]
    refine ⟨removed, s, f, hs, hf, ?_⟩
    cases some w == ws.activeId <;> rfl

theorem toggleWindowFloating_cases {renderPos : Point}
    (h : ws.toggleWindowFloating window renderPos = some ws') :
    (window = none ∧ ws.activeId = none ∧ ws' = ws) ∨
      ∃ w, window.or ws.activeId = some w ∧ ws.Toggles w renderPos ws' := by
  unfold toggleWindowFloating at h
  dsimp only at h
  cases window with
  | some w => exact .inr ⟨w, rfl, toggles_of_eq rfl h⟩
  | none =>
    cases hactive : ws.activeWindow.map (·.id) with
    | none =>
      rw [hactive] at h
      exact .inl ⟨rfl, hactive, (some.inj h).symm⟩
    | some w =>
      rw [hactive] at h
      refine .inr ⟨w, hactive, toggles_of_eq ?_ h⟩
      rw [activeId, hactive]
      simp

theorem withFloatingPos_id (ws : Workspace) (tile : Tile) (renderPos : Point) :
    (ws.withFloatingPos tile renderPos).id = tile.id := by
  unfold withFloatingPos
  split <;> rfl

theorem Toggles.kept {renderPos : Point} (h : ws.Toggles w renderPos ws') (hws : ws.Ok) :
    Kept ws ws' := by
  unfold Toggles at h
  split at h
  · obtain ⟨removed, f, hf, hadds⟩ := h
    obtain ⟨rfl, hperm⟩ := FloatingSpace.removeTile_perm hf
    have hcut : Cut [removed.tile.id] ws { ws with floating := f } := cut_floating hws hperm
    have hfresh := (nodup_cons.mp (hcut.windowIds.nodup_iff.mp hws.ids)).1
    exact hcut.edit (hadds.edit hcut.ok hfresh)
  · obtain ⟨removed, s, f, hs, hf, rfl⟩ := h
    obtain rfl := ScrollingSpace.removeTile_id hs
    obtain ⟨⟨i, k⟩, -, hs⟩ := of_bind hs
    have htame : ScrollingSpace.Tame true ws.scrolling s := ScrollingSpace.tame_removeTileByIdx hs
    have hcut : Cut [removed.tile.id] ws { ws with scrolling := s } :=
      cut_scrolling hws (htame.inv hws.scrolling) (ScrollingSpace.removeTileByIdx_perm hs)
    have hfresh := (nodup_cons.mp (hcut.windowIds.nodup_iff.mp hws.ids)).1
    have hperm := FloatingSpace.addTileAt_perm hf
    rw [withFloatingPos_id] at hperm
    have hedit : Edit [removed.tile.id] { ws with scrolling := s }
        { ws with scrolling := s, floating := f } :=
      edit_floating hcut.ok (fresh_singleton hfresh) (nodup_singleton _) hperm
    exact hcut.edit (hedit.trans (kept_floatingIsActive hedit.ok _))

theorem kept_toggleWindowFloating (hws : ws.Ok) {renderPos : Point}
    (h : ws.toggleWindowFloating window renderPos = some ws') : Kept ws ws' := by
  rcases toggleWindowFloating_cases h with ⟨-, -, rfl⟩ | ⟨w, -, htoggles⟩
  · exact .refl hws
  · exact htoggles.kept hws

theorem kept_setWindowFloating (hws : ws.Ok) {floating : Bool} {renderPos : Point}
    (h : ws.setWindowFloating window floating renderPos = some ws') : Kept ws ws' := by
  unfold setWindowFloating at h
  split at h
  · exact some.inj h ▸ .refl hws
  · exact kept_toggleWindowFloating hws h

theorem kept_setScrollingPending {restore : Bool}
    {set : ScrollingSpace → Option ScrollingSpace}
    (hset : ∀ s, set ws.scrolling = some s → Kept ws { ws with scrolling := s })
    (h : ws.setScrollingPending w restore set = some ws') : Kept ws ws' := by
  obtain ⟨tile, -, h⟩ := of_bind h
  obtain ⟨s, hs, h⟩ := of_bind h
  obtain ⟨tile', -, rfl⟩ := of_bind_some h
  have hkept := hset s hs
  split
  · exact hkept.trans (kept_modifyTile hkept.ok w fun _ => ⟨rfl, rfl, rfl, rfl⟩)
  · exact hkept

/-- What a request to enable or disable a pending mode of a window does. -/
inductive SetsPending (ws : Workspace) (w : ℕ) (renderPos : Point)
    (set : ScrollingSpace → Bool → Option ScrollingSpace) (toFloating : Option Bool) :
    Bool → Workspace → Prop
  | fromFloating {wt ws' : Workspace} (hw : ws.floating.hasWindow w = true)
      (htoggle : ws.toggleWindowFloating (some w) renderPos = some wt)
      (hset : wt.setScrollingPending w true (set · true) = some ws') :
      SetsPending ws w renderPos set toFloating true ws'
  | floating (hw : ws.floating.hasWindow w = true) : SetsPending ws w renderPos set toFloating false ws
  | toFloating {ws' : Workspace} (hw : ws.floating.hasWindow w = false)
      (hto : toFloating = some true)
      (htoggle : ws.toggleWindowFloating (some w) renderPos = some ws') :
      SetsPending ws w renderPos set toFloating false ws'
  | tiled {enable : Bool} {ws' : Workspace} (hw : ws.floating.hasWindow w = false)
      (hto : enable = false → toFloating = some false)
      (hset : ws.setScrollingPending w false (set · enable) = some ws') :
      SetsPending ws w renderPos set toFloating enable ws'

theorem setsPending_of_eq {enable : Bool} {renderPos : Point}
    {set : ScrollingSpace → Bool → Option ScrollingSpace} {toFloating : Option Bool}
    (h : (if ws.floating.hasWindow w then
        if enable then (ws.toggleWindowFloating (some w) renderPos).bind fun ws =>
          ws.setScrollingPending w true (set · true)
        else some ws
      else if enable then ws.setScrollingPending w false (set · true)
      else toFloating.bind fun toFloating =>
        if toFloating then ws.toggleWindowFloating (some w) renderPos
        else ws.setScrollingPending w false (set · false)) = some ws') :
    SetsPending ws w renderPos set toFloating enable ws' := by
  split at h
  · rename_i hw
    split at h
    · rename_i henable
      obtain ⟨wt, htoggle, hset⟩ := of_bind h
      exact henable ▸ .fromFloating hw htoggle hset
    · rename_i henable
      obtain rfl := some.inj h
      exact Bool.eq_false_iff.mpr henable ▸ .floating hw
  · rename_i hw
    have hw : ws.floating.hasWindow w = false := Bool.eq_false_iff.mpr hw
    split at h
    · rename_i henable
      subst henable
      exact .tiled hw nofun h
    · rename_i henable
      obtain rfl := Bool.eq_false_iff.mpr henable
      obtain ⟨b, hto, h⟩ := of_bind h
      cases b with
      | true => exact .toFloating hw hto h
      | false => exact .tiled hw (fun _ => hto) h

theorem setFullscreen_cases {enable : Bool} {renderPos : Point}
    (h : ws.setFullscreen w enable renderPos = some ws') :
    SetsPending ws w renderPos (fun s => s.setFullscreen w) (ws.unfullscreensToFloating w) enable
      ws' := setsPending_of_eq h

theorem setMaximized_cases {maximize : Bool} {renderPos : Point}
    (h : ws.setMaximized w maximize renderPos = some ws') :
    SetsPending ws w renderPos (fun s => s.setMaximized w) (ws.unmaximizesToFloating w) maximize
      ws' := setsPending_of_eq h

theorem SetsPending.kept {enable : Bool} {renderPos : Point}
    {set : ScrollingSpace → Bool → Option ScrollingSpace} {toFloating : Option Bool}
    (h : SetsPending ws w renderPos set toFloating enable ws') (hws : ws.Ok)
    (hset : ∀ wt b s, wt.Ok → set wt.scrolling b = some s → Kept wt { wt with scrolling := s }) :
    Kept ws ws' := by
  cases h with
  | fromFloating hw htoggle h =>
    have hkept := kept_toggleWindowFloating hws htoggle
    exact hkept.trans (kept_setScrollingPending (fun s => hset _ true s hkept.ok) h)
  | floating hw => exact .refl hws
  | toFloating hw hto htoggle => exact kept_toggleWindowFloating hws htoggle
  | tiled hw hto h => exact kept_setScrollingPending (fun s => hset _ _ s hws) h

theorem kept_setFullscreen (hws : ws.Ok) {enable : Bool} {renderPos : Point}
    (h : ws.setFullscreen w enable renderPos = some ws') : Kept ws ws' :=
  (setFullscreen_cases h).kept hws fun _ b _ hwt => kept_op hwt (.setFullscreen w b) rfl

theorem kept_setMaximized (hws : ws.Ok) {maximize : Bool} {renderPos : Point}
    (h : ws.setMaximized w maximize renderPos = some ws') : Kept ws ws' :=
  (setMaximized_cases h).kept hws fun _ b _ hwt => kept_op hwt (.setMaximized w b) rfl

theorem kept_toggleFullscreen (hws : ws.Ok) {renderPos : Point}
    (h : ws.toggleFullscreen w renderPos = some ws') : Kept ws ws' := by
  obtain ⟨tile, -, h⟩ := of_bind h
  exact kept_setFullscreen hws h

theorem kept_toggleMaximized (hws : ws.Ok) {renderPos : Point}
    (h : ws.toggleMaximized w renderPos = some ws') : Kept ws ws' := kept_setMaximized hws h

end Workspace

/-! Commits, gestures and periodic updates. -/

inductive UpdateOp where
  | descendantsAdded (window : ℕ)
  | updateWindow (window : ℕ) (commit : Commit) (ongoingResizeAnim : Bool)
  | setParent (window : ℕ) (parent : Option ℕ)
  | requestWindowedFullscreen (window : ℕ) (value : Bool)
  | refresh
  | viewOffsetGestureBegin (isTouchpad : Bool)
  | viewOffsetGestureUpdate (deltaX timestamp : ℚ) (isTouchpad : Bool)
  | viewOffsetGestureEnd (isTouchpad : Option Bool)
  | dndScrollGestureBegin
  | dndScrollGestureScroll (delta : ℚ)
  | dndScrollGestureEnd
  | interactiveResizeBegin (window : ℕ) (edges : ResizeEdge)
  | interactiveResizeUpdate (window : ℕ) (delta : Point)
  | interactiveResizeEnd (window : ℕ)
  | setClock (now : ℚ) (anim : Workspace.AnimationState)
  | advanceAnimations (anim : Workspace.AnimationState)

namespace Workspace

variable {ws ws' wt : Workspace} {w : ℕ}

def applyUpdate (ws : Workspace) : UpdateOp → Option Workspace
  | .descendantsAdded window => ws.descendantsAdded window
  | .updateWindow window commit ongoing => ws.updateWindow window commit ongoing
  | .setParent window parent => some (ws.modifyWindow window ({ · with parent := parent }))
  | .requestWindowedFullscreen window value =>
    some (ws.modifyWindow window (·.requestWindowedFullscreen value))
  | .refresh => some ws.refresh
  | .viewOffsetGestureBegin isTouchpad => some (ws.viewOffsetGestureBegin isTouchpad)
  | .viewOffsetGestureUpdate deltaX timestamp isTouchpad =>
    some (ws.viewOffsetGestureUpdate deltaX timestamp isTouchpad)
  | .viewOffsetGestureEnd isTouchpad => some (ws.viewOffsetGestureEnd isTouchpad)
  | .dndScrollGestureBegin => some ws.dndScrollGestureBegin
  | .dndScrollGestureScroll delta => some (ws.dndScrollGestureScroll delta)
  | .dndScrollGestureEnd => some ws.dndScrollGestureEnd
  | .interactiveResizeBegin window edges => ws.interactiveResizeBegin window edges
  | .interactiveResizeUpdate window delta => ws.interactiveResizeUpdate window delta
  | .interactiveResizeEnd window => ws.interactiveResizeEnd window
  | .setClock now anim => some (ws.setClock now anim)
  | .advanceAnimations anim => some (ws.advanceAnimations anim)

theorem kept_refresh (hws : ws.Ok) : Kept ws ws.refresh := by
  have hscrolling : Kept ws { ws with scrolling := ws.scrolling.refresh } :=
    kept_op hws (.view .refresh) rfl rfl
  exact hscrolling.trans (kept_floating hscrolling.ok (.of_eq ws.floating.windowIds_refresh))

theorem kept_modifyWindow (hws : ws.Ok) (w : ℕ) {g : Window → Window}
    (hg : ∀ t : Tile, t.Alike { t with window := g t.window }) : Kept ws (ws.modifyWindow w g) := by
  have hscrolling := kept_modifyTile hws w hg
  refine hscrolling.trans (kept_floating hscrolling.ok (.of_eq ?_))
  unfold FloatingSpace.windowIds
  rw [List.map_map]
  refine map_congr_left fun t _ => ?_
  dsimp only [Function.comp_apply]
  split
  · exact (hg t).id
  · rfl

theorem kept_applyUpdate (hws : ws.Ok) {op : UpdateOp} (h : ws.applyUpdate op = some ws') :
    Kept ws ws' := by
  cases op with
  | descendantsAdded window =>
    have h : ws.liftFloating (·.descendantsAdded window) = some ws' := h
    exact kept_liftFloating hws (fun _ => FloatingSpace.perm_descendantsAdded) h
  | updateWindow window commit ongoing =>
    exact kept_onSpaceOf hws (fun _ hf => .of_eq (FloatingSpace.windowIds_updateWindow hf))
      (fun _ => kept_op hws (.updateWindow window commit ongoing) rfl) h
  | setParent window parent =>
    exact some.inj h ▸ kept_modifyWindow hws window fun _ => ⟨rfl, rfl, rfl, rfl⟩
  | requestWindowedFullscreen window value =>
    exact some.inj h ▸ kept_modifyWindow hws window fun _ => ⟨rfl, rfl, rfl, rfl⟩
  | refresh => exact some.inj h ▸ kept_refresh hws
  | viewOffsetGestureBegin isTouchpad =>
    exact some.inj h ▸ kept_op hws (.view (.viewOffsetGestureBegin isTouchpad)) rfl rfl
  | viewOffsetGestureUpdate deltaX timestamp isTouchpad =>
    exact some.inj h ▸
      kept_op hws (.view (.viewOffsetGestureUpdate deltaX timestamp isTouchpad)) rfl rfl
  | viewOffsetGestureEnd isTouchpad =>
    exact some.inj h ▸ kept_op hws (.viewOffsetGestureEnd isTouchpad) rfl rfl
  | dndScrollGestureBegin =>
    exact some.inj h ▸ kept_op hws (.view .dndScrollGestureBegin) rfl rfl
  | dndScrollGestureScroll delta =>
    exact some.inj h ▸ kept_op hws (.view (.dndScrollGestureScroll delta)) rfl rfl
  | dndScrollGestureEnd => exact some.inj h ▸ kept_op hws .dndScrollGestureEnd rfl rfl
  | interactiveResizeBegin window edges =>
    exact kept_onSpaceOf hws (fun _ hf => .of_eq (FloatingSpace.windowIds_interactiveResizeBegin hf))
      (fun _ => kept_op hws (.view (.interactiveResizeBegin window edges)) rfl) h
  | interactiveResizeUpdate window delta =>
    exact kept_onSpaceOf hws
      (fun _ hf => .of_eq (FloatingSpace.windowIds_interactiveResizeUpdate hf))
      (fun _ => kept_op hws (.view (.interactiveResizeUpdate window delta)) rfl) h
  | interactiveResizeEnd window =>
    refine kept_onSpaceOf hws (fun _ hf => ?_)
      (fun _ => kept_op hws (.view (.interactiveResizeEnd (some window))) rfl) h
    exact some.inj hf ▸ .of_eq (FloatingSpace.windowIds_interactiveResizeEnd _ _)
  | setClock now anim =>
    exact some.inj h ▸ kept_op hws (.view (.setClock now anim.viewValue anim.moveValue)) rfl rfl
  | advanceAnimations anim =>
    exact some.inj h ▸
      kept_op hws (.view (.advanceAnimations anim.viewDone anim.moveDone)) rfl rfl

/-! Config and output. -/

/-- Both spaces get a new config; what else changes is not seen by the windows. -/
theorem kept_reconfigured (hws : ws.Ok) (viewSize : Size) (area : Rectangle) (scale : ℚ)
    (options : Options)
    (hscrolling : ws'.scrolling = ws.scrolling.updateConfig viewSize area scale options)
    (hfloating : ws'.floating = ws.floating.updateConfig viewSize area scale options)
    (hid : ws'.id = ws.id) (hname : ws'.name = ws.name)
    (horiginal : ws'.originalOutput = ws.originalOutput) : Kept ws ws' := by
  have hfirst : Kept ws
      { ws with scrolling := ws.scrolling.updateConfig viewSize area scale options } :=
    kept_op hws (.updateConfig viewSize area scale options) rfl rfl
  have hboth := hfirst.trans (kept_floating hfirst.ok
    (.of_eq (ws.floating.windowIds_updateConfig viewSize area scale options)))
  have hids : ws'.windowIds.Perm ws.windowIds := by
    unfold windowIds
    rw [hscrolling, hfloating]
    exact hboth.windowIds
  exact ⟨⟨hscrolling ▸ hboth.ok.scrolling, hids.nodup_iff.mpr hws.ids⟩, hid, hname, horiginal, hids⟩

theorem kept_updateConfig (hws : ws.Ok) (options : Options) : Kept ws (ws.updateConfig options) :=
  kept_reconfigured hws _ _ _ _ rfl rfl rfl rfl rfl

theorem kept_updateLayoutConfig (hws : ws.Ok) (layoutConfig : Option LayoutPart) :
    Kept ws (ws.updateLayoutConfig layoutConfig) := by
  unfold updateLayoutConfig
  split
  · exact .refl hws
  · exact kept_reconfigured hws _ _ _ _ rfl rfl rfl rfl rfl

theorem kept_setViewSize (hws : ws.Ok) (scale : ℚ) (transform : Transform) (size : Size)
    (area : Rectangle) : Kept ws (ws.setViewSize scale transform size area) := by
  unfold setViewSize
  split
  · exact .refl hws
  · dsimp only
    split
    · exact kept_reconfigured hws _ _ _ _ rfl rfl rfl rfl rfl
    · exact kept_reconfigured hws _ _ _ _ rfl rfl rfl rfl rfl

theorem kept_updateOutputSize (hws : ws.Ok) : Kept ws ws.updateOutputSize := by
  unfold updateOutputSize
  split
  · exact .refl hws
  · exact kept_setViewSize hws ..

end Workspace

inductive ConfigOp where
  | updateConfig (baseOptions : Options)
  | updateLayoutConfig (layoutConfig : Option LayoutPart)
  | setOutput (output : Option Output)
  | updateOutputSize

/-! Steps. -/

inductive WorkspaceOp where
  | active (op : ActiveOp)
  | window (window : Option ℕ) (op : WindowOp)
  | activateWindow (window : ℕ)
  | activateWindowWithoutRaising (window : ℕ)
  | addTile (tile : Tile) (target : WorkspaceAddWindowTarget) (activate : ActivateWindow)
      (width : ColumnWidth) (isFullWidth isFloating : Bool) (renderPos : Point)
  | addTileToColumn (colIdx : ℕ) (tileIdx : Option ℕ) (tile : Tile) (activate : Bool)
  | addColumn (column : WfColumn) (activate : Bool)
  | removeTile (window : ℕ)
  | removeActiveTile
  | removeActiveColumn
  | toggleWindowFloating (window : Option ℕ) (renderPos : Point)
  | setWindowFloating (window : Option ℕ) (floating : Bool) (renderPos : Point)
  | setFullscreen (window : ℕ) (isFullscreen : Bool) (renderPos : Point)
  | toggleFullscreen (window : ℕ) (renderPos : Point)
  | setMaximized (window : ℕ) (maximize : Bool) (renderPos : Point)
  | toggleMaximized (window : ℕ) (renderPos : Point)
  | update (op : UpdateOp)
  | config (op : ConfigOp)

/-- The windows that an operation brings along. -/
def WorkspaceOp.added : WorkspaceOp → List ℕ
  | addTile tile _ _ _ _ _ _ | addTileToColumn _ _ tile _ => [tile.id]
  | addColumn column _ => column.1.windowIds
  | _ => []

namespace Workspace

variable {ws ws' wt : Workspace} {w : ℕ} {op : WorkspaceOp}

def applyConfig (ws : Workspace) : ConfigOp → Workspace
  | .updateConfig baseOptions => ws.updateConfig baseOptions
  | .updateLayoutConfig layoutConfig => ws.updateLayoutConfig layoutConfig
  | .setOutput output => ws.setOutput output
  | .updateOutputSize => ws.updateOutputSize

def apply (ws : Workspace) : WorkspaceOp → Option Workspace
  | .active op => ws.applyActive op
  | .window window op => ws.applyWindow window op
  | .activateWindow window => (ws.activateWindow window).map (·.2)
  | .activateWindowWithoutRaising window => some (ws.activateWindowWithoutRaising window).2
  | .addTile tile target activate width isFullWidth isFloating renderPos =>
    ws.addTile tile target activate width isFullWidth isFloating renderPos
  | .addTileToColumn colIdx tileIdx tile activate => ws.addTileToColumn colIdx tileIdx tile activate
  | .addColumn column activate => ws.addColumn column.1 activate
  | .removeTile window => (ws.removeTile window).map (·.2)
  | .removeActiveTile => ws.removeActiveTile.map fun removed => (removed.map (·.2)).getD ws
  | .removeActiveColumn => ws.removeActiveColumn.map fun removed => (removed.map (·.2)).getD ws
  | .toggleWindowFloating window renderPos => ws.toggleWindowFloating window renderPos
  | .setWindowFloating window floating renderPos => ws.setWindowFloating window floating renderPos
  | .setFullscreen window isFullscreen renderPos => ws.setFullscreen window isFullscreen renderPos
  | .toggleFullscreen window renderPos => ws.toggleFullscreen window renderPos
  | .setMaximized window maximize renderPos => ws.setMaximized window maximize renderPos
  | .toggleMaximized window renderPos => ws.toggleMaximized window renderPos
  | .update op => ws.applyUpdate op
  | .config op => some (ws.applyConfig op)

/-- A window that is added is not on the workspace yet. -/
def step (ws : Workspace) (op : WorkspaceOp) : Option Workspace :=
  if ∀ w ∈ op.added, w ∉ ws.windowIds then ws.apply op else none

theorem step_spec (h : ws.step op = some ws') :
    (∀ w ∈ op.added, w ∉ ws.windowIds) ∧ ws.apply op = some ws' := by
  unfold step at h
  split at h
  · rename_i hfresh
    exact ⟨hfresh, h⟩
  · cases h

end Workspace

end Macniri.Layout
