import Macniri.Floating.Space
import Macniri.Lib.ListEdit
import Macniri.Lib.Run

/-! No operation on a floating space loses or duplicates a window. -/
namespace Macniri.Layout.FloatingSpace

open List Option

variable {s s' t : FloatingSpace} {id : Option ℕ} {i : ℕ} {tile tile' : Tile}

theorem idxOf_spec {w : ℕ} (h : s.idxOf w = some i) : ∃ tile, s.tiles[i]? = some tile ∧ tile.id = w := by
  obtain ⟨hlt, hid, -⟩ := findIdx?_eq_some_iff_getElem.mp h
  exact ⟨s.tiles[i], getElem?_eq_getElem hlt, beq_iff_eq.mp hid⟩

theorem windowIds_updateConfig (s : FloatingSpace) (viewSize : Size) (workingArea : Rectangle)
    (scale : ℚ) (options : Options) :
    (s.updateConfig viewSize workingArea scale options).windowIds = s.windowIds := by
  simp [windowIds, updateConfig, Function.comp_def]

/-! Stacking. -/

theorem perm_raiseWindow {j : ℕ} (h : s.raiseWindow i j = some s') :
    s'.windowIds.Perm s.windowIds := by
  obtain ⟨tile, htile, h⟩ := of_bind h
  obtain ⟨data, -, h⟩ := of_bind h
  split at h
  · cases h
  · obtain rfl := some.inj h
    have := lt_length_of_getElem? htile
    exact (perm_move htile (by omega)).map Tile.id

theorem perm_raiseAll {js : List ℕ} (h : s.raiseAll i js = some s') :
    s'.windowIds.Perm s.windowIds := by
  induction js generalizing s i with
  | nil => exact some.inj h ▸ .refl _
  | cons j js ih =>
    obtain ⟨t, ht, h⟩ := of_bind h
    exact (ih h).trans (perm_raiseWindow ht)

theorem perm_bringUpDescendantsOf (h : s.bringUpDescendantsOf i = some s') :
    s'.windowIds.Perm s.windowIds := by
  obtain ⟨tile, -, h⟩ := of_bind h
  exact perm_raiseAll h

theorem windowIds_activateWindowWithoutRaising (s : FloatingSpace) (w : ℕ) :
    (s.activateWindowWithoutRaising w).windowIds = s.windowIds := by
  unfold activateWindowWithoutRaising
  split <;> rfl

theorem perm_activateWindow {w : ℕ} (h : s.activateWindow w = some s') :
    s'.windowIds.Perm s.windowIds := by
  unfold activateWindow at h
  split at h
  · exact some.inj h ▸ .refl _
  · obtain ⟨t, ht, h⟩ := of_bind h
    have hraise : t.windowIds.Perm s.windowIds := perm_raiseWindow ht
    exact (perm_bringUpDescendantsOf h).trans hraise

theorem perm_descendantsAdded {w : ℕ} (h : s.descendantsAdded w = some s') :
    s'.windowIds.Perm s.windowIds := by
  unfold descendantsAdded at h
  split at h
  · exact some.inj h ▸ .refl _
  · exact perm_bringUpDescendantsOf h

/-! Adding and removing. -/

theorem addTileAt_perm {activate : Bool} (h : s.addTileAt i tile activate = some s') :
    s'.windowIds.Perm (tile.id :: s.windowIds) := by
  refine (perm_bringUpDescendantsOf h).trans ?_
  -- The insertion index is valid, since the tile is found there.
  obtain ⟨t, ht, -⟩ := of_bind h
  have hlt := lt_length_of_getElem? ht
  refine ((perm_insertIdx _ _ ?_).map Tile.id).trans (.of_eq ?_)
  · rw [length_insertIdx] at hlt
    split at hlt <;> omega
  · rfl

theorem removeTile_perm {w : ℕ} {r : RemovedTile} (h : s.removeTile w = some (r, s')) :
    r.tile.id = w ∧ s.windowIds.Perm (w :: s'.windowIds) := by
  obtain ⟨i, hi, h⟩ := of_bind h
  obtain ⟨tile, htile, h⟩ := of_bind h
  obtain ⟨data, -, h⟩ := of_bind h
  obtain ⟨rfl, rfl⟩ := pair_inj h
  obtain ⟨tile', htile', hid⟩ := idxOf_spec hi
  obtain rfl := some.inj (htile.symm.trans htile')
  obtain ⟨hlt, rfl⟩ := List.getElem?_eq_some_iff.mp htile
  subst hid
  exact ⟨rfl, ((getElem_cons_eraseIdx_perm hlt).map Tile.id).symm⟩

theorem removeActiveTile_spec {r : RemovedTile} (h : s.removeActiveTile = some (some (r, s'))) :
    ∃ id, s.activeWindowId = some id ∧ s.removeTile id = some (r, s') := by
  unfold removeActiveTile at h
  split at h
  · cases h
  · rename_i id hactive
    obtain ⟨p, hp, h⟩ := of_map h
    exact ⟨id, hactive, some.inj h ▸ hp⟩

/-! Changes to single tiles. -/

theorem windowIds_setTile (ht : s.tiles[i]? = some tile) (hid : tile'.id = tile.id) :
    (s.setTile i tile').windowIds = s.windowIds := map_set_of_eq ht hid

theorem windowIds_interactiveResizeEnd (s : FloatingSpace) (window : Option ℕ) :
    (s.interactiveResizeEnd window).windowIds = s.windowIds := by
  unfold interactiveResizeEnd
  split
  · split <;> rfl
  · rfl

theorem windowIds_setWindowWidth {change : SizeChange} (h : s.setWindowWidth id change = some s') :
    s'.windowIds = s.windowIds := by
  unfold setWindowWidth at h
  split at h
  · exact some.inj h ▸ rfl
  · obtain ⟨i, -, h⟩ := of_bind h
    obtain ⟨tile, ht, rfl⟩ := of_bind_some h
    exact windowIds_setTile ht rfl

theorem windowIds_setWindowHeight {change : SizeChange}
    (h : s.setWindowHeight id change = some s') : s'.windowIds = s.windowIds := by
  unfold setWindowHeight at h
  split at h
  · exact some.inj h ▸ rfl
  · obtain ⟨i, -, h⟩ := of_bind h
    obtain ⟨tile, ht, rfl⟩ := of_bind_some h
    exact windowIds_setTile ht rfl

theorem windowIds_toggleWindowWidth {forwards : Bool}
    (h : s.toggleWindowWidth id forwards = some s') : s'.windowIds = s.windowIds := by
  unfold toggleWindowWidth at h
  split at h
  · exact some.inj h ▸ rfl
  obtain ⟨i, -, h⟩ := of_bind h
  obtain ⟨tile, -, h⟩ := of_bind h
  obtain ⟨preset, -, h⟩ := of_bind h
  obtain ⟨t, ht, h⟩ := of_bind h
  obtain ⟨tile', htile', rfl⟩ := of_bind_some h
  rw [windowIds_interactiveResizeEnd, ← windowIds_setWindowWidth ht]
  exact windowIds_setTile htile' rfl

theorem windowIds_toggleWindowHeight {forwards : Bool}
    (h : s.toggleWindowHeight id forwards = some s') : s'.windowIds = s.windowIds := by
  unfold toggleWindowHeight at h
  split at h
  · exact some.inj h ▸ rfl
  obtain ⟨i, -, h⟩ := of_bind h
  obtain ⟨tile, -, h⟩ := of_bind h
  obtain ⟨preset, -, h⟩ := of_bind h
  obtain ⟨t, ht, h⟩ := of_bind h
  obtain ⟨tile', htile', rfl⟩ := of_bind_some h
  rw [windowIds_interactiveResizeEnd, ← windowIds_setWindowHeight ht]
  exact windowIds_setTile htile' rfl

theorem windowIds_interactiveResizeBegin {w : ℕ} {edges : ResizeEdge}
    (h : s.interactiveResizeBegin w edges = some s') : s'.windowIds = s.windowIds := by
  unfold interactiveResizeBegin at h
  split at h
  · exact some.inj h ▸ rfl
  · obtain ⟨tile, -, h⟩ := of_bind h
    exact some.inj h ▸ rfl

theorem windowIds_interactiveResizeUpdate {w : ℕ} {delta : Point}
    (h : s.interactiveResizeUpdate w delta = some s') : s'.windowIds = s.windowIds := by
  unfold interactiveResizeUpdate at h
  split at h
  · exact some.inj h ▸ rfl
  split at h
  · exact some.inj h ▸ rfl
  obtain ⟨t, ht, h⟩ := of_bind h
  have hw : t.windowIds = s.windowIds := by
    unfold resizeHorizontally at ht
    split at ht
    · exact windowIds_setWindowWidth ht
    · exact some.inj ht ▸ rfl
  rw [← hw]
  unfold resizeVertically at h
  split at h
  · exact windowIds_setWindowHeight h
  · exact some.inj h ▸ rfl

/-! Focus and positions. -/

theorem perm_focusDirectional {distance : Point → Point → ℚ} {changed : Bool}
    (h : s.focusDirectional distance = some (changed, s')) : s'.windowIds.Perm s.windowIds := by
  unfold focusDirectional at h
  split at h
  · obtain ⟨-, rfl⟩ := pair_inj h
    exact .refl _
  obtain ⟨i, -, h⟩ := of_bind h
  obtain ⟨data, -, h⟩ := of_bind h
  dsimp only at h
  split at h
  · obtain ⟨-, rfl⟩ := pair_inj h
    exact .refl _
  · obtain ⟨t, ht, h⟩ := of_map h
    obtain ⟨-, rfl⟩ := Prod.mk.inj h
    exact perm_activateWindow ht

theorem perm_focusPicked
    {pick : (Tile × FloatingData → ℚ) → List (Tile × FloatingData) → Option (Tile × FloatingData)}
    {coord : Point → ℚ} (h : s.focusPicked pick coord = some s') :
    s'.windowIds.Perm s.windowIds := by
  unfold focusPicked at h
  split at h
  · exact some.inj h ▸ .refl _
  · exact perm_activateWindow h

theorem windowIds_moveTo (s : FloatingSpace) (i : ℕ) (pos : Point) :
    (s.moveTo i pos).windowIds = s.windowIds := windowIds_interactiveResizeEnd _ none

theorem windowIds_moveBy {amount : Point} (h : s.moveBy amount = some s') :
    s'.windowIds = s.windowIds := by
  unfold moveBy at h
  split at h
  · exact some.inj h ▸ rfl
  obtain ⟨i, -, h⟩ := of_bind h
  obtain ⟨data, -, h⟩ := of_bind h
  exact some.inj h ▸ windowIds_moveTo ..

theorem windowIds_moveWindow {x y : PositionChange} (h : s.moveWindow id x y = some s') :
    s'.windowIds = s.windowIds := by
  unfold moveWindow at h
  split at h
  · exact some.inj h ▸ rfl
  obtain ⟨i, -, h⟩ := of_bind h
  obtain ⟨data, -, h⟩ := of_bind h
  exact some.inj h ▸ windowIds_moveTo ..

theorem windowIds_centerWindow (h : s.centerWindow id = some s') : s'.windowIds = s.windowIds := by
  unfold centerWindow at h
  split at h
  · exact some.inj h ▸ rfl
  obtain ⟨i, -, h⟩ := of_bind h
  obtain ⟨data, -, h⟩ := of_bind h
  exact some.inj h ▸ windowIds_moveTo ..

theorem windowIds_updateWindow {w : ℕ} {commit : Commit} (h : s.updateWindow w commit = some s') :
    s'.windowIds = s.windowIds := by
  obtain ⟨i, -, h⟩ := of_bind h
  obtain ⟨tile, ht, h⟩ := of_bind h
  obtain ⟨data, -, rfl⟩ := of_bind_some h
  exact map_set_of_eq ht rfl

theorem windowIds_refresh (s : FloatingSpace) : s.refresh.windowIds = s.windowIds := by
  simp [windowIds, refresh, Function.comp_def]

end Macniri.Layout.FloatingSpace
