import Macniri.Floating.Windows
import Macniri.Lib.Run

/-! The active window of a floating space: there is one as long as the space has windows. -/
namespace Macniri.Layout.FloatingSpace

open List Option

/-- The active window is one of the space, and there is one if there are windows. Every tile has its
data. -/
structure ActiveOk (s : FloatingSpace) : Prop where
  length : s.data.length = s.tiles.length
  mem : ∀ id, s.activeWindowId = some id → id ∈ s.windowIds
  isSome : s.windowIds ≠ [] → s.activeWindowId.isSome

/-- `s'` has the same windows, and the active one is the same or was chosen among them. -/
structure Refocused (s s' : FloatingSpace) : Prop where
  length : s.data.length = s.tiles.length → s'.data.length = s'.tiles.length
  windowIds : s'.windowIds.Perm s.windowIds
  active : s'.activeWindowId = s.activeWindowId ∨ ∃ id ∈ s.windowIds, s'.activeWindowId = some id

variable {s s' t : FloatingSpace} {id : Option ℕ} {i w : ℕ} {tile tile' : Tile}

theorem windowIds_eq_nil : s.windowIds = [] ↔ s.tiles = [] := map_eq_nil_iff

theorem mem_windowIds_iff : w ∈ s.windowIds ↔ s.hasWindow w = true := by
  simp [windowIds, hasWindow]

theorem Refocused.refl (s : FloatingSpace) : s.Refocused s := ⟨fun hlen => hlen, .refl _, .inl rfl⟩

theorem Refocused.trans (h : s.Refocused t) (h' : t.Refocused s') : s.Refocused s' where
  length hlen := h'.length (h.length hlen)
  windowIds := h'.windowIds.trans h.windowIds
  active := by
    rcases h'.active with hsame | ⟨w, hw, hactive⟩
    · rw [hsame]
      exact h.active
    · exact .inr ⟨w, h.windowIds.mem_iff.mp hw, hactive⟩

theorem length_of_perm (hids : s'.windowIds.Perm s.windowIds) (hdata : s'.data.length = s.data.length)
    (hlen : s.data.length = s.tiles.length) : s'.data.length = s'.tiles.length := by
  have htiles := hids.length_eq
  rw [windowIds, windowIds, length_map, length_map] at htiles
  rw [hdata, hlen, htiles]

/-- The focus does not change. -/
theorem Refocused.of_same (hids : s'.windowIds = s.windowIds)
    (h : s'.activeWindowId = s.activeWindowId ∧ s'.data.length = s.data.length) : s.Refocused s' where
  length := length_of_perm (.of_eq hids) h.2
  windowIds := .of_eq hids
  active := .inl h.1

theorem Refocused.nil_iff (h : s.Refocused s') : s'.windowIds = [] ↔ s.windowIds = [] := by
  rw [← length_eq_zero_iff, ← length_eq_zero_iff, h.windowIds.length_eq]

theorem ActiveOk.refocused (hs : s.ActiveOk) (h : s.Refocused s') : s'.ActiveOk where
  length := h.length hs.length
  mem id hid := by
    rw [h.windowIds.mem_iff]
    rcases h.active with hsame | ⟨w, hw, hactive⟩
    · exact hs.mem id (hsame ▸ hid)
    · exact some.inj (hactive.symm.trans hid) ▸ hw
  isSome hne := by
    rcases h.active with hsame | ⟨w, -, hactive⟩
    · rw [hsame]
      exact hs.isSome fun hnil => hne (h.nil_iff.mpr hnil)
    · rw [hactive]
      rfl

/-- The id of the active window, as `activeWindow` finds it. -/
theorem ActiveOk.activeWindow_id (hs : s.ActiveOk) :
    s.activeWindow.map Window.id = s.activeWindowId := by
  unfold activeWindow
  cases hactive : s.activeWindowId with
  | none => rfl
  | some w =>
    obtain ⟨tile, htile, hid⟩ := List.mem_map.mp (hs.mem w hactive)
    have hsome : (s.tiles.find? (·.id == w)).isSome :=
      find?_isSome.mpr ⟨tile, htile, by simp [hid]⟩
    obtain ⟨found, hfound⟩ := isSome_iff_exists.mp hsome
    have hw : found.id = w := by simpa using find?_some hfound
    rw [some_bind, hfound]
    exact congrArg some hw

/-! Stacking. -/

theorem active_raiseWindow {j : ℕ} (h : s.raiseWindow i j = some s') :
    s'.activeWindowId = s.activeWindowId ∧ s'.data.length = s.data.length := by
  obtain ⟨tile, -, h⟩ := of_bind h
  obtain ⟨data, hdata, h⟩ := of_bind h
  split at h
  · cases h
  · obtain rfl := some.inj h
    have hlt := lt_length_of_getElem? hdata
    refine ⟨rfl, ?_⟩
    dsimp only
    rw [length_insertIdx_of_le_length (by rw [length_eraseIdx_of_lt hlt]; omega),
      length_eraseIdx_of_lt hlt]
    omega

theorem active_raiseAll {js : List ℕ} (h : s.raiseAll i js = some s') :
    s'.activeWindowId = s.activeWindowId ∧ s'.data.length = s.data.length := by
  induction js generalizing s i with
  | nil => exact some.inj h ▸ ⟨rfl, rfl⟩
  | cons j js ih =>
    obtain ⟨t, ht, h⟩ := of_bind h
    obtain ⟨hactive, hdata⟩ := active_raiseWindow ht
    exact ⟨(ih h).1.trans hactive, (ih h).2.trans hdata⟩

theorem active_bringUpDescendantsOf (h : s.bringUpDescendantsOf i = some s') :
    s'.activeWindowId = s.activeWindowId ∧ s'.data.length = s.data.length := by
  obtain ⟨tile, -, h⟩ := of_bind h
  exact active_raiseAll h

theorem refocused_activateWindow (h : s.activateWindow w = some s') : s.Refocused s' := by
  have hids := perm_activateWindow h
  unfold activateWindow at h
  split at h
  · exact some.inj h ▸ .refl s
  · rename_i i hi
    obtain ⟨t, ht, h⟩ := of_bind h
    obtain ⟨tile, htile, hid⟩ := idxOf_spec hi
    obtain ⟨hactive, hdata⟩ := active_bringUpDescendantsOf h
    refine ⟨length_of_perm hids (hdata.trans (active_raiseWindow ht).2), hids, .inr ⟨w, ?_, hactive⟩⟩
    exact hid ▸ List.mem_map_of_mem (mem_of_getElem? htile)

theorem refocused_activateWindowWithoutRaising (s : FloatingSpace) (w : ℕ) :
    s.Refocused (s.activateWindowWithoutRaising w) := by
  unfold activateWindowWithoutRaising
  split
  · rename_i hw
    exact ⟨fun hlen => hlen, .refl _, .inr ⟨w, mem_windowIds_iff.mpr hw, rfl⟩⟩
  · exact .refl s

theorem refocused_descendantsAdded (h : s.descendantsAdded w = some s') : s.Refocused s' := by
  have hids := perm_descendantsAdded h
  unfold descendantsAdded at h
  split at h
  · exact some.inj h ▸ .refl s
  · obtain ⟨hactive, hdata⟩ := active_bringUpDescendantsOf h
    exact ⟨length_of_perm hids hdata, hids, .inl hactive⟩

/-! Adding and removing. -/

theorem active_addTileAt {activate : Bool} (h : s.addTileAt i tile activate = some s') :
    s'.activeWindowId = if activate || s.tiles.isEmpty then some tile.id else s.activeWindowId :=
  (active_bringUpDescendantsOf h).1

theorem length_addTileAt (hlen : s.data.length = s.tiles.length) {activate : Bool}
    (h : s.addTileAt i tile activate = some s') : s'.data.length = s'.tiles.length := by
  refine length_of_perm (perm_bringUpDescendantsOf h) (active_bringUpDescendantsOf h).2 ?_
  dsimp only
  rw [length_insertIdx, length_insertIdx, hlen]

theorem ActiveOk.addTileAt (hs : s.ActiveOk) {activate : Bool}
    (h : s.addTileAt i tile activate = some s') : s'.ActiveOk := by
  have hperm := addTileAt_perm h
  have hactive := active_addTileAt h
  refine ⟨length_addTileAt hs.length h, fun w hw => ?_, fun _ => ?_⟩
  · rw [hperm.mem_iff, mem_cons]
    split at hactive
    · exact .inl (some.inj (hactive.symm.trans hw)).symm
    · exact .inr (hs.mem w (hactive ▸ hw))
  · split at hactive
    · rw [hactive]
      rfl
    · rename_i hne
      rw [hactive]
      refine hs.isSome fun hnil => hne ?_
      simp [windowIds_eq_nil.mp hnil]

/-- If the active window is removed, the topmost one takes its place. -/
theorem active_removeTileByIdx {r : RemovedTile} (h : s.removeTileByIdx i = some (r, s')) :
    s'.activeWindowId = if s'.tiles.isEmpty then none
      else if some r.tile.id = s.activeWindowId then s'.tiles.head?.map Tile.id
      else s.activeWindowId := by
  obtain ⟨tile, -, h⟩ := of_bind h
  obtain ⟨d, -, h⟩ := of_bind h
  obtain ⟨rfl, rfl⟩ := pair_inj h
  rfl

theorem active_removeTile {r : RemovedTile} (h : s.removeTile w = some (r, s')) :
    s'.activeWindowId = if s'.tiles.isEmpty then none
      else if some w = s.activeWindowId then s'.tiles.head?.map Tile.id
      else s.activeWindowId := by
  obtain ⟨rfl, -⟩ := removeTile_perm h
  obtain ⟨i, -, h⟩ := of_bind h
  exact active_removeTileByIdx h

theorem length_removeTile (hlen : s.data.length = s.tiles.length) {r : RemovedTile}
    (h : s.removeTile w = some (r, s')) : s'.data.length = s'.tiles.length := by
  obtain ⟨i, -, h⟩ := of_bind h
  obtain ⟨tile, -, h⟩ := of_bind h
  obtain ⟨d, -, h⟩ := of_bind h
  obtain ⟨-, rfl⟩ := pair_inj h
  dsimp only
  rw [length_eraseIdx, length_eraseIdx, hlen]

theorem ActiveOk.removeTile (hs : s.ActiveOk) {r : RemovedTile} (h : s.removeTile w = some (r, s')) :
    s'.ActiveOk := by
  have hlen := length_removeTile hs.length h
  obtain ⟨-, hperm⟩ := removeTile_perm h
  have hactive := active_removeTile h
  cases htiles : s'.tiles with
  | nil =>
    rw [htiles] at hactive
    refine ⟨hlen, fun v hv => ?_, fun hne => absurd (windowIds_eq_nil.mpr htiles) hne⟩
    exact absurd (hactive.symm.trans hv) (by simp)
  | cons tile tiles =>
    rw [htiles, isEmpty_cons, if_neg (by simp)] at hactive
    split at hactive
    · rw [head?_cons, map_some] at hactive
      refine ⟨hlen, fun v hv => ?_, fun _ => by rw [hactive]; rfl⟩
      obtain rfl := some.inj (hactive.symm.trans hv)
      exact List.mem_map_of_mem (htiles ▸ mem_cons_self ..)
    · rename_i hw
      refine ⟨hlen, fun v hv => ?_, fun _ => ?_⟩
      · rw [hactive] at hv
        -- The active window is another one, which is still there.
        rcases mem_cons.mp (hperm.mem_iff.mp (hs.mem v hv)) with rfl | hmem
        · exact absurd hv.symm hw
        · exact hmem
      · rw [hactive]
        exact hs.isSome fun hnil => by simp [hnil] at hperm

/-! Changes to single tiles. -/

theorem active_interactiveResizeEnd (s : FloatingSpace) (window : Option ℕ) :
    (s.interactiveResizeEnd window).activeWindowId = s.activeWindowId ∧
      (s.interactiveResizeEnd window).data = s.data := by
  unfold interactiveResizeEnd
  split
  · split <;> exact ⟨rfl, rfl⟩
  · exact ⟨rfl, rfl⟩

theorem refocused_interactiveResizeEnd (s : FloatingSpace) (window : Option ℕ) :
    s.Refocused (s.interactiveResizeEnd window) :=
  .of_same (windowIds_interactiveResizeEnd s window)
    ((active_interactiveResizeEnd s window).imp_right (congrArg length))

theorem refocused_setWindowWidth {change : SizeChange} (h : s.setWindowWidth id change = some s') :
    s.Refocused s' := by
  refine .of_same (windowIds_setWindowWidth h) ?_
  unfold setWindowWidth at h
  split at h
  · exact some.inj h ▸ ⟨rfl, rfl⟩
  · obtain ⟨i, -, h⟩ := of_bind h
    obtain ⟨tile, -, h⟩ := of_bind h
    exact some.inj h ▸ ⟨rfl, rfl⟩

theorem refocused_setWindowHeight {change : SizeChange}
    (h : s.setWindowHeight id change = some s') : s.Refocused s' := by
  refine .of_same (windowIds_setWindowHeight h) ?_
  unfold setWindowHeight at h
  split at h
  · exact some.inj h ▸ ⟨rfl, rfl⟩
  · obtain ⟨i, -, h⟩ := of_bind h
    obtain ⟨tile, -, h⟩ := of_bind h
    exact some.inj h ▸ ⟨rfl, rfl⟩

theorem refocused_toggleWindowWidth {forwards : Bool}
    (h : s.toggleWindowWidth id forwards = some s') : s.Refocused s' := by
  have hids := windowIds_toggleWindowWidth h
  unfold toggleWindowWidth at h
  split at h
  · exact some.inj h ▸ .refl s
  obtain ⟨i, -, h⟩ := of_bind h
  obtain ⟨tile, -, h⟩ := of_bind h
  obtain ⟨preset, -, h⟩ := of_bind h
  obtain ⟨t, ht, h⟩ := of_bind h
  obtain ⟨tile', -, rfl⟩ := of_bind_some h
  have hst := refocused_setWindowWidth ht
  obtain ⟨hactive, hdata⟩ := active_interactiveResizeEnd (t.setTile i _) _
  have hsame := hids.trans (windowIds_setWindowWidth ht).symm
  refine ⟨fun hlen => ?_, .of_eq hids, hactive ▸ hst.active⟩
  exact length_of_perm (.of_eq hsame) (congrArg length hdata) (hst.length hlen)

theorem refocused_toggleWindowHeight {forwards : Bool}
    (h : s.toggleWindowHeight id forwards = some s') : s.Refocused s' := by
  have hids := windowIds_toggleWindowHeight h
  unfold toggleWindowHeight at h
  split at h
  · exact some.inj h ▸ .refl s
  obtain ⟨i, -, h⟩ := of_bind h
  obtain ⟨tile, -, h⟩ := of_bind h
  obtain ⟨preset, -, h⟩ := of_bind h
  obtain ⟨t, ht, h⟩ := of_bind h
  obtain ⟨tile', -, rfl⟩ := of_bind_some h
  have hst := refocused_setWindowHeight ht
  obtain ⟨hactive, hdata⟩ := active_interactiveResizeEnd (t.setTile i _) _
  have hsame := hids.trans (windowIds_setWindowHeight ht).symm
  refine ⟨fun hlen => ?_, .of_eq hids, hactive ▸ hst.active⟩
  exact length_of_perm (.of_eq hsame) (congrArg length hdata) (hst.length hlen)

theorem refocused_interactiveResizeBegin {edges : ResizeEdge}
    (h : s.interactiveResizeBegin w edges = some s') : s.Refocused s' := by
  refine .of_same (windowIds_interactiveResizeBegin h) ?_
  unfold interactiveResizeBegin at h
  split at h
  · exact some.inj h ▸ ⟨rfl, rfl⟩
  · obtain ⟨tile, -, h⟩ := of_bind h
    exact some.inj h ▸ ⟨rfl, rfl⟩

theorem refocused_interactiveResizeUpdate {delta : Point}
    (h : s.interactiveResizeUpdate w delta = some s') : s.Refocused s' := by
  unfold interactiveResizeUpdate at h
  split at h
  · exact some.inj h ▸ .refl s
  split at h
  · exact some.inj h ▸ .refl s
  obtain ⟨t, ht, h⟩ := of_bind h
  have hst : s.Refocused t := by
    unfold resizeHorizontally at ht
    split at ht
    · exact refocused_setWindowWidth ht
    · exact some.inj ht ▸ .refl s
  refine hst.trans ?_
  unfold resizeVertically at h
  split at h
  · exact refocused_setWindowHeight h
  · exact some.inj h ▸ .refl t

/-! Focus and positions. -/

theorem refocused_focusDirectional {distance : Point → Point → ℚ} {changed : Bool}
    (h : s.focusDirectional distance = some (changed, s')) : s.Refocused s' := by
  unfold focusDirectional at h
  split at h
  · obtain ⟨-, rfl⟩ := pair_inj h
    exact .refl s
  obtain ⟨i, -, h⟩ := of_bind h
  obtain ⟨data, -, h⟩ := of_bind h
  dsimp only at h
  split at h
  · obtain ⟨-, rfl⟩ := pair_inj h
    exact .refl s
  · obtain ⟨t, ht, h⟩ := of_map h
    obtain ⟨-, rfl⟩ := Prod.mk.inj h
    exact refocused_activateWindow ht

theorem refocused_focusPicked
    {pick : (Tile × FloatingData → ℚ) → List (Tile × FloatingData) → Option (Tile × FloatingData)}
    {coord : Point → ℚ} (h : s.focusPicked pick coord = some s') : s.Refocused s' := by
  unfold focusPicked at h
  split at h
  · exact some.inj h ▸ .refl s
  · exact refocused_activateWindow h

theorem refocused_moveTo (s : FloatingSpace) (i : ℕ) (pos : Point) : s.Refocused (s.moveTo i pos) :=
  .of_same (windowIds_moveTo s i pos)
    ((active_interactiveResizeEnd _ none).imp_right fun h => (congrArg length h).trans (length_modify ..))

theorem refocused_moveBy {amount : Point} (h : s.moveBy amount = some s') : s.Refocused s' := by
  unfold moveBy at h
  split at h
  · exact some.inj h ▸ .refl s
  obtain ⟨i, -, h⟩ := of_bind h
  obtain ⟨data, -, h⟩ := of_bind h
  exact some.inj h ▸ refocused_moveTo ..

theorem refocused_moveWindow {x y : PositionChange} (h : s.moveWindow id x y = some s') :
    s.Refocused s' := by
  unfold moveWindow at h
  split at h
  · exact some.inj h ▸ .refl s
  obtain ⟨i, -, h⟩ := of_bind h
  obtain ⟨data, -, h⟩ := of_bind h
  exact some.inj h ▸ refocused_moveTo ..

theorem refocused_centerWindow (h : s.centerWindow id = some s') : s.Refocused s' := by
  unfold centerWindow at h
  split at h
  · exact some.inj h ▸ .refl s
  obtain ⟨i, -, h⟩ := of_bind h
  obtain ⟨data, -, h⟩ := of_bind h
  exact some.inj h ▸ refocused_moveTo ..

theorem refocused_updateWindow {commit : Commit} (h : s.updateWindow w commit = some s') :
    s.Refocused s' := by
  refine .of_same (windowIds_updateWindow h) ?_
  obtain ⟨i, -, h⟩ := of_bind h
  obtain ⟨tile, -, h⟩ := of_bind h
  obtain ⟨data, -, h⟩ := of_bind h
  exact some.inj h ▸ ⟨rfl, length_set ..⟩

theorem refocused_refresh (s : FloatingSpace) : s.Refocused s.refresh :=
  .of_same (windowIds_refresh s) ⟨rfl, rfl⟩

theorem refocused_updateConfig (s : FloatingSpace) (viewSize : Size) (workingArea : Rectangle)
    (scale : ℚ) (options : Options) :
    s.Refocused (s.updateConfig viewSize workingArea scale options) where
  length hlen := by simp [updateConfig, hlen]
  windowIds := .of_eq (windowIds_updateConfig s viewSize workingArea scale options)
  active := .inl rfl

end Macniri.Layout.FloatingSpace
