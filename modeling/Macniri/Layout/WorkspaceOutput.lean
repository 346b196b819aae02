import Macniri.Layout.WorkspaceSteps

/-! The operations on a workspace do not move it to another output. -/
namespace Macniri.Layout.Workspace

open Option

/-- `ws'` is the same workspace in the same place. -/
structure Stays (ws ws' : Workspace) : Prop where
  id : ws'.id = ws.id
  name : ws'.name = ws.name
  output : ws'.output = ws.output
  originalOutput : ws'.originalOutput = ws.originalOutput

variable {ws ws' wt : Workspace} {window : Option ℕ} {w : ℕ} {tile : Tile} {activate : Bool}
variable {fl : FloatingSpace → Option FloatingSpace} {sc : ScrollingSpace → Option ScrollingSpace}

theorem Stays.refl (ws : Workspace) : Stays ws ws := ⟨rfl, rfl, rfl, rfl⟩

theorem Stays.trans (h : Stays ws wt) (h' : Stays wt ws') : Stays ws ws' :=
  ⟨h'.id.trans h.id, h'.name.trans h.name, h'.output.trans h.output,
    h'.originalOutput.trans h.originalOutput⟩

/-- Only the spaces change. -/
theorem stays_spaces (ws : Workspace) (s : ScrollingSpace) (f : FloatingSpace) (a : FloatingActive) :
    Stays ws { ws with scrolling := s, floating := f, floatingIsActive := a } := ⟨rfl, rfl, rfl, rfl⟩

/-- The workspace that comes with a result. -/
theorem stays_snd {α : Type} {r : Option (α × Workspace)} (hr : ∀ a wt, r = some (a, wt) → Stays ws wt)
    (h : r.map (·.2) = some ws') : Stays ws ws' := by
  obtain ⟨⟨a, wt⟩, hwt, rfl⟩ := of_map h
  exact hr a wt hwt

theorem stays_liftScrolling (h : ws.liftScrolling sc = some ws') : Stays ws ws' := by
  obtain ⟨s, -, rfl⟩ := of_map h
  exact stays_spaces ..

theorem stays_liftFloating (h : ws.liftFloating fl = some ws') : Stays ws ws' := by
  obtain ⟨f, -, rfl⟩ := of_map h
  exact stays_spaces ..

theorem stays_onActiveSpace (h : ws.onActiveSpace fl sc = some ws') : Stays ws ws' := by
  unfold onActiveSpace at h
  split at h
  · exact stays_liftFloating h
  · exact stays_liftScrolling h

theorem stays_onSpaceOf (h : ws.onSpaceOf window fl sc = some ws') : Stays ws ws' := by
  unfold onSpaceOf at h
  split at h
  · exact stays_liftFloating h
  · exact stays_liftScrolling h

/-! Focus and moves. -/

theorem stays_focusOnActiveSpace {changed : Bool} {focused : ScrollingSpace → Bool}
    {fl : FloatingSpace → Option (Bool × FloatingSpace)} {sc : ScrollingSpace → ScrollingSpace}
    (h : ws.focusOnActiveSpace fl focused sc = some (changed, ws')) : Stays ws ws' := by
  unfold focusOnActiveSpace at h
  split at h
  · obtain ⟨⟨b, f⟩, -, h⟩ := of_map h
    obtain ⟨-, rfl⟩ := Prod.mk.inj h
    exact stays_spaces ..
  · obtain ⟨-, rfl⟩ := pair_inj h
    exact stays_spaces ..

theorem stays_moveOnActiveSpace {moved : Bool} {movedBy : ScrollingSpace → Bool}
    {sc : ScrollingSpace → ScrollingSpace}
    (h : ws.moveOnActiveSpace fl movedBy sc = some (moved, ws')) : Stays ws ws' := by
  unfold moveOnActiveSpace at h
  split at h
  · obtain ⟨f, -, h⟩ := of_map h
    obtain ⟨-, rfl⟩ := Prod.mk.inj h
    exact stays_spaces ..
  · obtain ⟨-, rfl⟩ := pair_inj h
    exact stays_spaces ..

theorem stays_focusOr {g : Workspace → Option (Bool × Workspace)} {o : Workspace → Option Workspace}
    (hg : ∀ b wt, g ws = some (b, wt) → Stays ws wt) (ho : ∀ {wt ws'}, o wt = some ws' → Stays wt ws')
    (h : ws.focusOr g o = some ws') : Stays ws ws' := by
  obtain ⟨⟨b, wt⟩, hwt, h⟩ := of_bind h
  dsimp only at h
  split at h
  · exact some.inj h ▸ hg b wt hwt
  · exact (hg b wt hwt).trans (ho h)

theorem stays_switchFocusFloatingTiling (ws : Workspace) : Stays ws ws.switchFocusFloatingTiling := by
  unfold switchFocusFloatingTiling
  split
  · exact .refl ws
  · exact stays_spaces ..

theorem stays_focusFloating (ws : Workspace) : Stays ws ws.focusFloating := by
  unfold focusFloating
  split
  · exact .refl ws
  · exact stays_switchFocusFloatingTiling ws

theorem stays_focusTiling (ws : Workspace) : Stays ws ws.focusTiling := by
  unfold focusTiling
  split
  · exact stays_switchFocusFloatingTiling ws
  · exact .refl ws

theorem stays_focusColumn (ws : Workspace) (index : ℕ) : Stays ws (ws.focusColumn index) :=
  (stays_focusTiling ws).trans (stays_spaces ..)

theorem stays_activateWindow {b : Bool} (h : ws.activateWindow w = some (b, ws')) : Stays ws ws' := by
  unfold activateWindow at h
  split at h
  · obtain ⟨f, -, h⟩ := of_map h
    obtain ⟨-, rfl⟩ := Prod.mk.inj h
    exact stays_spaces ..
  · split at h
    · obtain ⟨-, rfl⟩ := pair_inj h
      exact stays_spaces ..
    · obtain ⟨-, rfl⟩ := pair_inj h
      exact .refl ws

theorem stays_activateWindowWithoutRaising (ws : Workspace) (w : ℕ) :
    Stays ws (ws.activateWindowWithoutRaising w).2 := by
  unfold activateWindowWithoutRaising
  split
  · exact stays_spaces ..
  · split
    · exact stays_spaces ..
    · exact .refl ws

theorem stays_applyActive {op : ActiveOp} (h : ws.applyActive op = some ws') : Stays ws ws' := by
  cases op with
  | moveLeft | moveRight | moveDown | moveUp =>
    exact stays_snd (fun _ _ => stays_moveOnActiveSpace) h
  | focusLeft | focusRight | focusDown | focusUp =>
    exact stays_snd (fun _ _ => stays_focusOnActiveSpace) h
  | focusColumnRightOrFirst | focusColumnLeftOrLast | focusWindowDownOrTop | focusWindowUpOrBottom =>
    exact stays_focusOr (fun _ _ => stays_focusOnActiveSpace) stays_onActiveSpace h
  | focusColumn index => exact some.inj h ▸ stays_focusColumn ws index
  | focusFloating => exact some.inj h ▸ stays_focusFloating ws
  | focusTiling => exact some.inj h ▸ stays_focusTiling ws
  | switchFocusFloatingTiling => exact some.inj h ▸ stays_switchFocusFloatingTiling ws
  | _ => exact stays_onActiveSpace h

theorem stays_moveFloatingWindow {x y : PositionChange}
    (h : ws.moveFloatingWindow window x y = some ws') : Stays ws ws' := by
  unfold moveFloatingWindow at h
  split at h
  · exact stays_liftFloating h
  · split at h
    · exact some.inj h ▸ .refl ws
    · obtain ⟨tile, -, rfl⟩ := of_bind_some h
      split
      · exact .refl ws
      · exact stays_spaces ..

theorem stays_applyWindow {op : WindowOp} (h : ws.applyWindow window op = some ws') : Stays ws ws' := by
  cases op with
  | moveFloatingWindow x y => exact stays_moveFloatingWindow h
  | _ => exact stays_onSpaceOf h

/-! Adding and removing. -/

theorem stays_focusAddedFloating (ws : Workspace) (activate : Bool) :
    Stays ws (ws.focusAddedFloating activate) := by
  unfold focusAddedFloating
  split
  · exact stays_spaces ..
  · exact .refl ws

theorem stays_focusAddedScrolling (ws : Workspace) (activate : Bool) :
    Stays ws (ws.focusAddedScrolling activate) := by
  unfold focusAddedScrolling
  split
  · exact stays_spaces ..
  · exact .refl ws

theorem stays_floatingAdd (h : (ws.liftFloating fl).map (·.focusAddedFloating activate) = some ws') :
    Stays ws ws' := by
  obtain ⟨wt, hwt, rfl⟩ := of_map h
  exact (stays_liftFloating hwt).trans (stays_focusAddedFloating wt activate)

theorem stays_scrollingAdd (h : (ws.liftScrolling sc).map (·.focusAddedScrolling activate) = some ws') :
    Stays ws ws' := by
  obtain ⟨wt, hwt, rfl⟩ := of_map h
  exact (stays_liftScrolling hwt).trans (stays_focusAddedScrolling wt activate)

theorem stays_addTileNextTo {width : ColumnWidth} {isFullWidth isFloating : Bool} {renderPos : Point}
    (h : ws.addTileNextTo tile w activate width isFullWidth isFloating renderPos = some ws') :
    Stays ws ws' := by
  unfold addTileNextTo at h
  split at h
  · split at h
    · exact stays_floatingAdd h
    · obtain ⟨nextToTile, -, h⟩ := of_bind h
      exact stays_floatingAdd h
  · split at h
    · exact stays_scrollingAdd h
    · exact stays_scrollingAdd h

theorem stays_addTile {target : WorkspaceAddWindowTarget} {activate : ActivateWindow}
    {width : ColumnWidth} {isFullWidth isFloating : Bool} {renderPos : Point}
    (h : ws.addTile tile target activate width isFullWidth isFloating renderPos = some ws') :
    Stays ws ws' := by
  unfold addTile at h
  cases target with
  | auto =>
    dsimp only at h
    split at h
    · exact stays_floatingAdd h
    · exact stays_scrollingAdd h
  | newColumnAt colIdx => exact stays_scrollingAdd h
  | nextTo nextTo =>
    obtain ⟨b, -, h⟩ := of_bind h
    exact stays_addTileNextTo h

theorem stays_updateFocus (ws : Workspace) (removedFromFloating : Bool) :
    Stays ws (ws.updateFocusFloatingTilingAfterRemoving removedFromFloating) := by
  unfold updateFocusFloatingTilingAfterRemoving
  split
  · split
    · exact stays_spaces ..
    · exact .refl ws
  · split
    · exact stays_spaces ..
    · exact .refl ws

theorem stays_removeFloating {r : RemovedTile} (h : ws.removeFloating w = some (r, ws')) :
    Stays ws ws' := by
  obtain ⟨⟨removed, f⟩, -, h⟩ := of_bind h
  obtain ⟨-, rfl⟩ := pair_inj h
  exact (stays_spaces ..).trans (stays_updateFocus _ true)

theorem stays_removeTile {r : RemovedTile} (h : ws.removeTile w = some (r, ws')) : Stays ws ws' := by
  unfold removeTile at h
  split at h
  · exact stays_removeFloating h
  · obtain ⟨⟨removed, s⟩, -, h⟩ := of_bind h
    obtain ⟨-, rfl⟩ := pair_inj h
    exact (stays_spaces ..).trans (stays_updateFocus _ false)

theorem stays_removeActiveTile {r : RemovedTile} (h : ws.removeActiveTile = some (some (r, ws'))) :
    Stays ws ws' := by
  unfold removeActiveTile at h
  split at h
  · obtain ⟨taken, -, h⟩ := of_bind h
    obtain ⟨⟨removed, f⟩, -, h⟩ := of_map (some.inj h)
    obtain ⟨-, rfl⟩ := Prod.mk.inj h
    exact (stays_spaces ..).trans (stays_updateFocus _ true)
  · split at h
    · cases some.inj h
    · obtain ⟨⟨removed, s⟩, -, h⟩ := of_bind h
      obtain ⟨-, rfl⟩ := pair_inj (some.inj h)
      exact (stays_spaces ..).trans (stays_updateFocus _ false)

theorem stays_removeActiveColumn {c : Column} (h : ws.removeActiveColumn = some (some (c, ws'))) :
    Stays ws ws' := by
  unfold removeActiveColumn at h
  split at h
  · cases some.inj h
  · obtain ⟨⟨removed, s⟩, -, h⟩ := of_bind h
    obtain ⟨-, rfl⟩ := pair_inj (some.inj h)
    exact (stays_spaces ..).trans (stays_updateFocus _ false)

/-! Between floating and tiling. -/

theorem stays_floatingToScrolling (h : ws.floatingToScrolling w activate = some ws') : Stays ws ws' := by
  obtain ⟨⟨removed, f⟩, -, h⟩ := of_bind h
  have hrest := stays_scrollingAdd h
  exact (stays_spaces ..).trans hrest

theorem stays_scrollingToFloating {renderPos : Point}
    (h : ws.scrollingToFloating w activate renderPos = some ws') : Stays ws ws' := by
  obtain ⟨⟨removed, s⟩, -, h⟩ := of_bind h
  obtain ⟨wt, hwt, h⟩ := of_bind h
  have hadded := stays_liftFloating hwt
  obtain rfl := some.inj h
  split
  · exact (stays_spaces ..).trans (hadded.trans (stays_spaces ..))
  · exact (stays_spaces ..).trans hadded

theorem stays_toggleWindowFloating {renderPos : Point}
    (h : ws.toggleWindowFloating window renderPos = some ws') : Stays ws ws' := by
  unfold toggleWindowFloating at h
  dsimp only at h
  split at h
  · exact some.inj h ▸ .refl ws
  · split at h
    · exact stays_floatingToScrolling h
    · exact stays_scrollingToFloating h

theorem stays_setWindowFloating {floating : Bool} {renderPos : Point}
    (h : ws.setWindowFloating window floating renderPos = some ws') : Stays ws ws' := by
  unfold setWindowFloating at h
  split at h
  · exact some.inj h ▸ .refl ws
  · exact stays_toggleWindowFloating h

theorem stays_setScrollingPending {restoreToFloating : Bool}
    (h : ws.setScrollingPending w restoreToFloating sc = some ws') : Stays ws ws' := by
  obtain ⟨t, -, h⟩ := of_bind h
  obtain ⟨s, -, h⟩ := of_bind h
  obtain ⟨t', -, h⟩ := of_bind h
  exact some.inj h ▸ stays_spaces ..

theorem SetsPending.stays {enable : Bool} {renderPos : Point}
    {set : ScrollingSpace → Bool → Option ScrollingSpace} {toFloating : Option Bool}
    (h : SetsPending ws w renderPos set toFloating enable ws') : Stays ws ws' := by
  cases h with
  | fromFloating _ htoggle hset =>
    exact (stays_toggleWindowFloating htoggle).trans (stays_setScrollingPending hset)
  | floating => exact .refl ws
  | toFloating _ _ htoggle => exact stays_toggleWindowFloating htoggle
  | tiled _ _ hset => exact stays_setScrollingPending hset

theorem stays_setFullscreen {enable : Bool} {renderPos : Point}
    (h : ws.setFullscreen w enable renderPos = some ws') : Stays ws ws' := (setFullscreen_cases h).stays

theorem stays_setMaximized {enable : Bool} {renderPos : Point}
    (h : ws.setMaximized w enable renderPos = some ws') : Stays ws ws' := (setMaximized_cases h).stays

theorem stays_toggleFullscreen {renderPos : Point}
    (h : ws.toggleFullscreen w renderPos = some ws') : Stays ws ws' := by
  obtain ⟨t, -, h⟩ := of_bind h
  exact stays_setFullscreen h

/-! Config and output. -/

theorem stays_updateLayoutConfig (ws : Workspace) (layoutConfig : Option LayoutPart) :
    Stays ws (ws.updateLayoutConfig layoutConfig) := by
  unfold updateLayoutConfig
  split
  · exact .refl ws
  · exact ⟨rfl, rfl, rfl, rfl⟩

theorem stays_updateOutputSize (ws : Workspace) : Stays ws ws.updateOutputSize := by
  unfold updateOutputSize
  split
  · exact .refl ws
  · unfold setViewSize
    split
    · exact .refl ws
    · dsimp only
      split
      · exact ⟨rfl, rfl, rfl, rfl⟩
      · exact ⟨rfl, rfl, rfl, rfl⟩

/-- A workspace on an output. If it is the output's own, it goes by the output's very id. -/
structure AtHome (output : Output) (ws : Workspace) : Prop where
  handle : ws.output.map (·.handle) = some output.handle
  own : ws.originalOutput.matches output = true → ws.originalOutput = OutputId.new output

variable {output : Output}

theorem AtHome.stays (h : AtHome output ws) (hstays : Stays ws ws') : AtHome output ws' :=
  ⟨hstays.output ▸ h.handle, hstays.originalOutput ▸ h.own⟩

theorem atHome_new (id : ℕ) (output : Output) (clock : ℚ) (options : Options) :
    AtHome output (new id output clock options) := ⟨rfl, fun _ => rfl⟩

/-- A workspace that comes from elsewhere gets the output's very id. -/
theorem atHome_setOutput (h : ws.output.map (·.handle) ≠ some output.handle) :
    AtHome output (ws.setOutput (some output)) := by
  unfold setOutput
  rw [map_some, if_neg h]
  have hmoved : AtHome output { ws with
      output := some output
      originalOutput := if ws.originalOutput.matches output then OutputId.new output
        else ws.originalOutput } := by
    refine ⟨rfl, fun hmatches => ?_⟩
    dsimp only at hmatches ⊢
    split
    · rfl
    · rename_i hnot
      rw [if_neg hnot] at hmatches
      exact absurd hmatches hnot
  exact hmoved.stays (stays_updateOutputSize _)

theorem setOutput_none_output (ws : Workspace) : (ws.setOutput none).output = none := by
  unfold setOutput
  split
  · rename_i h
    simpa using h
  · rfl

end Macniri.Layout.Workspace
