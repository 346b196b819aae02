import Macniri.Floating.Windows
import Macniri.Layout.WorkspaceOps
import Macniri.Scrolling.Windows

/-! What the operations on a workspace keep: its identity and its windows. -/
namespace Macniri.Layout

open List Option

/-- The operations of the active workspace. -/
inductive ActiveOp where
  | moveLeft
  | moveRight
  | moveColumnToFirst
  | moveColumnToLast
  | moveColumnToIndex (index : ℕ)
  | moveDown
  | moveUp
  | focusLeft
  | focusRight
  | focusColumnFirst
  | focusColumnLast
  | focusColumnRightOrFirst
  | focusColumnLeftOrLast
  | focusColumn (index : ℕ)
  | focusWindowInColumn (index : ℕ)
  | focusDown
  | focusUp
  | focusDownOrLeft
  | focusDownOrRight
  | focusUpOrLeft
  | focusUpOrRight
  | focusWindowTop
  | focusWindowBottom
  | focusWindowDownOrTop
  | focusWindowUpOrBottom
  | consumeIntoColumn
  | expelFromColumn
  | swapWindowInDirection (direction : ScrollDirection)
  | toggleColumnTabbedDisplay
  | setColumnDisplay (display : ColumnDisplay)
  | centerColumn
  | centerVisibleColumns
  | toggleWidth (forwards : Bool)
  | toggleFullWidth
  | setColumnWidth (change : SizeChange)
  | expandColumnToAvailableWidth
  | focusFloating
  | focusTiling
  | switchFocusFloatingTiling

/-- The operations of a window, by default the active one, on its workspace. -/
inductive WindowOp where
  | consumeOrExpelWindowLeft
  | consumeOrExpelWindowRight
  | centerWindow
  | toggleWindowWidth (forwards : Bool)
  | toggleWindowHeight (forwards : Bool)
  | setWindowWidth (change : SizeChange)
  | setWindowHeight (change : SizeChange)
  | resetWindowHeight
  | moveFloatingWindow (x y : PositionChange)

/-- Whether an operation of a scrolling space neither adds nor removes windows. -/
def Op.rearranges : Op → Bool
  | addTile .. | addTileToColumn .. | addTileRightOf .. | addColumn .. | remove _ => false
  | _ => true

theorem Op.added_of_rearranges {op : Op} (h : op.rearranges = true) :
    op.added = [] ∧ ∀ o, op ≠ .remove o := by
  cases op with
  | addTile | addTileToColumn | addTileRightOf | addColumn | remove => cases h
  | _ => exact ⟨rfl, by simp⟩

namespace Workspace

def applyActive (ws : Workspace) : ActiveOp → Option Workspace
  | .moveLeft => ws.moveLeft.map (·.2)
  | .moveRight => ws.moveRight.map (·.2)
  | .moveColumnToFirst => ws.moveColumnToFirst
  | .moveColumnToLast => ws.moveColumnToLast
  | .moveColumnToIndex index => ws.moveColumnToIndex index
  | .moveDown => ws.moveDown.map (·.2)
  | .moveUp => ws.moveUp.map (·.2)
  | .focusLeft => ws.focusLeft.map (·.2)
  | .focusRight => ws.focusRight.map (·.2)
  | .focusColumnFirst => ws.focusColumnFirst
  | .focusColumnLast => ws.focusColumnLast
  | .focusColumnRightOrFirst => ws.focusColumnRightOrFirst
  | .focusColumnLeftOrLast => ws.focusColumnLeftOrLast
  | .focusColumn index => some (ws.focusColumn index)
  | .focusWindowInColumn index => ws.focusWindowInColumn index
  | .focusDown => ws.focusDown.map (·.2)
  | .focusUp => ws.focusUp.map (·.2)
  | .focusDownOrLeft => ws.focusDownOrLeft
  | .focusDownOrRight => ws.focusDownOrRight
  | .focusUpOrLeft => ws.focusUpOrLeft
  | .focusUpOrRight => ws.focusUpOrRight
  | .focusWindowTop => ws.focusWindowTop
  | .focusWindowBottom => ws.focusWindowBottom
  | .focusWindowDownOrTop => ws.focusWindowDownOrTop
  | .focusWindowUpOrBottom => ws.focusWindowUpOrBottom
  | .consumeIntoColumn => ws.consumeIntoColumn
  | .expelFromColumn => ws.expelFromColumn
  | .swapWindowInDirection direction => ws.swapWindowInDirection direction
  | .toggleColumnTabbedDisplay => ws.toggleColumnTabbedDisplay
  | .setColumnDisplay display => ws.setColumnDisplay display
  | .centerColumn => ws.centerColumn
  | .centerVisibleColumns => ws.centerVisibleColumns
  | .toggleWidth forwards => ws.toggleWidth forwards
  | .toggleFullWidth => ws.toggleFullWidth
  | .setColumnWidth change => ws.setColumnWidth change
  | .expandColumnToAvailableWidth => ws.expandColumnToAvailableWidth
  | .focusFloating => some ws.focusFloating
  | .focusTiling => some ws.focusTiling
  | .switchFocusFloatingTiling => some ws.switchFocusFloatingTiling

def applyWindow (ws : Workspace) (window : Option ℕ) : WindowOp → Option Workspace
  | .consumeOrExpelWindowLeft => ws.consumeOrExpelWindowLeft window
  | .consumeOrExpelWindowRight => ws.consumeOrExpelWindowRight window
  | .centerWindow => ws.centerWindow window
  | .toggleWindowWidth forwards => ws.toggleWindowWidth window forwards
  | .toggleWindowHeight forwards => ws.toggleWindowHeight window forwards
  | .setWindowWidth change => ws.setWindowWidth window change
  | .setWindowHeight change => ws.setWindowHeight window change
  | .resetWindowHeight => ws.resetWindowHeight window
  | .moveFloatingWindow x y => ws.moveFloatingWindow window x y

/-- What holds of every workspace of a layout. -/
structure Ok (ws : Workspace) : Prop where
  scrolling : ws.scrolling.Inv
  ids : ws.windowIds.Nodup

/-- `ws'` is the same workspace with the given windows added. -/
structure Edit (added : List ℕ) (ws ws' : Workspace) : Prop where
  ok : ws'.Ok
  id : ws'.id = ws.id
  name : ws'.name = ws.name
  originalOutput : ws'.originalOutput = ws.originalOutput
  windowIds : ws'.windowIds.Perm (added ++ ws.windowIds)

/-- `ws'` is the same workspace with the same windows. -/
abbrev Kept : Workspace → Workspace → Prop := Edit []

/-- `ws'` is the same workspace with the given windows removed. -/
structure Cut (removed : List ℕ) (ws ws' : Workspace) : Prop where
  ok : ws'.Ok
  id : ws'.id = ws.id
  name : ws'.name = ws.name
  originalOutput : ws'.originalOutput = ws.originalOutput
  windowIds : ws.windowIds.Perm (removed ++ ws'.windowIds)

variable {ws ws' wt : Workspace} {s : ScrollingSpace} {f : FloatingSpace} {ids : List ℕ}
variable {window : Option ℕ}

theorem map_id_tiles (ws : Workspace) : ws.tiles.map Tile.id = ws.windowIds := by
  have hs : ws.scrolling.tiles.map Tile.id = ws.scrolling.windowIds := by
    unfold ScrollingSpace.tiles ScrollingSpace.windowIds ScrollingSpace.arrangement
    rw [map_flatMap, flatMap_def]
    rfl
  rw [tiles, map_append, hs]
  rfl

theorem hasWindows_iff : ws.hasWindows = true ↔ ws.windowIds ≠ [] := by
  simp [hasWindows, ← map_id_tiles]

theorem hasWindow_iff {w : ℕ} : ws.hasWindow w = true ↔ w ∈ ws.windowIds := by
  simp [hasWindow, ← map_id_tiles]

theorem Kept.refl (h : ws.Ok) : Kept ws ws := ⟨h, rfl, rfl, rfl, .refl _⟩

theorem Edit.trans (h : Edit ids ws wt) (h' : Kept wt ws') : Edit ids ws ws' :=
  ⟨h'.ok, h'.id.trans h.id, h'.name.trans h.name, h'.originalOutput.trans h.originalOutput,
    h'.windowIds.trans h.windowIds⟩

theorem Cut.edit (h : Cut ids ws wt) (h' : Edit ids wt ws') : Kept ws ws' :=
  ⟨h'.ok, h'.id.trans h.id, h'.name.trans h.name, h'.originalOutput.trans h.originalOutput,
    h'.windowIds.trans h.windowIds.symm⟩

theorem Cut.trans (h : Cut ids ws wt) (h' : Kept wt ws') : Cut ids ws ws' :=
  ⟨h'.ok, h'.id.trans h.id, h'.name.trans h.name, h'.originalOutput.trans h.originalOutput,
    h.windowIds.trans (h'.windowIds.symm.append_left ids)⟩

theorem hasWindows_congr (h : ws'.windowIds.Perm ws.windowIds) : ws'.hasWindows = ws.hasWindows := by
  rw [Bool.eq_iff_iff, hasWindows_iff, hasWindows_iff, ne_eq, ne_eq, ← length_eq_zero_iff,
    ← length_eq_zero_iff, h.length_eq]

/-! The spaces. -/

theorem fresh_scrolling {w : ℕ} (hw : w ∉ ws.windowIds) : w ∉ ws.scrolling.windowIds :=
  fun hmem => hw (mem_append_left _ hmem)

/-- A new scrolling space with more windows. -/
theorem edit_scrolling (hws : ws.Ok) (hfresh : ∀ w ∈ ids, w ∉ ws.windowIds) (hnodup : ids.Nodup)
    (hinv : s.Inv) (hperm : s.windowIds.Perm (ids ++ ws.scrolling.windowIds)) :
    Edit ids ws { ws with scrolling := s } := by
  have hids : (s.windowIds ++ ws.floating.windowIds).Perm (ids ++ ws.windowIds) := by
    simpa [Workspace.windowIds] using hperm.append_right ws.floating.windowIds
  refine ⟨⟨hinv, hids.nodup_iff.mpr ?_⟩, rfl, rfl, rfl, hids⟩
  exact nodup_append'.mpr ⟨hnodup, hws.ids, fun w hw hw' => hfresh w hw hw'⟩

/-- A new floating space with more windows. -/
theorem edit_floating (hws : ws.Ok) (hfresh : ∀ w ∈ ids, w ∉ ws.windowIds) (hnodup : ids.Nodup)
    (hperm : f.windowIds.Perm (ids ++ ws.floating.windowIds)) :
    Edit ids ws { ws with floating := f } := by
  have hids : (ws.scrolling.windowIds ++ f.windowIds).Perm (ids ++ ws.windowIds) := by
    refine (hperm.append_left _).trans ?_
    simpa [Workspace.windowIds, append_assoc] using
      (perm_append_comm : (ws.scrolling.windowIds ++ ids).Perm _).append_right ws.floating.windowIds
  refine ⟨⟨hws.scrolling, hids.nodup_iff.mpr ?_⟩, rfl, rfl, rfl, hids⟩
  exact nodup_append'.mpr ⟨hnodup, hws.ids, fun w hw hw' => hfresh w hw hw'⟩

theorem kept_scrolling (hws : ws.Ok) (hinv : s.Inv)
    (hperm : s.windowIds.Perm ws.scrolling.windowIds) : Kept ws { ws with scrolling := s } :=
  edit_scrolling hws (by simp) .nil hinv hperm

theorem kept_floating (hws : ws.Ok) (hperm : f.windowIds.Perm ws.floating.windowIds) :
    Kept ws { ws with floating := f } :=
  edit_floating hws (by simp) .nil hperm

theorem cut_scrolling (hws : ws.Ok) (hinv : s.Inv)
    (hperm : ws.scrolling.windowIds.Perm (ids ++ s.windowIds)) :
    Cut ids ws { ws with scrolling := s } := by
  have hids : ws.windowIds.Perm (ids ++ (s.windowIds ++ ws.floating.windowIds)) := by
    simpa [Workspace.windowIds] using hperm.append_right ws.floating.windowIds
  exact ⟨⟨hinv, (nodup_append'.mp (hids.nodup_iff.mp hws.ids)).2.1⟩, rfl, rfl, rfl, hids⟩

theorem cut_floating (hws : ws.Ok) (hperm : ws.floating.windowIds.Perm (ids ++ f.windowIds)) :
    Cut ids ws { ws with floating := f } := by
  have hids : ws.windowIds.Perm (ids ++ (ws.scrolling.windowIds ++ f.windowIds)) := by
    refine (hperm.append_left _).trans ?_
    simpa [append_assoc] using
      (perm_append_comm : (ws.scrolling.windowIds ++ ids).Perm _).append_right f.windowIds
  exact ⟨⟨hws.scrolling, (nodup_append'.mp (hids.nodup_iff.mp hws.ids)).2.1⟩, rfl, rfl, rfl,
    hids⟩

theorem kept_floatingIsActive (hws : ws.Ok) (a : FloatingActive) :
    Kept ws { ws with floatingIsActive := a } := ⟨⟨hws.scrolling, hws.ids⟩, rfl, rfl, rfl, .refl _⟩

/-- An operation of the scrolling space that only rearranges its windows. -/
theorem kept_op (hws : ws.Ok) (op : Op) (hop : op.rearranges = true)
    (h : ws.scrolling.apply op = some s) : Kept ws { ws with scrolling := s } := by
  obtain ⟨hadded, hop⟩ := Op.added_of_rearranges hop
  have hstep : ws.scrolling.step op = some s := by
    unfold ScrollingSpace.step
    rw [if_pos (by simp [hadded])]
    exact h
  have hperm := ScrollingSpace.perm_step hws.scrolling hstep hop
  rw [hadded] at hperm
  exact kept_scrolling hws (ScrollingSpace.effect_step hws.scrolling hstep).inv hperm

variable {fl : FloatingSpace → Option FloatingSpace} {sc : ScrollingSpace → Option ScrollingSpace}

theorem kept_liftScrolling (hsc : ∀ s, sc ws.scrolling = some s → Kept ws { ws with scrolling := s })
    (h : ws.liftScrolling sc = some ws') : Kept ws ws' := by
  obtain ⟨s, hs, rfl⟩ := of_map h
  exact hsc s hs

theorem kept_liftFloating (hws : ws.Ok)
    (hfl : ∀ f, fl ws.floating = some f → f.windowIds.Perm ws.floating.windowIds)
    (h : ws.liftFloating fl = some ws') : Kept ws ws' := by
  obtain ⟨f, hf, rfl⟩ := of_map h
  exact kept_floating hws (hfl f hf)

theorem kept_onActiveSpace (hws : ws.Ok)
    (hfl : ∀ f, fl ws.floating = some f → f.windowIds.Perm ws.floating.windowIds)
    (hsc : ∀ s, sc ws.scrolling = some s → Kept ws { ws with scrolling := s })
    (h : ws.onActiveSpace fl sc = some ws') : Kept ws ws' := by
  unfold onActiveSpace at h
  split at h
  · exact kept_liftFloating hws hfl h
  · exact kept_liftScrolling hsc h

theorem kept_onScrolling (hws : ws.Ok)
    (hsc : ∀ s, sc ws.scrolling = some s → Kept ws { ws with scrolling := s })
    (h : ws.onScrolling sc = some ws') : Kept ws ws' :=
  kept_onActiveSpace hws (fun _ hf => some.inj hf ▸ .refl _) hsc h

theorem kept_onSpaceOf (hws : ws.Ok)
    (hfl : ∀ f, fl ws.floating = some f → f.windowIds.Perm ws.floating.windowIds)
    (hsc : ∀ s, sc ws.scrolling = some s → Kept ws { ws with scrolling := s })
    (h : ws.onSpaceOf window fl sc = some ws') : Kept ws ws' := by
  unfold onSpaceOf at h
  split at h
  · exact kept_liftFloating hws hfl h
  · exact kept_liftScrolling hsc h

/-! Focus and moves. -/

theorem kept_focusOnActiveSpace (hws : ws.Ok) {changed : Bool} {focused : ScrollingSpace → Bool}
    {fl : FloatingSpace → Option (Bool × FloatingSpace)} {sc : ScrollingSpace → ScrollingSpace}
    (hfl : ∀ b f, fl ws.floating = some (b, f) → f.windowIds.Perm ws.floating.windowIds)
    (hsc : Kept ws { ws with scrolling := sc ws.scrolling })
    (h : ws.focusOnActiveSpace fl focused sc = some (changed, ws')) : Kept ws ws' := by
  unfold focusOnActiveSpace at h
  split at h
  · obtain ⟨⟨b, f⟩, hf, h⟩ := of_map h
    obtain ⟨-, rfl⟩ := Prod.mk.inj h
    exact kept_floating hws (hfl b f hf)
  · obtain ⟨-, rfl⟩ := pair_inj h
    exact hsc

theorem kept_focus (hws : ws.Ok) (op : FocusOp) :
    Kept ws { ws with scrolling := ws.scrolling.applyFocus op } := by
  have htame : ScrollingSpace.Tame true ws.scrolling (ws.scrolling.applyFocus op) :=
    ScrollingSpace.tame_applyFocus hws.scrolling op
  exact kept_scrolling hws (htame.inv hws.scrolling) (ScrollingSpace.perm_applyFocus ws.scrolling op)

theorem kept_focusLeft (hws : ws.Ok) {b : Bool} (h : ws.focusLeft = some (b, ws')) : Kept ws ws' :=
  kept_focusOnActiveSpace hws (fun _ _ => FloatingSpace.perm_focusDirectional)
    (kept_focus hws .focusLeft) h

theorem kept_focusRight (hws : ws.Ok) {b : Bool} (h : ws.focusRight = some (b, ws')) :
    Kept ws ws' :=
  kept_focusOnActiveSpace hws (fun _ _ => FloatingSpace.perm_focusDirectional)
    (kept_focus hws .focusRight) h

theorem kept_focusDown (hws : ws.Ok) {b : Bool} (h : ws.focusDown = some (b, ws')) : Kept ws ws' :=
  kept_focusOnActiveSpace hws (fun _ _ => FloatingSpace.perm_focusDirectional)
    (kept_focus hws .focusDown) h

theorem kept_focusUp (hws : ws.Ok) {b : Bool} (h : ws.focusUp = some (b, ws')) : Kept ws ws' :=
  kept_focusOnActiveSpace hws (fun _ _ => FloatingSpace.perm_focusDirectional)
    (kept_focus hws .focusUp) h

/-- A focus operation of both spaces. -/
theorem kept_focusBoth (hws : ws.Ok) (op : FocusOp)
    (hfl : ∀ f, fl ws.floating = some f → f.windowIds.Perm ws.floating.windowIds)
    (hsc : sc ws.scrolling = some (ws.scrolling.applyFocus op))
    (h : ws.onActiveSpace fl sc = some ws') : Kept ws ws' :=
  kept_onActiveSpace hws hfl
    (fun _ hs => some.inj (hsc.symm.trans hs) ▸ kept_focus hws op) h

theorem kept_focusColumnFirst (hws : ws.Ok) (h : ws.focusColumnFirst = some ws') : Kept ws ws' :=
  kept_focusBoth hws .focusColumnFirst (fun _ => FloatingSpace.perm_focusPicked) rfl h

theorem kept_focusColumnLast (hws : ws.Ok) (h : ws.focusColumnLast = some ws') : Kept ws ws' :=
  kept_focusBoth hws .focusColumnLast (fun _ => FloatingSpace.perm_focusPicked) rfl h

theorem kept_focusWindowTop (hws : ws.Ok) (h : ws.focusWindowTop = some ws') : Kept ws ws' :=
  kept_focusBoth hws .focusTop (fun _ => FloatingSpace.perm_focusPicked) rfl h

theorem kept_focusWindowBottom (hws : ws.Ok) (h : ws.focusWindowBottom = some ws') : Kept ws ws' :=
  kept_focusBoth hws .focusBottom (fun _ => FloatingSpace.perm_focusPicked) rfl h

theorem kept_focusOr {g : Workspace → Option (Bool × Workspace)} {o : Workspace → Option Workspace}
    (hg : ∀ b wt, g ws = some (b, wt) → Kept ws wt)
    (ho : ∀ {wt ws'}, wt.Ok → o wt = some ws' → Kept wt ws')
    (h : ws.focusOr g o = some ws') : Kept ws ws' := by
  obtain ⟨⟨b, wt⟩, hwt, h⟩ := of_bind h
  have hkept := hg b wt hwt
  dsimp only at h
  split at h
  · exact some.inj h ▸ hkept
  · exact hkept.trans (ho hkept.ok h)

/-- Floating windows are only focused up and down. -/
theorem kept_focusVertically (hws : ws.Ok) (op : FocusOp) {distance : Point → Point → ℚ}
    (hsc : sc ws.scrolling = some (ws.scrolling.applyFocus op))
    (h : ws.onActiveSpace (fun s => (s.focusDirectional distance).map (·.2)) sc = some ws') :
    Kept ws ws' := by
  refine kept_focusBoth hws op (fun f hf => ?_) hsc h
  obtain ⟨⟨b, f'⟩, hf', rfl⟩ := of_map hf
  exact FloatingSpace.perm_focusDirectional hf'

theorem kept_switchFocusFloatingTiling (hws : ws.Ok) : Kept ws ws.switchFocusFloatingTiling := by
  unfold switchFocusFloatingTiling
  split
  · exact .refl hws
  · exact kept_floatingIsActive hws _

theorem kept_focusFloating (hws : ws.Ok) : Kept ws ws.focusFloating := by
  unfold focusFloating
  split
  · exact .refl hws
  · exact kept_switchFocusFloatingTiling hws

theorem kept_focusTiling (hws : ws.Ok) : Kept ws ws.focusTiling := by
  unfold focusTiling
  split
  · exact kept_switchFocusFloatingTiling hws
  · exact .refl hws

theorem scrolling_focusTiling (ws : Workspace) : ws.focusTiling.scrolling = ws.scrolling := by
  unfold focusTiling switchFocusFloatingTiling
  split
  · split <;> rfl
  · rfl

theorem kept_focusColumn (hws : ws.Ok) (index : ℕ) : Kept ws (ws.focusColumn index) := by
  have htiling := kept_focusTiling hws
  have hfocus := kept_focus htiling.ok (.focusColumn index)
  rw [scrolling_focusTiling] at hfocus
  exact htiling.trans hfocus

theorem kept_activateWindow (hws : ws.Ok) {w : ℕ} {b : Bool}
    (h : ws.activateWindow w = some (b, ws')) : Kept ws ws' := by
  unfold activateWindow at h
  split at h
  · obtain ⟨f, hf, h⟩ := of_map h
    obtain ⟨-, rfl⟩ := Prod.mk.inj h
    have hkept := kept_floating hws (FloatingSpace.perm_activateWindow hf)
    exact hkept.trans (kept_floatingIsActive hkept.ok _)
  · split at h
    · obtain ⟨-, rfl⟩ := pair_inj h
      have hkept := kept_focus hws (.activateWindow w)
      exact hkept.trans (kept_floatingIsActive hkept.ok _)
    · obtain ⟨-, rfl⟩ := pair_inj h
      exact .refl hws

theorem kept_activateWindowWithoutRaising (hws : ws.Ok) (w : ℕ) :
    Kept ws (ws.activateWindowWithoutRaising w).2 := by
  unfold activateWindowWithoutRaising
  split
  · have hkept := kept_floating hws
      (.of_eq (FloatingSpace.windowIds_activateWindowWithoutRaising ws.floating w))
    exact hkept.trans (kept_floatingIsActive hkept.ok _)
  · split
    · have hkept := kept_focus hws (.activateWindow w)
      exact hkept.trans (kept_floatingIsActive hkept.ok _)
    · exact .refl hws

theorem kept_moveOnActiveSpace (hws : ws.Ok) {moved : Bool} {amount : Point} (op : MoveOp)
    {movedBy : ScrollingSpace → Bool} {g : ScrollingSpace → ScrollingSpace}
    (hg : ws.scrolling.applyMove op = some (g ws.scrolling))
    (h : ws.moveOnActiveSpace (·.moveBy amount) movedBy g = some (moved, ws')) : Kept ws ws' := by
  unfold moveOnActiveSpace at h
  split at h
  · obtain ⟨f, hf, h⟩ := of_map h
    obtain ⟨-, rfl⟩ := Prod.mk.inj h
    exact kept_floating hws (.of_eq (FloatingSpace.windowIds_moveBy hf))
  · obtain ⟨-, rfl⟩ := pair_inj h
    exact kept_op hws (.move op) rfl hg

theorem kept_moveLeft (hws : ws.Ok) {b : Bool} (h : ws.moveLeft = some (b, ws')) : Kept ws ws' :=
  kept_moveOnActiveSpace hws .moveLeft rfl h

theorem kept_moveRight (hws : ws.Ok) {b : Bool} (h : ws.moveRight = some (b, ws')) : Kept ws ws' :=
  kept_moveOnActiveSpace hws .moveRight rfl h

theorem kept_moveDown (hws : ws.Ok) {b : Bool} (h : ws.moveDown = some (b, ws')) : Kept ws ws' :=
  kept_moveOnActiveSpace hws .moveDown rfl h

theorem kept_moveUp (hws : ws.Ok) {b : Bool} (h : ws.moveUp = some (b, ws')) : Kept ws ws' :=
  kept_moveOnActiveSpace hws .moveUp rfl h

/-- The second component of a result. -/
theorem kept_snd {r : Option (Bool × Workspace)} (hr : ∀ b wt, r = some (b, wt) → Kept ws wt)
    (h : r.map (·.2) = some ws') : Kept ws ws' := by
  obtain ⟨⟨b, wt⟩, hwt, rfl⟩ := of_map h
  exact hr b wt hwt

theorem kept_applyActive (hws : ws.Ok) {op : ActiveOp} (h : ws.applyActive op = some ws') :
    Kept ws ws' := by
  cases op with
  | moveLeft => exact kept_snd (fun _ _ => kept_moveLeft hws) h
  | moveRight => exact kept_snd (fun _ _ => kept_moveRight hws) h
  | moveColumnToFirst =>
    exact kept_onScrolling hws (fun _ => kept_op hws (.move .moveColumnToFirst) rfl) h
  | moveColumnToLast =>
    exact kept_onScrolling hws (fun _ => kept_op hws (.move .moveColumnToLast) rfl) h
  | moveColumnToIndex index =>
    exact kept_onScrolling hws (fun _ => kept_op hws (.move (.moveColumnToIndex index)) rfl) h
  | moveDown => exact kept_snd (fun _ _ => kept_moveDown hws) h
  | moveUp => exact kept_snd (fun _ _ => kept_moveUp hws) h
  | focusLeft => exact kept_snd (fun _ _ => kept_focusLeft hws) h
  | focusRight => exact kept_snd (fun _ _ => kept_focusRight hws) h
  | focusColumnFirst => exact kept_focusColumnFirst hws h
  | focusColumnLast => exact kept_focusColumnLast hws h
  | focusColumnRightOrFirst =>
    exact kept_focusOr (fun _ _ => kept_focusRight hws) kept_focusColumnFirst h
  | focusColumnLeftOrLast =>
    exact kept_focusOr (fun _ _ => kept_focusLeft hws) kept_focusColumnLast h
  | focusColumn index => exact some.inj h ▸ kept_focusColumn hws index
  | focusWindowInColumn index =>
    exact kept_onScrolling hws (fun _ => kept_op hws (.focus (.focusWindowInColumn index)) rfl) h
  | focusDown => exact kept_snd (fun _ _ => kept_focusDown hws) h
  | focusUp => exact kept_snd (fun _ _ => kept_focusUp hws) h
  | focusDownOrLeft => exact kept_focusVertically hws .focusDownOrLeft rfl h
  | focusDownOrRight => exact kept_focusVertically hws .focusDownOrRight rfl h
  | focusUpOrLeft => exact kept_focusVertically hws .focusUpOrLeft rfl h
  | focusUpOrRight => exact kept_focusVertically hws .focusUpOrRight rfl h
  | focusWindowTop => exact kept_focusWindowTop hws h
  | focusWindowBottom => exact kept_focusWindowBottom hws h
  | focusWindowDownOrTop =>
    exact kept_focusOr (fun _ _ => kept_focusDown hws) kept_focusWindowTop h
  | focusWindowUpOrBottom =>
    exact kept_focusOr (fun _ _ => kept_focusUp hws) kept_focusWindowBottom h
  | consumeIntoColumn =>
    exact kept_onScrolling hws (fun _ => kept_op hws (.move .consumeIntoColumn) rfl) h
  | expelFromColumn =>
    exact kept_onScrolling hws (fun _ => kept_op hws (.move .expelFromColumn) rfl) h
  | swapWindowInDirection direction =>
    exact kept_onScrolling hws (fun _ => kept_op hws (.move (.swapWindowInDirection direction)) rfl) h
  | toggleColumnTabbedDisplay =>
    exact kept_onScrolling hws (fun _ => kept_op hws (.size .toggleColumnTabbedDisplay) rfl) h
  | setColumnDisplay display =>
    exact kept_onScrolling hws (fun _ => kept_op hws (.size (.setColumnDisplay display)) rfl) h
  | centerColumn =>
    exact kept_onActiveSpace hws (fun _ hf => .of_eq (FloatingSpace.windowIds_centerWindow hf))
      (fun _ => kept_op hws (.size .centerColumn) rfl) h
  | centerVisibleColumns =>
    exact kept_onScrolling hws (fun _ => kept_op hws (.size .centerVisibleColumns) rfl) h
  | toggleWidth forwards =>
    exact kept_onActiveSpace hws (fun _ hf => .of_eq (FloatingSpace.windowIds_toggleWindowWidth hf))
      (fun _ => kept_op hws (.size (.toggleWidth forwards)) rfl) h
  | toggleFullWidth =>
    exact kept_onScrolling hws (fun _ => kept_op hws (.size .toggleFullWidth) rfl) h
  | setColumnWidth change =>
    exact kept_onActiveSpace hws (fun _ hf => .of_eq (FloatingSpace.windowIds_setWindowWidth hf))
      (fun _ => kept_op hws (.size (.setWindowWidth none change)) rfl) h
  | expandColumnToAvailableWidth =>
    exact kept_onScrolling hws (fun _ => kept_op hws (.size .expandColumnToAvailableWidth) rfl) h
  | focusFloating => exact some.inj h ▸ kept_focusFloating hws
  | focusTiling => exact some.inj h ▸ kept_focusTiling hws
  | switchFocusFloatingTiling => exact some.inj h ▸ kept_switchFocusFloatingTiling hws

end Workspace

end Macniri.Layout
