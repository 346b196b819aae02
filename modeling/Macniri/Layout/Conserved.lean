import Macniri.Floating.StackingRun
import Macniri.Layout.DropTile
import Macniri.Layout.SoundRun

/-! No window is lost: opening a window returns, and so does closing one, except where just the two
ends of the list of workspaces would be left, one of them with a name. -/
namespace Macniri.Layout

open Option List

namespace ScrollingSpace

variable {s : ScrollingSpace} {w : ℕ}

theorem columns_ne_nil (hs : s.Inv) (hw : w ∈ s.windowIds) : s.columns ≠ [] := fun hnil =>
  ne_nil_of_mem hw ((columns_eq_nil_iff hs).mp hnil)

theorem exists_removeTile (hs : s.Inv) (hw : w ∈ s.windowIds) :
    ∃ r s', s.removeTile w = some (r, s') := by
  obtain ⟨p, c, tile, hp, hc, ht⟩ := exists_windowOrActive hs (columns_ne_nil hs hw) (some w)
    fun _ hwin => some.inj hwin ▸ hw
  have hp : s.findWindow w = some p := hp
  unfold removeTile
  rw [hp]
  exact exists_removeTileByIdx_of_tile hc ht

theorem exists_addTile_auto (hs : s.Inv) (tile : Tile) (activate : Bool) (width : ColumnWidth)
    (isFullWidth : Bool) : ∃ s', s.addTile none tile activate width isFullWidth = some s' := by
  refine exists_addColumn ?_ _ activate
  unfold insertionIdx
  rw [getD_none]
  split
  · exact Nat.zero_le _
  · rename_i hne
    exact hs.active fun hnil => hne (List.isEmpty_iff.mpr hnil)

theorem exists_addTileRightOf (hw : w ∈ s.windowIds) (tile : Tile) (activate : Bool)
    (width : ColumnWidth) (isFullWidth : Bool) :
    ∃ s', s.addTileRightOf w tile activate width isFullWidth = some s' := by
  obtain ⟨ids, hids, hmem⟩ := mem_flatten.mp hw
  obtain ⟨c, hc, rfl⟩ := List.mem_map.mp hids
  have hsome : (s.columns.findIdx? (·.contains w)).isSome := by
    rw [findIdx?_isSome]
    exact List.any_eq_true.mpr ⟨c, hc, Column.mem_windowIds.mp hmem⟩
  obtain ⟨i, hi⟩ := isSome_iff_exists.mp hsome
  unfold addTileRightOf
  rw [hi]
  have hle : s.insertionIdx (some (i + 1)) ≤ s.columns.length :=
    (findIdx?_eq_some_iff_getElem.mp hi).1
  exact exists_addColumn hle _ activate

theorem exists_findTile (hw : w ∈ s.windowIds) : ∃ t, s.findTile w = some t := by
  obtain ⟨ids, hids, hmem⟩ := mem_flatten.mp hw
  obtain ⟨c, hc, rfl⟩ := List.mem_map.mp hids
  obtain ⟨tile, htile, hid⟩ := List.mem_map.mp hmem
  refine isSome_iff_exists.mp (find?_isSome.mpr ⟨tile, ?_, beq_iff_eq.mpr hid⟩)
  exact mem_flatMap.mpr ⟨c, hc, htile⟩

theorem exists_setWindowHeight (hs : s.Inv) (hw : w ∈ s.windowIds) (change : SizeChange) :
    ∃ s', s.setWindowHeight (some w) change = some s' := by
  have hne := columns_ne_nil hs hw
  obtain ⟨p, c, tile, hp, hc, ht⟩ := exists_windowOrActive hs hne (some w)
    fun _ hwin => some.inj hwin ▸ hw
  have hp : s.findWindow w = some p := hp
  unfold setWindowHeight resizeWindow columnAndTile
  rw [if_neg (fun hempty => hne (List.isEmpty_iff.mp hempty))]
  dsimp only
  rw [hp, map_some, some_bind]
  dsimp only
  rw [hc]
  exact ⟨_, rfl⟩

end ScrollingSpace

namespace FloatingSpace

variable {s : FloatingSpace} {w : ℕ}

theorem exists_setWindowHeight (hw : w ∈ s.windowIds) (change : SizeChange) :
    ∃ s', s.setWindowHeight (some w) change = some s' := by
  obtain ⟨i, hi⟩ := idxOf_isSome hw
  obtain ⟨tile, htile, -⟩ := idxOf_spec hi
  unfold setWindowHeight windowOrActive
  rw [some_or]
  dsimp only
  rw [hi, some_bind, htile]
  exact ⟨_, rfl⟩

end FloatingSpace

namespace Workspace

variable {ws : Workspace} {w : ℕ}

theorem mem_scrolling (hw : w ∈ ws.windowIds) (hfloating : ¬ ws.floating.hasWindow w = true) :
    w ∈ ws.scrolling.windowIds :=
  (mem_append.mp hw).resolve_right fun hmem => hfloating (FloatingSpace.mem_windowIds_iff.mp hmem)

theorem exists_removeTile (h : ws.Focus) (hw : w ∈ ws.windowIds) :
    ∃ r ws', ws.removeTile w = some (r, ws') := by
  unfold removeTile
  split
  · rename_i hfloating
    obtain ⟨r, s, hs⟩ := FloatingSpace.exists_removeTile h.active.length
      (FloatingSpace.mem_windowIds_iff.mpr hfloating)
    unfold removeFloating
    rw [hs]
    exact ⟨_, _, rfl⟩
  · rename_i hfloating
    obtain ⟨r, s, hs⟩ := ScrollingSpace.exists_removeTile h.ok.scrolling (mem_scrolling hw hfloating)
    rw [hs]
    exact ⟨_, _, rfl⟩

theorem exists_activateWindow (h : ws.Focus) (w : ℕ) : ∃ b ws', ws.activateWindow w = some (b, ws') := by
  unfold activateWindow
  split
  · obtain ⟨s, hs⟩ := FloatingSpace.exists_activateWindow h.active.length w
    rw [hs]
    exact ⟨_, _, rfl⟩
  · split <;> exact ⟨_, _, rfl⟩

/-- The window or the place that the target names is on the workspace. -/
def HasTarget (ws : Workspace) : WorkspaceAddWindowTarget → Prop
  | .auto => True
  | .newColumnAt colIdx => colIdx ≤ ws.scrolling.columns.length
  | .nextTo window => window ∈ ws.windowIds

theorem exists_liftFloating {f : FloatingSpace → Option FloatingSpace}
    (h : ∃ s, f ws.floating = some s) : ∃ ws', ws.liftFloating f = some ws' := by
  obtain ⟨s, hs⟩ := h
  unfold liftFloating
  rw [hs]
  exact ⟨_, rfl⟩

theorem exists_liftScrolling {f : ScrollingSpace → Option ScrollingSpace}
    (h : ∃ s, f ws.scrolling = some s) : ∃ ws', ws.liftScrolling f = some ws' := by
  obtain ⟨s, hs⟩ := h
  unfold liftScrolling
  rw [hs]
  exact ⟨_, rfl⟩

theorem exists_addFloating (h : ws.Focus) (tile : Tile) (activate : Bool) :
    ∃ ws', ws.addFloating tile activate = some ws' := by
  obtain ⟨ws', hws'⟩ := ws.exists_liftFloating (f := (·.addTile tile activate))
    (FloatingSpace.exists_addTileAt h.active.length (Nat.zero_le _) tile activate)
  exact ⟨_, congrArg (Option.map _) hws'⟩

theorem exists_addScrolling (h : ws.Focus) (tile : Tile) (activate : Bool) (width : ColumnWidth)
    (isFullWidth : Bool) : ∃ ws', ws.addScrolling none tile activate width isFullWidth = some ws' := by
  obtain ⟨ws', hws'⟩ := ws.exists_liftScrolling
    (f := (·.addTile none tile activate width isFullWidth))
    (ScrollingSpace.exists_addTile_auto h.ok.scrolling tile activate width isFullWidth)
  exact ⟨_, congrArg (Option.map _) hws'⟩

theorem exists_addTileNextTo (h : ws.Focus) (hw : w ∈ ws.windowIds) (tile : Tile) (activate : Bool)
    (width : ColumnWidth) (isFullWidth isFloating : Bool) (renderPos : Point) :
    ∃ ws', ws.addTileNextTo tile w activate width isFullWidth isFloating renderPos = some ws' := by
  unfold addTileNextTo
  split
  · split
    · rename_i hfloating
      obtain ⟨ws', hws'⟩ := ws.exists_liftFloating (f := (·.addTileAbove w tile activate))
        (FloatingSpace.exists_addTileAbove h.active.length
          (FloatingSpace.mem_windowIds_iff.mpr hfloating) tile activate)
      exact ⟨_, congrArg (Option.map _) hws'⟩
    · rename_i hfloating
      obtain ⟨t, ht⟩ := ScrollingSpace.exists_findTile (mem_scrolling hw hfloating)
      rw [ht, some_bind]
      exact exists_addFloating h _ activate
  · split
    · exact exists_addScrolling h tile activate width isFullWidth
    · rename_i hfloating
      obtain ⟨ws', hws'⟩ := ws.exists_liftScrolling
        (f := (·.addTileRightOf w tile activate width isFullWidth))
        (ScrollingSpace.exists_addTileRightOf (mem_scrolling hw hfloating) tile activate width isFullWidth)
      exact ⟨_, congrArg (Option.map _) hws'⟩

/-- There is an active window to compare with. -/
theorem exists_activateNextTo (h : ws.Focus) (hw : w ∈ ws.windowIds) (activate : ActivateWindow) :
    ∃ b, ws.activateNextTo activate w = some b := by
  cases activate with
  | yes => exact ⟨true, rfl⟩
  | no => exact ⟨false, rfl⟩
  | smart =>
    have hsome : ws.activeId ≠ none := fun hnone =>
      ne_nil_of_mem hw (h.activeId_eq_none_iff.mp hnone)
    unfold activateNextTo
    cases hwindow : ws.activeWindow with
    | none => exact absurd (congrArg (Option.map Window.id) hwindow) hsome
    | some window => exact ⟨_, rfl⟩

theorem exists_addTile (h : ws.Focus) {target : WorkspaceAddWindowTarget} (htarget : ws.HasTarget target)
    (tile : Tile) (activate : ActivateWindow) (width : ColumnWidth) (isFullWidth isFloating : Bool)
    (renderPos : Point) :
    ∃ ws', ws.addTile tile target activate width isFullWidth isFloating renderPos = some ws' := by
  unfold addTile
  cases target with
  | auto =>
    dsimp only
    split
    · exact exists_addFloating h _ _
    · exact exists_addScrolling h _ _ width isFullWidth
  | newColumnAt colIdx =>
    have hle : ws.scrolling.insertionIdx (some colIdx) ≤ ws.scrolling.columns.length := htarget
    obtain ⟨ws', hws'⟩ := ws.exists_liftScrolling
      (f := (·.addTile (some colIdx) { tile with restoreToFloating := isFloating }
        (activate.mapSmart false) width isFullWidth))
      (ScrollingSpace.exists_addColumn hle _ _)
    exact ⟨_, congrArg (Option.map _) hws'⟩
  | nextTo window =>
    obtain ⟨b, hb⟩ := exists_activateNextTo h htarget activate
    dsimp only
    rw [hb, some_bind]
    exact exists_addTileNextTo h htarget _ b width isFullWidth isFloating renderPos

theorem exists_setOpeningHeight (h : ws.Focus) (hw : w ∈ ws.windowIds) (opening : WindowOpening) :
    ∃ ws', ws.setOpeningHeight w opening = some ws' := by
  unfold setOpeningHeight
  split
  · exact ⟨ws, rfl⟩
  · split
    · exact ⟨ws, rfl⟩
    · rename_i height _ _
      unfold setWindowHeight onSpaceOf targetsFloating
      dsimp only
      split
      · rename_i hfloating
        exact exists_liftFloating (FloatingSpace.exists_setWindowHeight
          (FloatingSpace.mem_windowIds_iff.mpr hfloating) _)
      · rename_i hfloating
        exact exists_liftScrolling
          (ScrollingSpace.exists_setWindowHeight h.ok.scrolling (mem_scrolling hw hfloating) _)

end Workspace

namespace Monitor

variable {m m' : Monitor} {ws ws' : Workspace} {i w : ℕ}

theorem activeWorkspace_isSome (h : m.Core) : m.activeWorkspace.isSome := by
  unfold activeWorkspace
  rw [getElem?_eq_getElem h.active]
  rfl

/-! Opening. -/

theorem exists_addTile (h : m.Sound) {target : MonitorAddWindowTarget}
    {wsTarget : WorkspaceAddWindowTarget} (htarget : m.resolveAddWindowTarget target = some (i, wsTarget))
    (hws : m.workspaces[i]? = some ws) (hhas : ws.HasTarget wsTarget) (tile : Tile)
    (activate : ActivateWindow) (allow : Bool) (width : ColumnWidth) (isFullWidth isFloating : Bool)
    (renderPos : Point) :
    ∃ m', m.addTile tile target activate allow width isFullWidth isFloating renderPos = some m' := by
  obtain ⟨ws', hadd⟩ := Workspace.exists_addTile (h.focused ws (mem_of_getElem? hws)) hhas tile
    activate width isFullWidth isFloating renderPos
  unfold addTile
  rw [htarget, some_bind]
  dsimp only
  rw [onWorkspace_eq hws hadd, some_bind]
  exact exists_filled (activeWorkspace_isSome h.inv.toCore) (lt_length_of_getElem? hws) ws' _

theorem exists_openWindow (h : m.Sound) {window : Window} (hfresh : window.id ∉ m.windowIds)
    {target : MonitorAddWindowTarget} {wsTarget : WorkspaceAddWindowTarget}
    (htarget : m.resolveAddWindowTarget target = some (i, wsTarget)) (hws : m.workspaces[i]? = some ws)
    (hhas : ws.HasTarget wsTarget) (opening : WindowOpening) :
    ∃ m', m.openWindow window target opening = some m' := by
  have hlen : m.workspaces ≠ [] := ne_nil_of_mem (mem_of_getElem? hws)
  obtain ⟨first, hfirst⟩ : ∃ first, m.workspaces.head? = some first := ⟨_, List.head?_eq_some_head hlen⟩
  obtain ⟨mt, hmt⟩ := exists_addTile h htarget hws hhas (first.makeTile window) opening.activate true
    (ws.resolveScrollingWidth window opening.width) opening.isFullWidth opening.isFloating
    opening.renderPos
  have hnew : (first.makeTile window).id ∉ m.windowIds := hfresh
  have hmem : window.id ∈ mt.windowIds :=
    (grown_addTile hnew h.inv hmt).effect.windowIds.mem_iff.mpr mem_cons_self
  obtain ⟨ids, hids, hmem⟩ := mem_flatten.mp hmem
  obtain ⟨wt, hwt, rfl⟩ := List.mem_map.mp hids
  obtain ⟨j, opened, hj, hopened, hin⟩ := exists_findIdx?
    (p := fun ws : Workspace => ws.hasWindow window.id) ⟨wt, hwt, Workspace.hasWindow_iff.mpr hmem⟩
  obtain ⟨ws', hws'⟩ := Workspace.exists_setOpeningHeight
    (h.focused.addTile hnew hmt opened (mem_of_getElem? hopened)) (Workspace.hasWindow_iff.mp hin)
    opening
  have hadd : m.addWindow window target opening.activate (ws.resolveScrollingWidth window opening.width)
      opening.isFullWidth opening.isFloating opening.renderPos = some mt := by
    unfold addWindow
    rw [hfirst]
    exact hmt
  unfold openWindow onFirst
  rw [htarget, some_bind]
  dsimp only
  rw [hws, some_bind, hadd, some_bind, hj, some_bind]
  exact ⟨_, onWorkspace_eq hopened hws'⟩

/-! Closing. -/

/-- The window is alone on the unnamed workspace between the two ends, and one of these has a name:
without the window there are just two workspaces, but not two empty ones. -/
def NamedEndsLeft (m : Monitor) (window : ℕ) : Prop :=
  m.emptyAboveFirst = true ∧ m.workspaceSwitch = none ∧ m.activeWorkspaceIdx ≠ 1 ∧
    ∃ first ws last, m.workspaces = [first, ws, last] ∧ ws.name = none ∧ ws.windowIds = [window] ∧
      (first.name.isSome ∨ last.name.isSome)

theorem exists_dropSecondEmpty_iff : (∃ m', m.dropSecondEmpty = some m') ↔
    ¬ (m.emptyAboveFirst = true ∧ m.workspaces.length = 2 ∧
      m.workspaces.any (·.hasWindowsOrName) = true) := by
  unfold dropSecondEmpty
  split
  · rename_i htwo
    split
    · rename_i hused
      simp [htwo, hused]
    · rename_i hused
      exact iff_of_true ⟨_, rfl⟩ fun h => hused h.2.2
  · rename_i hmany
    exact iff_of_true ⟨_, rfl⟩ fun h => hmany ⟨h.1, h.2.1⟩

theorem hasWindowsOrName_of_empty (h : ws.windowIds = []) : ws.hasWindowsOrName = ws.name.isSome := by
  have hempty : ws.hasWindows = false := by
    rw [← Bool.not_eq_true, Workspace.hasWindows_iff, not_not]
    exact h
  rw [Workspace.hasWindowsOrName, hempty, Bool.false_or]

/-- A window is not on one of the ends. -/
theorem Inv.between (h : m.Inv) (hws : m.workspaces[i]? = some ws) (hw : w ∈ ws.windowIds) :
    i + 1 < m.workspaces.length ∧ (m.emptyAboveFirst = true → 0 < i) := by
  have hlt := lt_length_of_getElem? hws
  constructor
  · by_contra hlast
    have hi : i = m.workspaces.length - 1 := by omega
    have hempty := (h.ends.last not_false ws (hi ▸ hws)).windowIds
    exact ne_nil_of_mem hw hempty
  · intro habove
    by_contra hfirst
    obtain rfl : i = 0 := by omega
    exact ne_nil_of_mem hw (h.ends.first habove not_false ws hws).windowIds

/-- With three workspaces, the window is on the one between the ends. -/
theorem Inv.middle (h : m.Inv) {first mid last : Workspace} (hlist : m.workspaces = [first, mid, last])
    (habove : m.emptyAboveFirst = true) (hws : m.workspaces[i]? = some ws) (hw : w ∈ ws.windowIds) :
    i = 1 ∧ mid = ws := by
  obtain ⟨hlast, hfirst⟩ := h.between hws hw
  have hlen : m.workspaces.length = 3 := by
    rw [hlist]
    rfl
  have hpos := hfirst habove
  obtain rfl : i = 1 := by omega
  rw [hlist] at hws
  exact ⟨rfl, some.inj hws⟩

theorem windowIds_eq_singleton_iff {ids : List ℕ} (h : ids.Perm (w :: ws'.windowIds)) :
    ids = [w] ↔ ws'.windowIds = [] := by
  constructor
  · rintro rfl
    exact (List.cons.inj (List.singleton_perm.mp h).symm).2
  · intro hnil
    rw [hnil] at h
    exact perm_singleton.mp h

theorem isUnused_setWorkspace_iff (hi : i < m.workspaces.length) :
    (m.setWorkspace i ws').isUnused i = true ↔
      m.activeWorkspaceIdx ≠ i ∧ ws'.name = none ∧ ws'.windowIds = [] := by
  have hget : (m.setWorkspace i ws').workspaces[i]? = some ws' := getElem?_set_self hi
  unfold isUnused
  rw [hget, any_some, Bool.and_eq_true, bne_iff_ne, Workspace.hasWindowsOrName, Bool.not_or,
    Bool.and_eq_true, Bool.not_eq_true', Bool.not_eq_true', ← Bool.not_eq_true, Workspace.hasWindows_iff,
    not_not, isSome_eq_false_iff, isNone_iff_eq_none, and_comm (a := ws'.windowIds = [])]
  exact Iff.rfl

theorem workspaces_withoutMiddle {first mid last : Workspace} (hlist : m.workspaces = [first, mid, last]) :
    ((m.setWorkspace 1 ws').removeInactiveAt 1).workspaces = [first, last] := by
  unfold removeInactiveAt setWorkspace
  dsimp only
  rw [hlist]
  rfl

theorem exists_cleanUpAfterRemoval_iff (h : m.Inv) (hws : m.workspaces[i]? = some ws)
    (hcut : Workspace.Cut [w] ws ws') :
    (∃ m', (m.setWorkspace i ws').cleanUpAfterRemoval i = some m') ↔ ¬ m.NamedEndsLeft w := by
  have hw : w ∈ ws.windowIds := hcut.windowIds.mem_iff.mpr mem_cons_self
  obtain ⟨hlast, hfirst⟩ := h.between hws hw
  have hlt := lt_length_of_getElem? hws
  have hlen : (m.setWorkspace i ws').workspaces.length = m.workspaces.length := length_set
  unfold cleanUpAfterRemoval
  split
  · rename_i hswitch
    refine iff_of_true ⟨_, rfl⟩ fun hleft => ?_
    have hnone : (m.setWorkspace i ws').workspaceSwitch = none := hleft.2.1
    rw [hnone] at hswitch
    cases hswitch
  rename_i hidle
  split
  · rename_i hunused
    obtain ⟨hactive, hname, hids⟩ := (isUnused_setWorkspace_iff hlt).mp hunused.1
    have hlen' : ((m.setWorkspace i ws').removeInactiveAt i).workspaces.length =
        m.workspaces.length - 1 := by
      rw [← hlen]
      exact length_eraseIdx_of_lt (hlen ▸ hlt)
    rw [exists_dropSecondEmpty_iff, not_iff_not, hlen']
    constructor
    · rintro ⟨habove, htwo, hused⟩
      have hthree : m.workspaces.length = 3 := by omega
      obtain ⟨first, mid, last, hlist⟩ := List.length_eq_three.mp hthree
      obtain ⟨rfl, rfl⟩ := h.middle hlist habove hws hw
      refine ⟨habove, not_isSome_iff_eq_none.mp hidle, hactive, first, mid, last, hlist,
        hcut.name.symm.trans hname, (windowIds_eq_singleton_iff hcut.windowIds).mpr hids, ?_⟩
      have hnofirst := (h.ends.first habove not_false first (by rw [hlist]; rfl)).windowIds
      have hnolast := (h.ends.last not_false last (by rw [hlist]; rfl)).windowIds
      rw [workspaces_withoutMiddle hlist] at hused
      simpa [hasWindowsOrName_of_empty hnofirst, hasWindowsOrName_of_empty hnolast] using hused
    · rintro ⟨habove, -, -, first, mid, last, hlist, -, -, hnamed⟩
      obtain ⟨rfl, rfl⟩ := h.middle hlist habove hws hw
      refine ⟨habove, by rw [hlist]; rfl, ?_⟩
      rw [workspaces_withoutMiddle hlist]
      rcases hnamed with hnamed | hnamed
      · simp [Workspace.hasWindowsOrName, hnamed]
      · simp [Workspace.hasWindowsOrName, hnamed]
  · rename_i hused
    refine iff_of_true (exists_dropSecondEmpty_iff.mpr ?_) ?_
    · rintro ⟨habove, htwo, -⟩
      have hpos := hfirst habove
      omega
    · rintro ⟨habove, -, hactive, first, mid, last, hlist, hname, hids, -⟩
      obtain ⟨rfl, rfl⟩ := h.middle hlist habove hws hw
      refine hused ⟨(isUnused_setWorkspace_iff hlt).mpr ⟨hactive, hcut.name.trans hname, ?_⟩, by omega⟩
      exact (windowIds_eq_singleton_iff hcut.windowIds).mp hids

theorem NamedEndsLeft.mem (h : m.NamedEndsLeft w) : w ∈ m.windowIds := by
  obtain ⟨-, -, -, first, ws, last, hlist, -, hids, -⟩ := h
  have hmid : m.workspaces[1]? = some ws := by
    rw [hlist]
    rfl
  refine mem_windowIds_of_workspace hmid ?_
  rw [hids]
  exact mem_singleton_self w

theorem exists_removeWindow_iff (h : m.Sound) (hw : w ∈ m.windowIds) :
    (∃ r m', m.removeWindow w = some (r, m')) ↔ ¬ m.NamedEndsLeft w := by
  obtain ⟨ids, hids, hmem⟩ := mem_flatten.mp hw
  obtain ⟨wt, hwt, rfl⟩ := List.mem_map.mp hids
  obtain ⟨i, ws, hi, hws, hin⟩ := exists_findIdx? (p := fun ws : Workspace => ws.hasWindow w)
    ⟨wt, hwt, Workspace.hasWindow_iff.mpr hmem⟩
  have hfocus := h.focused ws (mem_of_getElem? hws)
  obtain ⟨r, ws', hr⟩ := Workspace.exists_removeTile hfocus (Workspace.hasWindow_iff.mp hin)
  have hid := (Workspace.removeTile_cases hr).2
  have hcut : Workspace.Cut [w] ws ws' := hid ▸ cut_removeTile hfocus.ok hr
  rw [← exists_cleanUpAfterRemoval_iff h.inv hws hcut]
  unfold removeWindow
  rw [hi, some_bind, hws, some_bind, hr, some_bind]
  dsimp only
  constructor
  · rintro ⟨r', m', hm'⟩
    obtain ⟨mt, hmt, -⟩ := of_bind hm'
    exact ⟨mt, hmt⟩
  · rintro ⟨mt, hmt⟩
    rw [hmt]
    exact ⟨r, mt, rfl⟩

/-! The end of a drag. -/

theorem exists_endGesture (h : m.Core) {g : WorkspaceSwitchGesture}
    (hg : m.workspaceSwitch = some (.gesture g)) : ∃ m', m.endGesture g = some m' := by
  obtain ⟨active, hactive⟩ := isSome_iff_exists.mp (activeWorkspace_isSome h)
  have hcenter := h.gesture g hg
  have hbounds : ¬ (g.minMax m.workspaces.length).2 < (g.minMax m.workspaces.length).1 := by
    unfold WorkspaceSwitchGesture.minMax
    split
    · dsimp only
      rw [not_lt, Nat.cast_le]
      omega
    · exact not_lt.mpr (Nat.cast_nonneg _)
  unfold endGesture gestureEndIdx
  dsimp only
  rw [if_neg hbounds, some_bind, hactive]
  exact ⟨_, rfl⟩

theorem exists_dndScrollGestureEnd (h : m.Core) : ∃ m', m.dndScrollGestureEnd = some m' := by
  unfold dndScrollGestureEnd workspaceSwitchGestureEnd
  split
  · split
    · rename_i g hg
      split
      · exact exists_endGesture h hg
      · exact ⟨m, rfl⟩
    · exact ⟨m, rfl⟩
  · exact ⟨m, rfl⟩

/-- A gesture that ends goes on as an animation. -/
theorem dndScrollGestureEnd_cases (hm : m.dndScrollGestureEnd = some m') :
    m' = m ∨ m.workspaceSwitch ≠ none ∧ m'.workspaceSwitch ≠ none := by
  unfold dndScrollGestureEnd workspaceSwitchGestureEnd at hm
  split at hm
  · split at hm
    · rename_i g hg
      split at hm
      · obtain ⟨idx, -, hm⟩ := of_bind hm
        obtain ⟨active, -, rfl⟩ := of_bind_some hm
        exact .inr ⟨by rw [hg]; exact some_ne_none _, some_ne_none _⟩
      · exact .inl (some.inj hm).symm
    · exact .inl (some.inj hm).symm
  · exact .inl (some.inj hm).symm

theorem namedEndsLeft_dndScrollGestureEnd (hm : m.dndScrollGestureEnd = some m') :
    m'.NamedEndsLeft w ↔ m.NamedEndsLeft w := by
  obtain rfl | ⟨hbefore, hafter⟩ := dndScrollGestureEnd_cases hm
  · exact Iff.rfl
  · exact iff_of_false (fun h => hafter h.2.1) fun h => hbefore h.2.1

/-- What is seen of the workspaces of a monitor: their names and windows. -/
theorem NamedEndsLeft.congr (h : m.NamedEndsLeft w) (habove : m'.emptyAboveFirst = m.emptyAboveFirst)
    (hswitch : m'.workspaceSwitch = m.workspaceSwitch)
    (hactive : m'.activeWorkspaceIdx = m.activeWorkspaceIdx)
    (hws : Forall₂ (fun a b : Workspace => b.name = a.name ∧ b.windowIds.Perm a.windowIds)
      m.workspaces m'.workspaces) : m'.NamedEndsLeft w := by
  obtain ⟨hm, hidle, hmid, first, mid, last, hlist, hname, hids, hnamed⟩ := h
  rw [hlist] at hws
  obtain ⟨first', _, hfirst, htwo, hlist'⟩ := forall₂_cons_left_iff.mp hws
  obtain ⟨mid', _, hmiddle, hone, rfl⟩ := forall₂_cons_left_iff.mp htwo
  obtain ⟨last', _, hlast, hnil, rfl⟩ := forall₂_cons_left_iff.mp hone
  obtain rfl := forall₂_nil_left_iff.mp hnil
  refine ⟨habove.trans hm, hswitch.trans hidle, hactive ▸ hmid, first', mid', last', hlist',
    hmiddle.1.trans hname, perm_singleton.mp (hids ▸ hmiddle.2), ?_⟩
  rwa [hfirst.1, hlast.1]

theorem namedEndsLeft_forWorkspaces (h : m.Sound) {g : Workspace → Option Workspace}
    (hg : ∀ ws ws', ws.Focus → g ws = some ws' → Workspace.Keeps ws ws')
    (hm : m.forWorkspaces g = some m') : m'.NamedEndsLeft w ↔ m.NamedEndsLeft w := by
  obtain ⟨workspaces, hws, rfl⟩ := of_map hm
  have hall : Forall₂ Workspace.Keeps m.workspaces workspaces :=
    ((forall₂_and_left _ _).mpr ⟨h.focused, mapM_forall₂ hws⟩).imp fun ws ws' hws =>
      hg ws ws' hws.1 hws.2
  constructor
  · intro hleft
    exact hleft.congr rfl rfl rfl (hall.flip.imp fun _ _ hk => ⟨hk.name.symm, hk.windowIds.symm⟩)
  · intro hleft
    exact hleft.congr rfl rfl rfl (hall.imp fun _ _ hk => ⟨hk.name, hk.windowIds⟩)

end Monitor

variable {l l' lt : Layout} {m m' : Monitor} {f : Monitor → Option Monitor}
variable {g : Workspace → Option Workspace} {w idx : ℕ}

/-- Closing the window leaves just the two ends of a monitor, one of them with a name. -/
def NamedEndsLeft (l : Layout) (window : ℕ) : Prop := ∃ m ∈ l.monitors, m.NamedEndsLeft window

/-! Operations on all monitors and workspaces. -/

theorem exists_threadMonitors {ms : List Monitor} (hf : ∀ m ∈ ms, ∀ k, ∃ m', f { m with nextId := k } = some m')
    (n : ℕ) : ∃ p, threadMonitors f n ms = some p := by
  induction ms generalizing n with
  | nil => exact ⟨_, rfl⟩
  | cons m ms ih =>
    obtain ⟨m', hm'⟩ := hf m mem_cons_self n
    obtain ⟨p, hp⟩ := ih (fun m' hm' => hf m' (mem_cons_of_mem m hm')) m'.nextId
    unfold threadMonitors
    rw [hm', some_bind, hp]
    exact ⟨_, rfl⟩

theorem exists_forMonitors (h : l.Intact) (hf : ∀ m, m.Sound → ∃ m', f m = some m') :
    ∃ l', l.forMonitors f = some l' := by
  unfold forMonitors
  cases hset : l.monitorSet with
  | normal ms primaryIdx activeMonitorIdx =>
    obtain ⟨p, hp⟩ := exists_threadMonitors
      (fun m hm k => hf _ (((h.normal hset).1 m hm).withNextId k)) l.nextId
    dsimp only
    rw [hp]
    exact ⟨_, rfl⟩
  | noOutputs workspaces => exact ⟨l, rfl⟩

theorem exists_forWorkspaces (h : l.Intact) (hg : ∀ ws, ws.Focus → ∃ ws', g ws = some ws') :
    ∃ l', l.forWorkspaces g = some l' := by
  unfold forWorkspaces
  cases hset : l.monitorSet with
  | normal ms primaryIdx activeMonitorIdx =>
    refine exists_forMonitors h fun m hm => ?_
    obtain ⟨workspaces, hws⟩ := exists_mapM fun ws hws => hg ws (hm.focused ws hws)
    exact ⟨_, congrArg (Option.map _) hws⟩
  | noOutputs workspaces =>
    obtain ⟨workspaces', hws⟩ := exists_mapM fun ws hws => hg ws (h.noOutputs hset ws hws)
    exact ⟨_, congrArg (Option.map _) hws⟩

theorem exists_mem_forall₂ {p : Monitor → Prop} {ms ms' : List Monitor}
    (h : Forall₂ (fun m m' => p m' ↔ p m) ms ms') : (∃ m ∈ ms', p m) ↔ ∃ m ∈ ms, p m := by
  induction h with
  | nil => exact Iff.rfl
  | cons hm _ ih => rw [List.exists_mem_cons_iff, List.exists_mem_cons_iff, hm, ih]

theorem namedEndsLeft_forMonitors (h : l.Intact)
    (hf : ∀ m m', m.Sound → f m = some m' → (m'.NamedEndsLeft w ↔ m.NamedEndsLeft w))
    (hl : l.forMonitors f = some l') : l'.NamedEndsLeft w ↔ l.NamedEndsLeft w := by
  unfold forMonitors at hl
  unfold NamedEndsLeft monitors
  cases hset : l.monitorSet with
  | normal ms primaryIdx activeMonitorIdx =>
    rw [hset] at hl
    obtain ⟨⟨n, ms'⟩, hms, hl⟩ := of_bind hl
    obtain rfl := some.inj hl
    refine exists_mem_forall₂ ?_
    refine ((forall₂_and_left _ _).mpr ⟨(h.normal hset).1, threadMonitors_forall₂ hms⟩).imp ?_
    rintro m m' ⟨hm, k, hm'⟩
    have hkept := hf _ m' (hm.withNextId k) hm'
    exact hkept
  | noOutputs workspaces =>
    rw [hset] at hl
    obtain rfl := some.inj hl
    rw [hset]

theorem namedEndsLeft_forWorkspaces (h : l.Intact)
    (hg : ∀ ws ws', ws.Focus → g ws = some ws' → Workspace.Keeps ws ws')
    (hl : l.forWorkspaces g = some l') : l'.NamedEndsLeft w ↔ l.NamedEndsLeft w := by
  unfold forWorkspaces at hl
  cases hset : l.monitorSet with
  | normal ms primaryIdx activeMonitorIdx =>
    rw [hset] at hl
    exact namedEndsLeft_forMonitors h (fun m m' hm => Monitor.namedEndsLeft_forWorkspaces hm hg) hl
  | noOutputs workspaces =>
    rw [hset] at hl
    obtain ⟨workspaces', -, rfl⟩ := of_map hl
    unfold NamedEndsLeft monitors
    rw [hset]

theorem exists_unlockView {ws : Workspace} (h : ws.Focus) (window : ℕ) :
    ∃ ws', unlockView ws window = some ws' := by
  have hend := (keeps_dndScrollGestureEnd _ _ h rfl).focus
  unfold unlockView
  dsimp only
  split
  · obtain ⟨b, ws', hws'⟩ := Workspace.exists_activateWindow hend window
    exact ⟨ws', by rw [hws']; rfl⟩
  · exact ⟨_, rfl⟩

/-- Cancelling a move leaves the names and windows of the workspaces as they are. -/
theorem exists_cancelMove (h : l.Intact) (hmoving : l.movingIds = []) (window : ℕ) :
    ∃ l', l.cancelMove window = some l' ∧ (l'.NamedEndsLeft w ↔ l.NamedEndsLeft w) := by
  have hnone : Keeps l { l with interactiveMove := none } := .of_eq h.parts rfl hmoving.symm
  have hsound := hnone.sound_of_removed h
  obtain ⟨lt, hlt⟩ := exists_forMonitors hsound fun m hm => Monitor.exists_dndScrollGestureEnd hm.inv.toCore
  have hsound' := (hsound.forMonitors (fun _ _ => Monitor.keeps_dndScrollGestureEnd) hlt).sound_of_removed
    hsound
  obtain ⟨l', hl'⟩ := exists_forWorkspaces (g := (unlockView · window)) hsound' fun ws hws =>
    exists_unlockView hws window
  refine ⟨l', by unfold cancelMove; rw [hlt]; exact hl', ?_⟩
  have hmonitors := namedEndsLeft_forMonitors (w := w) hsound
    (fun _ _ _ => Monitor.namedEndsLeft_dndScrollGestureEnd) hlt
  exact (namedEndsLeft_forWorkspaces hsound' (fun _ _ hws => keeps_unlockView hws) hl').trans hmonitors

theorem exists_endDndScroll (h : l.Intact) : ∃ l', l.endDndScroll = some l' := by
  obtain ⟨lt, hlt⟩ := exists_forMonitors h fun m hm => Monitor.exists_dndScrollGestureEnd hm.inv.toCore
  have hsound := (h.forMonitors (fun _ _ => Monitor.keeps_dndScrollGestureEnd) hlt).sound_of_removed h
  unfold endDndScroll
  rw [hlt]
  exact exists_forWorkspaces hsound fun ws _ => ⟨_, rfl⟩

/-! Closing. -/

theorem NamedEndsLeft.mem (h : l.NamedEndsLeft w) : w ∈ l.workspaces.flatMap (·.windowIds) := by
  obtain ⟨m, hm, hleft⟩ := h
  unfold monitors at hm
  cases hset : l.monitorSet with
  | normal ms primaryIdx activeMonitorIdx =>
    rw [hset] at hm
    exact (mem_workspaces_iff hset).mpr ⟨m, hm, Monitor.hasWindow_iff.mpr hleft.mem⟩
  | noOutputs workspaces =>
    rw [hset] at hm
    exact absurd hm not_mem_nil

theorem exists_removeFromWorkspaces_iff (h : l.Intact) (w : ℕ) :
    (∃ r l', l.removeFromWorkspaces w = some (r, l')) ↔ ¬ l.NamedEndsLeft w := by
  unfold removeFromWorkspaces
  cases hset : l.monitorSet with
  | normal ms primaryIdx activeMonitorIdx =>
    dsimp only
    cases hidx : ms.findIdx? (·.hasWindow w) with
    | none =>
      refine iff_of_true ⟨_, _, rfl⟩ fun hleft => ?_
      obtain ⟨m, hm, hw⟩ := (mem_workspaces_iff hset).mp hleft.mem
      exact absurd hw (by simpa using findIdx?_eq_none_iff.mp hidx m hm)
    | some idx =>
      obtain ⟨m, hm, hw⟩ := exists_of_findIdx? hidx
      have hms : l.monitors = ms := by rw [monitors, hset]
      have hat : l.monitorAt idx = some { m with nextId := l.nextId } := by
        rw [monitorAt, hms, hm]
        rfl
      have hleft : l.NamedEndsLeft w ↔ m.NamedEndsLeft w := by
        constructor
        · rintro ⟨m', hm', hleft⟩
          obtain ⟨j, hj⟩ := mem_iff_getElem?.mp hm'
          obtain rfl : idx = j := monitor_unique h (hms ▸ hm) hj (Monitor.hasWindow_iff.mp hw) hleft.mem
          rw [hms, hm] at hj
          exact some.inj hj ▸ hleft
        · exact fun hleft => ⟨m, hms ▸ mem_of_getElem? hm, hleft⟩
      have hremove := Monitor.exists_removeWindow_iff (h.monitorAt hat) (Monitor.hasWindow_iff.mp hw)
      rw [hleft]
      dsimp only
      rw [hat, some_bind]
      refine Iff.trans ?_ hremove
      constructor
      · rintro ⟨r, l', hl'⟩
        obtain ⟨⟨r', m'⟩, hm', -⟩ := of_bind hl'
        exact ⟨r', m', hm'⟩
      · rintro ⟨r, m', hm'⟩
        rw [hm']
        exact ⟨_, _, rfl⟩
  | noOutputs workspaces =>
    have hno : ¬ l.NamedEndsLeft w := by
      rintro ⟨m, hm, -⟩
      rw [monitors, hset] at hm
      exact not_mem_nil hm
    refine iff_of_true ?_ hno
    dsimp only
    cases hidx : workspaces.findIdx? (·.hasWindow w) with
    | none => exact ⟨_, _, rfl⟩
    | some idx =>
      obtain ⟨ws, hws, hw⟩ := exists_of_findIdx? hidx
      obtain ⟨r, ws', hr⟩ := Workspace.exists_removeTile
        (h.noOutputs hset ws (mem_of_getElem? hws)) (Workspace.hasWindow_iff.mp hw)
      dsimp only
      rw [hws, some_bind, hr]
      exact ⟨_, _, rfl⟩

/-- Closing a window returns, except where the ends would be left with a name. -/
theorem exists_removeWindow_iff (h : l.Intact) (w : ℕ) :
    (∃ r l', l.removeWindow w = some (r, l')) ↔ ¬ l.NamedEndsLeft w := by
  unfold removeWindow
  cases hmove : l.interactiveMove with
  | none => exact exists_removeFromWorkspaces_iff h w
  | some move =>
    cases move with
    | starting windowId delta =>
      dsimp only
      split
      · have hidle := movingIds_of_starting hmove
        obtain ⟨lt, hlt, hleft⟩ := exists_cancelMove (w := w) h hidle w
        rw [hlt, bind_some, exists_removeFromWorkspaces_iff
          ((keeps_cancelMove h hidle hlt).sound_of_removed h), hleft]
      · exact exists_removeFromWorkspaces_iff h w
    | moving d =>
      dsimp only
      split
      · rename_i hid
        refine iff_of_true ?_ fun hleft => ?_
        · obtain ⟨lt, hlt⟩ := exists_endDndScroll (l := { l with interactiveMove := none }) (by
            exact (changes_dropMoving h hmove).sound_of_removed h)
          rw [hlt]
          exact ⟨_, _, rfl⟩
        · have hnodup : (l.movingIds ++ l.workspaces.flatMap (·.windowIds)).Nodup := h.windows
          have hmem : w ∈ l.movingIds := by
            rw [movingIds_of_moving hmove, hid]
            exact mem_singleton_self w
          exact (nodup_append'.mp hnodup).2.2 hmem hleft.mem
      · exact exists_removeFromWorkspaces_iff h w

/-! Opening. -/

/-- What a window is opened on or next to is there. -/
def HasTarget (l : Layout) : AddWindowTarget → Prop
  | .auto => True
  | .output output => ∃ m ∈ l.monitors, m.output.same output = true
  | .workspace id => ∃ ws ∈ l.workspaces, ws.id = id
  | .nextTo window => window ∈ l.windowIds

variable {target : AddWindowTarget} {ms : List Monitor} {primaryIdx activeMonitorIdx : ℕ}

theorem mem_movingIds_iff : w ∈ l.movingIds ↔ ∃ d, l.moving = some d ∧ d.tile.id = w := by
  unfold movingIds movingTile
  cases l.moving with
  | none => simp
  | some d => simp [eq_comm]

/-- Where a window opens on a monitor. -/
def Opens (l : Layout) (target : AddWindowTarget) (idx : ℕ) (m : Monitor) (t : MonitorAddWindowTarget)
    : Prop :=
  l.resolveTarget target = some (idx, t) ∧ l.monitorAt idx = some m ∧
    ∃ i wsTarget ws, m.resolveAddWindowTarget t = some (i, wsTarget) ∧ m.workspaces[i]? = some ws ∧
      ws.HasTarget wsTarget

theorem opens_auto (target : AddWindowTarget) (h : l.Intact) (hm : l.monitors[idx]? = some m)
    (htarget : l.resolveTarget target = some (idx, .auto)) : ∃ m, l.Opens target idx m .auto := by
  have hat : l.monitorAt idx = some { m with nextId := l.nextId } := by
    rw [monitorAt, hm]
    rfl
  have hactive := getElem?_eq_getElem (h.monitorAt hat).inv.active
  exact ⟨_, htarget, hat, _, .auto, _, rfl, hactive, trivial⟩

theorem exists_opens (h : l.Intact) (hset : l.monitorSet = .normal ms primaryIdx activeMonitorIdx)
    (htarget : l.HasTarget target) : ∃ idx m t, l.Opens target idx m t := by
  have hms : l.monitors = ms := by rw [monitors, hset]
  have hactive : ∃ m, l.monitors[activeMonitorIdx]? = some m := by
    rw [hms]
    exact ⟨_, getElem?_eq_getElem (h.normal hset).2⟩
  have hactiveIdx : l.activeMonitorIdx = some activeMonitorIdx := by rw [Layout.activeMonitorIdx, hset]
  have hat {idx : ℕ} {m : Monitor} (hm : l.monitors[idx]? = some m) :
      l.monitorAt idx = some { m with nextId := l.nextId } := by
    rw [monitorAt, hm]
    rfl
  cases target with
  | auto =>
    obtain ⟨m, hm⟩ := hactive
    obtain ⟨m', hopens⟩ := opens_auto .auto h hm (by rw [resolveTarget, hactiveIdx]; rfl)
    exact ⟨_, m', _, hopens⟩
  | output output =>
    obtain ⟨idx, m, hidx, hm, -⟩ := exists_findIdx? htarget
    have hfind : l.monitorIdxForOutput output = some idx := hidx
    obtain ⟨m', hopens⟩ := opens_auto (.output output) h hm (by rw [resolveTarget, hfind]; rfl)
    exact ⟨_, m', _, hopens⟩
  | workspace id =>
    obtain ⟨ws, hws, hid⟩ := htarget
    rw [workspaces, hset] at hws
    obtain ⟨mon, hmon, hmem⟩ := mem_flatMap.mp hws
    obtain ⟨idx, m, hidx, hm, hany⟩ := exists_findIdx? (l := l.monitors)
      (p := fun m => m.workspaces.any (·.id == id))
      ⟨mon, hms ▸ hmon, List.any_eq_true.mpr ⟨ws, hmem, beq_iff_eq.mpr hid⟩⟩
    obtain ⟨i, found, hi, hfound, -⟩ := exists_findIdx? (List.any_eq_true.mp hany)
    refine ⟨idx, _, .workspace id none, ?_, hat hm, i, .auto, found, ?_, hfound, trivial⟩
    · rw [resolveTarget, hidx]
      rfl
    · unfold Monitor.resolveAddWindowTarget
      dsimp only
      rw [hi]
      rfl
  | nextTo window =>
    cases hmoving : l.moving.filter (·.tile.id == window) with
    | some d =>
      obtain ⟨idx, m, hidx, hm⟩ : ∃ idx m,
          (l.monitorIdxForOutput d.output).or l.activeMonitorIdx = some idx ∧ l.monitors[idx]? = some m := by
        cases hfind : l.monitorIdxForOutput d.output with
        | none =>
          obtain ⟨m, hm⟩ := hactive
          exact ⟨_, m, hactiveIdx, hm⟩
        | some idx =>
          obtain ⟨m, hm, -⟩ := exists_of_findIdx? hfind
          exact ⟨idx, m, rfl, hm⟩
      obtain ⟨m', hopens⟩ := opens_auto (.nextTo window) h hm
        (by rw [resolveTarget, hmoving]; dsimp only; rw [hidx]; rfl)
      exact ⟨_, m', _, hopens⟩
    | none =>
      obtain hmem | hmem := mem_append.mp htarget
      · obtain ⟨d, hd, hid⟩ := mem_movingIds_iff.mp hmem
        simp [hd, hid] at hmoving
      obtain ⟨mon, hmon, hw⟩ := (mem_workspaces_iff hset).mp hmem
      obtain ⟨idx, m, hidx, hm, hin⟩ := exists_findIdx? (l := l.monitors)
        (p := fun m => m.hasWindow window) ⟨mon, hms ▸ hmon, hw⟩
      obtain ⟨i, ws, hi, hws, hhas⟩ := exists_findIdx? (List.any_eq_true.mp hin)
      refine ⟨idx, _, .nextTo window, ?_, hat hm, i, .nextTo window, ws, ?_, hws,
        Workspace.hasWindow_iff.mp hhas⟩
      · rw [resolveTarget, hmoving]
        dsimp only
        rw [hidx]
        rfl
      · unfold Monitor.resolveAddWindowTarget
        dsimp only
        rw [hi]
        rfl

/-- Without outputs: there is a workspace to open the window on. -/
theorem exists_opensNoOutputs {workspaces : List Workspace}
    (hset : l.monitorSet = .noOutputs workspaces) (htarget : l.HasTarget target) :
    ∃ lt idx wsTarget workspaces' ws, l.resolveTargetNoOutputs target = some (lt, idx, wsTarget) ∧
      lt.monitorSet = .noOutputs workspaces' ∧ workspaces'[idx]? = some ws ∧ ws.HasTarget wsTarget := by
  have hws : l.workspaces = workspaces := by rw [Layout.workspaces, hset]
  have hfirst : ∃ workspaces' ws, l.ensureWorkspace.monitorSet = .noOutputs workspaces' ∧
      workspaces'[0]? = some ws := by
    unfold ensureWorkspace
    rw [hset]
    cases workspaces with
    | nil => exact ⟨_, _, rfl, rfl⟩
    | cons ws workspaces => exact ⟨_, ws, hset, rfl⟩
  obtain ⟨workspaces', first, hset', hfirst⟩ := hfirst
  cases target with
  | auto => exact ⟨_, 0, .auto, workspaces', first, rfl, hset', hfirst, trivial⟩
  | output output =>
    obtain ⟨m, hm, -⟩ := htarget
    rw [monitors, hset] at hm
    exact absurd hm not_mem_nil
  | workspace id =>
    obtain ⟨ws, hmem, hid⟩ := htarget
    obtain ⟨i, found, hi, hfound, -⟩ := exists_findIdx? (p := fun ws : Workspace => ws.id == id)
      ⟨ws, hmem, beq_iff_eq.mpr hid⟩
    refine ⟨l, i, .auto, workspaces, found, ?_, hset, hws ▸ hfound, trivial⟩
    rw [resolveTargetNoOutputs, hi]
    rfl
  | nextTo window =>
    unfold resolveTargetNoOutputs
    dsimp only
    split
    · exact ⟨_, 0, .auto, workspaces', first, rfl, hset', hfirst, trivial⟩
    · rename_i hmoving
      have hmem : window ∈ l.workspaces.flatMap (·.windowIds) := by
        refine (mem_append.mp htarget).resolve_left fun hmem => hmoving ?_
        obtain ⟨d, hd, hid⟩ := mem_movingIds_iff.mp hmem
        unfold isMoving movingTile
        rw [hd]
        exact beq_iff_eq.mpr hid
      obtain ⟨ws, hmem, hw⟩ := mem_flatMap.mp hmem
      obtain ⟨i, found, hi, hfound, hin⟩ := exists_findIdx? (p := fun ws : Workspace => ws.hasWindow window)
        ⟨ws, hmem, Workspace.hasWindow_iff.mpr hw⟩
      refine ⟨l, i, .nextTo window, workspaces, found, ?_, hset, hws ▸ hfound,
        Workspace.hasWindow_iff.mp hin⟩
      rw [hi]
      rfl

theorem exists_addWindow (h : l.Intact) {window : Window} (hfresh : window.id ∉ l.windowIds)
    (htarget : l.HasTarget target) (opening : WindowOpening) :
    ∃ l', l.addWindow window target opening = some l' := by
  unfold addWindow
  cases hset : l.monitorSet with
  | normal ms primaryIdx activeMonitorIdx =>
    obtain ⟨idx, m, t, hresolve, hat, i, wsTarget, ws, hres, hws, hhas⟩ := exists_opens h hset htarget
    have hnew : window.id ∉ m.windowIds := fun hmem => hfresh (mem_windowIds_of_monitorAt hat hmem)
    obtain ⟨m', hm'⟩ := Monitor.exists_openWindow (h.monitorAt hat) hnew hres hws hhas opening
    dsimp only
    rw [hresolve, some_bind]
    dsimp only
    rw [onMonitor_eq hat hm']
    exact ⟨_, rfl⟩
  | noOutputs workspaces =>
    obtain ⟨lt, idx, wsTarget, workspaces', ws, hresolve, hset', hws, hhas⟩ :=
      exists_opensNoOutputs hset htarget
    have hkeeps := keeps_resolveTargetNoOutputs h hresolve
    have hfocus := (hkeeps.sound_of_removed h).noOutputs hset' ws (mem_of_getElem? hws)
    obtain ⟨wt, hwt⟩ := Workspace.exists_addTile hfocus hhas (ws.makeTile window) opening.activate
      (ws.resolveScrollingWidth window opening.width) opening.isFullWidth opening.isFloating
      opening.renderPos
    have hnew : (ws.makeTile window).id ∉ ws.windowIds := fun hmem => by
      refine hfresh (hkeeps.perm.mem_iff.mp (mem_append_right _ ?_))
      rw [Layout.workspaces, hset']
      exact mem_flatMap.mpr ⟨ws, mem_of_getElem? hws, hmem⟩
    have hedit := Workspace.edit_addTile hfocus.ok hnew hwt
    obtain ⟨ws', hws'⟩ := Workspace.exists_setOpeningHeight (hfocus.addTile hnew hwt)
      (hedit.windowIds.mem_iff.mpr mem_cons_self) opening
    have hws' : wt.setOpeningHeight window.id opening = some ws' := hws'
    dsimp only
    rw [hresolve, some_bind]
    unfold onWorkspaceNoOutputs
    dsimp only
    rw [hset']
    dsimp only
    rw [hws, some_bind, hwt, some_bind, hws']
    exact ⟨_, rfl⟩

/-! Runs. -/

/-- In every state that is reached, no window is there twice, an operation moves the windows around,
and only opening and closing a window changes which ones there are. Opening one returns, and closing
one does, unless the ends would be left with a name. -/
theorem windows_conserved {clock : ℚ} {config : Config} {ops : List LayoutOp}
    (hfair : AllAlong apply (fun l op => op.Fair l) (new clock config) ops)
    (hl : run apply (new clock config) ops = some l) :
    l.windowIds.Nodup ∧
    (∀ op l', op.Fair l →
      (∀ window target opening, op ≠ .layoutWindow (.addWindow window target opening)) →
      (∀ window, op ≠ .layoutWindow (.removeWindow window)) →
      l.apply op = some l' → l'.windowIds.Perm l.windowIds) ∧
    (∀ window target opening, window.id ∉ l.windowIds →
      (l.HasTarget target → ∃ l', l.addWindow window target opening = some l') ∧
      ∀ l', l.addWindow window target opening = some l' →
        l'.windowIds.Perm (window.id :: l.windowIds)) ∧
    (∀ window, ((∃ r l', l.removeWindow window = some (r, l')) ↔ ¬ l.NamedEndsLeft window) ∧
      ∀ r l', l.removeWindow window = some (r, l') →
        r.map (·.tile.id) = (if window ∈ l.windowIds then some window else none) ∧
        l'.windowIds.Perm (l.windowIds.erase window)) := by
  have hsound := sound_run hfair hl
  refine ⟨hsound.windows, fun op l' hop hadd hremove hl' => ?_,
    fun window target opening hfresh => ⟨fun htarget => exists_addWindow hsound hfresh htarget opening,
      fun l' hl' => ?_⟩, fun window => ⟨exists_removeWindow_iff hsound window, fun r l' hl' => ?_⟩⟩
  · have hchanges := changes_apply hsound hop hl'
    rw [LayoutOp.added_eq_nil hadd, LayoutOp.removed_eq_nil hremove] at hchanges
    exact Keeps.perm hchanges
  · have hchanges := changes_addWindow hsound hfresh hl'
    refine perm_iff_count.mpr fun w => ?_
    have hcount := hchanges.windowIds w
    rwa [count_nil, Nat.add_zero, Nat.add_comm, ← count_append] at hcount
  · have htile := tile_removeWindow hsound hl'
    have hchanges := changes_removeWindow hsound hl'
    rw [htile] at hchanges
    refine ⟨htile, perm_iff_count.mpr fun w => ?_⟩
    have hcount := hchanges.windowIds w
    rw [count_nil, Nat.add_zero] at hcount
    rw [count_erase]
    split at hcount
    · simp only [toList_some, count_singleton] at hcount
      omega
    · rename_i habsent
      have hnone : (window == w) = true → l.windowIds.count w = 0 := fun heq =>
        count_eq_zero.mpr (beq_iff_eq.mp heq ▸ habsent)
      rw [toList_none, count_nil, Nat.add_zero] at hcount
      split
      · rename_i heq
        have hzero := hnone heq
        omega
      · omega

theorem windows_conserved_spread : ∃ l r l' l'', run apply (new 0 ⟨[], .default⟩) spread = some l ∧
    l.windowIds = [2, 1] ∧ l.removeWindow 1 = some (r, l') ∧ r.map (·.tile.id) = some 1 ∧
    l'.windowIds.Perm [2] ∧ l.addWindow (ScrollingSpace.testWindow 3) (.nextTo 1)
      ⟨none, none, false, false, .smart, ⟨0, 0⟩⟩ = some l'' ∧ l''.windowIds.Perm [3, 2, 1] := by
  have hrun : (run apply (new 0 ⟨[], .default⟩) spread).any (fun l => l.windowIds == [2, 1] &&
      l.monitors.all (!·.emptyAboveFirst)) = true := by decide +kernel
  obtain ⟨l, hl, hall⟩ := (Option.any_eq_true _ _).mp hrun
  obtain ⟨hids, hplain⟩ := Bool.and_eq_true_iff.mp hall
  have hids := beq_iff_eq.mp hids
  obtain ⟨-, -, hadd, hremove⟩ := windows_conserved
    (allAlong_of_decide (by decide +kernel)) hl
  have hleft : ¬ l.NamedEndsLeft 1 := by
    rintro ⟨m, hm, habove, -⟩
    have hnot := List.all_eq_true.mp hplain m hm
    rw [habove] at hnot
    cases hnot
  obtain ⟨r, l', hl'⟩ := (hremove 1).1.mpr hleft
  have hremoved := (hremove 1).2 r l' hl'
  rw [hids, if_pos (by decide)] at hremoved
  obtain ⟨hopens, hopened⟩ := hadd (ScrollingSpace.testWindow 3) (.nextTo 1)
    ⟨none, none, false, false, .smart, ⟨0, 0⟩⟩ (by rw [hids]; decide)
  have hthere : 1 ∈ l.windowIds := by
    rw [hids]
    decide
  obtain ⟨l'', hl''⟩ := hopens hthere
  have hperm := hopened l'' hl''
  rw [hids] at hperm
  exact ⟨l, r, l', l'', hl, hids, hl', hremoved.1, hremoved.2, hl'', hperm⟩

def otherTestOutput : Output :=
  { Monitor.testOutput with handle := 1, name := ⟨"DP-2", none, none, none⟩ }

def doneAnimation : AnimationState where
  monitors _ := ⟨0, true, none, fun _ => ⟨0, true, fun _ => 0, fun _ => true⟩⟩
  workspaces _ := ⟨0, true, fun _ => 0, fun _ => true⟩
  overviewValue := 0
  overviewDone := true

/-- A window is opened on the second output, the empty workspace above it is shown, and from the
first output the one below gets a name. -/
def namedElsewhere : List LayoutOp :=
  [.output (.addOutput Monitor.testOutput none), .output (.addOutput otherTestOutput none),
    .output (.focusOutput otherTestOutput), opensWindow 1 .auto false,
    .activeMonitor .switchWorkspaceUp, .progress (.setClock 1000 doneAnimation),
    .progress (.advanceAnimations doneAnimation ⟨0, none, none⟩),
    .output (.focusOutput Monitor.testOutput), .naming (.setWorkspaceName "foo" (some (.id 3)))]

/-- Only the active monitor gets its empty workspace back, and on the other one the window does not
close. -/
theorem window_stays : ∃ l,
    run apply (new 0 ⟨[], { Options.default with emptyWorkspaceAboveFirst := true }⟩) namedElsewhere =
      some l ∧
    AllAlong apply (fun l op => op.Fair l)
      (new 0 ⟨[], { Options.default with emptyWorkspaceAboveFirst := true }⟩) namedElsewhere ∧
    1 ∈ l.windowIds ∧ l.removeWindow 1 = none := by
  have hrun : (run apply (new 0 ⟨[], { Options.default with emptyWorkspaceAboveFirst := true }⟩)
      namedElsewhere).any (fun l => l.windowIds.contains 1 && (l.removeWindow 1).isNone) = true := by
    decide +kernel
  obtain ⟨l, hl, hall⟩ := (Option.any_eq_true _ _).mp hrun
  obtain ⟨hthere, hstuck⟩ := Bool.and_eq_true_iff.mp hall
  exact ⟨l, hl, allAlong_of_decide (by decide +kernel), by simpa using hthere, isNone_iff_eq_none.mp hstuck⟩

end Macniri.Layout
