import Macniri.Layout.ActiveWorkspace
import Macniri.Layout.Ops
import Macniri.Layout.WorkspaceActive

/-! The active window of a monitor while windows are opened, closed and activated. -/
namespace Macniri.Layout.Monitor

open Option List

variable {m m' mt : Monitor} {ws ws' : Workspace} {i w : ℕ} {tile : Tile}

/-- The active window of the active workspace. -/
def activeWindowId (m : Monitor) : Option ℕ := m.activeWorkspace.bind (·.activeId)

theorem activeWindow_id (m : Monitor) : m.activeWindow.map Window.id = m.activeWindowId := by
  unfold activeWindow activeWindowId
  cases m.activeWorkspace <;> rfl

theorem activeWindowId_setWorkspace (hws : m.workspaces[i]? = some ws)
    (hsame : i = m.activeWorkspaceIdx → ws'.activeId = ws.activeId) :
    (m.setWorkspace i ws').activeWindowId = m.activeWindowId := by
  unfold activeWindowId activeWorkspace setWorkspace
  dsimp only
  by_cases hi : i = m.activeWorkspaceIdx
  · rw [← hi, getElem?_set_self (lt_length_of_getElem? hws), hws]
    exact hsame hi
  · rw [getElem?_set_ne hi]

theorem activeWindowId_removeInactiveAt (hi : i ≠ m.activeWorkspaceIdx) :
    (m.removeInactiveAt i).activeWindowId = m.activeWindowId := by
  unfold activeWindowId activeWorkspace removeInactiveAt
  dsimp only
  split
  · rw [getElem?_eraseIdx_of_ge (by omega), Nat.sub_add_cancel (by omega)]
  · rw [getElem?_eraseIdx_of_lt (by omega)]

/-- Neither of the two workspaces has a window. -/
theorem activeWindowId_dropSecondEmpty (h : m.Focused) (hm : m.dropSecondEmpty = some m') :
    m'.activeWindowId = m.activeWindowId := by
  unfold dropSecondEmpty at hm
  split at hm
  · split at hm
    · cases hm
    · rename_i hunused
      obtain rfl := some.inj hm
      have hnone : ∀ idx : ℕ, Option.bind m.workspaces[idx]? Workspace.activeId = none := by
        intro idx
        cases hws : m.workspaces[idx]? with
        | none => rfl
        | some ws =>
          have hmem := mem_of_getElem? hws
          refine (h ws hmem).activeId_eq_none_iff.mpr ?_
          by_contra hne
          refine hunused (List.any_eq_true.mpr ⟨ws, hmem, ?_⟩)
          simp [Workspace.hasWindowsOrName, Workspace.hasWindows_iff.mpr hne]
      have hfirst : (m.workspaces.eraseIdx 1)[0]? = m.workspaces[0]? :=
        getElem?_eraseIdx_of_lt Nat.zero_lt_one
      unfold activeWindowId activeWorkspace
      dsimp only
      rw [hfirst, hnone, hnone]
  · exact some.inj hm ▸ rfl

theorem activeWindowId_cleanUpAfterRemoval (h : m.Focused) (hm : m.cleanUpAfterRemoval i = some m') :
    m'.activeWindowId = m.activeWindowId := by
  unfold cleanUpAfterRemoval at hm
  split at hm
  · exact some.inj hm ▸ rfl
  · split at hm
    · rename_i hunused
      have hne : i ≠ m.activeWorkspaceIdx := by
        have hne := (Bool.and_eq_true_iff.mp hunused.1).1
        exact fun heq => by simp [heq] at hne
      exact (activeWindowId_dropSecondEmpty (h.removeInactiveAt i) hm).trans
        (activeWindowId_removeInactiveAt hne)
    · exact activeWindowId_dropSecondEmpty h hm

/-- Closing another window leaves the active one alone, also when its workspace goes with it. -/
theorem activeWindowId_removeWindow (h : m.Focused) (hw : m.activeWindowId ≠ some w) {r : RemovedTile}
    (hm : m.removeWindow w = some (r, m')) : m'.activeWindowId = m.activeWindowId := by
  obtain ⟨idx, -, hm⟩ := of_bind hm
  obtain ⟨ws, hws, hm⟩ := of_bind hm
  obtain ⟨⟨removed, ws'⟩, hr, hm⟩ := of_bind hm
  obtain ⟨mt, hmt, hm⟩ := of_bind hm
  obtain ⟨-, rfl⟩ := pair_inj hm
  have hfocus := h ws (mem_of_getElem? hws)
  rw [activeWindowId_cleanUpAfterRemoval (h.setWorkspace (hfocus.removeTile hr) idx) hmt]
  refine activeWindowId_setWorkspace hws fun hidx => hfocus.activeId_removeTile ?_ hr
  unfold activeWindowId activeWorkspace at hw
  rwa [← hidx, hws] at hw

theorem activeId_adopted (output : Output) (ws : Workspace) : (adopted output ws).activeId = ws.activeId := by
  unfold adopted
  split <;> rfl

/-- Opening a window without activating it leaves the active one alone, if there is one. -/
theorem activeWindowId_addTile_no (h : m.Focused) (hsome : m.activeWindowId ≠ none)
    (hfresh : tile.id ∉ m.windowIds) {target : MonitorAddWindowTarget}
    {allow isFullWidth isFloating : Bool} {width : ColumnWidth} {renderPos : Point}
    (hm : m.addTile tile target .no allow width isFullWidth isFloating renderPos = some m') :
    m'.activeWindowId = m.activeWindowId := by
  obtain ⟨⟨idx, target'⟩, -, hm⟩ := of_bind hm
  obtain ⟨mt, hmt, hm⟩ := of_bind hm
  obtain ⟨ws, ws', hws, hadd, hmt⟩ := onWorkspace_spec hmt
  have hstays : (allow && ActivateWindow.no.mapSmart false) = false := Bool.and_false allow
  rw [hstays] at hm
  have hactive := (filled_active hws hmt hm).2
  rw [Bool.false_or] at hactive
  unfold activeWindowId at hsome ⊢
  rw [hactive]
  split
  · rename_i hidx
    have hidx := beq_iff_eq.mp hidx
    have hhere : m.activeWorkspace = some ws := by rw [activeWorkspace, ← hidx, hws]
    rw [hhere] at hsome ⊢
    refine (activeId_adopted m.output ws').trans ?_
    exact (h ws (mem_of_getElem? hws)).activeId_addTile_no (not_mem_windowIds hfresh hws) hsome hadd
  · rfl

/-- A window that is opened and activated is the active one, and so is its workspace. -/
theorem activeWindowId_addTile_yes (h : m.Focused) (hfresh : tile.id ∉ m.windowIds)
    {target : MonitorAddWindowTarget} {isFullWidth isFloating : Bool} {width : ColumnWidth}
    {renderPos : Point}
    (hm : m.addTile tile target .yes true width isFullWidth isFloating renderPos = some m') :
    m'.activeWindowId = some tile.id := by
  obtain ⟨⟨idx, target'⟩, -, hm⟩ := of_bind hm
  obtain ⟨mt, hmt, hm⟩ := of_bind hm
  obtain ⟨ws, ws', hws, hadd, hmt⟩ := onWorkspace_spec hmt
  have hyes : (true && ActivateWindow.yes.mapSmart false) = true := rfl
  rw [hyes] at hm
  have hactive := (filled_active hws hmt hm).2
  rw [Bool.true_or, if_pos rfl] at hactive
  unfold activeWindowId
  rw [hactive]
  refine (activeId_adopted m.output ws').trans ?_
  exact (h ws (mem_of_getElem? hws)).activeId_addTile_yes (not_mem_windowIds hfresh hws) hadd

theorem activeWindowId_setOpeningHeight (h : m.Focused) {p : Workspace → Bool} {opening : WindowOpening}
    (hm : m.onFirst p (·.setOpeningHeight w opening) = some m') :
    m'.activeWindowId = m.activeWindowId := by
  obtain ⟨idx, -, hm⟩ := of_bind hm
  obtain ⟨ws, ws', hws, hset, rfl⟩ := onWorkspace_spec hm
  exact activeWindowId_setWorkspace hws fun _ =>
    (h ws (mem_of_getElem? hws)).activeId_setOpeningHeight hset

theorem activeWindowId_openWindow_no (h : m.Focused) (hsome : m.activeWindowId ≠ none) {window : Window}
    (hfresh : window.id ∉ m.windowIds) {target : MonitorAddWindowTarget} {opening : WindowOpening}
    (hno : opening.activate = .no) (hm : m.openWindow window target opening = some m') :
    m'.activeWindowId = m.activeWindowId := by
  obtain ⟨⟨idx, target'⟩, -, hm⟩ := of_bind hm
  obtain ⟨ws, -, hm⟩ := of_bind hm
  obtain ⟨mt, hmt, hm⟩ := of_bind hm
  obtain ⟨first, -, hmt⟩ := of_bind hmt
  have hnew : (first.makeTile window).id ∉ m.windowIds := hfresh
  rw [hno] at hmt
  exact (activeWindowId_setOpeningHeight (h.addTile hnew hmt) hm).trans
    (activeWindowId_addTile_no h hsome hnew hmt)

theorem activeWindowId_openWindow_yes (h : m.Focused) {window : Window}
    (hfresh : window.id ∉ m.windowIds) {target : MonitorAddWindowTarget} {opening : WindowOpening}
    (hyes : opening.activate = .yes) (hm : m.openWindow window target opening = some m') :
    m'.activeWindowId = some window.id := by
  obtain ⟨⟨idx, target'⟩, -, hm⟩ := of_bind hm
  obtain ⟨ws, -, hm⟩ := of_bind hm
  obtain ⟨mt, hmt, hm⟩ := of_bind hm
  obtain ⟨first, -, hmt⟩ := of_bind hmt
  have hnew : (first.makeTile window).id ∉ m.windowIds := hfresh
  rw [hyes] at hmt
  exact (activeWindowId_setOpeningHeight (h.addTile hnew hmt) hm).trans
    (activeWindowId_addTile_yes h hnew hmt)

/-- No swipe is in progress, so the workspace is shown. -/
theorem activeWindowId_activate (h : m.Focused) (hswitch : ∀ g, m.workspaceSwitch ≠ some (.gesture g))
    (hi : m.workspaces.findIdx? (·.hasWindow w) = some i)
    (hmt : m.onWorkspace i (fun ws => (ws.activateWindow w).map (·.2)) = some mt)
    (hm : showWorkspace mt i = some m') : m'.activeWindowId = some w := by
  obtain ⟨ws, ws', hws, hactivate, rfl⟩ := onWorkspace_spec hmt
  obtain ⟨⟨b, wt⟩, hwt, rfl⟩ := of_map hactivate
  have hlt := lt_length_of_getElem? hws
  obtain ⟨hlt', hhas, -⟩ := findIdx?_eq_some_iff_getElem.mp hi
  have hhere : m.workspaces[i] = ws := some.inj ((getElem?_eq_getElem hlt).symm.trans hws)
  rw [hhere] at hhas
  have hshown : (m.setWorkspace i wt).activateIf true i = some m' := by
    have hmin : min i ((m.setWorkspace i wt).workspaces.length - 1) = i := by
      have hlen : (m.setWorkspace i wt).workspaces.length = m.workspaces.length := length_set
      omega
    unfold showWorkspace at hm
    split at hm
    · rename_i g hg
      exact absurd hg (hswitch g)
    · unfold switchWorkspace at hm
      rwa [hmin] at hm
  have hactive := activeWorkspace_activateIf hshown
  rw [if_pos rfl] at hactive
  unfold activeWindowId
  rw [hactive]
  have hset : (m.setWorkspace i wt).workspaces[i]? = some wt := getElem?_set_self hlt
  rw [hset]
  exact (h ws (mem_of_getElem? hws)).activeId_activateWindow hhas hwt

end Macniri.Layout.Monitor
