import Macniri.Layout.HomesRun
import Macniri.Layout.SoundOps
import Macniri.Lib.FirstMatch

/-! The interactive move and the operations of one window lose no window. -/
namespace Macniri.Layout

open Option List

variable {l l' lt : Layout} {m m' mt : Monitor} {ws ws' : Workspace} {idx w window : ℕ}
variable {output : Output}

/-! The interactive move. -/

theorem keeps_dndScrollGestureBegin : ∀ ws ws' : Workspace, ws.Focus →
    some ws.dndScrollGestureBegin = some ws' → Workspace.Keeps ws ws' :=
  keeps_update .dndScrollGestureBegin fun _ => rfl

theorem Monitor.keeps_dndScrollGestureBegin (h : m.Sound) :
    Monitor.Changes [] [] m m.dndScrollGestureBegin := h.shown (shown_dndScrollGestureBegin h.inv.toCore)

theorem keeps_interactiveMoveBegin (h : l.Intact) {visible : Bool}
    (hl : l.interactiveMoveBegin window output visible = some l') : Keeps l l' := by
  unfold interactiveMoveBegin at hl
  split at hl
  · exact some.inj hl ▸ .refl h
  · rename_i hidle
    split at hl
    · exact some.inj hl ▸ .refl h
    · split at hl
      · exact some.inj hl ▸ .refl h
      · obtain ⟨ws, -, hl⟩ := of_bind hl
        obtain ⟨lt, hlt, hl⟩ := of_bind hl
        have hnone : l.interactiveMove = none := by
          rw [Bool.not_eq_true, Bool.or_eq_false_iff] at hidle
          exact not_isSome_iff_eq_none.mp (by rw [hidle.1]; exact Bool.false_ne_true)
        have hstarting : Keeps l { l with interactiveMove := some (.starting window ⟨0, 0⟩) } :=
          .of_eq h.parts rfl ((movingIds_of_starting rfl).trans (movingIds_of_none hnone).symm)
        have hkeeps := hstarting.trans ((hstarting.sound_of_removed h).forMonitors
          (fun _ _ hm hm' => some.inj hm' ▸ Monitor.keeps_dndScrollGestureBegin hm) hlt)
        exact hkeeps.trans
          ((hkeeps.sound_of_removed h).forWorkspacesIf keeps_dndScrollGestureBegin hl)

theorem interactiveMove_removeFromWorkspaces {r : Option RemovedTile}
    (hl : l.removeFromWorkspaces window = some (r, l')) : l'.interactiveMove = l.interactiveMove := by
  unfold removeFromWorkspaces at hl
  split at hl
  · split at hl
    · obtain ⟨-, rfl⟩ := pair_inj hl
      rfl
    · obtain ⟨m, -, hl⟩ := of_bind hl
      obtain ⟨⟨removed, m'⟩, -, hl⟩ := of_bind hl
      obtain ⟨-, rfl⟩ := pair_inj hl
      exact interactiveMove_setMonitor l _ m'
  · split at hl
    · obtain ⟨-, rfl⟩ := pair_inj hl
      rfl
    · obtain ⟨ws, -, hl⟩ := of_bind hl
      obtain ⟨⟨removed, ws'⟩, -, hl⟩ := of_bind hl
      obtain ⟨-, rfl⟩ := pair_inj hl
      rfl

/-- The window that is about to move is in the layout before, and not after. -/
theorem changes_detachWindow (h : l.Intact) (hmoving : l.movingIds = []) {renderPos : Point}
    {r : Option RemovedTile} (hl : l.detachWindow window renderPos = some (r, l')) :
    Changes [] (r.map (·.tile.id)).toList l l' ∧ l'.interactiveMove = none := by
  obtain ⟨lt, hlt, hl⟩ := of_bind hl
  have hnone : Keeps l { l with interactiveMove := none } := .of_eq h.parts rfl hmoving.symm
  have hkeeps := hnone.trans ((hnone.sound_of_removed h).onFirstWorkspace (fun ws ws' hws hws' => by
    obtain ⟨wt, hwt, hws'⟩ := of_bind hws'
    have hfullscreen := keeps_setFullscreen_workspace hws hwt
    exact hfullscreen.trans (keeps_setMaximized_workspace hfullscreen.focus hws')) hlt)
  have hidle : lt.interactiveMove = none := interactiveMove_onFirstWorkspace hlt
  unfold removeWindow at hl
  rw [hidle] at hl
  have hl : lt.removeFromWorkspaces window = some (r, l') := hl
  have hremoved := changes_removeFromWorkspaces (hkeeps.sound_of_removed h) hl
  refine ⟨⟨hremoved.parts, fun w => ?_⟩, (interactiveMove_removeFromWorkspaces hl).trans hidle⟩
  have hfirst := hkeeps.windowIds w
  have hthen := hremoved.windowIds w
  simp only [count_nil] at hfirst hthen ⊢
  omega

/-- The moved window is counted while it is not on a workspace. -/
theorem changes_setMoving (h : l.monitorSet.Sound) (hidle : l.interactiveMove = none)
    {d : InteractiveMoveData} (hid : d.tile.id = window) :
    Changes [window] [] l { l with interactiveMove := some (.moving d) } := by
  refine ⟨h, fun w => ?_⟩
  rw [count_windowIds, count_windowIds l, movingIds_of_none hidle, movingIds_of_moving rfl, hid]
  simp only [count_nil]
  have hset : MonitorSet.count w ({ l with interactiveMove := some (.moving d) } : Layout).monitorSet =
      MonitorSet.count w l.monitorSet := rfl
  omega

theorem keeps_startMoving (h : l.Intact) (hmoving : l.movingIds = []) {renderPos : Point}
    (hl : l.startMoving window output renderPos = some l') : Keeps l l' := by
  obtain ⟨ws, -, hl⟩ := of_bind hl
  obtain ⟨⟨r, lt⟩, hlt, hl⟩ := of_bind hl
  obtain ⟨removed, hr, hl⟩ := of_bind hl
  obtain ⟨lu, hlu, rfl⟩ := of_bind_some hl
  have hr : r = some removed := hr
  subst hr
  obtain ⟨hcut, hidle⟩ := changes_detachWindow h hmoving hlt
  have hunlocked : Changes [] [removed.tile.id] l lu :=
    hcut.trans ((hcut.sound_of_removed h).forWorkspacesIf keeps_dndScrollGestureEnd hlu)
  exact hunlocked.restored
    (changes_setMoving hunlocked.parts ((interactiveMove_forWorkspacesIf hlu).trans hidle) rfl)

theorem keeps_updateStarting (h : l.Intact) {pointerDelta delta renderPos : Point}
    (hmoving : l.movingIds = [])
    (hl : l.updateStarting window pointerDelta delta output renderPos = some l') : Keeps l l' := by
  obtain ⟨ws, -, hl⟩ := of_bind hl
  split at hl
  · obtain rfl := some.inj hl
    exact .of_eq h.parts rfl ((movingIds_of_starting rfl).trans hmoving.symm)
  · exact keeps_startMoving h hmoving hl

theorem keeps_updateMoving (h : l.Intact) {d : InteractiveMoveData}
    (hmove : l.interactiveMove = some (.moving d)) (output : Output) (workspaceUnder : Option ℕ) :
    Keeps l (l.updateMoving d output workspaceUnder) := by
  have hstay (d' : InteractiveMoveData) (hid : d'.tile.id = d.tile.id) :
      Keeps l { l with interactiveMove := some (.moving d') } :=
    .of_eq h.parts rfl (by rw [movingIds_of_moving rfl, movingIds_of_moving hmove, hid])
  have hfocus (d' : InteractiveMoveData) (hid : d'.tile.id = d.tile.id) :
      Keeps l { l.focusOutput output with interactiveMove := some (.moving d') } := by
    have hkeeps := keeps_focusOutput h.parts output
    have hmoved : (l.focusOutput output).movingIds = l.movingIds := by
      unfold focusOutput activateMonitor
      split
      · split
        · rfl
        · rfl
      · rfl
    refine hkeeps.trans (.of_eq hkeeps.parts rfl ?_)
    rw [hmoved, movingIds_of_moving rfl, movingIds_of_moving hmove, hid]
  unfold updateMoving
  dsimp only
  split
  · split
    · exact hstay _ rfl
    · exact hfocus _ rfl
  · split
    · exact hstay _ rfl
    · exact hfocus _ rfl

theorem keeps_interactiveMoveUpdate (h : l.Intact) {delta renderPos : Point} {under : Option ℕ}
    (hl : l.interactiveMoveUpdate window delta output under renderPos = some l') : Keeps l l' := by
  unfold interactiveMoveUpdate at hl
  cases hmove : l.interactiveMove with
  | none =>
    rw [hmove] at hl
    exact some.inj hl ▸ .refl h
  | some move =>
    rw [hmove] at hl
    cases move with
    | starting windowId pointerDelta =>
      dsimp only at hl
      split at hl
      · exact keeps_updateStarting h (movingIds_of_starting hmove) hl
      · exact some.inj hl ▸ .refl h
    | moving d =>
      dsimp only at hl
      split at hl
      · exact some.inj hl ▸ keeps_updateMoving h hmove output under
      · exact some.inj hl ▸ .refl h

theorem changes_dropWindow (h : l.Intact) {d : InteractiveMoveData} (hfresh : d.tile.id ∉ l.windowIds)
    {drop : DropPoint} (hl : l.dropWindow d drop = some l') : Changes [d.tile.id] [] l l' := by
  have hdrop (m m' : Monitor) (drop : DropPoint) (allow : Bool) {idx : ℕ} (hm : l.monitorAt idx = some m)
      (hsound : m.Sound) (hm' : m.dropTile d drop allow = some m') :
      Monitor.Changes [d.tile.id] [] m m' := by
    have hnew : d.tile.id ∉ m.windowIds := fun hmem => hfresh (mem_windowIds_of_monitorAt hm hmem)
    exact (Monitor.grown_dropTile hsound.inv hnew hm').effect.changes
      (hsound.focused.dropTile hsound.inv hnew hm')
  unfold dropWindow at hl
  dsimp only at hl
  split at hl
  · split at hl
    · exact h.onMonitor (fun m m' hm hsound hm' => hdrop m m' drop _ hm hsound hm') hl
    · refine h.onMonitor (fun m m' hm hsound hm' => ?_) hl
      obtain ⟨first, -, hm'⟩ := of_bind hm'
      exact hdrop m m' _ _ hm hsound hm'
  · have hkeeps := keeps_ensureWorkspace h
    have hnew : d.tile.id ∉ l.ensureWorkspace.windowIds := by
      have hcount := hkeeps.windowIds d.tile.id
      rw [count_eq_zero.mpr hfresh] at hcount
      simp only [count_nil] at hcount
      exact count_eq_zero.mp (by omega)
    have hadded := changes_onWorkspaceNoOutputs [d.tile.id] (hkeeps.sound_of_removed h)
      (fun ws ws' hthere hfocus hws => by
        have hfresh' : d.tile.id ∉ ws.windowIds := fun hmem => hnew (hthere _ hmem)
        exact ⟨Workspace.edit_addTile hfocus.ok hfresh' hws, hfocus.addTile hfresh' hws⟩) hl
    refine ⟨hadded.parts, fun w => ?_⟩
    have hfirst := hkeeps.windowIds w
    have hthen := hadded.windowIds w
    simp only [count_nil] at hfirst hthen ⊢
    omega

theorem keeps_interactiveMoveEnd (h : l.Intact) {drop : DropPoint}
    (hl : l.interactiveMoveEnd window drop = some l') : Keeps l l' := by
  unfold interactiveMoveEnd at hl
  cases hmove : l.interactiveMove with
  | none =>
    rw [hmove] at hl
    exact some.inj hl ▸ .refl h
  | some move =>
    rw [hmove] at hl
    cases move with
    | starting windowId pointerDelta =>
      dsimp only at hl
      split at hl
      · exact keeps_cancelMove h (movingIds_of_starting hmove) hl
      · exact some.inj hl ▸ .refl h
    | moving d =>
      dsimp only at hl
      split at hl
      · obtain ⟨lt, hlt, hl⟩ := of_bind hl
        obtain ⟨lu, hlu, hl⟩ := of_bind hl
        have hcut := changes_dropMoving h hmove
        have hended := hcut.trans ((hcut.sound_of_removed h).forMonitors
          (fun _ _ => Monitor.keeps_dndScrollGestureEnd) hlt)
        have hunlocked := hended.trans
          ((hended.sound_of_removed h).forWorkspacesIf keeps_dndScrollGestureEnd hlu)
        exact hunlocked.restored (changes_dropWindow (hunlocked.sound_of_removed h)
          (hunlocked.fresh h _ mem_cons_self) hl)
      · exact some.inj hl ▸ .refl h

/-! The tile that is handed out when a window is closed. -/

theorem Monitor.hasWindow_iff : m.hasWindow window = true ↔ window ∈ m.windowIds := by
  unfold hasWindow windowIds
  rw [List.any_eq_true, mem_flatten]
  constructor
  · rintro ⟨ws, hws, hw⟩
    exact ⟨_, List.mem_map_of_mem hws, Workspace.hasWindow_iff.mp hw⟩
  · rintro ⟨ids, hids, hw⟩
    obtain ⟨ws, hws, rfl⟩ := List.mem_map.mp hids
    exact ⟨ws, hws, Workspace.hasWindow_iff.mpr hw⟩

theorem Monitor.removeWindow_id {r : RemovedTile} (hm : m.removeWindow window = some (r, m')) :
    r.tile.id = window := by
  obtain ⟨idx, -, hm⟩ := of_bind hm
  obtain ⟨ws, -, hm⟩ := of_bind hm
  obtain ⟨⟨r', ws'⟩, hr, hm⟩ := of_bind hm
  obtain ⟨mt, -, hm⟩ := of_bind hm
  obtain ⟨rfl, -⟩ := pair_inj hm
  exact (Workspace.removeTile_cases hr).2

/-- The windows on the workspaces. -/
theorem mem_workspaces_iff {ms : List Monitor} {primaryIdx activeMonitorIdx : ℕ}
    (hset : l.monitorSet = .normal ms primaryIdx activeMonitorIdx) :
    window ∈ l.workspaces.flatMap (·.windowIds) ↔ ∃ m ∈ ms, m.hasWindow window = true := by
  unfold workspaces
  rw [hset, flatMap_assoc, mem_flatMap]
  exact exists_congr fun m => and_congr_right fun _ => Monitor.hasWindow_iff.symm

theorem tile_removeFromWorkspaces {r : Option RemovedTile}
    (hl : l.removeFromWorkspaces window = some (r, l')) :
    r.map (·.tile.id) =
      if window ∈ l.workspaces.flatMap (·.windowIds) then some window else none := by
  unfold removeFromWorkspaces at hl
  cases hset : l.monitorSet with
  | normal ms primaryIdx activeMonitorIdx =>
    rw [hset] at hl
    dsimp only at hl
    split at hl
    · rename_i hnone
      obtain ⟨rfl, -⟩ := pair_inj hl
      rw [if_neg]
      · rfl
      · rw [mem_workspaces_iff hset]
        rintro ⟨m, hm, hw⟩
        exact absurd hw (by simpa using findIdx?_eq_none_iff.mp hnone m hm)
    · rename_i idx hidx
      obtain ⟨m, -, hl⟩ := of_bind hl
      obtain ⟨⟨removed, m'⟩, hm', hl⟩ := of_bind hl
      obtain ⟨rfl, -⟩ := pair_inj hl
      obtain ⟨m₀, hm₀, hw⟩ := exists_of_findIdx? hidx
      rw [if_pos ((mem_workspaces_iff hset).mpr ⟨m₀, mem_of_getElem? hm₀, hw⟩), map_some,
        Monitor.removeWindow_id hm']
  | noOutputs workspaces =>
    have hws : l.workspaces = workspaces := by rw [Layout.workspaces, hset]
    rw [hset] at hl
    rw [hws]
    dsimp only at hl
    split at hl
    · rename_i hnone
      obtain ⟨rfl, -⟩ := pair_inj hl
      rw [if_neg]
      · rfl
      · intro hmem
        obtain ⟨ws, hmem, hw⟩ := mem_flatMap.mp hmem
        exact absurd (Workspace.hasWindow_iff.mpr hw)
          (by simpa using findIdx?_eq_none_iff.mp hnone ws hmem)
    · rename_i idx hidx
      obtain ⟨ws, hget, hl⟩ := of_bind hl
      obtain ⟨⟨removed, ws'⟩, hws', hl⟩ := of_bind hl
      obtain ⟨rfl, -⟩ := pair_inj hl
      obtain ⟨ws₀, hws₀, hw⟩ := exists_of_findIdx? hidx
      have hmem : window ∈ workspaces.flatMap (·.windowIds) :=
        mem_flatMap.mpr ⟨ws₀, mem_of_getElem? hws₀, Workspace.hasWindow_iff.mp hw⟩
      rw [if_pos hmem, map_some, (Workspace.removeTile_cases hws').2]

/-- Exactly the window that is closed is handed out, if it is there. -/
theorem tile_removeWindow (h : l.Intact) {r : Option RemovedTile}
    (hl : l.removeWindow window = some (r, l')) :
    r.map (·.tile.id) = if window ∈ l.windowIds then some window else none := by
  have hsplit (l : Layout) : window ∈ l.windowIds ↔
      window ∈ l.movingIds ∨ window ∈ l.workspaces.flatMap (·.windowIds) := mem_append
  unfold removeWindow at hl
  cases hmove : l.interactiveMove with
  | none =>
    rw [hmove] at hl
    simp only [hsplit, movingIds_of_none hmove, not_mem_nil, false_or]
    exact tile_removeFromWorkspaces hl
  | some move =>
    rw [hmove] at hl
    cases move with
    | starting windowId delta =>
      have hidle := movingIds_of_starting hmove
      dsimp only at hl
      split at hl
      · obtain ⟨lt, hlt, hl⟩ := of_bind hl
        have hkeeps := keeps_cancelMove h hidle hlt
        have hmoved : lt.movingIds = [] := by
          obtain ⟨lu, hlu, hlt⟩ := of_bind hlt
          exact movingIds_of_none
            ((interactiveMove_forWorkspaces hlt).trans (interactiveMove_forMonitors hlu))
        have hiff : window ∈ l.windowIds ↔ window ∈ lt.windowIds := by
          have hcount := hkeeps.windowIds window
          simp only [count_nil] at hcount
          rw [← count_pos_iff, ← count_pos_iff]
          omega
        simp only [hiff, hsplit, hmoved, not_mem_nil, false_or]
        exact tile_removeFromWorkspaces hl
      · simp only [hsplit, hidle, not_mem_nil, false_or]
        exact tile_removeFromWorkspaces hl
    | moving d =>
      have hmoving := movingIds_of_moving hmove
      dsimp only at hl
      split at hl
      · rename_i hid
        obtain ⟨lt, hlt, hl⟩ := of_bind hl
        obtain ⟨rfl, -⟩ := pair_inj hl
        have hmem : window ∈ l.windowIds :=
          (hsplit l).mpr (.inl (by rw [hmoving, hid]; exact mem_singleton_self _))
        rw [if_pos hmem, map_some, hid]
      · rename_i hid
        have hother : window ∉ l.movingIds := by
          rw [hmoving, mem_singleton]
          exact Ne.symm hid
        simp only [hsplit, hother, false_or]
        exact tile_removeFromWorkspaces hl

/-- The windows that an operation brings along. -/
def LayoutWindowOp.added : LayoutWindowOp → List ℕ
  | addWindow window _ _ => [window.id]
  | _ => []

/-- The windows that an operation takes out of the layout. -/
def LayoutWindowOp.removed (l : Layout) : LayoutWindowOp → List ℕ
  | removeWindow window => if window ∈ l.windowIds then [window] else []
  | _ => []

theorem changes_applyLayoutWindow (h : l.Intact) {op : LayoutWindowOp}
    (hfresh : ∀ w ∈ op.added, w ∉ l.windowIds) (hl : l.applyLayoutWindow op = some l') :
    Changes op.added (op.removed l) l l' := by
  cases op with
  | addWindow window =>
    exact changes_addWindow h (hfresh window.id (mem_singleton_self _)) hl
  | removeWindow =>
    obtain ⟨⟨r, lt⟩, hlt, rfl⟩ := of_map hl
    have hchanges := changes_removeWindow h hlt
    rw [tile_removeWindow h hlt] at hchanges
    unfold LayoutWindowOp.removed
    dsimp only
    split at hchanges
    · rename_i hmem
      rw [if_pos hmem]
      exact hchanges
    · rename_i hmem
      rw [if_neg hmem]
      exact hchanges
  | moveToWorkspace => exact keeps_moveToWorkspace h hl
  | activateWindow =>
    refine keeps_showWindow h (fun ws ws' hws hws' => ?_) hl
    obtain ⟨⟨b, wt⟩, hwt, rfl⟩ := of_map hws'
    exact keeps_activateWindow hws hwt
  | activateWindowWithoutRaising window =>
    refine keeps_showWindow h (fun ws ws' hws hws' => ?_) hl
    obtain rfl := some.inj hws'
    exact ⟨Workspace.kept_activateWindowWithoutRaising hws.ok window,
      hws.activateWindowWithoutRaising window⟩
  | descendantsAdded => exact keeps_descendantsAdded h hl
  | updateWindow => exact keeps_updateWindow h hl
  | setParent window parent =>
    exact keeps_modifyWindow (f := ({ · with parent := parent })) h (fun _ => rfl)
      (fun _ => ⟨rfl, rfl, rfl, rfl⟩) hl
  | toggleWindowFloating => exact keeps_toggleWindowFloating h hl
  | setWindowFloating => exact keeps_setWindowFloating h hl
  | setFullscreen => exact keeps_setFullscreen h hl
  | toggleFullscreen window renderPos =>
    refine h.onUnmoved (fun ws ws' hws hws' => ?_) hl
    obtain ⟨tile, -, hws'⟩ := of_bind hws'
    exact keeps_setFullscreen_workspace hws hws'
  | toggleWindowedFullscreen => exact keeps_toggleWindowedFullscreen h hl
  | setMaximized | toggleMaximized =>
    exact h.onUnmoved (fun _ _ hws hws' => keeps_setMaximized_workspace hws hws') hl
  | interactiveResizeBegin window edges =>
    exact h.onWorkspaceOf
      (fun _ _ hws hws' => keeps_applyUpdate (.interactiveResizeBegin window edges) hws hws') hl
  | interactiveResizeUpdate window delta =>
    exact h.onUnmoved
      (fun _ _ hws hws' => keeps_applyUpdate (.interactiveResizeUpdate window delta) hws hws') hl
  | interactiveResizeEnd window =>
    exact h.onUnmoved
      (fun _ _ hws hws' => keeps_applyUpdate (.interactiveResizeEnd window) hws hws') hl
  | interactiveMoveBegin => exact keeps_interactiveMoveBegin h hl
  | interactiveMoveUpdate => exact keeps_interactiveMoveUpdate h hl
  | interactiveMoveEnd => exact keeps_interactiveMoveEnd h hl

end Macniri.Layout
