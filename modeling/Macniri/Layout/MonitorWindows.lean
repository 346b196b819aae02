import Macniri.Layout.MonitorInvariant
import Macniri.Layout.Windows
import Macniri.Scrolling.ActiveWindow

/-! What the operations of a monitor that add, remove and move windows keep. -/
namespace Macniri.Layout

open Option List

namespace Workspace

variable {ws ws' : Workspace} {op : WorkspaceOp}

theorem Kept.cut (h : Kept ws ws') : Cut [] ws ws' :=
  ⟨h.ok, h.id, h.name, h.originalOutput, h.windowIds.symm⟩

/-- What a workspace does without adding a window takes some windows away, or none. -/
theorem cut_apply (hws : ws.Ok) (hadded : op.added = [])
    (hop : ∀ output, op ≠ .config (.setOutput output)) (h : ws.apply op = some ws') :
    ∃ removed, Cut removed ws ws' := by
  cases op with
  | active op => exact ⟨[], (kept_applyActive hws h).cut⟩
  | window window op => exact ⟨[], (kept_applyWindow hws h).cut⟩
  | activateWindow window =>
    obtain ⟨⟨b, wt⟩, hwt, rfl⟩ := of_map h
    exact ⟨[], (kept_activateWindow hws hwt).cut⟩
  | activateWindowWithoutRaising window =>
    exact ⟨[], some.inj h ▸ (kept_activateWindowWithoutRaising hws window).cut⟩
  | addTile tile target activate width isFullWidth isFloating renderPos => cases hadded
  | addTileToColumn colIdx tileIdx tile activate => cases hadded
  | addColumn column activate =>
    exact absurd hadded (by simpa [WorkspaceOp.added, Column.windowIds] using column.2.nonempty)
  | removeTile window =>
    obtain ⟨⟨removed, wt⟩, hwt, rfl⟩ := of_map h
    rcases (removeTile_cases hwt).1 with hdrops | hdrops
    · exact ⟨_, hdrops.cut hws⟩
    · exact ⟨_, hdrops.cut hws⟩
  | removeActiveTile =>
    obtain ⟨_ | ⟨removed, wt⟩, hwt, rfl⟩ := of_map h
    · exact ⟨[], (Kept.refl hws).cut⟩
    · rcases removeActiveTile_cases hwt with hdrops | hdrops
      · exact ⟨_, hdrops.cut hws⟩
      · exact ⟨_, hdrops.cut hws⟩
  | removeActiveColumn =>
    obtain ⟨_ | ⟨column, wt⟩, hwt, rfl⟩ := of_map h
    · exact ⟨[], (Kept.refl hws).cut⟩
    · exact ⟨_, cut_removeActiveColumn hws hwt⟩
  | toggleWindowFloating window renderPos => exact ⟨[], (kept_toggleWindowFloating hws h).cut⟩
  | setWindowFloating window floating renderPos => exact ⟨[], (kept_setWindowFloating hws h).cut⟩
  | setFullscreen window isFullscreen renderPos => exact ⟨[], (kept_setFullscreen hws h).cut⟩
  | toggleFullscreen window renderPos => exact ⟨[], (kept_toggleFullscreen hws h).cut⟩
  | setMaximized window maximize renderPos => exact ⟨[], (kept_setMaximized hws h).cut⟩
  | toggleMaximized window renderPos => exact ⟨[], (kept_toggleMaximized hws h).cut⟩
  | update op => exact ⟨[], (kept_applyUpdate hws h).cut⟩
  | config op =>
    obtain rfl := some.inj h
    cases op with
    | updateConfig baseOptions => exact ⟨[], (kept_updateConfig hws baseOptions).cut⟩
    | updateLayoutConfig layoutConfig => exact ⟨[], (kept_updateLayoutConfig hws layoutConfig).cut⟩
    | setOutput output => exact absurd rfl (hop output)
    | updateOutputSize => exact ⟨[], (kept_updateOutputSize hws).cut⟩

end Workspace

namespace Monitor

variable {m m' mt : Monitor} {i j w : ℕ} {ws ws' : Workspace} {added removed : List ℕ} {tile : Tile}
variable {skip : ℕ → Prop}

theorem Inv.ok_getElem? (h : m.Inv) (hws : m.workspaces[i]? = some ws) : ws.Ok :=
  h.ok ws (mem_of_getElem? hws)

theorem OwnEmpty.cut {output : Output} (h : OwnEmpty output ws)
    (hcut : Workspace.Cut removed ws ws') : OwnEmpty output ws' := by
  have hperm := hcut.windowIds
  rw [h.windowIds] at hperm
  exact ⟨hcut.originalOutput.trans h.original,
    (append_eq_nil_iff.mp (nil_perm.mp hperm)).2⟩

/-! Workspaces that change in place. -/

theorem Inv.cutWorkspace (h : m.Inv) (hws : m.workspaces[i]? = some ws)
    (hcut : Workspace.Cut removed ws ws') :
    Cut removed m (m.setWorkspace i ws') ∧ (m.setWorkspace i ws').Inv :=
  have hmon := cut_setWorkspace h.toCore hws hcut
  ⟨hmon, hmon.core, h.ends.setWorkspace hws fun hown => .inl (hown.cut hcut)⟩

theorem Cut.effect (h : Cut removed m m') (hinv : m'.Inv) : Effect [] removed m m' :=
  ⟨hinv, h.windowIds.symm, .inl (h.ids ▸ .refl _)⟩

/-- Windows that were cut are added again. -/
theorem Cut.moved (h : Cut added m mt) (h' : Effect added [] mt m') : Effect [] [] m m' :=
  ⟨h'.inv, h'.windowIds.trans h.windowIds.symm, h.ids ▸ h'.order⟩

theorem Cut.fresh (h : Cut removed m m') (hm : m.Core) : ∀ v ∈ removed, v ∉ m'.windowIds := by
  have hnodup := nodup_append'.mp (h.windowIds.nodup_iff.mp hm.windows)
  exact fun v hv hv' => hnodup.2.2 hv hv'

theorem onWorkspace_spec {f : Workspace → Option Workspace} (h : m.onWorkspace i f = some m') :
    ∃ ws ws', m.workspaces[i]? = some ws ∧ f ws = some ws' ∧ m' = m.setWorkspace i ws' := by
  obtain ⟨ws, hws, h⟩ := of_bind h
  obtain ⟨ws', hws', h⟩ := of_bind h
  exact ⟨ws, ws', hws, hws', (some.inj h).symm⟩

theorem onWorkspace_eq {f : Workspace → Option Workspace} (hws : m.workspaces[i]? = some ws)
    (hf : f ws = some ws') : m.onWorkspace i f = some (m.setWorkspace i ws') := by
  unfold onWorkspace
  rw [hws, some_bind, hf]
  rfl

/-! Adding windows. -/

/-- A workspace that becomes this output's own. -/
def adopted (output : Output) (ws : Workspace) : Workspace :=
  if ws.name.isNone then { ws with originalOutput := OutputId.new output } else ws

theorem adopted_ok {output : Output} (h : ws.Ok) : (adopted output ws).Ok := by
  unfold adopted
  split
  · exact ⟨h.scrolling, h.ids⟩
  · exact h

theorem adopted_id (output : Output) (ws : Workspace) : (adopted output ws).id = ws.id := by
  unfold adopted
  split <;> rfl

theorem adopted_windowIds (output : Output) (ws : Workspace) :
    (adopted output ws).windowIds = ws.windowIds := by
  unfold adopted
  split <;> rfl

theorem adoptWorkspace_setWorkspace (hi : i < m.workspaces.length) (ws : Workspace) :
    (m.setWorkspace i ws).adoptWorkspace i = m.setWorkspace i (adopted m.output ws) := by
  have hget : (m.workspaces.set i ws)[i]? = some ws := getElem?_set_self hi
  unfold adoptWorkspace setWorkspace
  dsimp only
  rw [modify_eq_set_of_getElem? hget, List.set_set]
  rfl

/-- A workspace that gets windows and becomes the output's own. -/
theorem edit_adopted (h : m.Core) (hws : m.workspaces[i]? = some ws)
    (hfresh : ∀ v ∈ added, v ∉ m.windowIds) (hadded : added.Nodup)
    (hedit : Workspace.Edit added ws ws') :
    Edit added m (m.setWorkspace i (adopted m.output ws')) := by
  have hperm : (m.setWorkspace i (adopted m.output ws')).windowIds.Perm (added ++ m.windowIds) := by
    rw [windowIds_setWorkspace, adopted_windowIds]
    exact flatten_set_perm_append (windowIds_getElem? hws) hedit.windowIds
  have hnodup : (added ++ m.windowIds).Nodup :=
    nodup_append'.mpr ⟨hadded, h.windows, fun v hv hv' => hfresh v hv hv'⟩
  have hids : (m.setWorkspace i (adopted m.output ws')).ids = m.ids :=
    ids_setWorkspace hws ((adopted_id ..).trans hedit.id)
  exact ⟨core_setWorkspace h (adopted_ok hedit.ok) (hperm.nodup_iff.mpr hnodup), rfl, rfl, hperm,
    hids ▸ .refl _⟩

/-- Windows were added, and the ends of the list are in order. -/
structure Grown (added : List ℕ) (m m' : Monitor) : Prop extends Edit added m m' where
  ends : m'.Ends

theorem Grown.effect (h : Grown added m m') : Effect added [] m m' := h.toEdit.effect h.ends

theorem Kept.grown (h : Kept m mt) (h' : Grown added mt m') : Grown added m m' :=
  ⟨h.edit h'.toEdit, h'.ends⟩

/-- The end of an operation that adds windows to any workspace. -/
theorem grown_filled (h : m.Inv) (hws : m.workspaces[i]? = some ws)
    (hfresh : ∀ v ∈ added, v ∉ m.windowIds) (hadded : added.Nodup)
    (hedit : Workspace.Edit added ws ws') {activate : Bool}
    (hm : (((m.setWorkspace i ws').adoptWorkspace i).padEnds i).1.activateIf activate
      (((m.setWorkspace i ws').adoptWorkspace i).padEnds i).2 = some m') :
    Grown added m m' := by
  have hlt := lt_length_of_getElem? hws
  rw [adoptWorkspace_setWorkspace hlt] at hm
  have hadopted := edit_adopted h.toCore hws hfresh hadded hedit
  have hends : (m.setWorkspace i (adopted m.output ws')).EndsExcept (· = i) :=
    (h.ends.mono False.elim fun _ => False.elim).setWorkspace hws fun _ => .inr rfl
  have hlen : (m.setWorkspace i (adopted m.output ws')).workspaces.length = m.workspaces.length :=
    length_set
  obtain ⟨hpad, hpadends, hidx, -⟩ := padEnds_spec hadopted.core (hlen ▸ hlt) hends
  have hshown := shown_activateIf hpad.core (by omega) hm
  exact ⟨(hadopted.trans hpad).trans hshown.kept, hshown.ends hpadends⟩

theorem grown_addTile (hfresh : tile.id ∉ m.windowIds) (h : m.Inv) {target : MonitorAddWindowTarget}
    {activate : ActivateWindow} {allow isFullWidth isFloating : Bool} {width : ColumnWidth}
    {renderPos : Point}
    (hm : m.addTile tile target activate allow width isFullWidth isFloating renderPos = some m') :
    Grown [tile.id] m m' := by
  obtain ⟨⟨idx, wsTarget⟩, -, hm⟩ := of_bind hm
  obtain ⟨mt, hmt, hm⟩ := of_bind hm
  obtain ⟨ws, ws', hws, hadd, rfl⟩ := onWorkspace_spec hmt
  have hnew : tile.id ∉ ws.windowIds := fun hmem => hfresh (mem_windowIds_of_workspace hws hmem)
  have hedit := Workspace.edit_addTile (h.ok_getElem? hws) hnew hadd
  exact grown_filled h hws (by simpa using hfresh) (nodup_singleton _) hedit hm

theorem grown_addColumn (h : m.Inv) {column : Column} (hwf : column.Wf)
    (hfresh : ∀ v ∈ column.windowIds, v ∉ m.windowIds) {activate : Bool}
    (hm : m.addColumn i column activate = some m') : Grown column.windowIds m m' := by
  obtain ⟨mt, hmt, hm⟩ := of_bind hm
  obtain ⟨ws, ws', hws, hadd, rfl⟩ := onWorkspace_spec hmt
  have hnew (v : ℕ) (hv : v ∈ column.windowIds) : v ∉ ws.windowIds :=
    fun hmem => hfresh v hv (mem_windowIds_of_workspace hws hmem)
  have hedit : Workspace.Edit column.windowIds ws ws' :=
    Workspace.edit_addColumn (h.ok_getElem? hws) (show ∀ v ∈ (⟨column, hwf⟩ : WfColumn).1.windowIds, _
      from hnew) hadd
  exact grown_filled h hws hfresh hwf.ids hedit hm

/-- Only a workspace with windows has a column to add to. -/
theorem windowIds_ne_nil_of_addTileToColumn (hws : ws.Ok) {columnIdx : ℕ} {tileIdx : Option ℕ}
    {activate : Bool} (h : ws.addTileToColumn columnIdx tileIdx tile activate = some ws') :
    ws.windowIds ≠ [] := by
  obtain ⟨wt, hwt, -⟩ := of_map h
  obtain ⟨s, hs, -⟩ := of_map hwt
  obtain ⟨c, hc, -⟩ := of_bind hs
  intro hnil
  have hscrolling : ws.scrolling.columns = [] :=
    (ScrollingSpace.columns_eq_nil_iff hws.scrolling).mpr (append_eq_nil_iff.mp hnil).1
  exact ne_nil_of_getElem? hc hscrolling

theorem grown_addTileToColumn (h : m.Inv) (hfresh : tile.id ∉ m.windowIds) {columnIdx : ℕ}
    {tileIdx : Option ℕ} {activate allow : Bool}
    (hm : m.addTileToColumn i columnIdx tileIdx tile activate allow = some m') :
    Grown [tile.id] m m' := by
  obtain ⟨mt, hmt, hm⟩ := of_bind hm
  obtain ⟨ws, ws', hws, hadd, rfl⟩ := onWorkspace_spec hmt
  have hlt := lt_length_of_getElem? hws
  have hnew : tile.id ∉ ws.windowIds := fun hmem => hfresh (mem_windowIds_of_workspace hws hmem)
  have hedit := Workspace.edit_addTileToColumn (h.ok_getElem? hws) hnew hadd
  have hadopted := edit_adopted h.toCore hws (by simpa using hfresh) (nodup_singleton _) hedit
  have hne := windowIds_ne_nil_of_addTileToColumn (h.ok_getElem? hws) hadd
  have hends : (m.setWorkspace i (adopted m.output ws')).Ends :=
    h.ends.setWorkspace hws fun hown => absurd hown.windowIds hne
  rw [adoptWorkspace_setWorkspace hlt] at hm
  have hlen : (m.setWorkspace i (adopted m.output ws')).workspaces.length = m.workspaces.length :=
    length_set
  have hshown := shown_activateIf hadopted.core (hlen ▸ hlt) hm
  exact ⟨hadopted.trans hshown.kept, hshown.ends hends⟩

/-- Something that keeps its windows happens on a workspace afterwards. -/
theorem Effect.onWorkspace (h : Effect added removed m mt) {f : Workspace → Option Workspace}
    (hf : ∀ ws ws', ws.Ok → f ws = some ws' → Workspace.Kept ws ws')
    (hm : mt.onWorkspace i f = some m') : Effect added removed m m' := by
  obtain ⟨ws, ws', hws, hws', rfl⟩ := onWorkspace_spec hm
  have hkept := hf ws ws' (h.inv.ok_getElem? hws) hws'
  obtain ⟨hcut, hinv⟩ := h.inv.cutWorkspace hws hkept.cut
  refine ⟨hinv, (hcut.windowIds.symm.append_left removed).trans h.windowIds, ?_⟩
  exact hcut.ids.symm ▸ h.order

theorem kept_setOpeningHeight (hws : ws.Ok) {opening : WindowOpening}
    (h : ws.setOpeningHeight w opening = some ws') : Workspace.Kept ws ws' := by
  unfold Workspace.setOpeningHeight at h
  split at h
  · exact some.inj h ▸ .refl hws
  · split at h
    · exact some.inj h ▸ .refl hws
    · rename_i height _ _
      have h : ws.applyWindow (some w) (.setWindowHeight (SizeChange.ofPreset height)) =
          some ws' := h
      exact Workspace.kept_applyWindow hws h

theorem effect_openWindow (h : m.Inv) {window : Window} (hfresh : window.id ∉ m.windowIds)
    {target : MonitorAddWindowTarget} {opening : WindowOpening}
    (hm : m.openWindow window target opening = some m') : Effect [window.id] [] m m' := by
  obtain ⟨⟨idx, wsTarget⟩, -, hm⟩ := of_bind hm
  obtain ⟨ws, -, hm⟩ := of_bind hm
  obtain ⟨mt, hadd, hm⟩ := of_bind hm
  obtain ⟨first, -, hadd⟩ := of_bind hadd
  obtain ⟨j, -, hm⟩ := of_bind hm
  have hnew : (first.makeTile window).id ∉ m.windowIds := hfresh
  have hadded : Effect [window.id] [] m mt := (grown_addTile hnew h hadd).effect
  exact hadded.onWorkspace (fun _ _ hws => kept_setOpeningHeight hws) hm

/-! Removing a window. -/

theorem cut_removeTile {r : RemovedTile} (hws : ws.Ok) (h : ws.removeTile w = some (r, ws')) :
    Workspace.Cut [r.tile.id] ws ws' := by
  rcases (Workspace.removeTile_cases h).1 with hdrops | hdrops
  · exact hdrops.cut hws
  · exact hdrops.cut hws

theorem cut_removeActiveTile {r : RemovedTile} (hws : ws.Ok)
    (h : ws.removeActiveTile = some (some (r, ws'))) : Workspace.Cut [r.tile.id] ws ws' := by
  rcases Workspace.removeActiveTile_cases h with hdrops | hdrops
  · exact hdrops.cut hws
  · exact hdrops.cut hws

theorem cut_removeWindowOrActive {r : RemovedTile} {window : Option ℕ} (hws : ws.Ok)
    (h : removeWindowOrActive ws window = some (some (r, ws'))) :
    Workspace.Cut [r.tile.id] ws ws' := by
  cases window with
  | some v =>
    obtain ⟨⟨r', wt⟩, hwt, heq⟩ := of_map h
    obtain ⟨rfl, rfl⟩ := pair_inj heq
    exact cut_removeTile hws hwt
  | none => exact cut_removeActiveTile hws h

/-- The workspace of a window that is gone is empty, so it is not the one above the first. -/
theorem settled_cleanUpAfterRemoval (h : m.Inv) (hfirst : m.emptyAboveFirst = true → 0 < i)
    (hi : i < m.workspaces.length) (hm : m.cleanUpAfterRemoval i = some m') :
    Settled m m' ∨ m' = m := by
  unfold cleanUpAfterRemoval at hm
  split at hm
  · exact .inr (some.inj hm).symm
  · rename_i hswitch
    have hswitch : m.workspaceSwitch = none := not_isSome_iff_eq_none.mp hswitch
    left
    split at hm
    · rename_i hunused
      have hremoved := settled_removeInactiveAt h hswitch (by omega) hfirst hunused.1
      exact hremoved.trans (settled_dropSecondEmpty hremoved.inv hremoved.switch hm)
    · exact settled_dropSecondEmpty h hswitch hm

theorem effect_removeWindow (h : m.Inv) {r : RemovedTile}
    (hm : m.removeWindow w = some (r, m')) : Effect [] [r.tile.id] m m' := by
  obtain ⟨idx, -, hm⟩ := of_bind hm
  obtain ⟨ws, hws, hm⟩ := of_bind hm
  obtain ⟨⟨r', ws'⟩, hr, hm⟩ := of_bind hm
  obtain ⟨mt, hmt, hm⟩ := of_bind hm
  obtain ⟨rfl, rfl⟩ := pair_inj hm
  have hws' := cut_removeTile (h.ok_getElem? hws) hr
  obtain ⟨hcut, hinv⟩ := h.cutWorkspace hws hws'
  have hne : ws.windowIds ≠ [] := by
    intro hnil
    have hperm := hws'.windowIds
    rw [hnil] at hperm
    exact not_mem_nil (hperm.mem_iff.mpr (mem_cons_self ..))
  have hfirst (he : m.emptyAboveFirst = true) : 0 < idx := by
    refine Nat.pos_of_ne_zero fun h0 => hne ?_
    subst h0
    exact (h.ends.first he id ws hws).windowIds
  have hlt : idx < (m.setWorkspace idx ws').workspaces.length :=
    (length_set ..).symm ▸ lt_length_of_getElem? hws
  rcases settled_cleanUpAfterRemoval hinv hfirst hlt hmt with hsettled | rfl
  · exact (hcut.effect hinv).settled hsettled
  · exact hcut.effect hinv

/-! Moving windows and columns between workspaces. -/

theorem effect_addRemoved (h : m.Inv) {r : RemovedTile} (hfresh : r.tile.id ∉ m.windowIds)
    {id : ℕ} {activate : ActivateWindow} (hm : m.addRemoved r id activate = some m') :
    Effect [r.tile.id] [] m m' := (grown_addTile hfresh h hm).effect

/-- A tile that is cut from a workspace is added to another one. -/
theorem effect_moved (h : m.Inv) (hws : m.workspaces[i]? = some ws) {r : RemovedTile}
    (hcut : Workspace.Cut [r.tile.id] ws ws') {id : ℕ} {activate : ActivateWindow}
    (hm : (m.setWorkspace i ws').addRemoved r id activate = some m') : Effect [] [] m m' := by
  obtain ⟨hmon, hinv⟩ := h.cutWorkspace hws hcut
  exact hmon.moved (effect_addRemoved hinv (hmon.fresh h.toCore _ (mem_singleton_self _)) hm)

theorem effect_moveActiveTileTo (h : m.Inv) {activate : ActivateWindow}
    (hm : m.moveActiveTileTo i activate = some m') : Effect [] [] m m' := by
  unfold moveActiveTileTo at hm
  split at hm
  · exact some.inj hm ▸ .refl h
  · obtain ⟨target, -, hm⟩ := of_bind hm
    obtain ⟨source, hsource, hm⟩ := of_bind hm
    obtain ⟨_ | ⟨r, source'⟩, hr, hm⟩ := of_bind hm
    · exact some.inj hm ▸ .refl h
    · exact effect_moved h hsource (cut_removeActiveTile (h.ok_getElem? hsource) hr) hm

theorem effect_moveToWorkspace (h : m.Inv) {window : Option ℕ} {activate : ActivateWindow}
    (hm : m.moveToWorkspace window i activate = some m') : Effect [] [] m m' := by
  obtain ⟨sourceIdx, -, hm⟩ := of_bind hm
  dsimp only at hm
  split at hm
  · exact some.inj hm ▸ .refl h
  · obtain ⟨target, -, hm⟩ := of_bind hm
    obtain ⟨source, hsource, hm⟩ := of_bind hm
    obtain ⟨_ | ⟨r, source'⟩, hr, hm⟩ := of_bind hm
    · exact some.inj hm ▸ .refl h
    · obtain ⟨mt, hmt, hm⟩ := of_bind hm
      have hcut := cut_removeWindowOrActive (h.ok_getElem? hsource) hr
      exact (effect_moved h hsource hcut hmt).cleanUp hm

theorem effect_moveColumnTo (h : m.Inv) {activate : Bool} {other : Option Monitor}
    (hother : other = some m' → Effect [] [] m m') (hm : m.moveColumnTo i activate other = some m') :
    Effect [] [] m m' := by
  unfold moveColumnTo at hm
  split at hm
  · exact some.inj hm ▸ .refl h
  · obtain ⟨source, hsource, hm⟩ := of_bind hm
    split at hm
    · exact hother hm
    · obtain ⟨_ | ⟨column, source'⟩, hr, hm⟩ := of_bind hm
      · exact some.inj hm ▸ .refl h
      · have hok := h.ok_getElem? hsource
        obtain ⟨hmon, hinv⟩ := h.cutWorkspace hsource (Workspace.cut_removeActiveColumn hok hr)
        obtain ⟨s, hs, -⟩ := Workspace.removeActiveColumn_cases hr
        have hwf : column.Wf := ScrollingSpace.wf_removed hok.scrolling hs
        exact hmon.moved (grown_addColumn hinv hwf (hmon.fresh h.toCore) hm).effect

/-- The active workspace moves something or, if it does not, another operation does. -/
theorem effect_moveOr (h : m.Inv) {f : Workspace → Option (Bool × Workspace)}
    {g : Monitor → Option Monitor}
    (hf : ∀ ws b ws', ws.Ok → f ws = some (b, ws') → Workspace.Kept ws ws')
    (hg : ∀ mt, mt.Inv → g mt = some m' → Effect [] [] mt m')
    (hm : (m.activeWorkspace.bind fun ws => (f ws).bind fun r =>
      if r.1 then some (m.setWorkspace m.activeWorkspaceIdx r.2)
      else g (m.setWorkspace m.activeWorkspaceIdx r.2)) = some m') : Effect [] [] m m' := by
  obtain ⟨ws, hws, hm⟩ := of_bind hm
  obtain ⟨⟨b, ws'⟩, hr, hm⟩ := of_bind hm
  have hkept := hf ws b ws' (h.ok_getElem? hws) hr
  obtain ⟨hcut, hinv⟩ := h.cutWorkspace hws hkept.cut
  dsimp only at hm
  split at hm
  · exact some.inj hm ▸ hcut.effect hinv
  · exact hcut.moved (hg _ hinv hm)

theorem effect_moveDownOrToWorkspaceDown (h : m.Inv) (hm : m.moveDownOrToWorkspaceDown = some m') :
    Effect [] [] m m' :=
  effect_moveOr (f := Workspace.moveDown) (g := (·.moveToWorkspaceDown true)) h
    (fun _ _ _ hws => Workspace.kept_moveDown hws) (fun _ hmt => effect_moveActiveTileTo hmt) hm

theorem effect_moveUpOrToWorkspaceUp (h : m.Inv) (hm : m.moveUpOrToWorkspaceUp = some m') :
    Effect [] [] m m' :=
  effect_moveOr (f := Workspace.moveUp) (g := (·.moveToWorkspaceUp true)) h
    (fun _ _ _ hws => Workspace.kept_moveUp hws) (fun _ hmt => effect_moveActiveTileTo hmt) hm

/-! The end of an interactive move. -/

theorem resolveInsertWorkspace_spec (h : m.Inv) {target : InsertWorkspace}
    (hm : m.resolveInsertWorkspace target = some (m', i)) : Kept m m' ∧ m'.Inv := by
  unfold resolveInsertWorkspace at hm
  split at hm
  · obtain ⟨idx, -, heq⟩ := of_map hm
    obtain ⟨rfl, rfl⟩ := Prod.mk.inj heq
    exact ⟨.refl h.toCore, h⟩
  · rename_i idx
    split at hm
    · obtain ⟨rfl, rfl⟩ := pair_inj hm
      exact ⟨.refl h.toCore, h⟩
    · rename_i hfirst
      split at hm
      · obtain ⟨rfl, rfl⟩ := pair_inj hm
        exact ⟨.refl h.toCore, h⟩
      · obtain ⟨rfl, rfl⟩ := pair_inj hm
        have hkept := kept_addWorkspaceAt h.toCore (show idx ≤ m.workspaces.length by omega)
        exact ⟨hkept, hkept.core, Ends.addWorkspaceAt h.ends (by omega)⟩

theorem grown_dropTile (h : m.Inv) {d : InteractiveMoveData} (hfresh : d.tile.id ∉ m.windowIds)
    {drop : DropPoint} {allow : Bool} (hm : m.dropTile d drop allow = some m') :
    Grown [d.tile.id] m m' := by
  obtain ⟨⟨mt, idx⟩, hmt, hm⟩ := of_bind hm
  obtain ⟨hkept, hinv⟩ := resolveInsertWorkspace_spec h hmt
  obtain ⟨ws, -, hm⟩ := of_bind hm
  have hnew : d.tile.id ∉ mt.windowIds := fun hmem => hfresh (hkept.windowIds.mem_iff.mp hmem)
  refine hkept.grown ?_
  generalize dropPosition d.isFloating drop = position at hm
  cases position with
  | newColumn columnIdx => exact grown_addTile hnew hinv hm
  | inColumn columnIdx tileIdx =>
    have hm : mt.addTileToColumn idx columnIdx (some tileIdx) d.tile true allow = some m' := hm
    exact grown_addTileToColumn hinv hnew hm
  | floating =>
    have hid : (d.floatingTile ws drop).id = d.tile.id := rfl
    rw [← hid] at hnew ⊢
    have hm : (if d.isFloating then mt.addTile (d.floatingTile ws drop) (.workspace ws.id none) .yes
      allow d.width d.isFullWidth true ⟨0, 0⟩ else none) = some m' := hm
    split at hm
    · exact grown_addTile hnew hinv hm
    · cases hm

end Monitor

end Macniri.Layout
