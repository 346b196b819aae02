import Macniri.Layout.HomesOps
import Macniri.Lib.FirstMatch

/-! Names, config, gestures and time leave the workspaces at home, and so does every run. -/
namespace Macniri.Layout

open Option List

open Workspace (Stays AtHome)
open Monitor (Houses)

variable {l l' lt : Layout} {m m' : Monitor} {ws ws' : Workspace} {idx window : ℕ} {output : Output}

/-! The interactive move. -/

theorem housed_interactiveMoveBegin (h : l.Housed) {visible : Bool}
    (hl : l.interactiveMoveBegin window output visible = some l') : l'.Housed := by
  unfold interactiveMoveBegin at hl
  split at hl
  · exact some.inj hl ▸ h
  · split at hl
    · exact some.inj hl ▸ h
    · split at hl
      · exact some.inj hl ▸ h
      · obtain ⟨ws, -, hl⟩ := of_bind hl
        obtain ⟨lt, hlt, hl⟩ := of_bind hl
        have hstarting (move : Option InteractiveMoveState) :
            Housed { l with interactiveMove := move } := h.congr rfl
        exact ((hstarting _).forMonitors
          (houses_some Monitor.houses_dndScrollGestureBegin) hlt).forWorkspacesIf
          (stays_some fun ws => Workspace.stays_spaces ws _ _ _) hl

theorem housed_detachWindow (h : l.Housed) {renderPos : Point} {r : Option RemovedTile}
    (hl : l.detachWindow window renderPos = some (r, l')) : l'.Housed := by
  obtain ⟨lt, hlt, hl⟩ := of_bind hl
  have hnone : Housed { l with interactiveMove := none } := h.congr rfl
  refine housed_removeWindow (hnone.onFirstWorkspace (fun ws ws' hws => ?_) hlt) hl
  obtain ⟨wt, hwt, hws⟩ := of_bind hws
  exact (Workspace.stays_setFullscreen hwt).trans (Workspace.stays_setMaximized hws)

theorem housed_startMoving (h : l.Housed) {renderPos : Point}
    (hl : l.startMoving window output renderPos = some l') : l'.Housed := by
  obtain ⟨ws, -, hl⟩ := of_bind hl
  obtain ⟨⟨r, lt⟩, hlt, hl⟩ := of_bind hl
  obtain ⟨removed, -, hl⟩ := of_bind hl
  obtain ⟨lu, hlu, hl⟩ := of_bind hl
  have hu := (housed_detachWindow h hlt).forWorkspacesIf
    (stays_some fun ws => Workspace.stays_spaces ws _ _ _) hlu
  exact some.inj hl ▸ hu.congr rfl

theorem housed_updateStarting (h : l.Housed) {pointerDelta delta renderPos : Point}
    (hl : l.updateStarting window pointerDelta delta output renderPos = some l') : l'.Housed := by
  obtain ⟨ws, -, hl⟩ := of_bind hl
  split at hl
  · exact some.inj hl ▸ h.congr rfl
  · exact housed_startMoving h hl

theorem Housed.updateMoving (h : l.Housed) (d : InteractiveMoveData) (output : Output)
    (workspaceUnder : Option ℕ) : (l.updateMoving d output workspaceUnder).Housed := by
  have hstay (move : Option InteractiveMoveState) : Housed { l with interactiveMove := move } :=
    h.congr rfl
  have hfocus (move : Option InteractiveMoveState) :
      Housed { l.focusOutput output with interactiveMove := move } := (h.focusOutput output).congr rfl
  unfold Layout.updateMoving
  dsimp only
  split
  · split
    · exact hstay _
    · exact hfocus _
  · split
    · exact hstay _
    · exact hfocus _

theorem housed_interactiveMoveUpdate (h : l.Housed) {delta renderPos : Point} {under : Option ℕ}
    (hl : l.interactiveMoveUpdate window delta output under renderPos = some l') : l'.Housed := by
  unfold interactiveMoveUpdate at hl
  split at hl
  · split at hl
    · exact housed_updateStarting h hl
    · exact some.inj hl ▸ h
  · split at hl
    · exact some.inj hl ▸ h.updateMoving ..
    · exact some.inj hl ▸ h
  · exact some.inj hl ▸ h

theorem housed_dropWindow (h : l.Housed) {d : InteractiveMoveData} {drop : DropPoint}
    (hl : l.dropWindow d drop = some l') : l'.Housed := by
  unfold dropWindow at hl
  dsimp only at hl
  split at hl
  · split at hl
    · exact h.onMonitor (fun _ _ => Monitor.houses_dropTile) hl
    · refine h.onMonitor (fun m m' hm => ?_) hl
      obtain ⟨first, -, hm⟩ := of_bind hm
      exact Monitor.houses_dropTile hm
  · exact h.ensureWorkspace.onWorkspaceNoOutputs (fun _ _ => Workspace.stays_addTile) hl

theorem housed_interactiveMoveEnd (h : l.Housed) {drop : DropPoint}
    (hl : l.interactiveMoveEnd window drop = some l') : l'.Housed := by
  unfold interactiveMoveEnd at hl
  split at hl
  · split at hl
    · exact housed_cancelMove h hl
    · exact some.inj hl ▸ h
  · split at hl
    · obtain ⟨lt, hlt, hl⟩ := of_bind hl
      obtain ⟨lu, hlu, hl⟩ := of_bind hl
      have hnone : Housed { l with interactiveMove := none } := h.congr rfl
      have ht := hnone.forMonitors (fun _ _ => Monitor.houses_dndScrollGestureEnd) hlt
      exact housed_dropWindow
        (ht.forWorkspacesIf (stays_some fun ws => Workspace.stays_spaces ws _ _ _) hlu) hl
    · exact some.inj hl ▸ h
  · exact some.inj hl ▸ h

theorem housed_applyLayoutWindow (h : l.Housed) {op : LayoutWindowOp}
    (hl : l.applyLayoutWindow op = some l') : l'.Housed := by
  cases op with
  | addWindow => exact housed_addWindow h hl
  | removeWindow =>
    obtain ⟨⟨r, lt⟩, hlt, rfl⟩ := of_map hl
    exact housed_removeWindow h hlt
  | moveToWorkspace => exact housed_moveToWorkspace h hl
  | activateWindow =>
    exact housed_showWindow h
      (fun _ _ => Workspace.stays_snd fun _ _ => Workspace.stays_activateWindow) hl
  | activateWindowWithoutRaising =>
    exact housed_showWindow h
      (stays_some fun ws => Workspace.stays_activateWindowWithoutRaising ws _) hl
  | descendantsAdded => exact housed_descendantsAdded h hl
  | updateWindow => exact housed_updateWindow h hl
  | setParent => exact housed_modifyWindow h hl
  | toggleWindowFloating => exact housed_toggleWindowFloating h hl
  | setWindowFloating => exact housed_setWindowFloating h hl
  | setFullscreen => exact housed_setFullscreen h hl
  | toggleFullscreen => exact h.onUnmoved (fun _ _ => Workspace.stays_toggleFullscreen) hl
  | toggleWindowedFullscreen => exact housed_toggleWindowedFullscreen h hl
  | setMaximized | toggleMaximized => exact h.onUnmoved (fun _ _ => Workspace.stays_setMaximized) hl
  | interactiveResizeBegin => exact h.onWorkspaceOf (fun _ _ => Workspace.stays_onSpaceOf) hl
  | interactiveResizeUpdate | interactiveResizeEnd =>
    exact h.onUnmoved (fun _ _ => Workspace.stays_onSpaceOf) hl
  | interactiveMoveBegin => exact housed_interactiveMoveBegin h hl
  | interactiveMoveUpdate => exact housed_interactiveMoveUpdate h hl
  | interactiveMoveEnd => exact housed_interactiveMoveEnd h hl

/-! Names and config. -/

theorem housed_moveWorkspaceToIdx (h : l.Housed) {reference : Option (Option Output × ℕ)}
    (hl : l.moveWorkspaceToIdx reference idx = some l') : l'.Housed := by
  unfold moveWorkspaceToIdx at hl
  split at hl
  · split at hl
    · exact some.inj hl ▸ h
    · exact h.onMonitor (fun _ _ => Monitor.houses_moveWorkspaceToIdx) hl
  · exact h.onActiveMonitor (fun _ _ => Monitor.houses_moveWorkspaceToIdx) hl
  · exact h.onActiveMonitor (fun _ _ => Monitor.houses_moveWorkspaceToIdx) hl

theorem housed_setWorkspaceName (h : l.Housed) {name : String} {reference : Option WorkspaceReference}
    (hl : l.setWorkspaceName name reference = some l') : l'.Housed := by
  unfold setWorkspaceName at hl
  split at hl
  · exact some.inj hl ▸ h
  · split at hl
    · exact some.inj hl ▸ h
    · obtain ⟨lt, hlt, hl⟩ := of_bind hl
      have ht := h.onFirstOf (fun _ _ => Monitor.houses_rename)
        (fun _ _ hws => some.inj hws ▸ rfl) hlt
      exact ht.onActiveMonitor (houses_some fun m => Monitor.houses_padNamed m _) hl

theorem housed_unnameWorkspaceById (h : l.Housed) {id : ℕ} (hl : l.unnameWorkspaceById id = some l') :
    l'.Housed := by
  unfold unnameWorkspaceById at hl
  split at hl
  · split at hl
    · exact some.inj hl ▸ h
    · exact h.onMonitor (fun _ _ => Monitor.houses_unnameWorkspace) hl
  · rename_i workspaces hset
    split at hl
    · exact some.inj hl ▸ h
    · obtain ⟨ws, hws, rfl⟩ := of_bind_some hl
      refine housed_of_noOutputs rfl fun w hw => ?_
      split at hw
      · obtain rfl | hw := mem_of_mem_set hw
        · exact h.noOutputs hset ws (mem_of_getElem? hws)
        · exact h.noOutputs hset w hw
      · exact h.noOutputs hset w (mem_of_mem_eraseIdx hw)

theorem housed_unnameWorkspace (h : l.Housed) {name : String} (hl : l.unnameWorkspace name = some l') :
    l'.Housed := by
  unfold unnameWorkspace unnameWorkspaceByRef at hl
  split at hl
  · exact some.inj hl ▸ h
  · exact housed_unnameWorkspaceById h hl

theorem housed_unsetWorkspaceName (h : l.Housed) {reference : Option WorkspaceReference}
    (hl : l.unsetWorkspaceName reference = some l') : l'.Housed := by
  unfold unsetWorkspaceName at hl
  split at hl
  · exact some.inj hl ▸ h
  · exact housed_unnameWorkspaceById h hl

/-- The output that a config section names, if there is one, is named by its very id. -/
def Spelled (l : Layout) (config : WorkspaceConfig) : Prop :=
  (l.findWorkspaceByName config.name).isSome = true ∨
    ∀ name, config.openOnOutput = some name →
      ∀ m, l.monitors.find? (·.output.name.matches name) = some m →
        OutputId.mk name = OutputId.new m.output

instance (l : Layout) (config : WorkspaceConfig) : Decidable (l.Spelled config) := by
  unfold Spelled
  infer_instance

theorem houses_insertNamed {config : WorkspaceConfig} {clock : ℚ} {options : Options}
    (hspelled : ∀ name, config.openOnOutput = some name → m.output.name.matches name = true →
      OutputId.mk name = OutputId.new m.output)
    (hm : insertNamed m config clock options = some m') : Houses m m' := by
  have hcount : Houses m { m with nextId := m.nextId + 1 } := .of_eq rfl rfl
  refine hcount.trans (Monitor.houses_insertWorkspace ?_ hm)
  -- The workspace is created on the monitor, so its output is not set anew.
  have hsame : (Workspace.newWithConfig m.nextId m.output (some config) clock options).setOutput
      (some m.output) = Workspace.newWithConfig m.nextId m.output (some config) clock options :=
    if_pos rfl
  change AtHome m.output ((Workspace.newWithConfig m.nextId m.output (some config) clock
    options).setOutput (some m.output))
  rw [hsame]
  refine ⟨rfl, ?_⟩
  change (((config.openOnOutput).map OutputId.mk).getD (OutputId.new m.output)).matches m.output = true →
    ((config.openOnOutput).map OutputId.mk).getD (OutputId.new m.output) = OutputId.new m.output
  cases hopen : config.openOnOutput with
  | none => exact fun _ => rfl
  | some name => exact hspelled name hopen

theorem housed_ensureNamedWorkspace (h : l.Housed) {config : WorkspaceConfig} (hop : l.Spelled config)
    (hl : l.ensureNamedWorkspace config = some l') : l'.Housed := by
  unfold ensureNamedWorkspace at hl
  split at hl
  · exact some.inj hl ▸ h
  · rename_i hnew
    have hspelled := hop.resolve_left hnew
    split at hl
    · rename_i ms primaryIdx activeMonitorIdx hset
      have hms : l.monitors = ms := by simp [monitors, hset]
      obtain ⟨m, hm, hl⟩ := of_bind hl
      obtain ⟨m', hm', rfl⟩ := of_bind_some hl
      refine h.setMonitor ((h.monitorAt hm).houses (houses_insertNamed ?_ hm')) _
      intro name hopen hmatches
      obtain ⟨w, hw, rfl⟩ := of_map hm
      have hw : l.monitors[_]? = some w := hw
      rw [hms, hopen] at hw
      dsimp only at hw
      refine hspelled name hopen w ?_
      rw [hms]
      cases hidx : ms.findIdx? (·.output.name.matches name) with
      | some i =>
        rw [hidx] at hw
        exact find?_of_findIdx? hidx hw
      | none =>
        -- The workspace is opened on the primary monitor, which is not the one that is named.
        have hnot := findIdx?_eq_none_iff.mp hidx w (mem_of_getElem? hw)
        exact absurd hmatches (by simpa using hnot)
    · rename_i workspaces hset
      obtain rfl := some.inj hl
      refine housed_of_noOutputs rfl fun ws hws => ?_
      obtain _ | ⟨_, hws⟩ := hws
      · rfl
      · exact h.noOutputs hset ws hws

theorem stays_updateNamed (config : Config) (ws : Workspace) : Stays ws (updateNamed config ws) := by
  unfold updateNamed
  split
  · exact .refl ws
  · split
    · exact .refl ws
    · exact Workspace.stays_updateLayoutConfig ..

theorem housed_updateConfig (h : l.Housed) {config : Config} (hl : l.updateConfig config = some l') :
    l'.Housed := by
  obtain ⟨lt, hlt, hl⟩ := of_bind hl
  obtain ⟨lu, hlu, rfl⟩ := of_bind_some hl
  have ht := h.forWorkspaces (stays_some (stays_updateNamed config)) hlt
  have hmoving : (lt.onMoving fun d => d.updateConfig config.options d.output).Housed := ht.congr rfl
  unfold updateParts at hlu
  split at hlu
  · exact (hmoving.forMonitors
      (houses_some fun m => Monitor.houses_updateConfig m config.options) hlu).congr rfl
  · have hws (ws : Workspace) : Stays ws (ws.updateConfig config.options) := ⟨rfl, rfl, rfl, rfl⟩
    exact (hmoving.forWorkspaces (stays_some hws) hlu).congr rfl

/-- A workspace of the config is opened on the output by its very id. -/
def NamingOp.Spelled (l : Layout) : NamingOp → Prop
  | .ensureNamedWorkspace config => l.Spelled config
  | _ => True

instance (l : Layout) : (op : NamingOp) → Decidable (op.Spelled l)
  | .ensureNamedWorkspace config => inferInstanceAs (Decidable (l.Spelled config))
  | .moveWorkspaceToIdx _ _ | .setWorkspaceName _ _ | .unsetWorkspaceName _ | .unnameWorkspace _
  | .updateConfig _ => inferInstanceAs (Decidable True)

theorem housed_applyNaming (h : l.Housed) {op : NamingOp} (hop : op.Spelled l)
    (hl : l.applyNaming op = some l') : l'.Housed := by
  cases op with
  | moveWorkspaceToIdx => exact housed_moveWorkspaceToIdx h hl
  | setWorkspaceName => exact housed_setWorkspaceName h hl
  | unsetWorkspaceName => exact housed_unsetWorkspaceName h hl
  | unnameWorkspace => exact housed_unnameWorkspace h hl
  | ensureNamedWorkspace => exact housed_ensureNamedWorkspace h hop hl
  | updateConfig => exact housed_updateConfig h hl

/-! The overview, gestures and drags. -/

theorem housed_setMonitorsOverviewState (h : l.Housed) (hl : l.setMonitorsOverviewState = some l') :
    l'.Housed := by
  refine h.forMonitors (fun m m' hm => ?_) hl
  exact some.inj hm ▸ .of_eq rfl rfl

theorem housed_toggleOverview (h : l.Housed) (hl : l.toggleOverview = some l') : l'.Housed := by
  have hopen : Housed { l with
      overviewOpen := !l.overviewOpen
      overviewProgress := some (.animation ⟨l.overviewValue, if l.overviewOpen then 0 else 1⟩) } :=
    h.congr rfl
  exact housed_setMonitorsOverviewState hopen hl

theorem housed_openOverview (h : l.Housed) (hl : l.openOverview = some l') : l'.Housed := by
  unfold openOverview at hl
  split at hl
  · exact some.inj hl ▸ h
  · exact housed_toggleOverview h hl

theorem housed_closeOverview (h : l.Housed) (hl : l.closeOverview = some l') : l'.Housed := by
  unfold closeOverview at hl
  split at hl
  · exact housed_toggleOverview h hl
  · exact some.inj hl ▸ h

theorem housed_toggleOverviewToWorkspace (h : l.Housed) (hl : l.toggleOverviewToWorkspace idx = some l') :
    l'.Housed := by
  obtain ⟨lt, hlt, hl⟩ := of_bind hl
  refine housed_toggleOverview (h.onActiveMonitor (fun m m' hm => ?_) hlt) hl
  split at hm
  · exact Monitor.houses_activateWorkspace hm
  · cases hm

theorem housed_overviewGestureUpdate (h : l.Housed) {deltaY timestamp : ℚ}
    (hl : l.overviewGestureUpdate deltaY timestamp = some l') : l'.Housed := by
  have hprogress (progress : Option OverviewProgress) : Housed { l with overviewProgress := progress } :=
    h.congr rfl
  unfold overviewGestureUpdate at hl
  split at hl
  · dsimp only at hl
    split at hl
    · exact some.inj hl ▸ hprogress _
    · exact housed_setMonitorsOverviewState (hprogress _) hl
  · exact some.inj hl ▸ h

theorem housed_overviewGestureEnd (h : l.Housed) (hl : l.overviewGestureEnd = some l') : l'.Housed := by
  have hopen (b : Bool) (progress : Option OverviewProgress) :
      Housed { l with overviewOpen := b, overviewProgress := progress } := h.congr rfl
  unfold overviewGestureEnd at hl
  split at hl
  · exact housed_setMonitorsOverviewState (hopen _ _) hl
  · exact some.inj hl ▸ h

theorem housed_workspaceSwitchGestureBegin (h : l.Housed) {isTouchpad : Bool}
    (hl : l.workspaceSwitchGestureBegin output isTouchpad = some l') : l'.Housed := by
  unfold workspaceSwitchGestureBegin at hl
  split at hl
  · cases hl
  · refine h.forMonitors (fun m m' hm => ?_) hl
    split at hm
    · exact some.inj hm ▸ .of_eq rfl rfl
    · exact Monitor.houses_workspaceSwitchGestureEnd hm

theorem houses_mapWorkspaces (m : Monitor) {f : ℕ → Workspace → Workspace}
    (hf : ∀ i ws, Stays ws (f i ws)) : Houses m (mapWorkspaces m f) := by
  refine .of_forall rfl fun ws' hws' => .inr ?_
  obtain ⟨i, hi⟩ := getElem?_of_mem hws'
  obtain ⟨ws, hws, rfl⟩ := of_map (getElem?_mapIdx ▸ hi)
  exact ⟨ws, mem_of_getElem? hws, hf i ws⟩

theorem housed_viewOffsetGestureBegin (h : l.Housed) {workspaceIdx : Option ℕ} {isTouchpad : Bool}
    (hl : l.viewOffsetGestureBegin output workspaceIdx isTouchpad = some l') : l'.Housed := by
  unfold viewOffsetGestureBegin at hl
  split at hl
  · cases hl
  · refine h.forMonitors (houses_some fun m => houses_mapWorkspaces m fun i ws => ?_) hl
    split
    · exact Workspace.stays_spaces ..
    · exact Workspace.stays_spaces ..

theorem housed_onFirstVisible (h : l.Housed) {p : Workspace → Bool} {f : Workspace → Workspace}
    (hf : ∀ ws, Stays ws (f ws)) (hl : l.onFirstVisible p f = some l') : l'.Housed :=
  h.onFirstMonitor (fun _ _ => Monitor.houses_onFirst (stays_some hf)) hl

theorem housed_dndUpdate (h : l.Housed) (hl : l.dndUpdate output = some l') : l'.Housed := by
  have hdnd (dnd : Option DndData) : Housed { l with dnd := dnd } := h.congr rfl
  unfold dndUpdate at hl
  split at hl
  · exact some.inj hl ▸ hdnd _
  · obtain ⟨lt, hlt, hl⟩ := of_bind hl
    exact ((hdnd _).forMonitors (houses_some Monitor.houses_dndScrollGestureBegin) hlt).forWorkspaces
      (stays_some fun ws => Workspace.stays_spaces ws _ _ _) hl

theorem housed_dndEnd (h : l.Housed) (hl : l.dndEnd = some l') : l'.Housed := by
  have hdnd (dnd : Option DndData) : Housed { l with dnd := dnd } := h.congr rfl
  unfold dndEnd at hl
  split at hl
  · exact some.inj hl ▸ h
  · exact housed_endDndScroll (hdnd _) hl

/-! Time. -/

theorem housed_setClock (h : l.Housed) {now : ℚ} {anim : AnimationState}
    (hl : l.setClock now anim = some l') : l'.Housed := by
  have hclock (progress : Option OverviewProgress) :
      Housed { l with clock := now, overviewProgress := progress } := h.congr rfl
  unfold setClock at hl
  dsimp only at hl
  split at hl
  · exact (hclock _).forMonitors (houses_some fun m => Monitor.houses_setClock m now _) hl
  · refine (hclock _).forWorkspaces (fun ws ws' hws => ?_) hl
    exact some.inj hws ▸ ⟨rfl, rfl, rfl, rfl⟩

theorem houses_dndScroll {isScrolling b : Bool} {pointer : PointerState}
    (hm : dndScroll m isScrolling pointer = some (b, m')) : Houses m m' := by
  obtain ⟨⟨scrolled, mt⟩, hmt, hm⟩ := of_bind hm
  have hscroll := Monitor.houses_dndScrollGestureScroll hmt
  dsimp only at hm
  split at hm
  · obtain ⟨-, rfl⟩ := pair_inj hm
    exact hscroll
  · obtain ⟨idx, -, hm⟩ := of_bind hm
    obtain ⟨ws, hws, hm⟩ := of_bind hm
    obtain ⟨-, rfl⟩ := pair_inj hm
    exact hscroll.trans (Monitor.houses_setWorkspace hws (Workspace.stays_spaces ..))

theorem houses_activateHeld {target : DndHoldTarget} (hm : activateHeld m target = some m') :
    Houses m m' := by
  obtain ⟨⟨mt, idx⟩, hmt, hm⟩ := of_bind hm
  obtain ⟨mu, hmu, hm⟩ := of_bind hm
  have htarget : Houses m mt := by
    cases target with
    | window id =>
      obtain ⟨i, -, hmt⟩ := of_bind hmt
      obtain ⟨mv, hmv, hmt⟩ := of_bind hmt
      obtain ⟨rfl, -⟩ := pair_inj hmt
      exact Monitor.houses_onWorkspace
        (fun _ _ => Workspace.stays_snd fun _ _ => Workspace.stays_activateWindow) hmv
    | workspace id =>
      obtain ⟨i, -, hmt⟩ := of_map hmt
      obtain ⟨rfl, -⟩ := Prod.mk.inj hmt
      exact .refl m
  exact htarget.trans
    ((Monitor.houses_dndScrollGestureEnd hmu).trans (Monitor.houses_activateWorkspace hm))

theorem housed_updateDndHold (h : l.Housed) {dnd : DndData} {target : Option DndHoldTarget}
    (hl : l.updateDndHold dnd idx target = some l') : l'.Housed := by
  have hdnd (dnd : Option DndData) : Housed { l with dnd := dnd } := h.congr rfl
  unfold updateDndHold at hl
  split at hl
  · exact some.inj hl ▸ hdnd _
  · dsimp only at hl
    split at hl
    · obtain ⟨lt, hlt, hl⟩ := of_bind hl
      have ht := (hdnd _).onMonitor (fun _ _ => houses_activateHeld) hlt
      exact housed_closeOverview (ht.focusOutput dnd.output) hl
    · exact some.inj hl ▸ hdnd _

theorem housed_afterDndScroll (h : l.Housed) {scrolled : Bool} {target : Option DndHoldTarget}
    (hl : l.afterDndScroll idx scrolled target = some l') : l'.Housed := by
  unfold afterDndScroll at hl
  split at hl
  · exact some.inj hl ▸ h
  · split at hl
    · exact some.inj hl ▸ h.congr rfl
    · exact housed_updateDndHold h hl

theorem housed_advanceDnd (h : l.Housed) {pointer : PointerState}
    (hl : l.advanceDnd pointer = some l') : l'.Housed := by
  unfold advanceDnd at hl
  split at hl
  · exact some.inj hl ▸ h
  · split at hl
    · exact some.inj hl ▸ h
    · rename_i idx hidx
      obtain ⟨m, hm, hl⟩ := of_bind hl
      obtain ⟨⟨scrolled, m'⟩, hm', hl⟩ := of_bind hl
      exact housed_afterDndScroll (h.setMonitor ((h.monitorAt hm).houses (houses_dndScroll hm')) idx) hl

theorem Housed.advanceOverview (h : l.Housed) (done : Bool) : (l.advanceOverview done).Housed := by
  unfold Layout.advanceOverview
  split
  · split
    · exact h.congr rfl
    · exact h
  · exact h

theorem housed_advanceAnimations (h : l.Housed) {anim : AnimationState} {pointer : PointerState}
    (hl : l.advanceAnimations anim pointer = some l') : l'.Housed := by
  obtain ⟨lt, hlt, hl⟩ := of_bind hl
  have ht := (housed_advanceDnd h hlt).advanceOverview anim.overviewDone
  dsimp only at hl
  split at hl
  · refine ht.forMonitors (fun m m' hm => ?_) hl
    exact (Monitor.houses_setOverviewProgress m _).trans (Monitor.houses_advanceAnimations hm)
  · refine ht.forWorkspaces (fun ws ws' hws => ?_) hl
    exact some.inj hws ▸ ⟨rfl, rfl, rfl, rfl⟩

theorem houses_refreshSwitch {overviewOpen : Bool} {ongoing : Option Bool}
    (hm : refreshSwitch m overviewOpen ongoing = some m') : Houses m m' := by
  unfold refreshSwitch at hm
  split at hm
  · exact some.inj hm ▸ Monitor.houses_dndScrollGestureBegin m
  · split at hm
    · exact some.inj hm ▸ .refl m
    · exact Monitor.houses_dndScrollGestureEnd hm

theorem stays_refreshView (ws : Workspace) (ongoing : Option Bool) (cancel : Bool) :
    Stays ws (refreshView ws ongoing cancel) := by
  unfold refreshView
  split
  · exact Workspace.stays_spaces ..
  · exact Workspace.stays_spaces ..
  · split
    · exact Workspace.stays_spaces ..
    · exact Workspace.stays_spaces ..

theorem housed_refresh (h : l.Housed) (hl : l.refresh = some l') : l'.Housed := by
  obtain ⟨ongoing, -, hl⟩ := of_bind hl
  have hmoving : (l.onMoving fun d => { d with tile := d.tile.setInteractiveResize none }).Housed :=
    h.congr rfl
  dsimp only at hl
  split at hl
  · refine hmoving.forMonitors (fun m m' hm => ?_) hl
    obtain ⟨mt, hmt, hm⟩ := of_bind hm
    exact some.inj hm ▸ (houses_refreshSwitch hmt).trans
      (houses_mapWorkspaces mt fun _ ws => stays_refreshView ws ongoing _)
  · refine hmoving.forWorkspaces (fun ws ws' hws => ?_) hl
    exact some.inj hws ▸ Workspace.stays_spaces ..

theorem housed_applyProgress (h : l.Housed) {op : ProgressOp} (hl : l.applyProgress op = some l') :
    l'.Housed := by
  cases op with
  | toggleOverview => exact housed_toggleOverview h hl
  | openOverview => exact housed_openOverview h hl
  | closeOverview => exact housed_closeOverview h hl
  | toggleOverviewToWorkspace => exact housed_toggleOverviewToWorkspace h hl
  | overviewGestureBegin =>
    have hopen (progress : Option OverviewProgress) :
        Housed { l with overviewOpen := true, overviewProgress := progress } := h.congr rfl
    exact housed_setMonitorsOverviewState (hopen _) hl
  | overviewGestureUpdate => exact housed_overviewGestureUpdate h hl
  | overviewGestureEnd => exact housed_overviewGestureEnd h hl
  | workspaceSwitchGestureBegin => exact housed_workspaceSwitchGestureBegin h hl
  | workspaceSwitchGestureUpdate =>
    exact h.onFirstMonitor (fun _ _ => Monitor.houses_workspaceSwitchGestureUpdate) hl
  | workspaceSwitchGestureEnd =>
    exact h.onFirstMonitor (fun _ _ => Monitor.houses_workspaceSwitchGestureEnd) hl
  | viewOffsetGestureBegin => exact housed_viewOffsetGestureBegin h hl
  | viewOffsetGestureUpdate deltaX timestamp isTouchpad =>
    refine housed_onFirstVisible (f := fun ws => ws.viewOffsetGestureUpdate _ timestamp isTouchpad) h ?_ hl
    exact fun ws => Workspace.stays_spaces ..
  | viewOffsetGestureEnd isTouchpad =>
    refine housed_onFirstVisible (f := fun ws => ws.viewOffsetGestureEnd isTouchpad) h ?_ hl
    exact fun ws => Workspace.stays_spaces ..
  | dndUpdate => exact housed_dndUpdate h hl
  | dndEnd => exact housed_dndEnd h hl
  | setClock => exact housed_setClock h hl
  | advanceAnimations => exact housed_advanceAnimations h hl
  | refresh => exact housed_refresh h hl

/-! Runs. -/

/-- An output that is added is a new object, whose connector has no blanks. The name of an output
never changes. -/
def OutputOp.Promised (l : Layout) : OutputOp → Prop
  | .addOutput output _ =>
    (∀ m ∈ l.monitors, m.output.handle ≠ output.handle) ∧ ' ' ∉ output.name.connector.toList
  | .updateOutputSize output =>
    ∀ m ∈ l.monitors, m.output.same output = true → output.name = m.output.name
  | _ => True

instance (l : Layout) : (op : OutputOp) → Decidable (op.Promised l)
  | .addOutput output _ => inferInstanceAs (Decidable
      ((∀ m ∈ l.monitors, m.output.handle ≠ output.handle) ∧ ' ' ∉ output.name.connector.toList))
  | .updateOutputSize output => inferInstanceAs (Decidable
      (∀ m ∈ l.monitors, m.output.same output = true → output.name = m.output.name))
  | .removeOutput _ | .focusOutput _ | .updateLayoutConfig _ _ => inferInstanceAs (Decidable True)

theorem housed_applyOutput (h : l.Housed) {op : OutputOp} (hop : op.Promised l)
    (hl : l.applyOutput op = some l') : l'.Housed := by
  cases op with
  | addOutput => exact housed_addOutput h hop.1 hop.2 hl
  | removeOutput => exact housed_removeOutput h hl
  | focusOutput output => exact some.inj hl ▸ h.focusOutput output
  | updateOutputSize => exact housed_updateOutputSize h hop hl
  | updateLayoutConfig => exact housed_updateLayoutConfig h hl

/-- What the backend promises of its outputs. -/
def LayoutOp.Promised (l : Layout) : LayoutOp → Prop
  | .output op => op.Promised l
  | _ => True

def LayoutOp.Spelled (l : Layout) : LayoutOp → Prop
  | .naming op => op.Spelled l
  | _ => True

instance (l : Layout) : (op : LayoutOp) → Decidable (op.Promised l)
  | .output op => inferInstanceAs (Decidable (op.Promised l))
  | .active _ | .window _ _ | .activeMonitor _ | .transfer _ | .layoutWindow _ | .naming _
  | .progress _ => inferInstanceAs (Decidable True)

instance (l : Layout) : (op : LayoutOp) → Decidable (op.Spelled l)
  | .naming op => inferInstanceAs (Decidable (op.Spelled l))
  | .active _ | .window _ _ | .activeMonitor _ | .transfer _ | .layoutWindow _ | .output _
  | .progress _ => inferInstanceAs (Decidable True)

theorem housed_apply (h : l.Housed) {op : LayoutOp} (hpromised : op.Promised l) (hop : op.Spelled l)
    (hl : l.apply op = some l') : l'.Housed := by
  cases op with
  | active op => exact h.onActiveWorkspace (fun _ _ => Workspace.stays_applyActive) hl
  | window window op => exact h.onWindow (fun _ _ => Workspace.stays_applyWindow) hl
  | activeMonitor op => exact h.onActiveMonitor (fun _ _ => houses_applyActive) hl
  | output op => exact housed_applyOutput h hpromised hl
  | transfer op => exact housed_applyTransfer h hl
  | layoutWindow op => exact housed_applyLayoutWindow h hl
  | naming op => exact housed_applyNaming h hop hl
  | progress op => exact housed_applyProgress h hl

theorem housed_new (clock : ℚ) (config : Config) : (new clock config).Housed := by
  have hall (configs : List WorkspaceConfig) (id : ℕ) :
      ∀ ws ∈ configWorkspaces clock config.options id configs, ws.output = none := by
    induction configs generalizing id with
    | nil => exact fun ws hws => absurd hws not_mem_nil
    | cons first rest ih =>
      rintro ws (_ | ⟨_, hws⟩)
      · rfl
      · exact ih (id + 1) ws hws
  exact housed_of_noOutputs rfl (hall config.workspaces 1)

/-- The workspaces are at home in every state that is reached. -/
theorem housed_run {clock : ℚ} {config : Config} {ops : List LayoutOp}
    (hpromised : AllAlong apply (fun l op => op.Promised l) (new clock config) ops)
    (hspelled : AllAlong apply (fun l op => op.Spelled l) (new clock config) ops)
    (hl : run apply (new clock config) ops = some l) : l.Housed :=
  run_invariant_of_allAlong (fun _ _ _ h hop hl => housed_apply h hop.1 hop.2 hl) (housed_new clock config)
    (hpromised.and hspelled) hl

end Macniri.Layout
