import Macniri.Layout.SoundWindows
import Macniri.Scrolling.Step

/-! Names, config, gestures and time lose no window, and neither does any run. -/
namespace Macniri.Layout

open Option List

variable {l l' lt : Layout} {m m' mt : Monitor} {ws ws' : Workspace} {idx w window : ℕ}
variable {output : Output}

/-! Names. -/

theorem Monitor.keeps_moveWorkspaceToIdx {i j : ℕ} (h : m.Sound)
    (hm : m.moveWorkspaceToIdx i j = some m') : Monitor.Changes [] [] m m' :=
  (effect_moveWorkspaceToIdx h.inv hm).changes (h.focused.moveWorkspaceToIdx hm)

theorem keeps_moveWorkspaceToIdx (h : l.Intact) {reference : Option (Option Output × ℕ)}
    (hl : l.moveWorkspaceToIdx reference idx = some l') : Keeps l l' := by
  unfold moveWorkspaceToIdx at hl
  split at hl
  · split at hl
    · exact some.inj hl ▸ .refl h
    · exact h.onMonitor (fun _ _ _ => Monitor.keeps_moveWorkspaceToIdx) hl
  · exact h.onActiveMonitor (fun _ _ => Monitor.keeps_moveWorkspaceToIdx) hl
  · exact h.onActiveMonitor (fun _ _ => Monitor.keeps_moveWorkspaceToIdx) hl

theorem Monitor.keeps_rename (h : m.Sound) {p : Workspace → Bool} {name : String}
    (hm : m.onFirst p (fun ws => some { ws with name := some name }) = some m') :
    Monitor.Changes [] [] m m' := by
  obtain ⟨i, -, hm⟩ := of_bind hm
  obtain ⟨ws, ws', hws, hws', rfl⟩ := Monitor.onWorkspace_spec hm
  obtain rfl := some.inj hws'
  have hfocus : Workspace.Focus { ws with name := some name } :=
    (h.focused ws (mem_of_getElem? hws)).congr rfl rfl rfl
  exact (effect_rename h.inv hws (some name)).changes (h.focused.setWorkspace hfocus i)

theorem Monitor.keeps_padNamed (h : m.Sound) (id : ℕ) : Monitor.Changes [] [] m (padNamed m id) :=
  have hkept := kept_padNamed h.inv id
  (hkept.1.effect hkept.2).changes (h.focused.padNamed id)

theorem keeps_setWorkspaceName (h : l.Intact) {name : String} {reference : Option WorkspaceReference}
    (hl : l.setWorkspaceName name reference = some l') : Keeps l l' := by
  unfold setWorkspaceName at hl
  split at hl
  · exact some.inj hl ▸ .refl h
  · split at hl
    · exact some.inj hl ▸ .refl h
    · obtain ⟨lt, hlt, hl⟩ := of_bind hl
      have hnamed : Keeps l lt := by
        refine h.onFirstOf (fun _ _ hm hm' => Monitor.keeps_rename hm hm') (fun ws ws' hws hws' => ?_) hlt
        obtain rfl := some.inj hws'
        exact ⟨hws.congr rfl rfl rfl, .refl _⟩
      refine hnamed.trans ((hnamed.sound_of_removed h).onActiveMonitor (fun m m' hm hm' => ?_) hl)
      exact some.inj hm' ▸ Monitor.keeps_padNamed hm _

theorem keeps_unnameWorkspaceById (h : l.Intact) {id : ℕ} (hl : l.unnameWorkspaceById id = some l') :
    Keeps l l' := by
  unfold unnameWorkspaceById at hl
  cases hset : l.monitorSet with
  | normal ms primaryIdx activeMonitorIdx =>
    rw [hset] at hl
    dsimp only at hl
    split at hl
    · exact some.inj hl ▸ .refl h
    · refine h.onMonitor (fun m m' _ hm hm' => ?_) hl
      exact (Monitor.effect_unnameWorkspace hm.inv hm').changes (hm.focused.unnameWorkspace hm')
  | noOutputs workspaces =>
    rw [hset] at hl
    dsimp only at hl
    split at hl
    · exact some.inj hl ▸ .refl h
    · obtain ⟨ws, hws, rfl⟩ := of_bind_some hl
      have hfocus := h.noOutputs hset
      refine .of_count (fun wt hwt => ?_) rfl fun w => ?_
      · split at hwt
        · obtain rfl | hwt := mem_of_mem_set hwt
          · exact (hfocus ws (mem_of_getElem? hws)).congr rfl rfl rfl
          · exact hfocus wt hwt
        · exact hfocus wt (mem_of_mem_eraseIdx hwt)
      · rw [hset]
        simp only [MonitorSet.count, count_nil]
        split
        · have hsum := sum_map_set (f := fun ws : Workspace => ws.windowIds.count w) hws ws.unname
          have hsame : ws.unname.windowIds = ws.windowIds := rfl
          rw [hsame] at hsum
          omega
        · rename_i hempty
          have hnil : ws.windowIds = [] := by
            by_contra hne
            exact hempty (Workspace.hasWindows_iff.mpr hne)
          have hsum := sum_map_eraseIdx (f := fun ws : Workspace => ws.windowIds.count w) hws
          rw [hnil, count_nil] at hsum
          omega

theorem keeps_unnameWorkspaceByRef (h : l.Intact) {reference : WorkspaceReference}
    (hl : l.unnameWorkspaceByRef reference = some l') : Keeps l l' := by
  unfold unnameWorkspaceByRef at hl
  split at hl
  · exact some.inj hl ▸ .refl h
  · exact keeps_unnameWorkspaceById h hl

theorem keeps_unsetWorkspaceName (h : l.Intact) {reference : Option WorkspaceReference}
    (hl : l.unsetWorkspaceName reference = some l') : Keeps l l' := by
  unfold unsetWorkspaceName at hl
  split at hl
  · exact some.inj hl ▸ .refl h
  · exact keeps_unnameWorkspaceById h hl

theorem keeps_ensureNamedWorkspace (h : l.Intact) {config : WorkspaceConfig}
    (hl : l.ensureNamedWorkspace config = some l') : Keeps l l' := by
  unfold ensureNamedWorkspace at hl
  split at hl
  · exact some.inj hl ▸ .refl h
  · cases hset : l.monitorSet with
    | normal ms primaryIdx activeMonitorIdx =>
      rw [hset] at hl
      refine h.onMonitor (fun m m' _ hm hm' => ?_) hl
      exact (Monitor.effect_insertNamed hm.inv hm').changes (hm.focused.insertNamed hm')
    | noOutputs workspaces =>
      rw [hset] at hl
      obtain rfl := some.inj hl
      refine .of_count (fun ws hws => ?_) rfl fun w => ?_
      · obtain _ | ⟨_, hws⟩ := hws
        · exact Workspace.Created.focus ⟨_, _, _, _, .inr rfl⟩
        · exact h.noOutputs hset ws hws
      · rw [hset]
        have hnew (ids : List ℕ) : ([] : List ℕ).count w + (ids.count w) = ids.count w := by simp
        simp only [MonitorSet.count, map_cons, sum_cons]
        have hempty : (Workspace.newWithConfigNoOutputs l.nextId (some config) l.clock
            l.options).windowIds = [] := rfl
        rw [hempty, count_nil]
        omega

/-! Config. -/

theorem keeps_updateNamed (config : Config) : ∀ ws ws' : Workspace, ws.Focus →
    some (updateNamed config ws) = some ws' → Workspace.Keeps ws ws' := by
  intro ws ws' h hws
  obtain rfl := some.inj hws
  unfold updateNamed
  split
  · exact .refl h
  · split
    · exact .refl h
    · exact ⟨Workspace.kept_updateLayoutConfig h.ok _, h.applyConfig (.updateLayoutConfig _)⟩

theorem keeps_updateConfig (h : l.Intact) {config : Config} (hl : l.updateConfig config = some l') :
    Keeps l l' := by
  obtain ⟨lt, hlt, hl⟩ := of_bind hl
  obtain ⟨lu, hlu, rfl⟩ := of_bind_some hl
  have hnamed := h.forWorkspaces (keeps_updateNamed config) hlt
  have hmoving := hnamed.trans (keeps_onMoving hnamed.parts
    (f := fun d => d.updateConfig config.options d.output) fun _ => rfl)
  have hsound := hmoving.sound_of_removed h
  unfold updateParts at hlu
  have hparts : Keeps l lu := by
    split at hlu
    · refine hmoving.trans (hsound.forMonitors (fun m m' hm hm' => ?_) hlu)
      exact some.inj hm' ▸
        (Monitor.effect_updateConfig hm.inv config.options).changes (hm.focused.updateConfig _)
    · refine hmoving.trans (hsound.forWorkspaces (fun ws ws' hws hws' => ?_) hlu)
      exact some.inj hws' ▸
        ⟨Workspace.kept_updateConfig hws.ok config.options, hws.applyConfig (.updateConfig _)⟩
  exact hparts.trans (.of_eq hparts.parts rfl rfl)

theorem keeps_applyNaming (h : l.Intact) {op : NamingOp} (hl : l.applyNaming op = some l') :
    Keeps l l' := by
  cases op with
  | moveWorkspaceToIdx => exact keeps_moveWorkspaceToIdx h hl
  | setWorkspaceName => exact keeps_setWorkspaceName h hl
  | unsetWorkspaceName => exact keeps_unsetWorkspaceName h hl
  | unnameWorkspace name =>
    have hl : l.unnameWorkspaceByRef (.name name) = some l' := hl
    exact keeps_unnameWorkspaceByRef h hl
  | ensureNamedWorkspace => exact keeps_ensureNamedWorkspace h hl
  | updateConfig => exact keeps_updateConfig h hl

/-! The overview and gestures. -/

theorem keeps_setMonitorsOverviewState (h : l.Intact) (hl : l.setMonitorsOverviewState = some l') :
    Keeps l l' := by
  refine h.forMonitors (fun m m' hm hm' => ?_) hl
  exact some.inj hm' ▸ hm.shown (Monitor.shown_setOverviewProgress hm.inv.toCore _ _)

theorem keeps_toggleOverview (h : l.Intact) (hl : l.toggleOverview = some l') : Keeps l l' := by
  have hopen : Keeps l { l with
      overviewOpen := !l.overviewOpen
      overviewProgress := some (.animation ⟨l.overviewValue, if l.overviewOpen then 0 else 1⟩) } :=
    .of_eq h.parts rfl rfl
  exact hopen.trans (keeps_setMonitorsOverviewState (hopen.sound_of_removed h) hl)

theorem keeps_openOverview (h : l.Intact) (hl : l.openOverview = some l') : Keeps l l' := by
  unfold openOverview at hl
  split at hl
  · exact some.inj hl ▸ .refl h
  · exact keeps_toggleOverview h hl

theorem keeps_closeOverview (h : l.Intact) (hl : l.closeOverview = some l') : Keeps l l' := by
  unfold closeOverview at hl
  split at hl
  · exact keeps_toggleOverview h hl
  · exact some.inj hl ▸ .refl h

theorem keeps_toggleOverviewToWorkspace (h : l.Intact)
    (hl : l.toggleOverviewToWorkspace idx = some l') : Keeps l l' := by
  obtain ⟨lt, hlt, hl⟩ := of_bind hl
  have hshown := h.onActiveMonitor (fun m m' hm hm' => by
    split at hm'
    · rename_i hidx
      exact Monitor.keeps_activateWorkspace hm hidx hm'
    · cases hm') hlt
  exact hshown.trans (keeps_toggleOverview (hshown.sound_of_removed h) hl)

theorem keeps_overviewGestureUpdate (h : l.Intact) {deltaY timestamp : ℚ}
    (hl : l.overviewGestureUpdate deltaY timestamp = some l') : Keeps l l' := by
  have hprogress (progress : Option OverviewProgress) : Keeps l { l with overviewProgress := progress } :=
    .of_eq h.parts rfl rfl
  unfold overviewGestureUpdate at hl
  split at hl
  · dsimp only at hl
    split at hl
    · exact some.inj hl ▸ hprogress _
    · exact (hprogress _).trans
        (keeps_setMonitorsOverviewState ((hprogress _).sound_of_removed h) hl)
  · exact some.inj hl ▸ .refl h

theorem keeps_overviewGestureEnd (h : l.Intact) (hl : l.overviewGestureEnd = some l') : Keeps l l' := by
  have hopen (b : Bool) (progress : Option OverviewProgress) :
      Keeps l { l with overviewOpen := b, overviewProgress := progress } := .of_eq h.parts rfl rfl
  unfold overviewGestureEnd at hl
  split at hl
  · exact (hopen _ _).trans (keeps_setMonitorsOverviewState ((hopen _ _).sound_of_removed h) hl)
  · exact some.inj hl ▸ .refl h

theorem keeps_workspaceSwitchGestureBegin (h : l.Intact) {isTouchpad : Bool}
    (hl : l.workspaceSwitchGestureBegin output isTouchpad = some l') : Keeps l l' := by
  unfold workspaceSwitchGestureBegin at hl
  split at hl
  · cases hl
  · refine h.forMonitors (fun m m' hm hm' => ?_) hl
    split at hm'
    · exact some.inj hm' ▸ hm.shown (Monitor.shown_workspaceSwitchGestureBegin hm.inv.toCore _)
    · exact hm.shown (Monitor.shown_workspaceSwitchGestureEnd hm.inv.toCore hm')

theorem keeps_mapWorkspaces (h : m.Sound) {f : ℕ → Workspace → Workspace}
    (hf : ∀ i ws, ws.Focus → Workspace.Keeps ws (f i ws)) :
    Monitor.Changes [] [] m (mapWorkspaces m f) := by
  have hall : Forall₂ Workspace.Keeps m.workspaces (mapWorkspaces m f).workspaces :=
    forall₂_mapIdx fun i ws hws => hf i ws (h.focused ws hws)
  exact Monitor.keeps_forall₂ h hall (Monitor.core_of_forall₂ h.inv.toCore
    (hall.imp fun _ _ hkeeps => hkeeps.toEdit) rfl h.inv.animation h.inv.gesture) rfl rfl

theorem keeps_viewOffsetGestureBegin (h : l.Intact) {workspaceIdx : Option ℕ} {isTouchpad : Bool}
    (hl : l.viewOffsetGestureBegin output workspaceIdx isTouchpad = some l') : Keeps l l' := by
  unfold viewOffsetGestureBegin at hl
  split at hl
  · cases hl
  · refine h.forMonitors (fun m m' hm hm' => ?_) hl
    refine some.inj hm' ▸ keeps_mapWorkspaces hm fun i ws hws => ?_
    split
    · exact keeps_applyUpdate (.viewOffsetGestureBegin isTouchpad) hws rfl
    · exact keeps_applyUpdate (.viewOffsetGestureEnd none) hws rfl

theorem keeps_onFirstVisible (op : UpdateOp) (h : l.Intact) {p : Workspace → Bool}
    {g : Workspace → Workspace} (hg : ∀ ws : Workspace, ws.applyUpdate op = some (g ws))
    (hl : l.onFirstVisible p g = some l') : Keeps l l' :=
  h.onFirstMonitor (fun _ _ hm => Monitor.keeps_onFirst hm (keeps_update op hg)) hl

theorem keeps_dndUpdate (h : l.Intact) (hl : l.dndUpdate output = some l') : Keeps l l' := by
  have hdnd (dnd : Option DndData) : Keeps l { l with dnd := dnd } := .of_eq h.parts rfl rfl
  unfold dndUpdate at hl
  split at hl
  · exact some.inj hl ▸ hdnd _
  · obtain ⟨lt, hlt, hl⟩ := of_bind hl
    have hbegun := (hdnd _).trans (((hdnd _).sound_of_removed h).forMonitors
      (fun _ _ hm hm' => some.inj hm' ▸ Monitor.keeps_dndScrollGestureBegin hm) hlt)
    exact hbegun.trans ((hbegun.sound_of_removed h).forWorkspaces keeps_dndScrollGestureBegin hl)

theorem keeps_dndEnd (h : l.Intact) (hl : l.dndEnd = some l') : Keeps l l' := by
  have hdnd (dnd : Option DndData) : Keeps l { l with dnd := dnd } := .of_eq h.parts rfl rfl
  unfold dndEnd at hl
  split at hl
  · exact some.inj hl ▸ .refl h
  · exact (hdnd _).trans (keeps_endDndScroll ((hdnd _).sound_of_removed h) hl)

/-! Time. -/

theorem keeps_setClock (h : l.Intact) {now : ℚ} {anim : AnimationState}
    (hl : l.setClock now anim = some l') : Keeps l l' := by
  have hclock (progress : Option OverviewProgress) :
      Keeps l { l with clock := now, overviewProgress := progress } := .of_eq h.parts rfl rfl
  have hsound (progress : Option OverviewProgress) := (hclock progress).sound_of_removed h
  unfold setClock at hl
  dsimp only at hl
  split at hl
  · refine (hclock _).trans ((hsound _).forMonitors (fun m m' hm hm' => ?_) hl)
    exact some.inj hm' ▸
      (Monitor.effect_setClock hm.inv now _).changes (hm.focused.setClock now _)
  · refine (hclock _).trans ((hsound _).forWorkspaces (fun ws ws' hws hws' => ?_) hl)
    exact keeps_applyUpdate (.setClock now (anim.workspaces ws.id)) hws hws'

theorem keeps_dndScroll (h : m.Sound) {isScrolling b : Bool} {pointer : PointerState}
    (hm : dndScroll m isScrolling pointer = some (b, m')) : Monitor.Changes [] [] m m' := by
  obtain ⟨⟨scrolled, mt⟩, hmt, hm⟩ := of_bind hm
  have hscroll := h.shown (Monitor.shown_dndScrollGestureScroll h.inv.toCore hmt)
  dsimp only at hm
  split at hm
  · obtain ⟨-, rfl⟩ := pair_inj hm
    exact hscroll
  · rename_i id delta hpointer
    obtain ⟨idx, -, hm⟩ := of_bind hm
    obtain ⟨ws, hws, hm⟩ := of_bind hm
    obtain ⟨-, rfl⟩ := pair_inj hm
    have hkeeps := keeps_applyUpdate (.dndScrollGestureScroll delta)
      (hscroll.sound.focused ws (mem_of_getElem? hws)) rfl
    exact hscroll.trans
      (Monitor.changes_setWorkspace hscroll.sound hws (Workspace.Kept.cut hkeeps.toEdit) hkeeps.focus)

theorem keeps_activateTarget (h : m.Sound) {target : DndHoldTarget}
    (hm : activateTarget m target = some (m', idx)) :
    Monitor.Changes [] [] m m' ∧ idx < m'.workspaces.length := by
  cases target with
  | window id =>
    obtain ⟨i, hi, hm⟩ := of_bind hm
    obtain ⟨mt, hmt, hm⟩ := of_bind hm
    obtain ⟨rfl, rfl⟩ := pair_inj hm
    refine ⟨Monitor.keeps_onWorkspace h (fun ws ws' hws hws' => ?_) hmt, ?_⟩
    · obtain ⟨⟨b, wt⟩, hwt, rfl⟩ := of_map hws'
      exact keeps_activateWindow hws hwt
    · obtain ⟨ws, ws', -, -, rfl⟩ := Monitor.onWorkspace_spec hmt
      have hlt := (findIdx?_eq_some_iff_getElem.mp hi).1
      rwa [Monitor.setWorkspace, length_set]
  | workspace id =>
    obtain ⟨i, hi, hm⟩ := of_map hm
    obtain ⟨rfl, rfl⟩ := Prod.mk.inj hm
    exact ⟨.refl h, (findIdx?_eq_some_iff_getElem.mp hi).1⟩

theorem keeps_activateHeld (h : m.Sound) {target : DndHoldTarget}
    (hm : activateHeld m target = some m') : Monitor.Changes [] [] m m' := by
  obtain ⟨⟨mt, idx⟩, hmt, hm⟩ := of_bind hm
  obtain ⟨mu, hmu, hm⟩ := of_bind hm
  obtain ⟨htarget, hidx⟩ := keeps_activateTarget h hmt
  have hshown := Monitor.shown_dndScrollGestureEnd htarget.sound.inv.toCore hmu
  have hended := htarget.trans (htarget.sound.shown hshown)
  exact hended.trans
    (Monitor.keeps_activateWorkspace hended.sound (by rw [hshown.workspaces]; exact hidx) hm)

theorem keeps_updateDndHold (h : l.Intact) {dnd : DndData} {target : Option DndHoldTarget}
    (hl : l.updateDndHold dnd idx target = some l') : Keeps l l' := by
  have hdnd (dnd : Option DndData) : Keeps l { l with dnd := dnd } := .of_eq h.parts rfl rfl
  unfold updateDndHold at hl
  split at hl
  · exact some.inj hl ▸ hdnd _
  · dsimp only at hl
    split at hl
    · obtain ⟨lt, hlt, hl⟩ := of_bind hl
      have hheld := (hdnd _).trans (((hdnd _).sound_of_removed h).onMonitor
        (fun _ _ _ hm hm' => keeps_activateHeld hm hm') hlt)
      have hfocused := hheld.trans (keeps_focusOutput hheld.parts dnd.output)
      exact hfocused.trans (keeps_closeOverview (hfocused.sound_of_removed h) hl)
    · exact some.inj hl ▸ hdnd _

theorem keeps_afterDndScroll (h : l.Intact) {scrolled : Bool} {target : Option DndHoldTarget}
    (hl : l.afterDndScroll idx scrolled target = some l') : Keeps l l' := by
  unfold afterDndScroll at hl
  split at hl
  · exact some.inj hl ▸ .refl h
  · split at hl
    · exact some.inj hl ▸ .of_eq h.parts rfl rfl
    · exact keeps_updateDndHold h hl

theorem keeps_advanceDnd (h : l.Intact) {pointer : PointerState}
    (hl : l.advanceDnd pointer = some l') : Keeps l l' := by
  unfold advanceDnd at hl
  split at hl
  · exact some.inj hl ▸ .refl h
  · split at hl
    · exact some.inj hl ▸ .refl h
    · obtain ⟨m, hm, hl⟩ := of_bind hl
      obtain ⟨⟨scrolled, m'⟩, hm', hl⟩ := of_bind hl
      have hscroll := changes_setMonitor h.parts hm (keeps_dndScroll (h.monitorAt hm) hm')
      exact hscroll.trans (keeps_afterDndScroll (hscroll.sound_of_removed h) hl)

theorem keeps_advanceOverview (h : l.monitorSet.Sound) (done : Bool) :
    Keeps l (l.advanceOverview done) := by
  unfold advanceOverview
  split
  · split
    · exact .of_eq h rfl rfl
    · exact .of_eq h rfl rfl
  · exact .of_eq h rfl rfl

theorem Monitor.keeps_advanceAnimations (h : m.Sound) {progress : Option ℚ} {anim : AnimationState}
    (hm : (m.setOverviewProgress progress).advanceAnimations anim = some m') :
    Monitor.Changes [] [] m m' := by
  have hprogress : Monitor.Changes [] [] m (m.setOverviewProgress progress) :=
    h.shown (shown_setOverviewProgress h.inv.toCore m.overviewOpen progress)
  exact hprogress.trans ((effect_advanceAnimations hprogress.sound.inv hm).changes
    (hprogress.sound.focused.advanceAnimations hm))

theorem keeps_advanceAnimations (h : l.Intact) {anim : AnimationState} {pointer : PointerState}
    (hl : l.advanceAnimations anim pointer = some l') : Keeps l l' := by
  obtain ⟨lt, hlt, hl⟩ := of_bind hl
  have hdragged := keeps_advanceDnd h hlt
  have hkeeps := hdragged.trans (keeps_advanceOverview hdragged.parts anim.overviewDone)
  have hsound := hkeeps.sound_of_removed h
  dsimp only at hl
  split at hl
  · refine hkeeps.trans (hsound.forMonitors (fun m m' hm hm' => ?_) hl)
    exact Monitor.keeps_advanceAnimations hm hm'
  · refine hkeeps.trans (hsound.forWorkspaces (fun ws ws' hws hws' => ?_) hl)
    exact keeps_applyUpdate (.advanceAnimations (anim.workspaces ws.id)) hws hws'

theorem keeps_refreshSwitch (h : m.Sound) {overviewOpen : Bool} {ongoing : Option Bool}
    (hm : refreshSwitch m overviewOpen ongoing = some m') : Monitor.Changes [] [] m m' := by
  unfold refreshSwitch at hm
  split at hm
  · exact some.inj hm ▸ Monitor.keeps_dndScrollGestureBegin h
  · split at hm
    · exact some.inj hm ▸ .refl h
    · exact Monitor.keeps_dndScrollGestureEnd h hm

theorem keeps_refreshView (h : ws.Focus) (ongoing : Option Bool) (cancel : Bool) :
    Workspace.Keeps ws (refreshView ws ongoing cancel) := by
  have hrefresh : Workspace.Keeps ws ws.refresh := keeps_applyUpdate .refresh h rfl
  unfold refreshView
  split
  · exact hrefresh.trans (keeps_dndScrollGestureBegin _ _ hrefresh.focus rfl)
  · exact hrefresh.trans (keeps_dndScrollGestureEnd _ _ hrefresh.focus rfl)
  · split
    · exact hrefresh.trans (keeps_applyUpdate (.viewOffsetGestureEnd none) hrefresh.focus rfl)
    · exact hrefresh

theorem keeps_refresh (h : l.Intact) (hl : l.refresh = some l') : Keeps l l' := by
  obtain ⟨ongoing, -, hl⟩ := of_bind hl
  have hmoving := keeps_onMoving h.parts
    (f := fun d => { d with tile := d.tile.setInteractiveResize none }) fun _ => rfl
  have hsound := hmoving.sound_of_removed h
  dsimp only at hl
  split at hl
  · refine hmoving.trans (hsound.forMonitors (fun m m' hm hm' => ?_) hl)
    obtain ⟨mt, hmt, hm'⟩ := of_bind hm'
    have hswitch := keeps_refreshSwitch hm hmt
    exact some.inj hm' ▸ hswitch.trans
      (keeps_mapWorkspaces hswitch.sound fun _ ws hws => keeps_refreshView hws ongoing _)
  · refine hmoving.trans (hsound.forWorkspaces (fun ws ws' hws hws' => ?_) hl)
    exact some.inj hws' ▸ keeps_refreshView hws none true

theorem keeps_applyProgress (h : l.Intact) {op : ProgressOp} (hl : l.applyProgress op = some l') :
    Keeps l l' := by
  cases op with
  | toggleOverview => exact keeps_toggleOverview h hl
  | openOverview => exact keeps_openOverview h hl
  | closeOverview => exact keeps_closeOverview h hl
  | toggleOverviewToWorkspace => exact keeps_toggleOverviewToWorkspace h hl
  | overviewGestureBegin =>
    have hopen (progress : Option OverviewProgress) :
        Keeps l { l with overviewOpen := true, overviewProgress := progress } :=
      .of_eq h.parts rfl rfl
    exact (hopen _).trans (keeps_setMonitorsOverviewState ((hopen _).sound_of_removed h) hl)
  | overviewGestureUpdate => exact keeps_overviewGestureUpdate h hl
  | overviewGestureEnd => exact keeps_overviewGestureEnd h hl
  | workspaceSwitchGestureBegin => exact keeps_workspaceSwitchGestureBegin h hl
  | workspaceSwitchGestureUpdate =>
    exact h.onFirstMonitor
      (fun _ _ hm hm' => hm.shown (Monitor.shown_workspaceSwitchGestureUpdate hm.inv.toCore hm')) hl
  | workspaceSwitchGestureEnd =>
    exact h.onFirstMonitor
      (fun _ _ hm hm' => hm.shown (Monitor.shown_workspaceSwitchGestureEnd hm.inv.toCore hm')) hl
  | viewOffsetGestureBegin => exact keeps_viewOffsetGestureBegin h hl
  | viewOffsetGestureUpdate deltaX timestamp isTouchpad =>
    exact keeps_onFirstVisible
      (.viewOffsetGestureUpdate (deltaX / l.overviewZoom) timestamp isTouchpad) h (fun _ => rfl) hl
  | viewOffsetGestureEnd isTouchpad =>
    exact keeps_onFirstVisible (.viewOffsetGestureEnd isTouchpad) h (fun _ => rfl) hl
  | dndUpdate => exact keeps_dndUpdate h hl
  | dndEnd => exact keeps_dndEnd h hl
  | setClock => exact keeps_setClock h hl
  | advanceAnimations => exact keeps_advanceAnimations h hl
  | refresh => exact keeps_refresh h hl

/-! Runs. -/

/-- An output that is added goes by another name than the others: the backend takes the names of
duplicates away. The name of an output never changes. -/
def OutputOp.Distinct (l : Layout) : OutputOp → Prop
  | .addOutput output _ => ∀ m ∈ l.monitors, (OutputId.new m.output).matches output = false
  | .updateOutputSize output =>
    ∀ m ∈ l.monitors, m.output.same output = true → output.name = m.output.name
  | _ => True

instance (l : Layout) : (op : OutputOp) → Decidable (op.Distinct l)
  | .addOutput output _ => inferInstanceAs (Decidable
      (∀ m ∈ l.monitors, (OutputId.new m.output).matches output = false))
  | .updateOutputSize output => inferInstanceAs (Decidable
      (∀ m ∈ l.monitors, m.output.same output = true → output.name = m.output.name))
  | .removeOutput _ | .focusOutput _ | .updateLayoutConfig _ _ => inferInstanceAs (Decidable True)

theorem keeps_applyOutput (h : l.Intact) {op : OutputOp} (hop : op.Distinct l)
    (hl : l.applyOutput op = some l') : Keeps l l' := by
  cases op with
  | addOutput => exact keeps_addOutput h hop hl
  | removeOutput => exact keeps_removeOutput h hl
  | focusOutput output => exact some.inj hl ▸ keeps_focusOutput h.parts output
  | updateOutputSize => exact keeps_updateOutputSize h hop hl
  | updateLayoutConfig => exact keeps_updateLayoutConfig h hl

/-- The windows that an operation brings along. -/
def LayoutOp.added : LayoutOp → List ℕ
  | .layoutWindow op => op.added
  | _ => []

/-- The windows that an operation takes out of the layout. -/
def LayoutOp.removed (l : Layout) : LayoutOp → List ℕ
  | .layoutWindow op => op.removed l
  | _ => []

/-- What the callers promise: a window that is added is a new one, and outputs are told apart by
their names. -/
def LayoutOp.Fair (l : Layout) (op : LayoutOp) : Prop :=
  (∀ w ∈ op.added, w ∉ l.windowIds) ∧
    match op with
    | .output op => op.Distinct l
    | _ => True

instance (l : Layout) (op : LayoutOp) : Decidable (op.Fair l) :=
  match op with
  | .output _ | .active _ | .window _ _ | .activeMonitor _ | .transfer _ | .layoutWindow _ | .naming _
  | .progress _ => instDecidableAnd

/-- No operation loses a window or has one twice. -/
theorem changes_apply (h : l.Intact) {op : LayoutOp} (hop : op.Fair l) (hl : l.apply op = some l') :
    Changes op.added (op.removed l) l l' := by
  cases op with
  | active op => exact h.onActiveWorkspace (fun _ _ hws hws' => keeps_applyActive hws hws') hl
  | window window op =>
    exact h.onWindow
      (fun _ _ hws hws' => ⟨Workspace.kept_applyWindow hws.ok hws', hws.applyWindow hws'⟩) hl
  | activeMonitor op => exact h.onActiveMonitor (fun _ _ hm hm' => Monitor.keeps_applyActive hm hm') hl
  | output op => exact keeps_applyOutput h hop.2 hl
  | transfer op => exact keeps_applyTransfer h hl
  | layoutWindow op => exact changes_applyLayoutWindow h hop.1 hl
  | naming op => exact keeps_applyNaming h hl
  | progress op => exact keeps_applyProgress h hl

theorem LayoutWindowOp.nodup_added (op : LayoutWindowOp) : op.added.Nodup := by
  cases op with
  | addWindow window target opening => exact nodup_singleton _
  | _ => exact nodup_nil

theorem LayoutOp.nodup_added (op : LayoutOp) : op.added.Nodup := by
  cases op with
  | layoutWindow op => exact op.nodup_added
  | _ => exact nodup_nil

theorem sound_apply (h : l.Intact) {op : LayoutOp} (hop : op.Fair l) (hl : l.apply op = some l') :
    l'.Intact :=
  (changes_apply h hop hl).sound h op.nodup_added hop.1

theorem configWorkspaces_spec (clock : ℚ) (options : Options) (configs : List WorkspaceConfig) (id : ℕ) :
    ∀ ws ∈ configWorkspaces clock options id configs, ws.Focus ∧ ws.windowIds = [] := by
  induction configs generalizing id with
  | nil => exact fun ws hws => absurd hws not_mem_nil
  | cons config configs ih =>
    rintro ws (_ | ⟨_, hws⟩)
    · exact ⟨Workspace.Created.focus ⟨_, _, _, _, .inr rfl⟩, rfl⟩
    · exact ih (id + 1) ws hws

theorem sound_new (clock : ℚ) (config : Config) : (new clock config).Intact := by
  have hall := configWorkspaces_spec clock config.options config.workspaces 1
  refine ⟨fun ws hws => (hall ws hws).1, ?_⟩
  have hnil : (new clock config).windowIds = [] := flatMap_eq_nil_iff.mpr fun ws hws => (hall ws hws).2
  rw [hnil]
  exact nodup_nil

/-- Every state that is reached is sound. -/
theorem sound_run {clock : ℚ} {config : Config} {ops : List LayoutOp}
    (hfair : AllAlong apply (fun l op => op.Fair l) (new clock config) ops)
    (hl : run apply (new clock config) ops = some l) : l.Intact :=
  run_invariant_of_allAlong (fun _ _ _ h hop hl => sound_apply h hop hl) (sound_new clock config) hfair hl

theorem Keeps.perm (h : Keeps l l') : l'.windowIds.Perm l.windowIds :=
  perm_iff_count.mpr fun w => by simpa using h.windowIds w

theorem LayoutOp.added_eq_nil {op : LayoutOp}
    (hadd : ∀ window target opening, op ≠ .layoutWindow (.addWindow window target opening)) :
    op.added = [] := by
  cases op with
  | layoutWindow op =>
    cases op with
    | addWindow window target opening => exact absurd rfl (hadd window target opening)
    | _ => rfl
  | _ => rfl

theorem LayoutOp.removed_eq_nil {op : LayoutOp}
    (hremove : ∀ window, op ≠ .layoutWindow (.removeWindow window)) : op.removed l = [] := by
  cases op with
  | layoutWindow op =>
    cases op with
    | removeWindow window => exact absurd rfl (hremove window)
    | _ => rfl
  | _ => rfl

def opensWindow (id : ℕ) (target : AddWindowTarget) (isFloating : Bool) : LayoutOp :=
  .layoutWindow (.addWindow (ScrollingSpace.testWindow id) target
    ⟨none, none, false, isFloating, .smart, ⟨0, 0⟩⟩)

/-- Two windows are opened, and one of them is moved to another workspace. -/
def spread : List LayoutOp :=
  [.output (.addOutput Monitor.testOutput none), opensWindow 1 .auto false, opensWindow 2 .auto true,
    .layoutWindow (.moveToWorkspace (some 1) 1 .smart)]

end Macniri.Layout
