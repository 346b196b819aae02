import Macniri.Layout.ColumnToOutput
import Macniri.Layout.Standing
import Macniri.Layout.Tiled

/-! Leaving fullscreen after a window was moved to another output. -/
namespace Macniri.Layout

open Option List

variable {l l' lt : Layout} {m m' mt : Monitor} {ws ws' : Workspace} {w idx : ℕ} {s : Standing}
variable {windowed activate : Bool} {output : Output} {targetWsIdx : Option ℕ} {renderPos : Point}

/-- What is seen of a window: its pending mode, and whether it is floating. -/
def seen (l : Layout) (w : ℕ) : Option SizingMode × Bool :=
  ((l.findWindow w).map (·.pendingSizingMode), l.workspaces.any (·.floating.hasWindow w))

/-- The workspace, by its monitor and its index there, that a move to an output goes to. -/
def moveTarget (l : Layout) (output : Output) (targetWsIdx : Option ℕ) : Option (ℕ × ℕ) := do
  let newIdx ← l.monitorIdxForOutput output
  let target ← l.monitors[newIdx]?
  let workspaceIdx := targetWsIdx.getD target.activeWorkspaceIdx
  if workspaceIdx < target.workspaces.length then some (newIdx, workspaceIdx) else none

/-- The move takes the window to another workspace. -/
def leaves (l : Layout) (w : ℕ) (output : Output) (targetWsIdx : Option ℕ) : Bool :=
  (l.moveTarget output targetWsIdx).any (l.placeOf (some w) != some ·)

/-- How a window stands on its workspace, and whether it is in windowed fullscreen. -/
def Workspace.standing (ws : Workspace) (w : ℕ) : Option (Standing × Bool) :=
  match ws.floating.tiles.find? (·.id == w) with
  | some t => some (.floating t.window.pendingSizingMode, t.window.isPendingWindowedFullscreen)
  | none => do
    let c ← ws.scrolling.columns.find? (·.contains w)
    let t ← c.tiles.find? (·.id == w)
    return (.scrolling c.wishes t.restoreToFloating, t.window.isPendingWindowedFullscreen)

def standing (l : Layout) (w : ℕ) : Option (Standing × Bool) :=
  (l.workspaces.find? (·.hasWindow w)).bind (·.standing w)

/-- How a window stands in the layout. -/
def Stands (l : Layout) (w : ℕ) (s : Standing) (windowed : Bool) : Prop :=
  ∃ ws ∈ l.workspaces, ws.Stands w s windowed

/-- The tile of the window is pending what is remembered. -/
theorem Workspace.Stands.find?_tiles (h : ws.Stands w s windowed) (hws : ws.Ok) :
    ∃ t, ws.tiles.find? (·.id == w) = some t ∧ t.window.pendingSizingMode = s.mode ∧
      t.window.isPendingWindowedFullscreen = windowed := by
  obtain ⟨t, ht, hid, hmode, hwindowed⟩ : ∃ t ∈ ws.tiles, t.id = w ∧
      t.window.pendingSizingMode = s.mode ∧ t.window.isPendingWindowedFullscreen = windowed := by
    cases h with
    | floating t ht hid => exact ⟨t, mem_append_right _ ht, hid, rfl, rfl⟩
    | scrolling h =>
      obtain ⟨c, hc, hremembers⟩ := h
      obtain ⟨t, ht, hid, -, -⟩ := hremembers.tile
      obtain ⟨hmode, -, hwindowed⟩ := hremembers.of_mem (hws.scrolling.columns c hc) ht hid
      exact ⟨t, mem_append_left _ (mem_flatMap.mpr ⟨c, hc, ht⟩), hid, hmode, hwindowed⟩
  obtain ⟨u, hu⟩ : ∃ u, ws.tiles.find? (·.id == w) = some u :=
    isSome_iff_exists.mp (find?_isSome.mpr ⟨t, ht, beq_iff_eq.mpr hid⟩)
  have huid : u.id = w := by simpa using find?_some hu
  obtain rfl : t = u := inj_on_of_nodup_map (ws.map_id_tiles ▸ hws.ids) ht (mem_of_find?_eq_some hu)
    (hid.trans huid.symm)
  exact ⟨t, hu, hmode, hwindowed⟩

theorem Workspace.Stands.standing (h : ws.Stands w s windowed) (hws : ws.Ok) :
    ws.standing w = some (s, windowed) := by
  unfold Workspace.standing
  cases h with
  | floating t ht hid =>
    obtain ⟨u, hu⟩ : ∃ u, ws.floating.tiles.find? (·.id == w) = some u :=
      isSome_iff_exists.mp (find?_isSome.mpr ⟨t, ht, beq_iff_eq.mpr hid⟩)
    have huid : u.id = w := by simpa using find?_some hu
    obtain rfl : t = u := inj_on_of_nodup_map (nodup_append'.mp hws.ids).2.1 ht
      (mem_of_find?_eq_some hu) (hid.trans huid.symm)
    rw [hu]
  | scrolling h =>
    have hnone : ws.floating.tiles.find? (·.id == w) = none := by
      have hnot := Workspace.not_floating_of_remembers hws h
      exact find?_eq_none.mpr fun t ht htid => Bool.false_ne_true
        (hnot.symm.trans (List.any_eq_true.mpr ⟨t, ht, htid⟩))
    obtain ⟨c, hc, hwf, hremembers⟩ := h.find? hws.scrolling
    obtain ⟨t, ht⟩ : ∃ t, c.tiles.find? (·.id == w) = some t := by
      obtain ⟨-, t, ht, hid, -, -⟩ := hremembers
      exact isSome_iff_exists.mp (find?_isSome.mpr ⟨t, ht, beq_iff_eq.mpr hid⟩)
    have hid : t.id = w := by simpa using find?_some ht
    obtain ⟨-, hrestore, hwindowed⟩ := hremembers.of_mem hwf (mem_of_find?_eq_some ht) hid
    rw [hnone, hc, some_bind, ht, some_bind,
      hremembers.wishes, hrestore, hwindowed]
    rfl

/-! What is seen. -/

theorem Intact.workspace_ok (h : l.Intact) (hws : ws ∈ l.workspaces) : ws.Ok := by
  have hparts := h.parts
  unfold workspaces at hws
  cases hset : l.monitorSet with
  | normal ms primaryIdx activeMonitorIdx =>
    rw [hset] at hws hparts
    obtain ⟨m, hm, hws⟩ := mem_flatMap.mp hws
    exact ((hparts.1 m hm).focused ws hws).ok
  | noOutputs workspaces =>
    rw [hset] at hws hparts
    exact (hparts ws hws).ok

/-- A window is on one workspace only. -/
theorem Intact.workspace_unique (h : l.Intact) (hws : ws ∈ l.workspaces) (hws' : ws' ∈ l.workspaces)
    (hw : w ∈ ws.windowIds) (hw' : w ∈ ws'.windowIds) : ws = ws' := by
  have hnodup : (l.workspaces.map (·.windowIds)).flatten.Nodup := by
    have hall := h.windows
    unfold windowIds at hall
    rw [flatMap_def] at hall
    exact (nodup_append'.mp hall).2.1
  obtain ⟨i, hi⟩ := mem_iff_getElem?.mp hws
  obtain ⟨j, hj⟩ := mem_iff_getElem?.mp hws'
  obtain rfl : i = j := eq_of_mem_of_nodup_flatten hnodup (by rw [getElem?_map, hi]; rfl)
    (by rw [getElem?_map, hj]; rfl) hw hw'
  exact some.inj (hi.symm.trans hj)

theorem exists_stands (hidle : l.interactiveMove = none) (hw : w ∈ l.windowIds) :
    ∃ s windowed, l.Stands w s windowed := by
  have hw : w ∈ l.movingIds ++ l.workspaces.flatMap (·.windowIds) := hw
  rw [movingIds_of_none hidle, nil_append] at hw
  obtain ⟨ws, hws, hw⟩ := mem_flatMap.mp hw
  obtain ⟨s, windowed, hstands⟩ := Workspace.exists_stands hw
  exact ⟨s, windowed, ws, hws, hstands⟩

theorem Stands.find? (h : l.Stands w s windowed) (hl : l.Intact) :
    ∃ ws, l.workspaces.find? (·.hasWindow w) = some ws ∧ ws ∈ l.workspaces ∧ ws.Stands w s windowed := by
  obtain ⟨ws, hws, hstands⟩ := h
  have hhas : ws.hasWindow w = true := Workspace.hasWindow_iff.mpr hstands.mem
  obtain ⟨first, hfirst⟩ : ∃ first, l.workspaces.find? (·.hasWindow w) = some first :=
    isSome_iff_exists.mp (find?_isSome.mpr ⟨ws, hws, hhas⟩)
  have hmem := mem_of_find?_eq_some hfirst
  have hhere : first.hasWindow w = true := by simpa using find?_some hfirst
  have hw : w ∈ first.windowIds := Workspace.hasWindow_iff.mp hhere
  obtain rfl := hl.workspace_unique hws hmem hstands.mem hw
  exact ⟨ws, hfirst, hmem, hstands⟩

theorem Stands.findWindow (h : l.Stands w s windowed) (hl : l.Intact) (hidle : l.interactiveMove = none) :
    ∃ x, l.findWindow w = some x ∧ x.pendingSizingMode = s.mode ∧
      x.isPendingWindowedFullscreen = windowed := by
  obtain ⟨ws, hws, hmem, hstands⟩ := h.find? hl
  obtain ⟨t, ht, hmode, hwindowed⟩ := hstands.find?_tiles (hl.workspace_ok hmem)
  refine ⟨t.window, ?_, hmode, hwindowed⟩
  have hnone : l.movingTile = none := by
    unfold movingTile moving
    rw [hidle]
    rfl
  unfold Layout.findWindow
  rw [hnone, toList_none, nil_append, find?_map]
  exact congrArg (Option.map _) ((find?_flatMap hws).trans ht)

theorem Stands.seen (h : l.Stands w s windowed) (hl : l.Intact) (hidle : l.interactiveMove = none) :
    l.seen w = (some s.mode, s.isFloating) := by
  obtain ⟨x, hx, hmode, -⟩ := h.findWindow hl hidle
  obtain ⟨ws, hws, hstands⟩ := h
  have hok := hl.workspace_ok hws
  have hfloating := hstands.hasWindow_floating hok
  have hany : (l.workspaces.any (·.floating.hasWindow w)) = s.isFloating := by
    rw [Bool.eq_iff_iff, List.any_eq_true]
    constructor
    · rintro ⟨u, hu, hw⟩
      have hmem := mem_append_right u.scrolling.windowIds (FloatingSpace.mem_windowIds_iff.mpr hw)
      rw [← hfloating, hl.workspace_unique hws hu hstands.mem hmem]
      exact hw
    · intro hs
      exact ⟨ws, hws, hfloating.trans hs⟩
  unfold Layout.seen
  rw [hx, hany, map_some, hmode]

/-! The requests. -/

theorem forMonitors_forall₂ {f : Monitor → Option Monitor} (hl : l.forMonitors f = some l') :
    Forall₂ (fun m m' => ∃ k, f { m with nextId := k } = some m') l.monitors l'.monitors := by
  unfold forMonitors at hl
  cases hset : l.monitorSet with
  | normal ms primaryIdx activeMonitorIdx =>
    rw [hset] at hl
    obtain ⟨⟨n', ms'⟩, hms, hl⟩ := of_bind hl
    obtain rfl := some.inj hl
    unfold monitors
    rw [hset]
    exact threadMonitors_forall₂ hms
  | noOutputs workspaces =>
    rw [hset] at hl
    obtain rfl := some.inj hl
    unfold monitors
    rw [hset]
    exact .nil

theorem mem_forWorkspaces {g : Workspace → Option Workspace} (hl : l.forWorkspaces g = some l')
    (hws : ws ∈ l.workspaces) : ∃ ws' ∈ l'.workspaces, g ws = some ws' := by
  unfold forWorkspaces at hl
  unfold workspaces at hws ⊢
  cases hset : l.monitorSet with
  | normal ms primaryIdx activeMonitorIdx =>
    rw [hset] at hl hws
    obtain ⟨⟨n', ms'⟩, hms, hl⟩ : ∃ p, threadMonitors (·.forWorkspaces g) l.nextId ms = some p ∧ _ := by
      unfold forMonitors at hl
      rw [hset] at hl
      exact of_bind hl
    obtain rfl := some.inj hl
    obtain ⟨m, hm, hws⟩ := mem_flatMap.mp hws
    obtain ⟨m', hm', k, hf⟩ := Forall₂.exists_of_mem (threadMonitors_forall₂ hms) hm
    obtain ⟨workspaces, hmap, rfl⟩ := of_map hf
    obtain ⟨ws', hws', hg⟩ := Forall₂.exists_of_mem (mapM_forall₂ hmap) hws
    exact ⟨ws', mem_flatMap.mpr ⟨_, hm', hws'⟩, hg⟩
  | noOutputs workspaces =>
    rw [hset] at hl hws
    obtain ⟨workspaces', hmap, rfl⟩ := of_map hl
    exact Forall₂.exists_of_mem (mapM_forall₂ hmap) hws

/-- The request to leave windowed fullscreen. -/
theorem Stands.modifyWindow (h : l.Stands w s windowed) {f : Window → Window}
    (hid : ∀ x, (f x).id = x.id) (hmode : ∀ x, (f x).pendingSizingMode = x.pendingSizingMode)
    (hl : l.modifyWindow w f = some l') : ∃ b, l'.Stands w s b := by
  obtain ⟨ws, hws, hstands⟩ := h
  obtain ⟨ws', hws', hsome⟩ := mem_forWorkspaces hl hws
  obtain rfl := some.inj hsome
  obtain ⟨b, hb⟩ := hstands.modifyWindow w hid hmode
  exact ⟨b, _, hws', hb⟩

/-- An operation of the workspace of the window. -/
theorem Stands.onUnmoved {s' : Standing} {f : Workspace → Option Workspace} (h : l.Stands w s windowed)
    (hl : l.Intact) (hidle : l.interactiveMove = none)
    (hf : ∀ ws ws', ws.Ok → ws.Stands w s windowed → f ws = some ws' → ∃ b, ws'.Stands w s' b)
    (hl' : l.onUnmoved w f = some l') : ∃ b, l'.Stands w s' b := by
  obtain ⟨ws, hws, hmem, hstands⟩ := h.find? hl
  have hhas : ws.hasWindow w = true := Workspace.hasWindow_iff.mpr hstands.mem
  have hany : l.workspaces.any (·.hasWindow w) = true := List.any_eq_true.mpr ⟨ws, hmem, hhas⟩
  have hunmoved : l.isMoving w = false := by
    unfold isMoving movingTile moving
    rw [hidle]
    rfl
  unfold Layout.onUnmoved onWorkspaceOf at hl'
  rw [hunmoved, if_neg Bool.false_ne_true, hany, if_pos rfl] at hl'
  obtain ⟨u, ws', hu, hf', hfind, -⟩ := find?_onFirstWorkspace hl'
  obtain rfl := some.inj (hu.symm.trans hws)
  obtain ⟨b, hb⟩ := hf u ws' (hl.workspace_ok hmem) hstands hf'
  exact ⟨b, ws', mem_of_find?_eq_some (hfind (Workspace.hasWindow_iff.mpr hb.mem)), hb⟩

theorem Stands.setFullscreen (h : l.Stands w s windowed) (hl : l.Intact)
    (hidle : l.interactiveMove = none) (hl' : l.setFullscreen w false renderPos = some l') :
    ∃ b, l'.Stands w (if windowed then s else s.unsetFullscreen) b := by
  obtain ⟨x, hx, -, hwindowed⟩ := h.findWindow hl hidle
  unfold Layout.setFullscreen at hl'
  rw [hx, any_some, hwindowed] at hl'
  cases windowed with
  | true =>
    rw [if_pos ⟨rfl, rfl⟩] at hl'
    exact h.modifyWindow (f := (·.requestWindowedFullscreen false)) (fun _ => rfl) (fun _ => rfl) hl'
  | false =>
    rw [if_neg fun hno => Bool.false_ne_true hno.2] at hl'
    exact h.onUnmoved hl hidle (fun _ _ hok hstands hws' => hstands.unsetFullscreen hok hws') hl'

theorem Stands.setMaximized (h : l.Stands w s windowed) (hl : l.Intact)
    (hidle : l.interactiveMove = none) (hl' : l.setMaximized w false renderPos = some l') :
    ∃ b, l'.Stands w s.unsetMaximized b :=
  h.onUnmoved hl hidle (fun _ _ hok hstands hws' => hstands.unsetMaximized hok hws') hl'

/-! Whether a move leaves does not depend on the mode of the window. -/

/-- What a move to an output looks at. -/
def Monitor.shape (w : ℕ) (m : Monitor) : Output × ℕ × List Bool :=
  (m.output, m.activeWorkspaceIdx, m.workspaces.map (·.hasWindow w))

def shape (l : Layout) (w : ℕ) : List (Output × ℕ × List Bool) := l.monitors.map (·.shape w)

theorem monitorIdxForOutput_shape (l : Layout) (w : ℕ) (output : Output) :
    l.monitorIdxForOutput output = (l.shape w).findIdx? (·.1.same output) := by
  unfold monitorIdxForOutput shape
  rw [findIdx?_map]
  rfl

theorem moveTarget_shape (l : Layout) (w : ℕ) (output : Output) (targetWsIdx : Option ℕ) :
    l.moveTarget output targetWsIdx =
      ((l.shape w).findIdx? (·.1.same output)).bind fun newIdx => ((l.shape w)[newIdx]?).bind fun target =>
        if targetWsIdx.getD target.2.1 < target.2.2.length then some (newIdx, targetWsIdx.getD target.2.1)
        else none := by
  unfold moveTarget
  rw [monitorIdxForOutput_shape l w]
  refine congrArg _ (funext fun newIdx => ?_)
  unfold shape
  rw [getElem?_map]
  cases l.monitors[newIdx]? with
  | none => rfl
  | some m =>
    have hlen : (m.shape w).2.2.length = m.workspaces.length := length_map _
    dsimp only [map_some, bind_some]
    rw [hlen]
    rfl

theorem placeOf_shape (l : Layout) (w : ℕ) :
    l.placeOf (some w) = ((l.shape w).findIdx? (·.2.2.any id)).bind fun monIdx =>
      ((l.shape w)[monIdx]?).bind fun m => (m.2.2.findIdx? id).map fun wsIdx => (monIdx, wsIdx) := by
  have hany : (fun m : Monitor => m.hasWindow w) = fun m => (m.shape w).2.2.any id := by
    funext m
    unfold Monitor.hasWindow Monitor.shape
    rw [List.any_map]
    rfl
  unfold placeOf shape
  dsimp only
  rw [findIdx?_map, hany]
  refine congrArg _ (funext fun monIdx => ?_)
  rw [getElem?_map]
  cases l.monitors[monIdx]? with
  | none => rfl
  | some m =>
    have hidx : m.workspaces.findIdx? (·.hasWindow w) = (m.shape w).2.2.findIdx? id := by
      unfold Monitor.shape
      rw [findIdx?_map]
      rfl
    refine Eq.trans ?_ (congrArg (Option.map fun wsIdx => (monIdx, wsIdx)) hidx)
    exact map_eq_bind.symm

theorem leaves_congr (h : l'.shape w = l.shape w) (output : Output) (targetWsIdx : Option ℕ) :
    l'.leaves w output targetWsIdx = l.leaves w output targetWsIdx := by
  unfold leaves
  rw [moveTarget_shape l' w, moveTarget_shape l w, placeOf_shape, placeOf_shape, h]

theorem Workspace.Kept.hasWindow (h : Workspace.Kept ws ws') (w : ℕ) : ws'.hasWindow w = ws.hasWindow w := by
  rw [Bool.eq_iff_iff, Workspace.hasWindow_iff, Workspace.hasWindow_iff]
  exact h.windowIds.mem_iff

theorem shape_setMonitor (hm : l.monitorAt idx = some m) (h : m'.shape w = m.shape w) :
    (l.setMonitor idx m').shape w = l.shape w := by
  obtain ⟨m₀, hm₀, rfl⟩ := of_map hm
  unfold shape
  rw [monitors_setMonitor]
  exact map_set_of_eq hm₀ h

theorem shape_setWorkspace (hws : m.workspaces[idx]? = some ws) (h : ws'.hasWindow w = ws.hasWindow w) :
    (m.setWorkspace idx ws').shape w = m.shape w := by
  unfold Monitor.shape
  exact congrArg (fun workspaces => (m.output, m.activeWorkspaceIdx, workspaces)) (map_set_of_eq hws h)

theorem shape_onUnmoved {g : Workspace → Option Workspace} (h : l.Intact)
    (hg : ∀ ws ws', ws.Ok → g ws = some ws' → Workspace.Kept ws ws') (hl : l.onUnmoved idx g = some l')
    (w : ℕ) : l'.shape w = l.shape w := by
  unfold Layout.onUnmoved onWorkspaceOf onFirstWorkspace at hl
  split at hl
  · exact some.inj hl ▸ rfl
  · split at hl
    · cases hset : l.monitorSet with
      | normal ms primaryIdx activeMonitorIdx =>
        rw [hset] at hl
        obtain ⟨monIdx, -, hl⟩ := of_bind hl
        obtain ⟨m, hm, hl⟩ := of_bind hl
        obtain ⟨m', hm', rfl⟩ := of_bind_some hl
        obtain ⟨i, -, hm'⟩ := of_bind hm'
        obtain ⟨ws, ws', hws, hws', rfl⟩ := Monitor.onWorkspace_spec hm'
        have hok := ((h.monitorAt hm).focused ws (mem_of_getElem? hws)).ok
        exact shape_setMonitor hm (shape_setWorkspace hws ((hg ws ws' hok hws').hasWindow w))
      | noOutputs workspaces =>
        rw [hset] at hl
        obtain ⟨i, -, hl⟩ := of_bind hl
        obtain ⟨ws, -, hl⟩ := of_bind hl
        obtain ⟨ws', -, rfl⟩ := of_bind_some hl
        unfold shape monitors
        rw [hset]
    · exact some.inj hl ▸ rfl

theorem shape_forWorkspaces {g : Workspace → Option Workspace} (h : ∀ m ∈ l.monitors, m.Sound)
    (hg : ∀ ws ws', ws.Ok → g ws = some ws' → Workspace.Kept ws ws') (hl : l.forWorkspaces g = some l')
    (w : ℕ) : l'.shape w = l.shape w := by
  unfold forWorkspaces at hl
  cases hset : l.monitorSet with
  | normal ms primaryIdx activeMonitorIdx =>
    rw [hset] at hl
    have hall := (forall₂_and_left _ _).mpr ⟨h, forMonitors_forall₂ hl⟩
    refine Forall₂.map_eq hall fun m m' hm => ?_
    obtain ⟨hsound, k, hf⟩ := hm
    obtain ⟨workspaces, hmap, rfl⟩ := of_map hf
    have hkept := (forall₂_and_left _ _).mpr ⟨hsound.focused, mapM_forall₂ hmap⟩
    have hhas : workspaces.map (·.hasWindow w) = m.workspaces.map (·.hasWindow w) :=
      (Forall₂.map_eq hkept fun ws ws' hws => (hg ws ws' hws.1.ok hws.2).hasWindow w)
    exact congrArg (fun flags => (m.output, m.activeWorkspaceIdx, flags)) hhas
  | noOutputs workspaces =>
    rw [hset] at hl
    obtain ⟨workspaces', -, rfl⟩ := of_map hl
    unfold shape monitors
    rw [hset]

theorem shape_setFullscreen (h : l.Intact) (hl : l.setFullscreen idx windowed renderPos = some l')
    (w : ℕ) : l'.shape w = l.shape w := by
  unfold Layout.setFullscreen at hl
  split at hl
  · refine shape_forWorkspaces (l := l.onMoving _) h.monitors (fun ws ws' hok hws' => ?_) hl w
    obtain rfl := some.inj hws'
    exact Workspace.kept_modifyWindow hok idx fun _ => ⟨rfl, rfl, rfl, rfl⟩
  · exact shape_onUnmoved h (fun ws ws' hok hws' => Workspace.kept_setFullscreen hok hws') hl w

theorem shape_setMaximized (h : l.Intact) (hl : l.setMaximized idx windowed renderPos = some l')
    (w : ℕ) : l'.shape w = l.shape w :=
  shape_onUnmoved h (fun _ _ hok hws' => Workspace.kept_setMaximized hok hws') hl w

/-! The move. -/

theorem Workspace.Stands.adopted (h : ws.Stands w s windowed) (output : Output) :
    (Monitor.adopted output ws).Stands w s windowed := by
  unfold Monitor.adopted
  split
  · cases h with
    | floating t ht hid => exact .floating t ht hid
    | scrolling h => exact .scrolling h
  · exact h

/-- The tile that was taken out is on the workspace with the given id. -/
theorem Monitor.stands_addRemoved {r : RemovedTile} {id : ℕ} {activate : ActivateWindow}
    (hfloating : r.isFloating = s.isFloating) (hmode : r.tile.window.pendingSizingMode = s.mode)
    (hm : m.addRemoved r id activate = some m') : ∃ ws ∈ m'.workspaces,
      ws.Stands r.tile.id s.moved (s.mode != .fullscreen && r.tile.window.isPendingWindowedFullscreen) := by
  obtain ⟨⟨i, target⟩, htarget, hm⟩ := of_bind hm
  obtain ⟨_, -, htarget⟩ := of_bind htarget
  obtain ⟨-, rfl⟩ := pair_inj htarget
  obtain ⟨mt, hadded, hm⟩ := of_bind hm
  obtain ⟨ws, ws', hws, hadd, hmt⟩ := onWorkspace_spec hadded
  dsimp only at hadd
  rw [hfloating] at hadd
  have hstands := Workspace.stands_addTile hmode hadd
  exact ⟨_, (filled_active hws hmt hm).1, hstands.adopted m.output⟩

/-- An operation of a monitor leaves the others alone. -/
theorem mem_onMonitor {f : Monitor → Option Monitor}
    (hf : ∀ m m', f m = some m' → ws ∈ m.workspaces → ws ∈ m'.workspaces)
    (hl : l.onMonitor idx f = some l') (hws : ws ∈ l.workspaces) : ws ∈ l'.workspaces := by
  obtain ⟨m, hm, hl⟩ := of_bind hl
  obtain ⟨m', hm', rfl⟩ := of_bind_some hl
  obtain ⟨m₀, hm₀, rfl⟩ := of_map hm
  unfold workspaces setMonitor at *
  cases hset : l.monitorSet with
  | normal ms primaryIdx activeMonitorIdx =>
    rw [hset] at hws
    have hget : ms[idx]? = some m₀ := by simpa [monitors, hset] using hm₀
    obtain ⟨m₁, hm₁, hws⟩ := mem_flatMap.mp hws
    obtain ⟨j, hj⟩ := mem_iff_getElem?.mp hm₁
    refine mem_flatMap.mpr ?_
    by_cases hsame : idx = j
    · subst hsame
      obtain rfl := some.inj (hget.symm.trans hj)
      exact ⟨m', mem_of_getElem? (getElem?_set_self (lt_length_of_getElem? hget)),
        hf _ m' hm' hws⟩
    · exact ⟨m₁, mem_of_getElem? ((getElem?_set_ne hsame).trans hj), hws⟩
  | noOutputs workspaces => simp [monitors, hset] at hm₀

theorem Monitor.mem_cleanUpUnlessSwitching (hws : ws ∈ m.workspaces) (hused : ws.hasWindowsOrName = true)
    (hm : m.cleanUpUnlessSwitching = some m') : ws ∈ m'.workspaces := by
  unfold cleanUpUnlessSwitching at hm
  split at hm
  · exact mem_cleanUpWorkspaces hws hused hm
  · exact some.inj hm ▸ hws

theorem mem_workspaces (hm : m ∈ l.monitors) (hws : ws ∈ m.workspaces) : ws ∈ l.workspaces := by
  unfold monitors at hm
  unfold workspaces
  cases hset : l.monitorSet with
  | normal ms primaryIdx activeMonitorIdx =>
    rw [hset] at hm
    exact mem_flatMap.mpr ⟨m, hm, hws⟩
  | noOutputs workspaces =>
    rw [hset] at hm
    exact absurd hm not_mem_nil

/-- What is left of the move once the tile is out. -/
theorem stands_onMonitor_addRemoved {r : RemovedTile} {id : ℕ} {activate : ActivateWindow}
    (hfloating : r.isFloating = s.isFloating) (hmode : r.tile.window.pendingSizingMode = s.mode)
    (hl : l.onMonitor idx (·.addRemoved r id activate) = some l') :
    l'.Stands r.tile.id s.moved
      (s.mode != .fullscreen && r.tile.window.isPendingWindowedFullscreen) := by
  obtain ⟨m, hm, hl⟩ := of_bind hl
  obtain ⟨m', hm', rfl⟩ := of_bind_some hl
  obtain ⟨ws, hws, hstands⟩ := Monitor.stands_addRemoved hfloating hmode hm'
  obtain ⟨m₀, hm₀, -⟩ := of_map hm
  refine ⟨ws, mem_workspaces (m := m') ?_ hws, hstands⟩
  rw [monitors_setMonitor]
  exact mem_of_getElem? (getElem?_set_self (lt_length_of_getElem? hm₀))

theorem hasWindowsOrName_of_mem (hw : w ∈ ws.windowIds) : ws.hasWindowsOrName = true := by
  have hne : ws.windowIds ≠ [] := fun h => not_mem_nil (h ▸ hw)
  unfold Workspace.hasWindowsOrName
  rw [Workspace.hasWindows_iff.mpr hne, Bool.true_or]

theorem leaves_of_target {newIdx i : ℕ} {place : ℕ × ℕ} (hout : l.monitorIdxForOutput output = some newIdx)
    (hm : l.monitors[newIdx]? = some m) (hplace : l.placeOf (some w) = some place)
    (hws : m.workspaces[targetWsIdx.getD m.activeWorkspaceIdx]? = some ws)
    (hi : i = targetWsIdx.getD m.activeWorkspaceIdx) :
    l.leaves w output targetWsIdx = true ↔ place ≠ (newIdx, i) := by
  have htarget : l.moveTarget output targetWsIdx = some (newIdx, i) := by
    unfold moveTarget
    rw [hout, some_bind, hm]
    dsimp only [some_bind]
    rw [if_pos (lt_length_of_getElem? hws), hi]
  unfold leaves
  rw [htarget, any_some, hplace, bne_iff_ne]
  exact not_congr some_inj

theorem moveToOutput_of_stays {activate : ActivateWindow} (hstays : l.leaves w output targetWsIdx = false)
    (hl : l.moveToOutput (some w) output targetWsIdx activate = some l') : l' = l := by
  unfold moveToOutput at hl
  split at hl
  · exact (some.inj hl).symm
  · obtain ⟨newIdx, hout, hl⟩ := of_bind hl
    obtain ⟨⟨monIdx, wsIdx⟩, hplace, hl⟩ := of_bind hl
    obtain ⟨target, htarget, hl⟩ := of_bind hl
    dsimp only at hl
    split at hl
    · exact (some.inj hl).symm
    · rename_i hne
      split at hl
      · exact (some.inj hl).symm
      · rename_i ws hws
        have hleaves := (leaves_of_target hout htarget hplace hws rfl).mpr
          fun heq => hne (Prod.mk.inj heq)
        rw [hstays] at hleaves
        cases hleaves

theorem leaves_spec (h : l.leaves w output targetWsIdx = true) :
    ∃ newIdx m ws, l.monitorIdxForOutput output = some newIdx ∧ l.monitors[newIdx]? = some m ∧
      m.workspaces[targetWsIdx.getD m.activeWorkspaceIdx]? = some ws ∧
      l.placeOf (some w) ≠ some (newIdx, targetWsIdx.getD m.activeWorkspaceIdx) := by
  obtain ⟨place, htarget, hne⟩ := (Option.any_eq_true ..).mp h
  obtain ⟨newIdx, hout, htarget⟩ := of_bind htarget
  obtain ⟨m, hm, htarget⟩ := of_bind htarget
  dsimp only at htarget
  split at htarget
  · rename_i hlt
    obtain rfl := some.inj htarget
    exact ⟨newIdx, m, _, hout, hm, getElem?_eq_getElem hlt, bne_iff_ne.mp hne⟩
  · cases htarget

/-- The tile of the window is taken out as it stands. -/
theorem Stands.takeTile (h : l.Stands w s windowed) (hl : l.Intact) {monIdx wsIdx : ℕ}
    (hplace : l.placeOf (some w) = some (monIdx, wsIdx)) {taken : Option (RemovedTile × Layout)}
    (ht : l.takeTile monIdx wsIdx (some w) = some taken) : ∃ r lt, taken = some (r, lt) ∧
      r.tile.id = w ∧ r.isFloating = s.isFloating ∧ r.tile.window.pendingSizingMode = s.mode ∧
      r.tile.window.isPendingWindowedFullscreen = windowed := by
  obtain ⟨i, hi, hplace⟩ := of_bind hplace
  obtain ⟨m, hm, hplace⟩ := of_bind hplace
  obtain ⟨j, hj, hplace⟩ := of_bind hplace
  obtain ⟨rfl, rfl⟩ := pair_inj hplace
  obtain ⟨m', hm', ht⟩ := of_bind ht
  obtain ⟨ws, hws, ht⟩ := of_bind ht
  obtain ⟨removed, hremoved, htaken⟩ := of_bind ht
  obtain ⟨⟨r, ws'⟩, hr, rfl⟩ := of_map hremoved
  obtain ⟨m₀, hm₀, rfl⟩ := of_map hm'
  obtain rfl := some.inj (hm.symm.trans hm₀)
  have hws : m.workspaces[j]? = some ws := hws
  have hhere : ws.hasWindow w = true := by
    obtain ⟨hlt, hthere, -⟩ := findIdx?_eq_some_iff_getElem.mp hj
    rw [getElem?_eq_getElem hlt, some.injEq] at hws
    exact hws ▸ hthere
  obtain ⟨u, hu, hstands⟩ := h
  have hmem := mem_workspaces (mem_of_getElem? hm) (mem_of_getElem? hws)
  obtain rfl := hl.workspace_unique hu hmem hstands.mem (Workspace.hasWindow_iff.mp hhere)
  obtain ⟨hfloating, hmode, hwindowed⟩ := hstands.removeTile (hl.workspace_ok hmem) hr
  exact ⟨r, _, (some.inj htaken).symm, (Workspace.removeTile_cases hr).2, hfloating, hmode, hwindowed⟩

theorem Stands.moveToOutput {activate : ActivateWindow} (h : l.Stands w s windowed) (hl : l.Intact)
    (hidle : l.interactiveMove = none) (hleaves : l.leaves w output targetWsIdx = true)
    (hl' : l.moveToOutput (some w) output targetWsIdx activate = some l') :
    l'.Stands w s.moved (s.mode != .fullscreen && windowed) := by
  obtain ⟨newIdx, target, tws, hout, htarget, htws, hplace⟩ := leaves_spec hleaves
  have hnone : ¬ (l.targetsMoving (some w) = true ∨ l.monitors = []) := by
    rintro (hmoving | hempty)
    · unfold targetsMoving movingTile moving at hmoving
      rw [hidle] at hmoving
      cases hmoving
    · rw [hempty] at htarget
      cases htarget
  unfold Layout.moveToOutput at hl'
  rw [if_neg hnone] at hl'
  obtain ⟨newIdx', hout', hl'⟩ := of_bind hl'
  obtain rfl := some.inj (hout.symm.trans hout')
  obtain ⟨⟨monIdx, wsIdx⟩, hat, hl'⟩ := of_bind hl'
  obtain ⟨target', htarget', hl'⟩ := of_bind hl'
  obtain rfl := some.inj (htarget.symm.trans htarget')
  have hne : ¬ (monIdx = newIdx ∧ wsIdx = targetWsIdx.getD target.activeWorkspaceIdx) := by
    rintro ⟨rfl, rfl⟩
    exact hplace hat
  dsimp only at hl'
  rw [if_neg hne, htws] at hl'
  obtain ⟨taken, htaken, hl'⟩ := of_bind hl'
  obtain ⟨r, lt, rfl, hid, hfloating, hmode, hwindowed⟩ := h.takeTile hl hat htaken
  obtain ⟨lu, hlu, hl'⟩ := of_bind hl'
  obtain ⟨ws, hws, hstands⟩ := stands_onMonitor_addRemoved hfloating hmode hlu
  rw [hid, hwindowed] at hstands
  refine ⟨ws, mem_onMonitor (fun m m' hm' hmem => ?_) hl' ?_, hstands⟩
  · exact Monitor.mem_cleanUpUnlessSwitching hmem (hasWindowsOrName_of_mem hstands.mem) hm'
  · rw [workspaces_activateMonitorIf]
    exact hws

theorem Stands.standing (h : l.Stands w s windowed) (hl : l.Intact) : l.standing w = some (s, windowed) := by
  obtain ⟨ws, hws, hmem, hstands⟩ := h.find? hl
  unfold Layout.standing
  rw [hws, bind_some]
  exact hstands.standing (hl.workspace_ok hmem)

/-! No interactive move begins. -/

theorem interactiveMove_onUnmoved {g : Workspace → Option Workspace} (hl : l.onUnmoved w g = some l') :
    l'.interactiveMove = l.interactiveMove := by
  unfold Layout.onUnmoved onWorkspaceOf at hl
  split at hl
  · exact some.inj hl ▸ rfl
  · split at hl
    · exact interactiveMove_onFirstWorkspace hl
    · exact some.inj hl ▸ rfl

theorem idle_setFullscreen (hidle : l.interactiveMove = none)
    (hl : l.setFullscreen w windowed renderPos = some l') : l'.interactiveMove = none := by
  unfold Layout.setFullscreen at hl
  split at hl
  · refine (interactiveMove_forWorkspaces hl).trans ?_
    unfold onMoving
    dsimp only
    rw [hidle]
    rfl
  · exact (interactiveMove_onUnmoved hl).trans hidle

theorem interactiveMove_takeTile {monIdx wsIdx : ℕ} {window : Option ℕ} {r : RemovedTile}
    (hl : l.takeTile monIdx wsIdx window = some (some (r, l'))) :
    l'.interactiveMove = l.interactiveMove := by
  obtain ⟨m, -, hl⟩ := of_bind hl
  obtain ⟨ws, -, hl⟩ := of_bind hl
  obtain ⟨removed, -, hl⟩ := of_bind hl
  cases removed with
  | none => cases some.inj hl
  | some p =>
    obtain ⟨-, rfl⟩ := pair_inj (some.inj hl)
    exact interactiveMove_setMonitor ..

theorem interactiveMove_moveToOutput {window : Option ℕ} {activate : ActivateWindow}
    (hl : l.moveToOutput window output targetWsIdx activate = some l') :
    l'.interactiveMove = l.interactiveMove := by
  unfold Layout.moveToOutput at hl
  split at hl
  · exact some.inj hl ▸ rfl
  · obtain ⟨newIdx, -, hl⟩ := of_bind hl
    obtain ⟨⟨monIdx, wsIdx⟩, -, hl⟩ := of_bind hl
    obtain ⟨target, -, hl⟩ := of_bind hl
    dsimp only at hl
    split at hl
    · exact some.inj hl ▸ rfl
    · split at hl
      · exact some.inj hl ▸ rfl
      · obtain ⟨taken, htaken, hl⟩ := of_bind hl
        cases taken with
        | none => exact some.inj hl ▸ rfl
        | some p =>
          obtain ⟨lt, hlt, hl⟩ := of_bind hl
          exact (interactiveMove_onMonitor hl).trans ((interactiveMove_activateMonitorIf ..).trans
            ((interactiveMove_onMonitor hlt).trans (interactiveMove_takeTile htaken)))

theorem keeps_setMaximized (h : l.Intact) (hl : l.setMaximized w windowed renderPos = some l') : Keeps l l' :=
  h.onUnmoved (fun _ _ hws hws' => keeps_setMaximized_workspace hws hws') hl

/-! Before and after a move. -/

/-- What a move of a window and the requests to leave fullscreen and the maximized mode, each before and
after the move, make of a layout. -/
structure Around where
  moved : Layout
  fullscreen : Layout
  fullscreenMoved : Layout
  movedFullscreen : Layout
  maximized : Layout
  maximizedMoved : Layout
  movedMaximized : Layout

structure Around.IsOf (w : ℕ) (output : Output) (targetWsIdx : Option ℕ) (activate : ActivateWindow)
    (l : Layout) (a : Around) : Prop where
  moved : l.moveToOutput (some w) output targetWsIdx activate = some a.moved
  fullscreen : ∃ renderPos, l.setFullscreen w false renderPos = some a.fullscreen
  fullscreenMoved :
    a.fullscreen.moveToOutput (some w) output targetWsIdx activate = some a.fullscreenMoved
  movedFullscreen : ∃ renderPos, a.moved.setFullscreen w false renderPos = some a.movedFullscreen
  maximized : ∃ renderPos, l.setMaximized w false renderPos = some a.maximized
  maximizedMoved : a.maximized.moveToOutput (some w) output targetWsIdx activate = some a.maximizedMoved
  movedMaximized : ∃ renderPos, a.moved.setMaximized w false renderPos = some a.movedMaximized

/-- The move keeps what is seen of the window, and so does the order of the move and the requests. -/
structure Around.Commutes (w : ℕ) (l : Layout) (a : Around) : Prop where
  moved : a.moved.seen w = l.seen w
  fullscreen : a.movedFullscreen.seen w = a.fullscreenMoved.seen w
  maximized : a.movedMaximized.seen w = a.maximizedMoved.seen w

theorem Stands.seen_eq_iff {s' : Standing} {b : Bool} (h : l.Stands w s windowed) (hl : l.Intact)
    (hidle : l.interactiveMove = none) (h' : l'.Stands w s' b) (hl' : l'.Intact)
    (hidle' : l'.interactiveMove = none) : l.seen w = l'.seen w ↔ s.seen = s'.seen := by
  rw [h.seen hl hidle, h'.seen hl' hidle']
  unfold Standing.seen
  rw [Prod.mk.injEq, Prod.mk.injEq, some_inj]

variable {a : Around} {activate : ActivateWindow}

theorem Around.IsOf.commutes_iff (h : a.IsOf w output targetWsIdx activate l) (hl : l.Intact)
    (hidle : l.interactiveMove = none) (hs : l.Stands w s windowed) : a.Commutes w l ↔
      (l.leaves w output targetWsIdx = true → s.forgets windowed = false) := by
  obtain ⟨_, hf⟩ := h.fullscreen
  obtain ⟨_, hx⟩ := h.maximized
  obtain ⟨_, hmf⟩ := h.movedFullscreen
  obtain ⟨_, hmx⟩ := h.movedMaximized
  have hlm := (keeps_moveToOutput hl h.moved).sound_of_removed hl
  have hlf := (keeps_setFullscreen hl hf).sound_of_removed hl
  have hlx := (keeps_setMaximized hl hx).sound_of_removed hl
  have hlmf := (keeps_setFullscreen hlm hmf).sound_of_removed hlm
  have hlmx := (keeps_setMaximized hlm hmx).sound_of_removed hlm
  have hlfm := (keeps_moveToOutput hlf h.fullscreenMoved).sound_of_removed hlf
  have hlxm := (keeps_moveToOutput hlx h.maximizedMoved).sound_of_removed hlx
  have him := (interactiveMove_moveToOutput h.moved).trans hidle
  have hif := idle_setFullscreen hidle hf
  have hix := (interactiveMove_onUnmoved hx).trans hidle
  have himf := idle_setFullscreen him hmf
  have himx := (interactiveMove_onUnmoved hmx).trans him
  have hifm := (interactiveMove_moveToOutput h.fullscreenMoved).trans hif
  have hixm := (interactiveMove_moveToOutput h.maximizedMoved).trans hix
  obtain ⟨bf, hsf⟩ := hs.setFullscreen hl hidle hf
  obtain ⟨bx, hsx⟩ := hs.setMaximized hl hidle hx
  have hleavesf := leaves_congr (shape_setFullscreen hl hf w) output targetWsIdx
  have hleavesx := leaves_congr (shape_setMaximized hl hx w) output targetWsIdx
  cases hleaves : l.leaves w output targetWsIdx with
  | false =>
    refine iff_of_true ?_ (fun hno => absurd hno Bool.false_ne_true)
    have hm := moveToOutput_of_stays hleaves h.moved
    have hfm := moveToOutput_of_stays (hleavesf.trans hleaves) h.fullscreenMoved
    have hxm := moveToOutput_of_stays (hleavesx.trans hleaves) h.maximizedMoved
    rw [hm] at hmf hmx
    obtain ⟨_, hsmf⟩ := hs.setFullscreen hl hidle hmf
    obtain ⟨_, hsmx⟩ := hs.setMaximized hl hidle hmx
    refine ⟨congrArg (seen · w) hm, ?_, ?_⟩
    · rw [hfm]
      exact (hsmf.seen_eq_iff hlmf himf hsf hlf hif).mpr rfl
    · rw [hxm]
      exact (hsmx.seen_eq_iff hlmx himx hsx hlx hix).mpr rfl
  | true =>
    have hsm := hs.moveToOutput hl hidle hleaves h.moved
    have hsfm := hsf.moveToOutput hlf hif (hleavesf.trans hleaves) h.fullscreenMoved
    have hsxm := hsx.moveToOutput hlx hix (hleavesx.trans hleaves) h.maximizedMoved
    obtain ⟨_, hsmf⟩ := hsm.setFullscreen hlm him hmf
    obtain ⟨_, hsmx⟩ := hsm.setMaximized hlm him hmx
    rw [imp_iff_right rfl, ← s.moved_commutes_iff windowed, ← hsm.seen_eq_iff hlm him hs hl hidle,
      ← hsmf.seen_eq_iff hlmf himf hsfm hlfm hifm, ← hsmx.seen_eq_iff hlmx himx hsxm hlxm hixm]
    exact ⟨fun hc => ⟨hc.moved, hc.fullscreen, hc.maximized⟩, fun ⟨hm, hf, hx⟩ => ⟨hm, hf, hx⟩⟩

/-- Leaving fullscreen and the maximized mode commutes with the move of a window, unless the window is
over something that a move does not take along. -/
theorem moveToOutput_commutes_iff {clock : ℚ} {config : Config} {ops : List LayoutOp}
    (hfair : AllAlong apply (fun l op => op.Fair l) (new clock config) ops)
    (hrun : run apply (new clock config) ops = some l) (hidle : l.interactiveMove = none)
    (hw : w ∈ l.windowIds) (h : a.IsOf w output targetWsIdx activate l) :
    a.Commutes w l ↔ (l.leaves w output targetWsIdx = true →
      (l.standing w).any (fun p => !p.1.forgets p.2) = true) := by
  have hl := sound_run hfair hrun
  obtain ⟨s, windowed, hs⟩ := exists_stands hidle hw
  rw [h.commutes_iff hl hidle hs, hs.standing hl, any_some, Bool.not_eq_true']

/-- With everything drawn at the origin. -/
def around (l : Layout) (w : ℕ) (output : Output) (targetWsIdx : Option ℕ) (activate : ActivateWindow) :
    Option Around := do
  let moved ← l.moveToOutput (some w) output targetWsIdx activate
  let fullscreen ← l.setFullscreen w false ⟨0, 0⟩
  let fullscreenMoved ← fullscreen.moveToOutput (some w) output targetWsIdx activate
  let movedFullscreen ← moved.setFullscreen w false ⟨0, 0⟩
  let maximized ← l.setMaximized w false ⟨0, 0⟩
  let maximizedMoved ← maximized.moveToOutput (some w) output targetWsIdx activate
  let movedMaximized ← moved.setMaximized w false ⟨0, 0⟩
  return ⟨moved, fullscreen, fullscreenMoved, movedFullscreen, maximized, maximizedMoved, movedMaximized⟩

theorem isOf_around (h : l.around w output targetWsIdx activate = some a) :
    a.IsOf w output targetWsIdx activate l := by
  obtain ⟨moved, hm, h⟩ := of_bind h
  obtain ⟨fullscreen, hf, h⟩ := of_bind h
  obtain ⟨fullscreenMoved, hfm, h⟩ := of_bind h
  obtain ⟨movedFullscreen, hmf, h⟩ := of_bind h
  obtain ⟨maximized, hx, h⟩ := of_bind h
  obtain ⟨maximizedMoved, hxm, h⟩ := of_bind h
  obtain ⟨movedMaximized, hmx, rfl⟩ := of_bind_some h
  exact ⟨hm, ⟨_, hf⟩, hfm, ⟨_, hmf⟩, ⟨_, hx⟩, hxm, ⟨_, hmx⟩⟩

/-- A window is fullscreen on one of two outputs, over a maximized column or not. -/
def fullscreenOnLaptop (maximized : Bool) : List LayoutOp :=
  openedOnLaptop false ++ [.layoutWindow (.setMaximized 1 maximized ⟨0, 0⟩),
    .layoutWindow (.setFullscreen 1 true ⟨0, 0⟩)]

theorem moveToOutput_commutes_normal : ∃ l a,
    run apply (new 0 ⟨[], .default⟩) (fullscreenOnLaptop false) = some l ∧
    l.leaves 1 (screen 1 "DP-1") none = true ∧
    l.around 1 (screen 1 "DP-1") none .smart = some a ∧ a.Commutes 1 l := by
  have hrun : (run apply (new 0 ⟨[], .default⟩) (fullscreenOnLaptop false)).any (fun l =>
      l.interactiveMove.isNone && decide (1 ∈ l.windowIds) && l.leaves 1 (screen 1 "DP-1") none &&
      (l.standing 1).any (fun p => !p.1.forgets p.2) &&
      (l.around 1 (screen 1 "DP-1") none .smart).isSome) = true := by decide +kernel
  obtain ⟨l, hl, hall⟩ := (Option.any_eq_true _ _).mp hrun
  obtain ⟨hall, haround⟩ := Bool.and_eq_true_iff.mp hall
  obtain ⟨hall, hstanding⟩ := Bool.and_eq_true_iff.mp hall
  obtain ⟨hall, hleaves⟩ := Bool.and_eq_true_iff.mp hall
  obtain ⟨hidle, hw⟩ := Bool.and_eq_true_iff.mp hall
  obtain ⟨a, ha⟩ := isSome_iff_exists.mp haround
  exact ⟨l, a, hl, hleaves, ha, (moveToOutput_commutes_iff
    (allAlong_of_decide (by decide +kernel)) hl (isNone_iff_eq_none.mp hidle) (of_decide_eq_true hw)
    (isOf_around ha)).mpr fun _ => hstanding⟩

/-- Moved to the other output, the window is normal when it leaves fullscreen, and not maximized. -/
theorem moveToOutput_forgets_maximized : ∃ l a,
    run apply (new 0 ⟨[], .default⟩) (fullscreenOnLaptop true) = some l ∧
    AllAlong apply (fun l op => op.Fair l) (new 0 ⟨[], .default⟩) (fullscreenOnLaptop true) ∧
    l.interactiveMove = none ∧ 1 ∈ l.windowIds ∧
    l.around 1 (screen 1 "DP-1") none .smart = some a ∧
    a.fullscreenMoved.seen 1 = (some .maximized, false) ∧
    a.movedFullscreen.seen 1 = (some .normal, false) := by
  have hrun : (run apply (new 0 ⟨[], .default⟩) (fullscreenOnLaptop true)).any (fun l =>
      l.interactiveMove.isNone && decide (1 ∈ l.windowIds) &&
      (l.around 1 (screen 1 "DP-1") none .smart).any fun a =>
        a.fullscreenMoved.seen 1 == (some .maximized, false) &&
          a.movedFullscreen.seen 1 == (some .normal, false)) = true := by decide +kernel
  obtain ⟨l, hl, hall⟩ := (Option.any_eq_true _ _).mp hrun
  obtain ⟨hall, haround⟩ := Bool.and_eq_true_iff.mp hall
  obtain ⟨hidle, hw⟩ := Bool.and_eq_true_iff.mp hall
  obtain ⟨a, ha, hseen⟩ := (Option.any_eq_true _ _).mp haround
  obtain ⟨hbefore, hafter⟩ := Bool.and_eq_true_iff.mp hseen
  exact ⟨l, a, hl, allAlong_of_decide (by decide +kernel), isNone_iff_eq_none.mp hidle,
    of_decide_eq_true hw, ha, beq_iff_eq.mp hbefore, beq_iff_eq.mp hafter⟩

end Macniri.Layout
