import Macniri.Layout.MonitorWorkspaces

/-! Runs of a monitor, and how its switch follows the active workspace through them. -/
namespace Macniri.Layout

open Option List

/-- What the layout does to a monitor. -/
inductive MonitorOp where
  | workspace (idx : ℕ) (op : WorkspaceOp)
  | openWindow (window : Window) (target : MonitorAddWindowTarget) (opening : WindowOpening)
  | addTile (tile : Tile) (target : MonitorAddWindowTarget) (activate : ActivateWindow)
      (allowToActivateWorkspace : Bool) (width : ColumnWidth) (isFullWidth isFloating : Bool)
      (renderPos : Point)
  | addColumn (workspaceIdx : ℕ) (column : WfColumn) (activate : Bool)
  | addTileToColumn (workspaceIdx columnIdx : ℕ) (tileIdx : Option ℕ) (tile : Tile)
      (activate allowToActivateWorkspace : Bool)
  | dropTile (d : InteractiveMoveData) (drop : DropPoint) (allowToActivateWorkspace : Bool)
  | removeWindow (window : ℕ)
  | moveToWorkspaceUp (focus : Bool)
  | moveToWorkspaceDown (focus : Bool)
  | moveToWorkspace (window : Option ℕ) (idx : ℕ) (activate : ActivateWindow)
  | moveColumnToWorkspaceUp (activate : Bool)
  | moveColumnToWorkspaceDown (activate : Bool)
  | moveColumnToWorkspace (idx : ℕ) (activate : Bool)
  | moveDownOrToWorkspaceDown
  | moveUpOrToWorkspaceUp
  | addWorkspaceAt (idx : ℕ)
  | cleanUp
  | setWorkspaceName (idx : ℕ) (name : String)
  | padNamed (id : ℕ)
  | unnameWorkspace (id : ℕ)
  | setOriginalOutput (idx : ℕ)
  | removeWorkspaceByIdx (idx : ℕ)
  | insertWorkspace (ws : Workspace) (idx : ℕ) (activate : Bool)
  | insertNamed (config : WorkspaceConfig) (clock : ℚ) (options : Options)
  | appendWorkspaces (workspaces : List Workspace)
  | releaseFor (output : Output)
  | moveWorkspaceDown
  | moveWorkspaceUp
  | moveWorkspaceToIdx (oldIdx newIdx : ℕ)
  | activateWorkspace (idx : ℕ)
  | switchWorkspaceUp
  | switchWorkspaceDown
  | switchWorkspace (idx : ℕ)
  | switchWorkspacePrevious
  | switchWorkspaceAutoBackAndForth (idx : ℕ)
  | focusWindowOrWorkspaceDown
  | focusWindowOrWorkspaceUp
  | updateConfig (baseOptions : Options)
  | updateLayoutConfig (layoutConfig : Option LayoutPart)
  | updateOutputSize (output : Output)
  | setOverview (overviewOpen : Bool) (progress : Option ℚ)
  | setClock (now : ℚ) (anim : Monitor.AnimationState)
  | advanceAnimations (anim : Monitor.AnimationState)
  | workspaceSwitchGestureBegin (isTouchpad : Bool)
  | workspaceSwitchGestureUpdate (deltaY timestamp : ℚ) (isTouchpad : Bool)
  | workspaceSwitchGestureEnd (isTouchpad : Option Bool)
  | dndScrollGestureBegin
  | dndScrollGestureScroll (delta : ℚ)
  | dndScrollGestureEnd

namespace Monitor

def apply (m : Monitor) : MonitorOp → Option Monitor
  | .workspace idx op => m.onWorkspace idx (·.apply op)
  | .openWindow window target opening => m.openWindow window target opening
  | .addTile tile target activate allow width isFullWidth isFloating renderPos =>
    m.addTile tile target activate allow width isFullWidth isFloating renderPos
  | .addColumn workspaceIdx column activate => m.addColumn workspaceIdx column.1 activate
  | .addTileToColumn workspaceIdx columnIdx tileIdx tile activate allow =>
    m.addTileToColumn workspaceIdx columnIdx tileIdx tile activate allow
  | .dropTile d drop allow => m.dropTile d drop allow
  | .removeWindow window => (m.removeWindow window).map (·.2)
  | .moveToWorkspaceUp focus => m.moveToWorkspaceUp focus
  | .moveToWorkspaceDown focus => m.moveToWorkspaceDown focus
  | .moveToWorkspace window idx activate => m.moveToWorkspace window idx activate
  | .moveColumnToWorkspaceUp activate => m.moveColumnToWorkspaceUp activate
  | .moveColumnToWorkspaceDown activate => m.moveColumnToWorkspaceDown activate
  | .moveColumnToWorkspace idx activate => m.moveColumnToWorkspace idx activate
  | .moveDownOrToWorkspaceDown => m.moveDownOrToWorkspaceDown
  | .moveUpOrToWorkspaceUp => m.moveUpOrToWorkspaceUp
  | .addWorkspaceAt idx => some (m.addWorkspaceAt idx)
  | .cleanUp => m.cleanUpUnlessSwitching
  | .setWorkspaceName idx name => m.onWorkspace idx fun ws => some { ws with name := some name }
  | .padNamed id => some (Layout.padNamed m id)
  | .unnameWorkspace id => m.unnameWorkspace id
  | .setOriginalOutput idx =>
    m.onWorkspace idx fun ws => some { ws with originalOutput := OutputId.new m.output }
  | .removeWorkspaceByIdx idx => (m.removeWorkspaceByIdx idx).map (·.2)
  | .insertWorkspace ws idx activate => m.insertWorkspace ws idx activate
  | .insertNamed config clock options => Layout.insertNamed m config clock options
  | .appendWorkspaces workspaces => m.appendWorkspaces workspaces
  | .releaseFor output => (m.releaseFor output).map (·.1)
  | .moveWorkspaceDown => m.moveWorkspaceDown
  | .moveWorkspaceUp => m.moveWorkspaceUp
  | .moveWorkspaceToIdx oldIdx newIdx => m.moveWorkspaceToIdx oldIdx newIdx
  | .activateWorkspace idx => m.activateWorkspace idx
  | .switchWorkspaceUp => m.switchWorkspaceUp
  | .switchWorkspaceDown => m.switchWorkspaceDown
  | .switchWorkspace idx => m.switchWorkspace idx
  | .switchWorkspacePrevious => m.switchWorkspacePrevious
  | .switchWorkspaceAutoBackAndForth idx => m.switchWorkspaceAutoBackAndForth idx
  | .focusWindowOrWorkspaceDown => m.focusWindowOrWorkspaceDown
  | .focusWindowOrWorkspaceUp => m.focusWindowOrWorkspaceUp
  | .updateConfig baseOptions => some (m.updateConfig baseOptions)
  | .updateLayoutConfig layoutConfig => some (m.updateLayoutConfig layoutConfig)
  | .updateOutputSize output => some (m.updateOutputSize output)
  | .setOverview overviewOpen progress =>
    some (setOverviewProgress { m with overviewOpen := overviewOpen } progress)
  | .setClock now anim => some (m.setClock now anim)
  | .advanceAnimations anim => m.advanceAnimations anim
  | .workspaceSwitchGestureBegin isTouchpad => some (m.workspaceSwitchGestureBegin isTouchpad)
  | .workspaceSwitchGestureUpdate deltaY timestamp isTouchpad =>
    m.workspaceSwitchGestureUpdate deltaY timestamp isTouchpad
  | .workspaceSwitchGestureEnd isTouchpad => m.workspaceSwitchGestureEnd isTouchpad
  | .dndScrollGestureBegin => some m.dndScrollGestureBegin
  | .dndScrollGestureScroll delta => (m.dndScrollGestureScroll delta).map (·.2)
  | .dndScrollGestureEnd => m.dndScrollGestureEnd

/-- What the layout promises of its calls: indices are in range, a window that is added is new to the
monitor, and no two outputs go by the same name. -/
def Promised (m : Monitor) : MonitorOp → Prop
  | .workspace _ op => op.added = [] ∧ ∀ output, op ≠ .config (.setOutput output)
  | .openWindow window _ _ => window.id ∉ m.windowIds
  | .addTile tile _ _ _ _ _ _ _ => tile.id ∉ m.windowIds
  | .addColumn _ column _ => ∀ w ∈ column.1.windowIds, w ∉ m.windowIds
  | .addTileToColumn _ _ _ tile _ _ => tile.id ∉ m.windowIds
  | .dropTile d _ _ => d.tile.id ∉ m.windowIds
  | .addWorkspaceAt idx => idx ≤ m.workspaces.length
  | .insertWorkspace ws idx _ =>
    ws.Ok ∧ (∀ w ∈ ws.windowIds, w ∉ m.windowIds) ∧ idx ≤ m.workspaces.length
  | .appendWorkspaces workspaces => m.Movable workspaces
  | .releaseFor output => (OutputId.new m.output).matches output = false
  | .activateWorkspace idx => idx < m.workspaces.length
  | .updateOutputSize output => OutputId.new output = OutputId.new m.output
  | _ => True

variable {m m' : Monitor} {op : MonitorOp}

/-- What a step does to the windows and the order of the workspaces. -/
theorem effect_apply (h : m.Inv) (hop : m.Promised op) (hm : m.apply op = some m') :
    ∃ added removed, Effect added removed m m' := by
  cases op with
  | workspace idx op =>
    obtain ⟨ws, ws', hws, happly, rfl⟩ := onWorkspace_spec hm
    obtain ⟨removed, hcut⟩ := Workspace.cut_apply (h.ok_getElem? hws) hop.1 hop.2 happly
    obtain ⟨hmon, hinv⟩ := h.cutWorkspace hws hcut
    exact ⟨_, _, hmon.effect hinv⟩
  | openWindow window target opening => exact ⟨_, _, effect_openWindow h hop hm⟩
  | addTile tile target activate allow width isFullWidth isFloating renderPos =>
    exact ⟨_, _, (grown_addTile hop h hm).effect⟩
  | addColumn workspaceIdx column activate =>
    exact ⟨_, _, (grown_addColumn h column.2 hop hm).effect⟩
  | addTileToColumn workspaceIdx columnIdx tileIdx tile activate allow =>
    exact ⟨_, _, (grown_addTileToColumn h hop hm).effect⟩
  | dropTile d drop allow => exact ⟨_, _, (grown_dropTile h hop hm).effect⟩
  | removeWindow window =>
    obtain ⟨⟨r, mt⟩, hr, rfl⟩ := of_map hm
    exact ⟨_, _, effect_removeWindow h hr⟩
  | moveToWorkspaceUp focus => exact ⟨_, _, effect_moveActiveTileTo h hm⟩
  | moveToWorkspaceDown focus => exact ⟨_, _, effect_moveActiveTileTo h hm⟩
  | moveToWorkspace window idx activate => exact ⟨_, _, effect_moveToWorkspace h hm⟩
  | moveColumnToWorkspaceUp activate =>
    exact ⟨_, _, effect_moveColumnTo h (effect_moveActiveTileTo h) hm⟩
  | moveColumnToWorkspaceDown activate =>
    exact ⟨_, _, effect_moveColumnTo h (effect_moveActiveTileTo h) hm⟩
  | moveColumnToWorkspace idx activate =>
    exact ⟨_, _, effect_moveColumnTo h (effect_moveToWorkspace h) hm⟩
  | moveDownOrToWorkspaceDown => exact ⟨_, _, effect_moveDownOrToWorkspaceDown h hm⟩
  | moveUpOrToWorkspaceUp => exact ⟨_, _, effect_moveUpOrToWorkspaceUp h hm⟩
  | addWorkspaceAt idx =>
    obtain rfl := some.inj hm
    exact ⟨_, _, (kept_addWorkspaceAt h.toCore hop).effect (Ends.addWorkspaceAt h.ends hop)⟩
  | cleanUp => exact ⟨_, _, (Effect.refl h).cleanUp hm⟩
  | setWorkspaceName idx name =>
    obtain ⟨ws, ws', hws, hname, rfl⟩ := onWorkspace_spec hm
    exact ⟨_, _, some.inj hname ▸ effect_rename h hws (some name)⟩
  | padNamed id =>
    obtain rfl := some.inj hm
    obtain ⟨hkept, hends⟩ := kept_padNamed h id
    exact ⟨_, _, hkept.effect hends⟩
  | unnameWorkspace id => exact ⟨_, _, effect_unnameWorkspace h hm⟩
  | setOriginalOutput idx =>
    obtain ⟨ws, ws', hws, horiginal, rfl⟩ := onWorkspace_spec hm
    exact ⟨_, _, some.inj horiginal ▸ effect_setOriginalOutput h hws⟩
  | removeWorkspaceByIdx idx =>
    obtain ⟨⟨ws, mt⟩, hr, rfl⟩ := of_map hm
    exact ⟨_, _, (effect_removeWorkspaceByIdx h hr).1⟩
  | insertWorkspace ws idx activate =>
    exact ⟨_, _, (effect_insertWorkspace h hop.1 hop.2.1 hop.2.2 hm).1⟩
  | insertNamed config clock options => exact ⟨_, _, effect_insertNamed h hm⟩
  | appendWorkspaces workspaces => exact ⟨_, _, (effect_appendWorkspaces h hop hm).1⟩
  | releaseFor output =>
    obtain ⟨⟨mt, taken⟩, hr, rfl⟩ := of_map hm
    exact ⟨_, _, effect_releaseFor h hop hr⟩
  | moveWorkspaceDown => exact ⟨_, _, effect_moveWorkspaceDown h hm⟩
  | moveWorkspaceUp => exact ⟨_, _, effect_moveWorkspaceUp h hm⟩
  | moveWorkspaceToIdx oldIdx newIdx => exact ⟨_, _, effect_moveWorkspaceToIdx h hm⟩
  | activateWorkspace idx => exact ⟨_, _, (shown_activateWorkspace h.toCore hop hm).effect h⟩
  | switchWorkspaceUp => exact ⟨_, _, (shown_switchWorkspaceUp h.toCore hm).effect h⟩
  | switchWorkspaceDown => exact ⟨_, _, (shown_switchWorkspaceDown h.toCore hm).effect h⟩
  | switchWorkspace idx => exact ⟨_, _, (shown_switchWorkspace h.toCore hm).effect h⟩
  | switchWorkspacePrevious => exact ⟨_, _, (shown_switchWorkspacePrevious h.toCore hm).effect h⟩
  | switchWorkspaceAutoBackAndForth idx =>
    exact ⟨_, _, (shown_switchWorkspaceAutoBackAndForth h.toCore hm).effect h⟩
  | focusWindowOrWorkspaceDown => exact ⟨_, _, effect_focusWindowOrWorkspaceDown h hm⟩
  | focusWindowOrWorkspaceUp => exact ⟨_, _, effect_focusWindowOrWorkspaceUp h hm⟩
  | updateConfig baseOptions => exact ⟨_, _, some.inj hm ▸ effect_updateConfig h baseOptions⟩
  | updateLayoutConfig layoutConfig =>
    exact ⟨_, _, some.inj hm ▸ effect_updateLayoutConfig h layoutConfig⟩
  | updateOutputSize output => exact ⟨_, _, some.inj hm ▸ effect_updateOutputSize h hop⟩
  | setOverview overviewOpen progress =>
    exact ⟨_, _, some.inj hm ▸
      (shown_setOverviewProgress h.toCore overviewOpen progress).effect h⟩
  | setClock now anim => exact ⟨_, _, some.inj hm ▸ effect_setClock h now anim⟩
  | advanceAnimations anim => exact ⟨_, _, effect_advanceAnimations h hm⟩
  | workspaceSwitchGestureBegin isTouchpad =>
    exact ⟨_, _, some.inj hm ▸
      (shown_workspaceSwitchGestureBegin h.toCore isTouchpad).effect h⟩
  | workspaceSwitchGestureUpdate deltaY timestamp isTouchpad =>
    exact ⟨_, _, (shown_workspaceSwitchGestureUpdate h.toCore hm).effect h⟩
  | workspaceSwitchGestureEnd isTouchpad =>
    exact ⟨_, _, (shown_workspaceSwitchGestureEnd h.toCore hm).effect h⟩
  | dndScrollGestureBegin =>
    exact ⟨_, _, some.inj hm ▸ (shown_dndScrollGestureBegin h.toCore).effect h⟩
  | dndScrollGestureScroll delta =>
    obtain ⟨⟨b, mt⟩, hr, rfl⟩ := of_map hm
    exact ⟨_, _, (shown_dndScrollGestureScroll h.toCore hr).effect h⟩
  | dndScrollGestureEnd => exact ⟨_, _, (shown_dndScrollGestureEnd h.toCore hm).effect h⟩

/-- The monitors that the layout can get to. A new one takes over workspaces of another one, or of a
layout without outputs. -/
inductive Reachable : Monitor → Prop
  | new {output : Output} {workspaces : List Workspace} {wsIdToActivate : Option ℕ} {clock : ℚ}
      {baseOptions : Options} {layoutConfig : Option LayoutPart} {nextId : ℕ} {m : Monitor}
      (hok : ∀ ws ∈ workspaces, ws.Ok) (hnodup : (windowsOf workspaces).Nodup)
      (h : Monitor.new output workspaces wsIdToActivate clock baseOptions layoutConfig nextId = some m) :
      Reachable m
  | step {m m' : Monitor} {op : MonitorOp} (hm : Reachable m) (hop : m.Promised op)
      (h : m.apply op = some m') : Reachable m'

/-- A list that ends with an empty workspace of the output, and starts with one if it has to. -/
theorem inv_framed {own : List Workspace} {first : Option Workspace} {last : Workspace}
    (hws : m.workspaces = first.toList ++ own ++ [last]) (hok : ∀ ws ∈ own, ws.Ok)
    (hnodup : (windowsOf own).Nodup) (hlast : last.Ok ∧ OwnEmpty m.output last)
    (hfirst : ∀ ws ∈ first, ws.Ok ∧ OwnEmpty m.output ws)
    (hframed : m.emptyAboveFirst = true → own ≠ [] → first.isSome)
    (hactive : m.activeWorkspaceIdx < m.workspaces.length) (hswitch : m.workspaceSwitch = none) :
    m.Inv := by
  have hwindows : m.windowIds = windowsOf own := by
    unfold Monitor.windowIds
    rw [hws]
    cases first with
    | none => simp [windowsOf, hlast.2.windowIds]
    | some ws => simp [windowsOf, hlast.2.windowIds, (hfirst ws rfl).2.windowIds]
  refine ⟨⟨fun ws hmem => ?_, hwindows ▸ hnodup, hactive, fun _ ha => ?_, fun _ hg => ?_⟩,
    fun _ ws hget => ?_, fun he _ ws hget => ?_⟩
  · rw [hws] at hmem
    rcases mem_append.mp hmem with hmem | hmem
    · rcases mem_append.mp hmem with hmem | hmem
      · exact (hfirst ws (mem_toList.mp hmem)).1
      · exact hok ws hmem
    · exact mem_singleton.mp hmem ▸ hlast.1
  · simp [hswitch] at ha
  · simp [hswitch] at hg
  · have heq : m.workspaces[m.workspaces.length - 1]? = some last := by
      rw [hws, ← getLast?_eq_getElem?]
      simp
    exact some.inj (heq.symm.trans hget) ▸ hlast.2
  · rw [hws] at hget
    cases first with
    | some w =>
      have hw : some w = some ws := by simpa using hget
      exact some.inj hw ▸ (hfirst w rfl).2
    | none =>
      have hown : own = [] := by
        by_contra hne
        cases hframed he hne
      have hw : some last = some ws := by simpa [hown] using hget
      exact some.inj hw ▸ hlast.2

theorem getD_findIdx?_le {α : Type} (p : α → Bool) (l : List α) : (l.findIdx? p).getD 0 ≤ l.length := by
  cases h : l.findIdx? p with
  | none => exact Nat.zero_le _
  | some i => exact (findIdx?_eq_some_iff_getElem.mp h).1.le

theorem inv_new {output : Output} {workspaces : List Workspace} {wsIdToActivate : Option ℕ}
    {clock : ℚ} {baseOptions : Options} {layoutConfig : Option LayoutPart} {nextId : ℕ}
    (hok : ∀ ws ∈ workspaces, ws.Ok) (hnodup : (windowsOf workspaces).Nodup)
    (h : Monitor.new output workspaces wsIdToActivate clock baseOptions layoutConfig nextId = some m) :
    m.Inv := by
  unfold Monitor.new at h
  split at h
  · cases h
  · obtain ⟨options, hoptions⟩ : ∃ options, options = baseOptions.withMergedLayout layoutConfig :=
      ⟨_, rfl⟩
    rw [← hoptions] at h
    have hattached : (windowsOf (workspaces.map (Workspace.attached output options))).Nodup :=
      (windowsOf_attached hok output options).nodup_iff.mpr hnodup
    have hown : ∀ ws ∈ workspaces.map (Workspace.attached output options), ws.Ok := by
      intro ws hws
      obtain ⟨ws₀, hws₀, rfl⟩ := List.mem_map.mp hws
      exact (Workspace.attached_spec (hok ws₀ hws₀) output options).1
    have hidx := getD_findIdx?_le (fun ws : Workspace => some ws.id == wsIdToActivate)
      (workspaces.map (Workspace.attached output options))
    have hempty (id : ℕ) : (Workspace.new id output clock options).Ok ∧
      OwnEmpty output (Workspace.new id output clock options) := ⟨ok_new .., ownEmpty_new ..⟩
    have hlt (front : List Workspace) (last : Workspace) : front.length +
        ((workspaces.map (Workspace.attached output options)).findIdx? fun ws =>
          some ws.id == wsIdToActivate).getD 0 <
        (front ++ workspaces.map (Workspace.attached output options) ++ [last]).length := by
      simp only [length_append, length_singleton]
      omega
    obtain rfl := some.inj h
    cases hadd : options.emptyWorkspaceAboveFirst && !workspaces.isEmpty with
    | true =>
      refine inv_framed (show _ = (some (Workspace.new nextId output clock options)).toList ++
        workspaces.map (Workspace.attached output options) ++
          [Workspace.new (nextId + 1) output clock options] from rfl)
        hown hattached (hempty _) (fun ws hws => ?_) (fun _ _ => rfl) ?_ rfl
      · exact some.inj hws ▸ hempty nextId
      · exact hlt [Workspace.new nextId output clock options] _
    | false =>
      refine inv_framed (show _ = (none : Option Workspace).toList ++
        workspaces.map (Workspace.attached output options) ++
          [Workspace.new nextId output clock options] from rfl)
        hown hattached (hempty _) (fun ws hws => ?_) (fun he hne => ?_) ?_ rfl
      · cases hws
      · have he : options.emptyWorkspaceAboveFirst = true := he
        rw [he] at hadd
        have hnil : workspaces = [] := by simpa using hadd
        simp [hnil] at hne
      · exact hlt [] _

theorem Reachable.inv (h : Reachable m) : m.Inv := by
  induction h with
  | new hok hnodup h => exact inv_new hok hnodup h
  | step _ hop h ih =>
    obtain ⟨added, removed, heffect⟩ := effect_apply ih hop h
    exact heffect.inv

/-! The switch. -/

/-- By how much the active index goes up for a workspace inserted at an index. -/
def activeShift (m : Monitor) (idx : ℕ) : ℕ := if idx ≤ m.activeWorkspaceIdx then 1 else 0

theorem activeIdx_addWorkspaceAt (m : Monitor) (idx : ℕ) :
    (m.addWorkspaceAt idx).activeWorkspaceIdx = m.activeWorkspaceIdx + m.activeShift idx := by
  unfold addWorkspaceAt activeShift
  dsimp only
  split <;> rfl

def activeId (m : Monitor) : Option ℕ := m.ids[m.activeWorkspaceIdx]?

theorem activeId_insert {ws : Workspace} {idx : ℕ}
    (hws : m'.workspaces = m.workspaces.insertIdx idx ws)
    (hactive : m'.activeWorkspaceIdx = m.activeWorkspaceIdx + m.activeShift idx) :
    m'.activeId = m.activeId := by
  have hids : m'.ids = m.ids.insertIdx idx ws.id := by
    unfold ids
    rw [hws, map_insertIdx]
  unfold activeId
  rw [hids, hactive]
  unfold activeShift
  split
  · rw [getElem?_insertIdx_of_gt (by omega), Nat.add_sub_cancel]
  · rw [getElem?_insertIdx_of_lt (by omega), Nat.add_zero]

theorem activeId_addWorkspaceAt (m : Monitor) (idx : ℕ) :
    (m.addWorkspaceAt idx).activeId = m.activeId :=
  activeId_insert rfl (activeIdx_addWorkspaceAt m idx)

theorem activeId_erase {idx : ℕ} (hne : idx ≠ m.activeWorkspaceIdx)
    (hws : m'.workspaces = m.workspaces.eraseIdx idx)
    (hactive : m'.activeWorkspaceIdx =
      if idx < m.activeWorkspaceIdx then m.activeWorkspaceIdx - 1 else m.activeWorkspaceIdx) :
    m'.activeId = m.activeId := by
  have hids : m'.ids = m.ids.eraseIdx idx := by
    unfold ids
    rw [hws, eraseIdx_map]
  unfold activeId
  rw [hids, hactive]
  split
  · rw [getElem?_eraseIdx_of_ge (by omega), Nat.sub_add_cancel (by omega)]
  · rw [getElem?_eraseIdx_of_lt (by omega)]

theorem activeId_cleanUpBelow (start n : ℕ) (m : Monitor) :
    (m.cleanUpBelow start n).activeId = m.activeId := by
  induction n generalizing m with
  | zero => rfl
  | succ i ih =>
    unfold cleanUpBelow
    split
    · rfl
    · split
      · rename_i hunused
        have hne : i ≠ m.activeWorkspaceIdx := by
          have hne := (Bool.and_eq_true_iff.mp hunused).1
          exact fun h => by simp [h] at hne
        exact (ih _).trans (activeId_erase hne rfl rfl)
      · exact ih m

theorem emptyAboveFirst_cleanUpBelow (start n : ℕ) (m : Monitor) :
    (m.cleanUpBelow start n).emptyAboveFirst = m.emptyAboveFirst := by
  induction n generalizing m with
  | zero => rfl
  | succ i ih =>
    unfold cleanUpBelow
    split
    · rfl
    · split
      · exact ih _
      · exact ih m

/-- Of two empty workspaces only the one above the first is left. -/
def Collapsed (m m' : Monitor) : Prop := m.emptyAboveFirst = true ∧ m'.workspaces.length = 1

/-- The clean-up keeps the active workspace active. -/
theorem activeId_stopSwitch (hm : m.stopSwitch = some m') :
    m'.activeId = m.activeId ∨ Collapsed m m' := by
  unfold stopSwitch cleanUpWorkspaces at hm
  split at hm
  · cases hm
  · dsimp only at hm
    generalize hmt : cleanUpBelow _ _ _ = mt at hm
    have hid : mt.activeId = m.activeId := hmt ▸ activeId_cleanUpBelow ..
    have hfirst : mt.emptyAboveFirst = m.emptyAboveFirst := hmt ▸ emptyAboveFirst_cleanUpBelow ..
    unfold dropSecondEmpty at hm
    split at hm
    · rename_i htwo
      split at hm
      · cases hm
      · obtain rfl := some.inj hm
        refine .inr ⟨hfirst ▸ htwo.1, ?_⟩
        dsimp only
        rw [length_eraseIdx_of_lt (by omega)]
        omega
    · exact .inl (some.inj hm ▸ hid)

theorem padEnds_active (h : m.Core) (idx : ℕ) :
    (m.padEnds idx).1.activeId = m.activeId ∧
      (m.padEnds idx).1.emptyAboveFirst = m.emptyAboveFirst ∧
      (m.padEnds idx).1.activeWorkspaceIdx + idx = m.activeWorkspaceIdx + (m.padEnds idx).2 := by
  obtain ⟨mb, hmb⟩ : ∃ mb, mb = if idx + 1 = m.workspaces.length then m.addWorkspaceBottom else m :=
    ⟨_, rfl⟩
  obtain ⟨hid, hfirst, hidx⟩ : mb.activeId = m.activeId ∧ mb.emptyAboveFirst = m.emptyAboveFirst ∧
      mb.activeWorkspaceIdx = m.activeWorkspaceIdx := by
    subst hmb
    split
    · exact ⟨activeId_addWorkspaceAt .., rfl, activeIdx_addWorkspaceBottom h⟩
    · exact ⟨rfl, rfl, rfl⟩
  unfold padEnds
  rw [← hmb]
  dsimp only
  split
  · have htop : mb.addWorkspaceTop.activeWorkspaceIdx = mb.activeWorkspaceIdx + 1 := rfl
    refine ⟨(activeId_addWorkspaceAt ..).trans hid, hfirst, ?_⟩
    dsimp only
    omega
  · exact ⟨hid, hfirst, by dsimp only; omega⟩

theorem activeId_removeWorkspaceByIdx (h : m.Core) {idx : ℕ} {ws : Workspace}
    (hne : idx ≠ m.activeWorkspaceIdx) (hm : m.removeWorkspaceByIdx idx = some (ws, m')) :
    m'.activeId = m.activeId ∨ Collapsed m m' := by
  have hspec := padEnds_active h idx
  unfold removeWorkspaceByIdx at hm
  generalize m.padEnds idx = p at hm hspec
  obtain ⟨mp, k⟩ := p
  obtain ⟨hid, hfirst, hidx⟩ := hspec
  dsimp only at hid hfirst hidx
  obtain ⟨ws₀, -, hm⟩ := of_bind hm
  obtain ⟨mr, hmr, hm⟩ := of_bind hm
  obtain ⟨-, rfl⟩ := pair_inj hm
  rcases activeId_stopSwitch hmr with hsame | hcollapsed
  · refine .inl (hsame.trans (Eq.trans ?_ hid))
    refine activeId_erase (show k ≠ mp.activeWorkspaceIdx by omega) rfl ?_
    dsimp only
    split <;> split <;> omega
  · exact .inr ⟨hfirst ▸ hcollapsed.1, hcollapsed.2⟩

theorem prepareInsertion_active (m : Monitor) (idx : ℕ) :
    (m.prepareInsertion idx).1.activeId = m.activeId ∧
      (m.prepareInsertion idx).1.emptyAboveFirst = m.emptyAboveFirst := by
  obtain ⟨k, hk⟩ : ∃ k, k = if idx = m.workspaces.length then idx - 1 else idx := ⟨_, rfl⟩
  unfold prepareInsertion
  rw [← hk]
  dsimp only
  split
  · exact ⟨activeId_addWorkspaceAt .., rfl⟩
  · exact ⟨rfl, rfl⟩

theorem activeId_insertWorkspace {ws : Workspace} {idx : ℕ}
    (hm : m.insertWorkspace ws idx false = some m') : m'.activeId = m.activeId ∨ Collapsed m m' := by
  have hspec := prepareInsertion_active m idx
  unfold insertWorkspace at hm
  generalize m.prepareInsertion idx = p at hm hspec
  obtain ⟨mp, k⟩ := p
  obtain ⟨ma, hma, hm⟩ := of_bind hm
  obtain rfl := some.inj hma
  rcases activeId_stopSwitch hm with hsame | hcollapsed
  · refine .inl (hsame.trans (Eq.trans ?_ hspec.1))
    refine activeId_insert rfl ?_
    unfold activeShift
    dsimp only
    split <;> rfl
  · exact .inr ⟨hspec.2 ▸ hcollapsed.1, hcollapsed.2⟩

theorem activeId_appendWorkspaces (h : m.Core) {workspaces : List Workspace}
    (hm : m.appendWorkspaces workspaces = some m') : m'.activeId = m.activeId ∨ Collapsed m m' := by
  have hactive := h.active
  unfold appendWorkspaces at hm
  split at hm
  · exact .inl (some.inj hm ▸ rfl)
  · obtain ⟨empty, hempty, hm⟩ := of_bind hm
    dsimp only at hm
    obtain ⟨own, hown⟩ : ∃ own, own = workspaces.map (Workspace.attached m.output m.options) := ⟨_, rfl⟩
    obtain ⟨ma, hma⟩ : ∃ ma : Monitor, ma =
      { m with workspaces := m.workspaces.dropLast ++ own ++ [empty] } := ⟨_, rfl⟩
    obtain ⟨mp, hmp⟩ : ∃ mp, mp = if ma.emptyAboveFirst && ma.workspaces.head?.any (·.hasWindowsOrName)
      then ma.addWorkspaceTop else ma := ⟨_, rfl⟩
    have hm : (if m.activeWorkspaceIdx + 1 = m.workspaces.length
      then { mp with activeWorkspaceIdx := mp.workspaces.length - 1 } else mp).stopSwitch = some m' := by
      rw [hmp, hma, hown]
      exact hm
    have hws : m.workspaces = m.workspaces.dropLast ++ [empty] :=
      (dropLast_append_getLast? empty hempty).symm
    have hfirst : mp.emptyAboveFirst = m.emptyAboveFirst := by
      rw [hmp, hma]
      split <;> rfl
    suffices hid : (if m.activeWorkspaceIdx + 1 = m.workspaces.length
        then { mp with activeWorkspaceIdx := mp.workspaces.length - 1 } else mp).activeId =
          m.activeId by
      rcases activeId_stopSwitch hm with hsame | hcollapsed
      · exact .inl (hsame.trans hid)
      · refine .inr ⟨?_, hcollapsed.2⟩
        rw [← hfirst, ← hcollapsed.1]
        split <;> rfl
    split
    · rename_i hfocused
      have hlast : mp.workspaces.getLast? = some empty := by
        have hma' : ma.workspaces = m.workspaces.dropLast ++ own ++ [empty] := by rw [hma]
        subst hmp
        split
        · show (ma.workspaces.insertIdx 0 _).getLast? = _
          rw [insertIdx_zero, hma', ← cons_append, getLast?_concat]
        · rw [hma', getLast?_concat]
      have hidx : m.activeWorkspaceIdx = m.workspaces.length - 1 := by omega
      unfold activeId ids
      dsimp only
      rw [getElem?_map, getElem?_map, hidx, ← getLast?_eq_getElem?,
        ← getLast?_eq_getElem?, hlast, hempty]
    · rename_i hother
      have hid : ma.activeId = m.activeId := by
        have hlt : m.activeWorkspaceIdx < m.workspaces.dropLast.length := by
          rw [length_dropLast]
          omega
        unfold activeId ids
        rw [hma]
        dsimp only
        rw [getElem?_map, getElem?_map, append_assoc, getElem?_append_left hlt]
        congr 1
        conv_rhs => rw [hws]
        rw [getElem?_append_left hlt]
      rw [hmp]
      split
      · exact (activeId_addWorkspaceAt ..).trans hid
      · exact hid

theorem animation_addWorkspaceAt (h : m.Inv) {anim : Animation}
    (hanim : m.workspaceSwitch = some (.animation anim)) (idx : ℕ) :
    (m.addWorkspaceAt idx).workspaceSwitch = some (.animation
      ⟨anim.value + m.activeShift idx, anim.toValue + m.activeShift idx⟩) := by
  have htarget := h.animation anim hanim
  have hle : (idx : ℚ) ≤ anim.toValue ↔ idx ≤ m.activeWorkspaceIdx := by
    rw [htarget]
    exact Nat.cast_le
  unfold addWorkspaceAt activeShift
  dsimp only
  rw [hanim, map_some]
  by_cases hidx : idx ≤ m.activeWorkspaceIdx
  · have hcond : (idx : ℚ) ≤ (WorkspaceSwitch.animation anim).targetIdx := hle.mpr hidx
    rw [if_pos hcond, if_pos hidx]
    rfl
  · have hcond : ¬ (idx : ℚ) ≤ (WorkspaceSwitch.animation anim).targetIdx := mt hle.mp hidx
    rw [if_neg hcond, if_neg hidx]
    simp

theorem gesture_addWorkspaceAt {g : WorkspaceSwitchGesture}
    (hg : m.workspaceSwitch = some (.gesture g)) (idx : ℕ) :
    (m.addWorkspaceAt idx).workspaceSwitch = some
      (if (idx : ℚ) ≤ g.currentIdx then (WorkspaceSwitch.gesture g).offset 1 else .gesture g) := by
  unfold addWorkspaceAt
  dsimp only
  rw [hg]
  rfl

theorem Reachable.workspaceSwitch_follows (h : Reachable m) :
    (∀ anim, m.workspaceSwitch = some (.animation anim) →
      anim.toValue = (m.activeWorkspaceIdx : ℚ)) ∧
      (∀ g, m.workspaceSwitch = some (.gesture g) → g.centerIdx < m.workspaces.length) ∧
      (∀ idx, (m.addWorkspaceAt idx).activeWorkspaceIdx = m.activeWorkspaceIdx + m.activeShift idx ∧
        (m.addWorkspaceAt idx).activeId = m.activeId ∧
        (∀ anim, m.workspaceSwitch = some (.animation anim) →
          (m.addWorkspaceAt idx).workspaceSwitch = some (.animation
            ⟨anim.value + m.activeShift idx, anim.toValue + m.activeShift idx⟩)) ∧
        ∀ g, m.workspaceSwitch = some (.gesture g) → (m.addWorkspaceAt idx).workspaceSwitch = some
          (if (idx : ℚ) ≤ g.currentIdx then (WorkspaceSwitch.gesture g).offset 1 else .gesture g)) ∧
      (∀ ws idx activate m', m.Promised (.insertWorkspace ws idx activate) →
        m.insertWorkspace ws idx activate = some m' → m'.workspaceSwitch = none ∧
          (activate = false → m'.activeId = m.activeId ∨ Collapsed m m')) ∧
      (∀ workspaces m', workspaces ≠ [] → m.Promised (.appendWorkspaces workspaces) →
        m.appendWorkspaces workspaces = some m' → m'.workspaceSwitch = none ∧
          (m'.activeId = m.activeId ∨ Collapsed m m')) ∧
      (∀ idx ws m', m.removeWorkspaceByIdx idx = some (ws, m') → m'.workspaceSwitch = none ∧
        (idx ≠ m.activeWorkspaceIdx → m'.activeId = m.activeId ∨ Collapsed m m')) ∧
      ∀ op m', m.Promised op → m.apply op = some m' → m'.workspaceSwitch.isSome →
        m.ids.Sublist m'.ids := by
  have hinv := h.inv
  refine ⟨hinv.animation, hinv.gesture, fun idx => ?_, fun ws idx activate m' hop hm => ?_,
    fun workspaces m' hne hop hm => ?_, fun idx ws m' hm => ?_, fun op m' hop hm hswitch => ?_⟩
  · exact ⟨activeIdx_addWorkspaceAt m idx, activeId_addWorkspaceAt m idx,
      fun anim hanim => animation_addWorkspaceAt hinv hanim idx,
      fun g hg => gesture_addWorkspaceAt hg idx⟩
  · refine ⟨(effect_insertWorkspace hinv hop.1 hop.2.1 hop.2.2 hm).2, fun hactivate => ?_⟩
    subst hactivate
    exact activeId_insertWorkspace hm
  · exact ⟨(effect_appendWorkspaces hinv hop hm).2 hne, activeId_appendWorkspaces hinv.toCore hm⟩
  · exact ⟨(effect_removeWorkspaceByIdx hinv hm).2.2,
      fun hne => activeId_removeWorkspaceByIdx hinv.toCore hne hm⟩
  · obtain ⟨added, removed, heffect⟩ := effect_apply hinv hop hm
    rcases heffect.order with hsublist | hnone
    · exact hsublist
    · simp [hnone] at hswitch

def testOutput : Output where
  handle := 0
  name := ⟨"DP-1", none, none, none⟩
  scale := 1
  transform := .normal
  viewSize := ⟨1280, 720⟩
  workingArea := ⟨⟨0, 0⟩, ⟨1280, 720⟩⟩

def testMonitor : Option Monitor := Monitor.new testOutput [] none 0 .default none 0

/-- Open a window on the active workspace. -/
def openOp (id : ℕ) : MonitorOp :=
  .openWindow (ScrollingSpace.testWindow id) .auto ⟨none, none, false, false, .smart, ⟨0, 0⟩⟩

theorem exists_switching {p : Monitor → Bool}
    (hp : ((testMonitor.bind (·.apply (openOp 1))).bind (·.apply .switchWorkspaceDown)).any p = true) :
    ∃ m, Reachable m ∧ p m = true := by
  obtain ⟨m₂, hm₂, hp⟩ := (Option.any_eq_true ..).mp hp
  obtain ⟨m₁, hm₁, hm₂⟩ := of_bind hm₂
  obtain ⟨m₀, hm₀, hm₁⟩ := of_bind hm₁
  have hempty : testMonitor.all (fun m => m.windowIds.isEmpty) = true := by decide +kernel
  have hnew : Reachable m₀ := by
    refine .new ?_ ?_ hm₀
    · simp
    · exact nodup_nil
  have hfresh : m₀.Promised (openOp 1) := by
    rw [hm₀] at hempty
    have hnil : m₀.windowIds = [] := List.isEmpty_iff.mp hempty
    show _ ∉ m₀.windowIds
    rw [hnil]
    exact not_mem_nil
  have hdown : m₁.Promised .switchWorkspaceDown := trivial
  exact ⟨m₂, (hnew.step hfresh hm₁).step hdown hm₂, hp⟩

def isAnimation : WorkspaceSwitch → Bool
  | .animation _ => true
  | .gesture _ => false

/-- A workspace is added above while the switch is in progress. -/
theorem workspaceSwitch_follows_down : ∃ m anim, Reachable m ∧
    m.workspaceSwitch = some (.animation anim) ∧ anim.toValue = 1 ∧
    (m.addWorkspaceAt 0).activeId = m.activeId := by
  obtain ⟨m, hm, hp⟩ := exists_switching (p := fun m => m.activeWorkspaceIdx == 1 &&
    m.workspaceSwitch.any isAnimation) (by decide +kernel)
  obtain ⟨hactive, hp⟩ := Bool.and_eq_true_iff.mp hp
  obtain ⟨hfollows, -, hinsert, -⟩ := hm.workspaceSwitch_follows
  obtain ⟨switch, hanim, hp⟩ := (Option.any_eq_true ..).mp hp
  cases switch with
  | animation anim =>
    refine ⟨m, anim, hm, hanim, ?_, (hinsert 0).2.1⟩
    have hone : m.activeWorkspaceIdx = 1 := by simpa using hactive
    have htarget := hfollows anim hanim
    rw [hone] at htarget
    exact htarget
  | gesture => cases hp

/-- The active workspace goes away while the switch to it is in progress: the one above is active. -/
theorem workspaceSwitch_ends_on_removal : ∃ m m', Reachable m ∧ m.workspaceSwitch.isSome ∧
    m.apply (.removeWorkspaceByIdx 1) = some m' ∧ m'.workspaceSwitch = none ∧
    m'.activeId ≠ m.activeId := by
  obtain ⟨m, hm, hp⟩ := exists_switching (p := fun m => m.workspaceSwitch.isSome &&
    (m.apply (.removeWorkspaceByIdx 1)).any fun m' => m'.workspaceSwitch.isNone &&
      m'.activeId != m.activeId) (by decide +kernel)
  obtain ⟨hswitch, hp⟩ := Bool.and_eq_true_iff.mp hp
  obtain ⟨m', hm', hp⟩ := (Option.any_eq_true ..).mp hp
  obtain ⟨hnone, hne⟩ := Bool.and_eq_true_iff.mp hp
  exact ⟨m, m', hm, hswitch, hm', isNone_iff_eq_none.mp hnone, by simpa using hne⟩

end Monitor

end Macniri.Layout
