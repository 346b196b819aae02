import Macniri.Layout.MonitorRun
import Macniri.Layout.WorkspaceFocus

/-! The focus of every workspace of a monitor stays consistent, whatever the monitor does. -/
namespace Macniri.Layout

open Option List

namespace Workspace

variable {ws ws' : Workspace} {tile : Tile}

/-- The focus does not depend on the name and the outputs of a workspace. -/
theorem Focus.congr (h : ws.Focus) (hscrolling : ws'.scrolling = ws.scrolling)
    (hfloating : ws'.floating = ws.floating) (hflag : ws'.floatingIsActive = ws.floatingIsActive) :
    ws'.Focus := by
  have hids : ws'.windowIds = ws.windowIds := by rw [windowIds, hscrolling, hfloating, windowIds]
  refine ⟨⟨hscrolling ▸ h.ok.scrolling, hids ▸ h.ok.ids⟩, hfloating ▸ h.active, ?_, ?_⟩
  · rw [hflag, hfloating]
    exact h.floating
  · rw [hflag, hfloating, hscrolling]
    exact h.scrolling

theorem Focus.addTile (h : ws.Focus) {target : WorkspaceAddWindowTarget} {activate : ActivateWindow}
    {width : ColumnWidth} {isFullWidth isFloating : Bool} {renderPos : Point}
    (hfresh : tile.id ∉ ws.windowIds)
    (hadd : ws.addTile tile target activate width isFullWidth isFloating renderPos = some ws') :
    ws'.Focus := by
  obtain ⟨pos, a, ⟨-, -, hadds⟩ | hadds⟩ := addTile_cases hadd
  · exact h.addsFloating hadds hfresh
  · exact h.addsScrolling hadds hfresh

theorem Focus.removeTile (h : ws.Focus) {w : ℕ} {r : RemovedTile}
    (hr : ws.removeTile w = some (r, ws')) : ws'.Focus := by
  rcases (removeTile_cases hr).1 with hdrops | hdrops
  · exact h.dropsFloating hdrops
  · exact h.dropsScrolling hdrops

theorem Focus.removeActiveTile (h : ws.Focus) {r : RemovedTile}
    (hr : ws.removeActiveTile = some (some (r, ws'))) : ws'.Focus := by
  rcases removeActiveTile_cases hr with hdrops | hdrops
  · exact h.dropsFloating hdrops
  · exact h.dropsScrolling hdrops

theorem Focus.removeWindowOrActive (h : ws.Focus) {r : RemovedTile} {window : Option ℕ}
    (hr : Monitor.removeWindowOrActive ws window = some (some (r, ws'))) : ws'.Focus := by
  cases window with
  | some v =>
    obtain ⟨⟨r', wt⟩, hwt, heq⟩ := of_map hr
    obtain ⟨rfl, rfl⟩ := pair_inj heq
    exact h.removeTile hwt
  | none => exact h.removeActiveTile hr

theorem Focus.addColumn (h : ws.Focus) {column : Column} (hwf : column.Wf) {activate : Bool}
    (hfresh : ∀ v ∈ column.windowIds, v ∉ ws.windowIds)
    (hadd : ws.addColumn column activate = some ws') : ws'.Focus :=
  let wf : WfColumn := ⟨column, hwf⟩
  have hedit : Edit wf.1.windowIds ws ws' := edit_addColumn h.ok hfresh hadd
  h.addedBy (by simpa [Column.windowIds] using hwf.nonempty) hedit hadd

theorem Focus.addTileToColumn (h : ws.Focus) (hfresh : tile.id ∉ ws.windowIds) {colIdx : ℕ}
    {tileIdx : Option ℕ} {activate : Bool}
    (hadd : ws.addTileToColumn colIdx tileIdx tile activate = some ws') : ws'.Focus :=
  h.addedBy (cons_ne_nil tile.id []) (edit_addTileToColumn h.ok hfresh hadd) hadd

theorem Focus.setOpeningHeight (h : ws.Focus) {w : ℕ} {opening : WindowOpening}
    (ha : ws.setOpeningHeight w opening = some ws') : ws'.Focus := by
  unfold Workspace.setOpeningHeight at ha
  split at ha
  · exact some.inj ha ▸ h
  · split at ha
    · exact some.inj ha ▸ h
    · rename_i height _ _
      have ha : ws.applyWindow (some w) (.setWindowHeight (SizeChange.ofPreset height)) =
          some ws' := ha
      exact h.applyWindow ha

theorem Focus.attached (h : ws.Focus) (output : Output) (options : Options) :
    (Workspace.attached output options ws).Focus :=
  (h.setOutput (some output)).applyConfig (.updateConfig options)

theorem focus_new (id : ℕ) (output : Output) (clock : ℚ) (options : Options) :
    (Workspace.new id output clock options).Focus :=
  Created.focus ⟨id, none, clock, options, .inl ⟨output, rfl⟩⟩

end Workspace

namespace Monitor

open Workspace (Focus)

/-- The focus of every workspace is consistent. -/
def Focused (m : Monitor) : Prop := ∀ ws ∈ m.workspaces, ws.Focus

variable {m m' mt : Monitor} {i j id : ℕ} {ws ws' : Workspace} {activate : Bool} {tile : Tile}

theorem Focused.mono (h : m.Focused) (hsub : m'.workspaces ⊆ m.workspaces) : m'.Focused :=
  fun ws hws => h ws (hsub hws)

theorem Focused.map (h : m.Focused) {f : Workspace → Workspace}
    (hws : m'.workspaces = m.workspaces.map f) (hf : ∀ ws, ws.Focus → (f ws).Focus) : m'.Focused := by
  intro ws' hws'
  rw [hws] at hws'
  obtain ⟨ws, hmem, rfl⟩ := List.mem_map.mp hws'
  exact hf ws (h ws hmem)

theorem Focused.setWorkspace (h : m.Focused) (hws : ws.Focus) (i : ℕ) :
    (m.setWorkspace i ws).Focused := by
  intro w hw
  obtain rfl | hw := mem_of_mem_set (show w ∈ m.workspaces.set i ws from hw)
  · exact hws
  · exact h w hw

theorem Focused.onWorkspace (h : m.Focused) {f : Workspace → Option Workspace}
    (hf : ∀ ws ws', ws.Focus → f ws = some ws' → ws'.Focus) (hm : m.onWorkspace i f = some m') :
    m'.Focused := by
  obtain ⟨ws, ws', hws, hws', rfl⟩ := onWorkspace_spec hm
  exact h.setWorkspace (hf ws ws' (h ws (mem_of_getElem? hws)) hws') i

theorem Focused.insert (h : m.Focused) (hfocus : ws.Focus)
    (hws : m'.workspaces = m.workspaces.insertIdx i ws) : m'.Focused := by
  intro w hw
  rw [hws] at hw
  obtain rfl | hw := eq_or_mem_of_mem_insertIdx hw
  · exact hfocus
  · exact h w hw

theorem Focused.modify (h : m.Focused) {f : Workspace → Workspace} (hf : ∀ ws, ws.Focus → (f ws).Focus)
    (hws : m'.workspaces = m.workspaces.modify i f) : m'.Focused := by
  intro w hw
  obtain ⟨j, hj⟩ := getElem?_of_mem hw
  rw [hws, getElem?_modify] at hj
  obtain ⟨ws, hget, rfl⟩ := of_map hj
  have hfocus := h ws (mem_of_getElem? hget)
  split
  · exact hf ws hfocus
  · exact hfocus

/-! Adding, activating and cleaning up workspaces. -/

theorem Focused.addWorkspaceAt (h : m.Focused) (i : ℕ) : (m.addWorkspaceAt i).Focused :=
  h.insert (Workspace.focus_new ..) rfl

theorem Focused.activateWorkspace (h : m.Focused) (hm : m.activateWorkspace i = some m') :
    m'.Focused := by
  obtain ⟨ws, -, hm⟩ := of_bind hm
  exact some.inj hm ▸ h

theorem Focused.activateIf (h : m.Focused) (hm : m.activateIf activate i = some m') : m'.Focused := by
  unfold Monitor.activateIf at hm
  split at hm
  · exact h.activateWorkspace hm
  · exact some.inj hm ▸ h

theorem Focused.removeInactiveAt (h : m.Focused) (i : ℕ) : (m.removeInactiveAt i).Focused :=
  h.mono (eraseIdx_sublist ..).subset

theorem Focused.cleanUpBelow (h : m.Focused) (start n : ℕ) : (m.cleanUpBelow start n).Focused := by
  induction n generalizing m with
  | zero => exact h
  | succ i ih =>
    unfold Monitor.cleanUpBelow
    split
    · exact h
    · split
      · exact ih (h.removeInactiveAt i)
      · exact ih h

theorem Focused.dropSecondEmpty (h : m.Focused) (hm : m.dropSecondEmpty = some m') : m'.Focused := by
  unfold Monitor.dropSecondEmpty at hm
  split at hm
  · split at hm
    · cases hm
    · exact some.inj hm ▸ h.mono (eraseIdx_sublist ..).subset
  · exact some.inj hm ▸ h

theorem Focused.cleanUpWorkspaces (h : m.Focused) (hm : m.cleanUpWorkspaces = some m') : m'.Focused := by
  unfold Monitor.cleanUpWorkspaces at hm
  split at hm
  · cases hm
  · exact (h.cleanUpBelow _ _).dropSecondEmpty hm

theorem Focused.stopSwitch (h : m.Focused) (hm : m.stopSwitch = some m') : m'.Focused :=
  Focused.cleanUpWorkspaces (m := { m with workspaceSwitch := none }) h hm

theorem Focused.cleanUpUnlessSwitching (h : m.Focused) (hm : m.cleanUpUnlessSwitching = some m') :
    m'.Focused := by
  unfold Monitor.cleanUpUnlessSwitching at hm
  split at hm
  · exact h.cleanUpWorkspaces hm
  · exact some.inj hm ▸ h

/-- An empty workspace is added under a condition. -/
theorem Focused.addIf (h : m.Focused) (c : Prop) [Decidable c] (i : ℕ) :
    (if c then m.addWorkspaceAt i else m).Focused := by
  split
  · exact h.addWorkspaceAt i
  · exact h

theorem Focused.addTopIf (h : m.Focused) (c : Prop) [Decidable c] (i j : ℕ) :
    (if c then (m.addWorkspaceTop, i) else (m, j)).1.Focused := by
  split
  · exact h.addWorkspaceAt 0
  · exact h

theorem Focused.padEnds (h : m.Focused) (i : ℕ) : (m.padEnds i).1.Focused :=
  (h.addIf (i + 1 = m.workspaces.length) m.workspaces.length).addTopIf _ (i + 1) i

/-! Windows. -/

theorem Focused.adoptWorkspace (h : m.Focused) (i : ℕ) : (m.adoptWorkspace i).Focused := by
  refine h.modify (fun ws hws => ?_) rfl
  split
  · exact hws.congr rfl rfl rfl
  · exact hws

/-- What follows after something was added to a workspace. -/
theorem Focused.filled (h : m.Focused) {f : Workspace → Option Workspace}
    (hf : ∀ ws ws', m.workspaces[i]? = some ws → f ws = some ws' → ws'.Focus)
    (hmt : m.onWorkspace i f = some mt)
    (hm : ((mt.adoptWorkspace i).padEnds i).1.activateIf activate ((mt.adoptWorkspace i).padEnds i).2 =
      some m') : m'.Focused := by
  obtain ⟨ws, ws', hws, hws', rfl⟩ := onWorkspace_spec hmt
  exact (((h.setWorkspace (hf ws ws' hws hws') i).adoptWorkspace i).padEnds i).activateIf hm

theorem not_mem_windowIds (hfresh : id ∉ m.windowIds) (hws : m.workspaces[i]? = some ws) :
    id ∉ ws.windowIds :=
  fun hmem => hfresh (mem_windowIds_of_workspace hws hmem)

theorem Focused.addTile (h : m.Focused) (hfresh : tile.id ∉ m.windowIds)
    {target : MonitorAddWindowTarget} {activate : ActivateWindow} {allow isFullWidth isFloating : Bool}
    {width : ColumnWidth} {renderPos : Point}
    (hm : m.addTile tile target activate allow width isFullWidth isFloating renderPos = some m') :
    m'.Focused := by
  obtain ⟨⟨idx, target'⟩, -, hm⟩ := of_bind hm
  obtain ⟨mt, hmt, hm⟩ := of_bind hm
  refine h.filled (fun ws ws' hws hadd => ?_) hmt hm
  exact (h ws (mem_of_getElem? hws)).addTile (not_mem_windowIds hfresh hws) hadd

theorem Focused.addColumn (h : m.Focused) {column : Column} (hwf : column.Wf)
    (hfresh : ∀ v ∈ column.windowIds, v ∉ m.windowIds)
    (hm : m.addColumn i column activate = some m') : m'.Focused := by
  obtain ⟨mt, hmt, hm⟩ := of_bind hm
  refine h.filled (fun ws ws' hws hadd => ?_) hmt hm
  exact (h ws (mem_of_getElem? hws)).addColumn hwf
    (fun v hv => not_mem_windowIds (hfresh v hv) hws) hadd

theorem Focused.addTileToColumn (h : m.Focused) (hfresh : tile.id ∉ m.windowIds) {columnIdx : ℕ}
    {tileIdx : Option ℕ} {allow : Bool}
    (hm : m.addTileToColumn i columnIdx tileIdx tile activate allow = some m') : m'.Focused := by
  obtain ⟨mt, hmt, hm⟩ := of_bind hm
  obtain ⟨ws, ws', hws, hadd, rfl⟩ := onWorkspace_spec hmt
  have hfocus := (h ws (mem_of_getElem? hws)).addTileToColumn (not_mem_windowIds hfresh hws) hadd
  exact ((h.setWorkspace hfocus i).adoptWorkspace i).activateIf hm

theorem Focused.openWindow (h : m.Focused) {window : Window} (hfresh : window.id ∉ m.windowIds)
    {target : MonitorAddWindowTarget} {opening : WindowOpening}
    (hm : m.openWindow window target opening = some m') : m'.Focused := by
  obtain ⟨⟨idx, target'⟩, -, hm⟩ := of_bind hm
  obtain ⟨ws, -, hm⟩ := of_bind hm
  obtain ⟨mt, hmt, hm⟩ := of_bind hm
  obtain ⟨first, -, hmt⟩ := of_bind hmt
  obtain ⟨j, -, hm⟩ := of_bind hm
  have hnew : (first.makeTile window).id ∉ m.windowIds := hfresh
  exact (h.addTile hnew hmt).onWorkspace (fun _ _ hws => hws.setOpeningHeight) hm

theorem Focused.cleanUpAfterRemoval (h : m.Focused) (hm : m.cleanUpAfterRemoval i = some m') :
    m'.Focused := by
  unfold Monitor.cleanUpAfterRemoval at hm
  split at hm
  · exact some.inj hm ▸ h
  · split at hm
    · exact (h.removeInactiveAt i).dropSecondEmpty hm
    · exact h.dropSecondEmpty hm

theorem Focused.removeWindow (h : m.Focused) {r : RemovedTile} {window : ℕ}
    (hm : m.removeWindow window = some (r, m')) : m'.Focused := by
  obtain ⟨idx, -, hm⟩ := of_bind hm
  obtain ⟨ws, hws, hm⟩ := of_bind hm
  obtain ⟨⟨removed, ws'⟩, hremoved, hm⟩ := of_bind hm
  obtain ⟨mt, hmt, hm⟩ := of_bind hm
  obtain ⟨-, rfl⟩ := pair_inj hm
  exact (h.setWorkspace ((h ws (mem_of_getElem? hws)).removeTile hremoved) idx).cleanUpAfterRemoval hmt

theorem Focused.resolveInsertWorkspace (h : m.Focused) {target : InsertWorkspace}
    (hm : m.resolveInsertWorkspace target = some (m', i)) : m'.Focused := by
  unfold Monitor.resolveInsertWorkspace at hm
  cases target with
  | existing id =>
    obtain ⟨idx, -, hm⟩ := of_map hm
    obtain ⟨rfl, -⟩ := Prod.mk.inj hm
    exact h
  | newAt idx =>
    dsimp only at hm
    split at hm
    · obtain ⟨rfl, -⟩ := pair_inj hm
      exact h
    · split at hm
      · obtain ⟨rfl, -⟩ := pair_inj hm
        exact h
      · obtain ⟨rfl, -⟩ := pair_inj hm
        exact h.addWorkspaceAt idx

theorem Focused.dropTile (h : m.Focused) (hinv : m.Inv) {d : InteractiveMoveData}
    (hfresh : d.tile.id ∉ m.windowIds) {drop : DropPoint} {allow : Bool}
    (hm : m.dropTile d drop allow = some m') : m'.Focused := by
  obtain ⟨⟨mt, idx⟩, hmt, hm⟩ := of_bind hm
  obtain ⟨hkept, -⟩ := resolveInsertWorkspace_spec hinv hmt
  obtain ⟨ws, -, hm⟩ := of_bind hm
  have hnew : d.tile.id ∉ mt.windowIds := fun hmem => hfresh (hkept.windowIds.mem_iff.mp hmem)
  have hfocused := h.resolveInsertWorkspace hmt
  generalize dropPosition d.isFloating drop = position at hm
  cases position with
  | newColumn columnIdx => exact hfocused.addTile hnew hm
  | inColumn columnIdx tileIdx =>
    have hm : mt.addTileToColumn idx columnIdx (some tileIdx) d.tile true allow = some m' := hm
    exact hfocused.addTileToColumn hnew hm
  | floating =>
    have hnew : (d.floatingTile ws drop).id ∉ mt.windowIds := hnew
    have hm : (if d.isFloating then mt.addTile (d.floatingTile ws drop) (.workspace ws.id none) .yes
      allow d.width d.isFullWidth true ⟨0, 0⟩ else none) = some m' := hm
    split at hm
    · exact hfocused.addTile hnew hm
    · cases hm

/-! Moving windows and columns between workspaces. -/

/-- A tile that is cut from a workspace is added to another one. -/
theorem Focused.moved (h : m.Focused) (hinv : m.Inv) (hws : m.workspaces[i]? = some ws)
    {r : RemovedTile} (hcut : Workspace.Cut [r.tile.id] ws ws') (hfocus : ws'.Focus)
    {activate : ActivateWindow}
    (hm : (m.setWorkspace i ws').addRemoved r id activate = some m') : m'.Focused :=
  have hmon := (hinv.cutWorkspace hws hcut).1
  (h.setWorkspace hfocus i).addTile (hmon.fresh hinv.toCore _ (mem_singleton_self _)) hm

theorem Focused.moveActiveTileTo (h : m.Focused) (hinv : m.Inv) {activate : ActivateWindow}
    (hm : m.moveActiveTileTo i activate = some m') : m'.Focused := by
  unfold Monitor.moveActiveTileTo at hm
  split at hm
  · exact some.inj hm ▸ h
  · obtain ⟨target, -, hm⟩ := of_bind hm
    obtain ⟨source, hsource, hm⟩ := of_bind hm
    obtain ⟨_ | ⟨r, source'⟩, hr, hm⟩ := of_bind hm
    · exact some.inj hm ▸ h
    · have hfocus := (h source (mem_of_getElem? hsource)).removeActiveTile hr
      exact h.moved hinv hsource (cut_removeActiveTile (hinv.ok_getElem? hsource) hr) hfocus hm

theorem Focused.moveToWorkspace (h : m.Focused) (hinv : m.Inv) {window : Option ℕ}
    {activate : ActivateWindow} (hm : m.moveToWorkspace window i activate = some m') : m'.Focused := by
  obtain ⟨sourceIdx, -, hm⟩ := of_bind hm
  dsimp only at hm
  split at hm
  · exact some.inj hm ▸ h
  · obtain ⟨target, -, hm⟩ := of_bind hm
    obtain ⟨source, hsource, hm⟩ := of_bind hm
    obtain ⟨_ | ⟨r, source'⟩, hr, hm⟩ := of_bind hm
    · exact some.inj hm ▸ h
    · obtain ⟨mt, hmt, hm⟩ := of_bind hm
      have hfocus := (h source (mem_of_getElem? hsource)).removeWindowOrActive hr
      have hcut := cut_removeWindowOrActive (hinv.ok_getElem? hsource) hr
      exact (h.moved hinv hsource hcut hfocus hmt).cleanUpUnlessSwitching hm

theorem Focused.moveColumnTo (h : m.Focused) (hinv : m.Inv) {other : Option Monitor}
    (hother : other = some m' → m'.Focused) (hm : m.moveColumnTo i activate other = some m') :
    m'.Focused := by
  unfold Monitor.moveColumnTo at hm
  split at hm
  · exact some.inj hm ▸ h
  · obtain ⟨source, hsource, hm⟩ := of_bind hm
    split at hm
    · exact hother hm
    · obtain ⟨_ | ⟨column, source'⟩, hr, hm⟩ := of_bind hm
      · exact some.inj hm ▸ h
      · have hok := hinv.ok_getElem? hsource
        obtain ⟨hmon, -⟩ := hinv.cutWorkspace hsource (Workspace.cut_removeActiveColumn hok hr)
        obtain ⟨s, hs, -⟩ := Workspace.removeActiveColumn_cases hr
        have hwf : column.Wf := ScrollingSpace.wf_removed hok.scrolling hs
        have hfocus := (h source (mem_of_getElem? hsource)).removeActiveColumn hr
        exact (h.setWorkspace hfocus _).addColumn hwf (hmon.fresh hinv.toCore) hm

/-- The active workspace does something or, if it does not, another operation does. -/
theorem Focused.activeOr (h : m.Focused) (hinv : m.Inv) (op : ActiveOp)
    {f : Workspace → Option (Bool × Workspace)} {g : Monitor → Option Monitor}
    (hf : ∀ ws, (f ws).map (·.2) = ws.applyActive op)
    (hg : ∀ mt, mt.Inv → mt.Focused → g mt = some m' → m'.Focused)
    (hm : (m.activeWorkspace.bind fun ws => (f ws).bind fun r =>
      if r.1 then some (m.setWorkspace m.activeWorkspaceIdx r.2)
      else g (m.setWorkspace m.activeWorkspaceIdx r.2)) = some m') : m'.Focused := by
  obtain ⟨ws, hws, hm⟩ := of_bind hm
  obtain ⟨⟨b, ws'⟩, hr, hm⟩ := of_bind hm
  have hactive : ws.applyActive op = some ws' := by rw [← hf, hr, map_some]
  have hfocus := h ws (mem_of_getElem? hws)
  have hkept := Workspace.kept_applyActive hfocus.ok hactive
  have hinv' := (hinv.cutWorkspace hws hkept.cut).2
  have hset := h.setWorkspace (hfocus.applyActive hactive) m.activeWorkspaceIdx
  dsimp only at hm
  split at hm
  · exact some.inj hm ▸ hset
  · exact hg _ hinv' hset hm

theorem Focused.moveDownOrToWorkspaceDown (h : m.Focused) (hinv : m.Inv)
    (hm : m.moveDownOrToWorkspaceDown = some m') : m'.Focused :=
  h.activeOr hinv .moveDown (f := (·.moveDown)) (g := (·.moveToWorkspaceDown true))
    (fun _ => rfl) (fun _ hinv' hmt => hmt.moveActiveTileTo hinv') hm

theorem Focused.moveUpOrToWorkspaceUp (h : m.Focused) (hinv : m.Inv)
    (hm : m.moveUpOrToWorkspaceUp = some m') : m'.Focused :=
  h.activeOr hinv .moveUp (f := (·.moveUp)) (g := (·.moveToWorkspaceUp true))
    (fun _ => rfl) (fun _ hinv' hmt => hmt.moveActiveTileTo hinv') hm

theorem Focused.focusWindowOrWorkspaceDown (h : m.Focused) (hinv : m.Inv)
    (hm : m.focusWindowOrWorkspaceDown = some m') : m'.Focused :=
  h.activeOr hinv .focusDown (f := (·.focusDown)) (g := (·.switchWorkspaceDown))
    (fun _ => rfl) (fun _ _ hmt => hmt.activateWorkspace) hm

theorem Focused.focusWindowOrWorkspaceUp (h : m.Focused) (hinv : m.Inv)
    (hm : m.focusWindowOrWorkspaceUp = some m') : m'.Focused :=
  h.activeOr hinv .focusUp (f := (·.focusUp)) (g := (·.switchWorkspaceUp))
    (fun _ => rfl) (fun _ _ hmt => hmt.activateWorkspace) hm

/-- Switching to another workspace leaves the list alone. -/
theorem Focused.shown (h : m.Focused) (hm : Shown m m') : m'.Focused :=
  h.mono (hm.workspaces ▸ Subset.refl _)

/-! Naming, removing, inserting and reordering workspaces. -/

theorem Focused.padNamed (h : m.Focused) (id : ℕ) : (Layout.padNamed m id).Focused := by
  have htop : (if m.emptyAboveFirst ∧ m.workspaces.head?.any (·.id == id) then m.addWorkspaceTop
      else m).Focused := h.addIf _ 0
  exact htop.addIf _ _

theorem Focused.unnameWorkspace (h : m.Focused) (hm : m.unnameWorkspace id = some m') : m'.Focused := by
  unfold Monitor.unnameWorkspace at hm
  split at hm
  · exact some.inj hm ▸ h
  · rename_i idx _
    have hunnamed : Focused { m with workspaces := m.workspaces.modify idx (·.unname) } :=
      h.modify (f := (·.unname)) (fun _ hws => hws.congr rfl rfl rfl) rfl
    exact hunnamed.cleanUpUnlessSwitching hm

theorem Focused.removeWorkspaceByIdx (h : m.Focused) (hm : m.removeWorkspaceByIdx i = some (ws, m')) :
    m'.Focused ∧ ws.Focus := by
  obtain ⟨ws', hws', hm⟩ := of_bind hm
  obtain ⟨mt, hmt, hm⟩ := of_bind hm
  obtain ⟨rfl, rfl⟩ := pair_inj hm
  have hpadded := h.padEnds i
  refine ⟨Focused.stopSwitch (hpadded.mono ?_) hmt,
    (hpadded ws' (mem_of_getElem? hws')).setOutput none⟩
  exact (eraseIdx_sublist ..).subset

theorem Focused.prepareInsertion (h : m.Focused) (i : ℕ) : (m.prepareInsertion i).1.Focused := by
  have htop (j : ℕ) :
      (if j = 0 ∧ m.emptyAboveFirst then (m.addWorkspaceTop, j + 1) else (m, j)).1.Focused :=
    h.addTopIf _ (j + 1) j
  exact htop _

theorem Focused.insertWorkspace (h : m.Focused) (hws : ws.Focus)
    (hm : m.insertWorkspace ws i activate = some m') : m'.Focused := by
  obtain ⟨mt, hmt, hm⟩ := of_bind hm
  refine Focused.stopSwitch (Focused.activateIf ?_ hmt) hm
  exact (h.prepareInsertion i).insert (hws.attached m.output m.options) rfl

theorem Focused.insertNamed (h : m.Focused) {config : WorkspaceConfig} {clock : ℚ} {options : Options}
    (hm : Layout.insertNamed m config clock options = some m') : m'.Focused :=
  Focused.insertWorkspace (m := { m with nextId := m.nextId + 1 }) h
    (Workspace.Created.focus ⟨_, _, _, _, .inl ⟨_, rfl⟩⟩) hm

theorem Focused.appendWorkspaces (h : m.Focused) {workspaces : List Workspace}
    (hfocus : ∀ ws ∈ workspaces, ws.Focus) (hm : m.appendWorkspaces workspaces = some m') :
    m'.Focused := by
  unfold Monitor.appendWorkspaces at hm
  split at hm
  · exact some.inj hm ▸ h
  · obtain ⟨empty, hempty, hm⟩ := of_bind hm
    refine Focused.stopSwitch ?_ hm
    have hlast (mt : Monitor) (hmt : mt.Focused) (b : Prop) [Decidable b] :
        (if b then { mt with activeWorkspaceIdx := mt.workspaces.length - 1 } else mt).Focused := by
      split
      · exact hmt
      · exact hmt
    refine hlast _ (Focused.addIf ?_ _ 0) _
    intro w hw
    obtain hw | hw := mem_append.mp hw
    · obtain hw | hw := mem_append.mp hw
      · exact h w (mem_of_mem_dropLast hw)
      · obtain ⟨ws, hws, rfl⟩ := List.mem_map.mp hw
        exact (hfocus ws hws).attached m.output m.options
    · obtain rfl := mem_singleton.mp hw
      exact h w (mem_of_getLast? hempty)

theorem Focused.cleanUpIf (h : m.Focused) {b : Bool} (hm : m.cleanUpIf b = some m') : m'.Focused := by
  unfold Monitor.cleanUpIf at hm
  split at hm
  · exact h.cleanUpWorkspaces hm
  · exact some.inj hm ▸ h

/-- The workspaces that stay and those that are taken. -/
theorem takeForOutput_parts (m : Monitor) (output : Output) (n : ℕ) :
    (m.takeForOutput output n).1.workspaces ⊆ m.workspaces ∧
      (m.takeForOutput output n).2 ⊆ m.workspaces := by
  induction n generalizing m with
  | zero => exact ⟨Subset.refl _, nil_subset _⟩
  | succ n ih =>
    unfold takeForOutput
    dsimp only
    split
    · have hremoved : (m.removeForOutput n).workspaces ⊆ m.workspaces :=
        (eraseIdx_sublist ..).subset
      obtain ⟨hrest, htaken⟩ := ih (m.removeForOutput n)
      refine ⟨Subset.trans hrest hremoved, append_subset.mpr
        ⟨Subset.trans htaken hremoved, fun w hw => ?_⟩⟩
      have hfound := mem_toList.mp (mem_of_mem_filter hw)
      exact mem_of_getElem? (mem_filter_iff.mp hfound).1
    · exact ih m

theorem Focused.releaseFor (h : m.Focused) {output : Output} {taken : List Workspace}
    (hm : m.releaseFor output = some (m', taken)) : m'.Focused ∧ ∀ ws ∈ taken, ws.Focus := by
  obtain ⟨mt, hmt, hm⟩ := of_bind hm
  obtain ⟨rfl, rfl⟩ := pair_inj hm
  obtain ⟨hrest, htaken⟩ := takeForOutput_parts m output m.workspaces.length
  exact ⟨(h.mono hrest).cleanUpIf hmt, fun ws hws => h ws (htaken hws)⟩

theorem Focused.activateMoved (h : m.Focused) (hm : m.activateMoved i = some m') : m'.Focused := by
  obtain ⟨mt, hmt, hm⟩ := of_bind hm
  have hmoved : mt.Focused := h.activateWorkspace hmt
  have hback : Focused { mt with previousWorkspaceId := m.previousWorkspaceId } := hmoved
  exact hback.stopSwitch hm

theorem Focused.swapWorkspaces (h : m.Focused) (hm : m.swapWorkspaces i j = some m') : m'.Focused := by
  obtain ⟨a, ha, hm⟩ := of_bind hm
  obtain ⟨b, hb, rfl⟩ := of_bind_some hm
  intro w hw
  obtain rfl | hw := mem_of_mem_set hw
  · exact h w (mem_of_getElem? ha)
  · obtain rfl | hw := mem_of_mem_set hw
    · exact h w (mem_of_getElem? hb)
    · exact h w hw

/-- What a move by one does after the two workspaces are swapped. -/
theorem Focused.afterSwap (h : m.Focused) {newIdx : ℕ} {b : Prop} [Decidable b] {c : Monitor → Prop}
    [∀ m, Decidable (c m)]
    (hm : (let mt := if b then m.addWorkspaceBottom else m
      if c mt then mt.addWorkspaceTop.activateMoved (newIdx + 1) else mt.activateMoved newIdx) = some m') :
    m'.Focused := by
  have htop (mt : Monitor) (hmt : mt.Focused)
      (hm : (if c mt then mt.addWorkspaceTop.activateMoved (newIdx + 1) else mt.activateMoved newIdx) =
        some m') : m'.Focused := by
    split at hm
    · exact (hmt.addWorkspaceAt 0).activateMoved hm
    · exact hmt.activateMoved hm
  exact htop _ (h.addIf b _) hm

theorem Focused.moveWorkspaceDown (h : m.Focused) (hm : m.moveWorkspaceDown = some m') : m'.Focused := by
  unfold Monitor.moveWorkspaceDown at hm
  dsimp only at hm
  split at hm
  · exact some.inj hm ▸ h
  · obtain ⟨mt, hmt, hm⟩ := of_bind hm
    exact (h.swapWorkspaces hmt).afterSwap
      (c := fun mt => mt.emptyAboveFirst ∧ mt.activeWorkspaceIdx = 0) hm

theorem Focused.moveWorkspaceUp (h : m.Focused) (hm : m.moveWorkspaceUp = some m') : m'.Focused := by
  unfold Monitor.moveWorkspaceUp at hm
  dsimp only at hm
  split at hm
  · exact some.inj hm ▸ h
  · obtain ⟨mt, hmt, hm⟩ := of_bind hm
    exact (h.swapWorkspaces hmt).afterSwap
      (c := fun mt => mt.emptyAboveFirst ∧ m.activeWorkspaceIdx - 1 = 0) hm

theorem Focused.padAfterMove (h : m.Focused) (i j : ℕ) : (m.padAfterMove i j).1.Focused :=
  (h.addIf (max i j + 1 = m.workspaces.length) m.workspaces.length).addTopIf _ (j + 1) j

theorem Focused.moveWorkspaceToIdx (h : m.Focused) (hm : m.moveWorkspaceToIdx i j = some m') :
    m'.Focused := by
  unfold Monitor.moveWorkspaceToIdx at hm
  dsimp only at hm
  split at hm
  · exact some.inj hm ▸ h
  · obtain ⟨ws, hws, hm⟩ := of_bind hm
    have hmoved : Focused { m with
        workspaces := (m.workspaces.eraseIdx i).insertIdx (min j (m.workspaces.length - 1)) ws } := by
      intro w hw
      obtain rfl | hw := eq_or_mem_of_mem_insertIdx hw
      · exact h w (mem_of_getElem? hws)
      · exact h w (mem_of_mem_eraseIdx hw)
    have hactive (mt : Monitor) (hmt : mt.Focused) (k : ℕ)
        (hm : Monitor.stopSwitch { mt with activeWorkspaceIdx := k } = some m') : m'.Focused :=
      Focused.stopSwitch (m := { mt with activeWorkspaceIdx := k }) hmt hm
    exact hactive _ (hmoved.padAfterMove i _) _ hm

/-! Config and time. -/

theorem Focused.updateEmptyAboveFirst (h : m.Focused) (b : Bool) :
    (m.updateEmptyAboveFirst b).Focused := by
  unfold Monitor.updateEmptyAboveFirst
  split
  · split
    · exact h.addWorkspaceAt 0
    · split
      · exact h.mono (eraseIdx_sublist ..).subset
      · exact h
  · exact h

theorem Focused.updateConfig (h : m.Focused) (baseOptions : Options) :
    (m.updateConfig baseOptions).Focused :=
  (h.updateEmptyAboveFirst _).map rfl fun _ hws => hws.applyConfig (.updateConfig _)

theorem Focused.updateLayoutConfig (h : m.Focused) (layoutConfig : Option LayoutPart) :
    (m.updateLayoutConfig layoutConfig).Focused := by
  unfold Monitor.updateLayoutConfig
  split
  · exact h
  · exact Focused.updateConfig (m := { m with layoutConfig := layoutConfig }) h m.baseOptions

theorem Focused.updateOutputSize (h : m.Focused) (output : Output) :
    (m.updateOutputSize output).Focused :=
  h.map rfl fun ws hws => by
    have houtput : Workspace.Focus { ws with output := some output } := hws.congr rfl rfl rfl
    exact houtput.updateOutputSize

theorem Focused.setClock (h : m.Focused) (now : ℚ) (anim : AnimationState) :
    (m.setClock now anim).Focused :=
  h.map rfl fun ws hws =>
    hws.applyUpdate (show ws.applyUpdate (.setClock now (anim.workspaces ws.id)) = some _ from rfl)

theorem Focused.advanceAnimations (h : m.Focused) {anim : AnimationState}
    (hm : m.advanceAnimations anim = some m') : m'.Focused := by
  obtain ⟨mt, hmt, rfl⟩ := of_bind_some hm
  have hswitch : mt.Focused := by
    unfold advanceSwitch at hmt
    split at hmt
    · split at hmt
      · exact h.stopSwitch hmt
      · exact some.inj hmt ▸ h
    · exact some.inj hmt ▸ h
    · exact some.inj hmt ▸ h
  exact hswitch.map rfl fun ws hws =>
    hws.applyUpdate (show ws.applyUpdate (.advanceAnimations (anim.workspaces ws.id)) = some _ from rfl)

end Monitor

end Macniri.Layout
