import Macniri.Layout.MonitorSet
import Macniri.Layout.Windows
import Macniri.Layout.Ops
import Macniri.Layout.WorkspaceOutput
import Macniri.Lib.ListEdit

/-! The workspaces of a monitor stay at home there. -/
namespace Macniri.Layout.Monitor

open Option List

open Workspace (Stays AtHome)

/-- `m'` is the same monitor, and its workspaces are at home if they were before. -/
structure Houses (m m' : Monitor) : Prop where
  output : m'.output = m.output
  atHome : (∀ ws ∈ m.workspaces, AtHome m.output ws) → ∀ ws ∈ m'.workspaces, AtHome m.output ws

variable {m m' mt : Monitor} {i j id : ℕ} {ws ws' : Workspace} {activate : Bool}

theorem Houses.refl (m : Monitor) : Houses m m := ⟨rfl, id⟩

theorem Houses.trans (h : Houses m mt) (h' : Houses mt m') : Houses m m' := by
  refine ⟨h'.output.trans h.output, fun hall ws hws => ?_⟩
  have hmid := h.atHome hall
  have hend := h'.atHome (by rwa [h.output]) ws hws
  rwa [h.output] at hend

/-- Every workspace is new at home, or is one that was there. -/
theorem Houses.of_forall (hout : m'.output = m.output) (h : ∀ ws' ∈ m'.workspaces,
    AtHome m.output ws' ∨ ∃ ws ∈ m.workspaces, Stays ws ws') : Houses m m' := by
  refine ⟨hout, fun hall ws' hws' => ?_⟩
  obtain hnew | ⟨ws, hws, hstays⟩ := h ws' hws'
  · exact hnew
  · exact (hall ws hws).stays hstays

theorem Houses.of_subset (hout : m'.output = m.output) (h : m'.workspaces ⊆ m.workspaces) :
    Houses m m' := .of_forall hout fun ws hws => .inr ⟨ws, h hws, .refl ws⟩

theorem Houses.of_eq (hout : m'.output = m.output) (h : m'.workspaces = m.workspaces) : Houses m m' :=
  .of_subset hout (h ▸ Subset.refl _)

theorem Houses.of_map {f : Workspace → Workspace} (hout : m'.output = m.output)
    (h : m'.workspaces = m.workspaces.map f) (hf : ∀ ws, Stays ws (f ws)) : Houses m m' := by
  refine .of_forall hout fun ws' hws' => ?_
  rw [h] at hws'
  obtain ⟨ws, hws, rfl⟩ := List.mem_map.mp hws'
  exact .inr ⟨ws, hws, hf ws⟩

theorem houses_setWorkspace (hws : m.workspaces[i]? = some ws) (hstays : Stays ws ws') :
    Houses m (m.setWorkspace i ws') := by
  refine .of_forall rfl fun w hw => ?_
  obtain rfl | hw := mem_of_mem_set (show w ∈ m.workspaces.set i ws' from hw)
  · exact .inr ⟨ws, mem_of_getElem? hws, hstays⟩
  · exact .inr ⟨w, hw, .refl w⟩

theorem houses_onWorkspace {f : Workspace → Option Workspace}
    (hf : ∀ ws ws', f ws = some ws' → Stays ws ws') (h : m.onWorkspace i f = some m') : Houses m m' := by
  obtain ⟨ws, hws, h⟩ := of_bind h
  obtain ⟨ws', hws', h⟩ := of_bind h
  exact some.inj h ▸ houses_setWorkspace hws (hf ws ws' hws')

/-- A workspace that is at home goes into the list. -/
theorem houses_insert (hout : m'.output = m.output) (hws : m'.workspaces = m.workspaces.insertIdx i ws)
    (hhome : AtHome m.output ws) : Houses m m' := by
  refine .of_forall hout fun w hw => ?_
  rw [hws] at hw
  obtain rfl | hw := eq_or_mem_of_mem_insertIdx hw
  · exact .inl hhome
  · exact .inr ⟨w, hw, .refl w⟩

/-! Adding, activating and cleaning up workspaces. -/

theorem houses_addWorkspaceAt (m : Monitor) (i : ℕ) : Houses m (m.addWorkspaceAt i) :=
  houses_insert rfl rfl (Workspace.atHome_new ..)

theorem houses_activateWorkspace (h : m.activateWorkspace i = some m') : Houses m m' := by
  obtain ⟨ws, -, h⟩ := of_bind h
  exact some.inj h ▸ .of_eq rfl rfl

theorem houses_activateIf (h : m.activateIf activate i = some m') : Houses m m' := by
  unfold activateIf at h
  split at h
  · exact houses_activateWorkspace h
  · exact some.inj h ▸ .refl m

theorem houses_removeInactiveAt (m : Monitor) (i : ℕ) : Houses m (m.removeInactiveAt i) :=
  .of_subset rfl (eraseIdx_sublist ..).subset

theorem houses_cleanUpBelow (start n : ℕ) (m : Monitor) : Houses m (m.cleanUpBelow start n) := by
  induction n generalizing m with
  | zero => exact .refl m
  | succ i ih =>
    unfold cleanUpBelow
    split
    · exact .refl m
    · split
      · exact (houses_removeInactiveAt m i).trans (ih _)
      · exact ih m

theorem houses_dropSecondEmpty (h : m.dropSecondEmpty = some m') : Houses m m' := by
  unfold dropSecondEmpty at h
  split at h
  · split at h
    · cases h
    · exact some.inj h ▸ .of_subset rfl (eraseIdx_sublist ..).subset
  · exact some.inj h ▸ .refl m

theorem houses_cleanUpWorkspaces (h : m.cleanUpWorkspaces = some m') : Houses m m' := by
  unfold cleanUpWorkspaces at h
  split at h
  · cases h
  · exact (houses_cleanUpBelow ..).trans (houses_dropSecondEmpty h)

theorem houses_stopSwitch (h : m.stopSwitch = some m') : Houses m m' := by
  have hstopped : Houses m { m with workspaceSwitch := none } := .of_eq rfl rfl
  exact hstopped.trans (houses_cleanUpWorkspaces h)

theorem houses_cleanUpUnlessSwitching (h : m.cleanUpUnlessSwitching = some m') : Houses m m' := by
  unfold cleanUpUnlessSwitching at h
  split at h
  · exact houses_cleanUpWorkspaces h
  · exact some.inj h ▸ .refl m

theorem houses_padEnds (m : Monitor) (i : ℕ) : Houses m (m.padEnds i).1 := by
  have htop (mt : Monitor) :
      Houses mt (if mt.emptyAboveFirst ∧ i = 0 then (mt.addWorkspaceTop, i + 1) else (mt, i)).1 := by
    split
    · exact houses_addWorkspaceAt ..
    · exact .refl mt
  refine Houses.trans ?_ (htop _)
  split
  · exact houses_addWorkspaceAt ..
  · exact .refl m

/-! Windows. -/

theorem houses_adoptWorkspace (m : Monitor) (i : ℕ) : Houses m (m.adoptWorkspace i) := by
  refine ⟨rfl, fun hall ws' hws' => ?_⟩
  obtain ⟨ws, hws, rfl | rfl⟩ : ∃ ws ∈ m.workspaces, ws' = ws ∨
      ws' = if ws.name.isNone then { ws with originalOutput := OutputId.new m.output } else ws := by
    obtain ⟨j, hj⟩ := getElem?_of_mem hws'
    change (m.workspaces.modify i _)[j]? = some ws' at hj
    rw [getElem?_modify] at hj
    obtain ⟨ws, hget, rfl⟩ := of_map hj
    refine ⟨ws, mem_of_getElem? hget, ?_⟩
    split
    · exact .inr rfl
    · exact .inl rfl
  · exact hall _ hws
  · split
    · exact ⟨(hall ws hws).handle, fun _ => rfl⟩
    · exact hall ws hws

variable {tile : Tile} {width : ColumnWidth} {isFullWidth isFloating : Bool} {renderPos : Point}

/-- What follows after something was added to a workspace. -/
theorem houses_filled {f : Workspace → Option Workspace} {allow : Bool}
    (hf : ∀ ws ws', f ws = some ws' → Stays ws ws') (hmt : m.onWorkspace i f = some mt)
    (h : ((mt.adoptWorkspace i).padEnds i).1.activateIf allow ((mt.adoptWorkspace i).padEnds i).2 =
      some m') : Houses m m' :=
  (houses_onWorkspace hf hmt).trans <| (houses_adoptWorkspace mt i).trans <|
    (houses_padEnds _ i).trans (houses_activateIf h)

theorem houses_addTile {target : MonitorAddWindowTarget} {activate : ActivateWindow} {allow : Bool}
    (h : m.addTile tile target activate allow width isFullWidth isFloating renderPos = some m') :
    Houses m m' := by
  obtain ⟨⟨idx, target'⟩, -, h⟩ := of_bind h
  obtain ⟨mt, hmt, h⟩ := of_bind h
  exact houses_filled (fun _ _ => Workspace.stays_addTile) hmt h

theorem houses_addWindow {window : Window} {target : MonitorAddWindowTarget} {activate : ActivateWindow}
    (h : m.addWindow window target activate width isFullWidth isFloating renderPos = some m') :
    Houses m m' := by
  obtain ⟨first, -, h⟩ := of_bind h
  exact houses_addTile h

theorem houses_addColumn {column : Column} (h : m.addColumn i column activate = some m') :
    Houses m m' := by
  obtain ⟨mt, hmt, h⟩ := of_bind h
  exact houses_filled (fun _ _ => Workspace.stays_scrollingAdd) hmt h

theorem houses_addTileToColumn {columnIdx : ℕ} {tileIdx : Option ℕ} {allow : Bool}
    (h : m.addTileToColumn i columnIdx tileIdx tile activate allow = some m') : Houses m m' := by
  obtain ⟨mt, hmt, h⟩ := of_bind h
  exact (houses_onWorkspace (fun _ _ => Workspace.stays_scrollingAdd) hmt).trans <|
    (houses_adoptWorkspace mt i).trans (houses_activateIf h)

theorem houses_onFirst {p : Workspace → Bool} {f : Workspace → Option Workspace}
    (hf : ∀ ws ws', f ws = some ws' → Stays ws ws') (h : m.onFirst p f = some m') : Houses m m' := by
  obtain ⟨idx, -, h⟩ := of_bind h
  exact houses_onWorkspace hf h

theorem stays_setOpeningHeight {opening : WindowOpening} {window : ℕ}
    (h : ws.setOpeningHeight window opening = some ws') : Stays ws ws' := by
  unfold Workspace.setOpeningHeight at h
  split at h
  · exact some.inj h ▸ .refl ws
  · split at h
    · exact some.inj h ▸ .refl ws
    · exact Workspace.stays_onSpaceOf h

theorem houses_openWindow {window : Window} {target : MonitorAddWindowTarget} {opening : WindowOpening}
    (h : m.openWindow window target opening = some m') : Houses m m' := by
  obtain ⟨⟨idx, target'⟩, -, h⟩ := of_bind h
  obtain ⟨ws, -, h⟩ := of_bind h
  obtain ⟨mt, hmt, h⟩ := of_bind h
  exact (houses_addWindow hmt).trans (houses_onFirst (fun _ _ => stays_setOpeningHeight) h)

theorem houses_cleanUpAfterRemoval (h : m.cleanUpAfterRemoval i = some m') : Houses m m' := by
  unfold cleanUpAfterRemoval at h
  split at h
  · exact some.inj h ▸ .refl m
  · split at h
    · exact (houses_removeInactiveAt m i).trans (houses_dropSecondEmpty h)
    · exact houses_dropSecondEmpty h

theorem houses_removeWindow {r : RemovedTile} {window : ℕ} (h : m.removeWindow window = some (r, m')) :
    Houses m m' := by
  obtain ⟨idx, -, h⟩ := of_bind h
  obtain ⟨ws, hws, h⟩ := of_bind h
  obtain ⟨⟨removed, ws'⟩, hremoved, h⟩ := of_bind h
  obtain ⟨mt, hmt, h⟩ := of_bind h
  obtain ⟨-, rfl⟩ := pair_inj h
  exact (houses_setWorkspace hws (Workspace.stays_removeTile hremoved)).trans
    (houses_cleanUpAfterRemoval hmt)

theorem houses_resolveInsertWorkspace {target : InsertWorkspace}
    (h : m.resolveInsertWorkspace target = some (m', i)) : Houses m m' := by
  unfold resolveInsertWorkspace at h
  cases target with
  | existing id =>
    obtain ⟨idx, -, h⟩ := of_map h
    obtain ⟨rfl, -⟩ := Prod.mk.inj h
    exact .refl m
  | newAt idx =>
    dsimp only at h
    split at h
    · obtain ⟨rfl, -⟩ := pair_inj h
      exact .refl m
    · split at h
      · obtain ⟨rfl, -⟩ := pair_inj h
        exact .refl m
      · obtain ⟨rfl, -⟩ := pair_inj h
        exact houses_addWorkspaceAt ..

theorem houses_dropTile {d : InteractiveMoveData} {drop : DropPoint} {allow : Bool}
    (h : m.dropTile d drop allow = some m') : Houses m m' := by
  obtain ⟨⟨mt, idx⟩, hmt, h⟩ := of_bind h
  obtain ⟨ws, -, h⟩ := of_bind h
  refine (houses_resolveInsertWorkspace hmt).trans ?_
  split at h
  · exact houses_addTile h
  · exact houses_addTileToColumn h
  · split at h
    · exact houses_addTile h
    · cases h

/-! Moving windows and columns between workspaces. -/

theorem stays_removeWindowOrActive {window : Option ℕ} {r : RemovedTile}
    (h : removeWindowOrActive ws window = some (some (r, ws'))) : Stays ws ws' := by
  cases window with
  | some id =>
    obtain ⟨removed, hr, h⟩ := of_map h
    obtain rfl := some.inj h
    exact Workspace.stays_removeTile hr
  | none => exact Workspace.stays_removeActiveTile h

theorem houses_moveActiveTileTo {activate : ActivateWindow}
    (h : m.moveActiveTileTo i activate = some m') : Houses m m' := by
  unfold moveActiveTileTo at h
  split at h
  · exact some.inj h ▸ .refl m
  · obtain ⟨target, -, h⟩ := of_bind h
    obtain ⟨source, hsource, h⟩ := of_bind h
    obtain ⟨removed, hremoved, h⟩ := of_bind h
    cases removed with
    | none => exact some.inj h ▸ .refl m
    | some r =>
      exact (houses_setWorkspace hsource (Workspace.stays_removeActiveTile hremoved)).trans
        (houses_addTile h)

theorem houses_moveToWorkspace {window : Option ℕ} {activate : ActivateWindow}
    (h : m.moveToWorkspace window i activate = some m') : Houses m m' := by
  obtain ⟨sourceIdx, -, h⟩ := of_bind h
  dsimp only at h
  split at h
  · exact some.inj h ▸ .refl m
  · obtain ⟨target, -, h⟩ := of_bind h
    obtain ⟨source, hsource, h⟩ := of_bind h
    obtain ⟨removed, hremoved, h⟩ := of_bind h
    cases removed with
    | none => exact some.inj h ▸ .refl m
    | some r =>
      obtain ⟨mt, hmt, h⟩ := of_bind h
      exact (houses_setWorkspace hsource (stays_removeWindowOrActive hremoved)).trans <|
        (houses_addTile hmt).trans (houses_cleanUpUnlessSwitching h)

theorem houses_moveColumnTo {other : Option Monitor} (hother : ∀ m', other = some m' → Houses m m')
    (h : m.moveColumnTo i activate other = some m') : Houses m m' := by
  unfold moveColumnTo at h
  split at h
  · exact some.inj h ▸ .refl m
  · obtain ⟨source, hsource, h⟩ := of_bind h
    split at h
    · exact hother m' h
    · obtain ⟨removed, hremoved, h⟩ := of_bind h
      cases removed with
      | none => exact some.inj h ▸ .refl m
      | some r =>
        exact (houses_setWorkspace hsource (Workspace.stays_removeActiveColumn hremoved)).trans
          (houses_addColumn h)

/-- An operation of the active workspace or, if it does nothing, another one. -/
theorem houses_activeOr (f : Workspace → Option (Bool × Workspace)) (other : Monitor → Option Monitor)
    (hf : ∀ ws b ws', f ws = some (b, ws') → Stays ws ws')
    (hother : ∀ m m', other m = some m' → Houses m m')
    (h : (m.activeWorkspace.bind fun ws => (f ws).bind fun r =>
      if r.1 = true then some (m.setWorkspace m.activeWorkspaceIdx r.2)
      else other (m.setWorkspace m.activeWorkspaceIdx r.2)) = some m') : Houses m m' := by
  obtain ⟨ws, hws, h⟩ := of_bind h
  obtain ⟨⟨b, ws'⟩, hf', h⟩ := of_bind h
  have hset := houses_setWorkspace (m := m) hws (hf ws b ws' hf')
  dsimp only at h
  split at h
  · exact some.inj h ▸ hset
  · exact hset.trans (hother _ m' h)

theorem houses_moveDownOrToWorkspaceDown (h : m.moveDownOrToWorkspaceDown = some m') : Houses m m' :=
  houses_activeOr (·.moveDown) (·.moveToWorkspaceDown true) (fun _ _ _ => Workspace.stays_moveOnActiveSpace)
    (fun _ _ => houses_moveActiveTileTo) h

theorem houses_moveUpOrToWorkspaceUp (h : m.moveUpOrToWorkspaceUp = some m') : Houses m m' :=
  houses_activeOr (·.moveUp) (·.moveToWorkspaceUp true) (fun _ _ _ => Workspace.stays_moveOnActiveSpace)
    (fun _ _ => houses_moveActiveTileTo) h

/-! Switching. -/

theorem houses_focusWindowOrWorkspaceDown (h : m.focusWindowOrWorkspaceDown = some m') : Houses m m' :=
  houses_activeOr (·.focusDown) (·.switchWorkspaceDown) (fun _ _ _ => Workspace.stays_focusOnActiveSpace)
    (fun _ _ => houses_activateWorkspace) h

theorem houses_focusWindowOrWorkspaceUp (h : m.focusWindowOrWorkspaceUp = some m') : Houses m m' :=
  houses_activeOr (·.focusUp) (·.switchWorkspaceUp) (fun _ _ _ => Workspace.stays_focusOnActiveSpace)
    (fun _ _ => houses_activateWorkspace) h

theorem houses_switchWorkspacePrevious (h : m.switchWorkspacePrevious = some m') : Houses m m' := by
  unfold switchWorkspacePrevious at h
  split at h
  · exact houses_activateWorkspace h
  · exact some.inj h ▸ .refl m

theorem houses_switchWorkspaceAutoBackAndForth (h : m.switchWorkspaceAutoBackAndForth i = some m') :
    Houses m m' := by
  unfold switchWorkspaceAutoBackAndForth at h
  split at h
  · exact houses_switchWorkspacePrevious h
  · exact houses_activateWorkspace h

/-! Naming, removing, inserting and reordering workspaces. -/

theorem houses_padNamed (m : Monitor) (id : ℕ) : Houses m (padNamed m id) := by
  have hbottom (mt : Monitor) :
      Houses mt (if mt.workspaces.getLast?.any (·.id == id) then mt.addWorkspaceBottom else mt) := by
    split
    · exact houses_addWorkspaceAt ..
    · exact .refl mt
  refine Houses.trans ?_ (hbottom _)
  split
  · exact houses_addWorkspaceAt ..
  · exact .refl m

theorem houses_rename {name : Option String} {p : Workspace → Bool}
    (h : m.onFirst p (fun ws => some { ws with name := name }) = some m') : Houses m m' := by
  obtain ⟨idx, -, h⟩ := of_bind h
  obtain ⟨ws, hws, rfl⟩ := of_bind_some h
  refine ⟨rfl, fun hall w hw => ?_⟩
  obtain rfl | hw := mem_of_mem_set (show w ∈ m.workspaces.set idx _ from hw)
  · exact ⟨(hall ws (mem_of_getElem? hws)).handle, (hall ws (mem_of_getElem? hws)).own⟩
  · exact hall w hw

theorem houses_unnameWorkspace (h : m.unnameWorkspace id = some m') : Houses m m' := by
  unfold unnameWorkspace at h
  split at h
  · exact some.inj h ▸ .refl m
  · rename_i idx hidx
    have hunnamed : Houses m { m with workspaces := m.workspaces.modify idx (·.unname) } := by
      refine ⟨rfl, fun hall w hw => ?_⟩
      obtain ⟨j, hj⟩ := getElem?_of_mem hw
      change (m.workspaces.modify idx (·.unname))[j]? = some w at hj
      rw [getElem?_modify] at hj
      obtain ⟨ws, hget, rfl⟩ := of_map hj
      have hhome := hall ws (mem_of_getElem? hget)
      split
      · exact ⟨hhome.handle, hhome.own⟩
      · exact hhome
    exact hunnamed.trans (houses_cleanUpUnlessSwitching h)

theorem houses_removeWorkspaceByIdx (h : m.removeWorkspaceByIdx i = some (ws, m')) : Houses m m' := by
  obtain ⟨ws', hws', h⟩ := of_bind h
  obtain ⟨mt, hmt, h⟩ := of_bind h
  obtain ⟨-, rfl⟩ := pair_inj h
  refine (houses_padEnds m i).trans (Houses.trans ?_ (houses_stopSwitch hmt))
  exact .of_subset rfl (eraseIdx_sublist ..).subset

theorem removeWorkspaceByIdx_output (h : m.removeWorkspaceByIdx i = some (ws, m')) : ws.output = none := by
  obtain ⟨ws', -, h⟩ := of_bind h
  obtain ⟨mt, -, h⟩ := of_bind h
  obtain ⟨rfl, -⟩ := pair_inj h
  exact Workspace.setOutput_none_output ws'

theorem houses_prepareInsertion (m : Monitor) (i : ℕ) : Houses m (m.prepareInsertion i).1 := by
  have htop (j : ℕ) :
      Houses m (if j = 0 ∧ m.emptyAboveFirst then (m.addWorkspaceTop, j + 1) else (m, j)).1 := by
    split
    · exact houses_addWorkspaceAt ..
    · exact .refl m
  exact htop _

/-- Inserting does not bring a workspace home by itself: it may have been there before. -/
theorem houses_insertWorkspace (hhome : AtHome m.output (ws.setOutput (some m.output)))
    (h : m.insertWorkspace ws i activate = some m') : Houses m m' := by
  obtain ⟨mt, hmt, h⟩ := of_bind h
  have hprepared := houses_prepareInsertion m i
  refine hprepared.trans (Houses.trans ?_ ((houses_activateIf hmt).trans (houses_stopSwitch h)))
  refine houses_insert rfl rfl ?_
  rw [hprepared.output]
  exact hhome.stays ⟨rfl, rfl, rfl, rfl⟩

theorem houses_appendWorkspaces {workspaces : List Workspace}
    (hother : ∀ ws ∈ workspaces, ws.output.map (·.handle) ≠ some m.output.handle)
    (h : m.appendWorkspaces workspaces = some m') : Houses m m' := by
  unfold appendWorkspaces at h
  split at h
  · exact some.inj h ▸ .refl m
  · obtain ⟨empty, hempty, h⟩ := of_bind h
    refine Houses.trans ?_ (houses_stopSwitch h)
    have hlast (mt : Monitor) (b : Prop) [Decidable b] :
        Houses mt (if b then { mt with activeWorkspaceIdx := mt.workspaces.length - 1 } else mt) := by
      split
      · exact .of_eq rfl rfl
      · exact .refl mt
    have htop (mt : Monitor) (b : Bool) : Houses mt (if b = true then mt.addWorkspaceTop else mt) := by
      split
      · exact houses_addWorkspaceAt ..
      · exact .refl mt
    refine Houses.trans (Houses.trans ?_ (htop _ _)) (hlast _ _)
    refine .of_forall rfl fun w hw => ?_
    obtain hw | hw := mem_append.mp hw
    · obtain hw | hw := mem_append.mp hw
      · exact .inr ⟨w, mem_of_mem_dropLast hw, .refl w⟩
      · obtain ⟨ws, hws, rfl⟩ := List.mem_map.mp hw
        exact .inl ((Workspace.atHome_setOutput (hother ws hws)).stays ⟨rfl, rfl, rfl, rfl⟩)
    · obtain rfl := mem_singleton.mp hw
      exact .inr ⟨w, mem_of_getLast? hempty, .refl w⟩

theorem takeForOutput_subset (m : Monitor) (output : Output) (n : ℕ) :
    Houses m (m.takeForOutput output n).1 ∧ (m.takeForOutput output n).2 ⊆ m.workspaces := by
  induction n generalizing m with
  | zero => exact ⟨.refl m, nil_subset _⟩
  | succ n ih =>
    unfold takeForOutput
    dsimp only
    split
    · obtain ⟨hrest, htaken⟩ := ih (m.removeForOutput n)
      have hremoved : (m.removeForOutput n).workspaces ⊆ m.workspaces :=
        (eraseIdx_sublist ..).subset
      have hhouses : Houses m (m.removeForOutput n) := .of_subset rfl hremoved
      refine ⟨hhouses.trans hrest, append_subset.mpr
        ⟨Subset.trans htaken hremoved, fun w hw => ?_⟩⟩
      have hfound := mem_toList.mp (mem_of_mem_filter hw)
      exact mem_of_getElem? (mem_filter_iff.mp hfound).1
    · exact ih m

theorem houses_releaseFor {output : Output} {taken : List Workspace}
    (h : m.releaseFor output = some (m', taken)) : Houses m m' ∧ taken ⊆ m.workspaces := by
  obtain ⟨mt, hmt, h⟩ := of_bind h
  obtain ⟨rfl, rfl⟩ := pair_inj h
  obtain ⟨hrest, htaken⟩ := m.takeForOutput_subset output m.workspaces.length
  refine ⟨hrest.trans ?_, htaken⟩
  unfold cleanUpIf at hmt
  split at hmt
  · exact houses_cleanUpWorkspaces hmt
  · exact some.inj hmt ▸ .refl _

theorem houses_activateMoved (h : m.activateMoved i = some m') : Houses m m' := by
  obtain ⟨mt, hmt, h⟩ := of_bind h
  have hprevious : Houses mt { mt with previousWorkspaceId := m.previousWorkspaceId } := .of_eq rfl rfl
  exact (houses_activateWorkspace hmt).trans (hprevious.trans (houses_stopSwitch h))

theorem houses_swapWorkspaces (h : m.swapWorkspaces i j = some m') : Houses m m' := by
  obtain ⟨a, ha, h⟩ := of_bind h
  obtain ⟨b, hb, rfl⟩ := of_bind_some h
  refine .of_subset rfl fun w hw => ?_
  obtain rfl | hw := mem_of_mem_set hw
  · exact mem_of_getElem? ha
  · obtain rfl | hw := mem_of_mem_set hw
    · exact mem_of_getElem? hb
    · exact hw

/-- What a move by one does after the two workspaces are swapped. -/
theorem houses_afterSwap {newIdx : ℕ} {b : Prop} [Decidable b] {c : Monitor → Prop}
    [∀ m, Decidable (c m)]
    (h : (let mt := if b then m.addWorkspaceBottom else m
      if c mt then mt.addWorkspaceTop.activateMoved (newIdx + 1) else mt.activateMoved newIdx) = some m') :
    Houses m m' := by
  have htop (mt : Monitor)
      (h : (if c mt then mt.addWorkspaceTop.activateMoved (newIdx + 1) else mt.activateMoved newIdx) =
        some m') : Houses mt m' := by
    split at h
    · exact (houses_addWorkspaceAt ..).trans (houses_activateMoved h)
    · exact houses_activateMoved h
  refine Houses.trans ?_ (htop _ h)
  split
  · exact houses_addWorkspaceAt ..
  · exact .refl m

theorem houses_moveWorkspaceDown (h : m.moveWorkspaceDown = some m') : Houses m m' := by
  unfold moveWorkspaceDown at h
  dsimp only at h
  split at h
  · exact some.inj h ▸ .refl m
  · obtain ⟨mt, hmt, h⟩ := of_bind h
    exact (houses_swapWorkspaces hmt).trans
      (houses_afterSwap (c := fun mt => mt.emptyAboveFirst ∧ mt.activeWorkspaceIdx = 0) h)

theorem houses_moveWorkspaceUp (h : m.moveWorkspaceUp = some m') : Houses m m' := by
  unfold moveWorkspaceUp at h
  dsimp only at h
  split at h
  · exact some.inj h ▸ .refl m
  · obtain ⟨mt, hmt, h⟩ := of_bind h
    exact (houses_swapWorkspaces hmt).trans
      (houses_afterSwap (c := fun mt => mt.emptyAboveFirst ∧ m.activeWorkspaceIdx - 1 = 0) h)

theorem houses_padAfterMove (m : Monitor) (i j : ℕ) : Houses m (m.padAfterMove i j).1 := by
  have htop (mt : Monitor) :
      Houses mt (if mt.emptyAboveFirst ∧ min i j = 0 then (mt.addWorkspaceTop, j + 1) else (mt, j)).1 := by
    split
    · exact houses_addWorkspaceAt ..
    · exact .refl mt
  refine Houses.trans ?_ (htop _)
  split
  · exact houses_addWorkspaceAt ..
  · exact .refl m

theorem houses_moveWorkspaceToIdx (h : m.moveWorkspaceToIdx i j = some m') : Houses m m' := by
  unfold moveWorkspaceToIdx at h
  dsimp only at h
  split at h
  · exact some.inj h ▸ .refl m
  · obtain ⟨ws, hws, h⟩ := of_bind h
    have hmoved : Houses m { m with
        workspaces := (m.workspaces.eraseIdx i).insertIdx (min j (m.workspaces.length - 1)) ws } := by
      refine .of_subset rfl fun w hw => ?_
      obtain rfl | hw := eq_or_mem_of_mem_insertIdx hw
      · exact mem_of_getElem? hws
      · exact mem_of_mem_eraseIdx hw
    have hactive (mt : Monitor) (k : ℕ) : Houses mt { mt with activeWorkspaceIdx := k } := .of_eq rfl rfl
    exact hmoved.trans ((houses_padAfterMove ..).trans ((hactive ..).trans (houses_stopSwitch h)))

/-! Config, time and gestures. -/

theorem houses_updateEmptyAboveFirst (m : Monitor) (b : Bool) : Houses m (m.updateEmptyAboveFirst b) := by
  unfold updateEmptyAboveFirst
  split
  · split
    · exact houses_addWorkspaceAt ..
    · split
      · exact .of_subset rfl (eraseIdx_sublist ..).subset
      · exact .refl m
  · exact .refl m

theorem houses_updateConfig (m : Monitor) (options : Options) : Houses m (m.updateConfig options) :=
  (houses_updateEmptyAboveFirst m _).trans (.of_map rfl rfl fun _ => ⟨rfl, rfl, rfl, rfl⟩)

theorem houses_updateLayoutConfig (m : Monitor) (layoutConfig : Option LayoutPart) :
    Houses m (m.updateLayoutConfig layoutConfig) := by
  unfold updateLayoutConfig
  split
  · exact .refl m
  · have hconfig : Houses m { m with layoutConfig := layoutConfig } := .of_eq rfl rfl
    exact hconfig.trans (houses_updateConfig ..)

/-- An output that changed is still the same output. -/
theorem atHome_updateOutputSize {output : Output} (hname : output.name = m.output.name)
    (hall : ∀ ws ∈ m.workspaces, AtHome m.output ws) :
    ∀ ws ∈ (m.updateOutputSize output).workspaces, AtHome output ws := by
  intro ws' hws'
  obtain ⟨ws, hws, rfl⟩ := List.mem_map.mp hws'
  refine AtHome.stays ⟨rfl, ?_⟩ (Workspace.stays_updateOutputSize _)
  have hown := (hall ws hws).own
  unfold OutputId.matches OutputId.new at *
  rw [hname]
  exact hown

theorem houses_setOverviewProgress (m : Monitor) (progress : Option ℚ) :
    Houses m (m.setOverviewProgress progress) := .of_eq rfl rfl

theorem houses_setClock (m : Monitor) (now : ℚ) (anim : AnimationState) : Houses m (m.setClock now anim) :=
  .of_map rfl rfl fun _ => ⟨rfl, rfl, rfl, rfl⟩

theorem houses_advanceAnimations {anim : AnimationState} (h : m.advanceAnimations anim = some m') :
    Houses m m' := by
  obtain ⟨mt, hmt, rfl⟩ := of_bind_some h
  have hadvanced : Houses mt { mt with
      workspaces := mt.workspaces.map fun ws => ws.advanceAnimations (anim.workspaces ws.id) } :=
    .of_map rfl rfl fun _ => ⟨rfl, rfl, rfl, rfl⟩
  refine Houses.trans ?_ hadvanced
  unfold advanceSwitch at hmt
  split at hmt
  · split at hmt
    · exact houses_stopSwitch hmt
    · exact some.inj hmt ▸ .refl m
  · exact some.inj hmt ▸ .of_eq rfl rfl
  · exact some.inj hmt ▸ .refl m

theorem houses_workspaceSwitchGestureUpdate {deltaY timestamp : ℚ} {isTouchpad : Bool}
    (h : m.workspaceSwitchGestureUpdate deltaY timestamp isTouchpad = some m') : Houses m m' := by
  unfold workspaceSwitchGestureUpdate at h
  split at h
  · split at h
    · obtain ⟨g, -, rfl⟩ := of_map h
      exact .of_eq rfl rfl
    · exact some.inj h ▸ .refl m
  · exact some.inj h ▸ .refl m

theorem houses_dndScrollGestureBegin (m : Monitor) : Houses m m.dndScrollGestureBegin := by
  unfold dndScrollGestureBegin
  split
  · exact .refl m
  · exact .of_eq rfl rfl

theorem houses_dndScrollGestureScroll {delta : ℚ} {b : Bool}
    (h : m.dndScrollGestureScroll delta = some (b, m')) : Houses m m' := by
  unfold dndScrollGestureScroll at h
  split at h
  · split at h
    · obtain ⟨-, rfl⟩ := pair_inj h
      exact .refl m
    · dsimp only at h
      split at h
      · obtain ⟨-, rfl⟩ := pair_inj h
        exact .of_eq rfl rfl
      · split at h
        · obtain ⟨-, rfl⟩ := pair_inj h
          exact .of_eq rfl rfl
        · split at h
          · cases h
          · obtain ⟨-, rfl⟩ := pair_inj h
            exact .of_eq rfl rfl
  · obtain ⟨-, rfl⟩ := pair_inj h
    exact .refl m

theorem houses_workspaceSwitchGestureEnd {isTouchpad : Option Bool}
    (h : m.workspaceSwitchGestureEnd isTouchpad = some m') : Houses m m' := by
  unfold workspaceSwitchGestureEnd at h
  split at h
  · split at h
    · obtain ⟨newIdx, -, h⟩ := of_bind h
      obtain ⟨active, -, h⟩ := of_bind h
      exact some.inj h ▸ .of_eq rfl rfl
    · exact some.inj h ▸ .refl m
  · exact some.inj h ▸ .refl m

theorem houses_dndScrollGestureEnd (h : m.dndScrollGestureEnd = some m') : Houses m m' := by
  unfold dndScrollGestureEnd at h
  split at h
  · exact houses_workspaceSwitchGestureEnd h
  · exact some.inj h ▸ .refl m

/-- A new monitor takes over workspaces that were elsewhere. -/
theorem atHome_new {output : Output} {workspaces : List Workspace} {wsIdToActivate : Option ℕ}
    {clock : ℚ} {baseOptions : Options} {layoutConfig : Option LayoutPart} {nextId : ℕ}
    (hother : ∀ ws ∈ workspaces, ws.output.map (·.handle) ≠ some output.handle)
    (h : Monitor.new output workspaces wsIdToActivate clock baseOptions layoutConfig nextId = some m) :
    m.output = output ∧ ∀ ws ∈ m.workspaces, AtHome output ws := by
  unfold Monitor.new at h
  split at h
  · cases h
  · obtain rfl := some.inj h
    refine ⟨rfl, fun w hw => ?_⟩
    obtain hw | hw := mem_append.mp hw
    · obtain hw | hw := mem_append.mp hw
      · split at hw
        · obtain rfl := mem_singleton.mp hw
          exact Workspace.atHome_new ..
        · exact absurd hw not_mem_nil
      · obtain ⟨ws, hws, rfl⟩ := List.mem_map.mp hw
        exact (Workspace.atHome_setOutput (hother ws hws)).stays ⟨rfl, rfl, rfl, rfl⟩
    · obtain rfl := mem_singleton.mp hw
      exact Workspace.atHome_new ..

end Macniri.Layout.Monitor
