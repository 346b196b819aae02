import Macniri.Layout.MonitorRun
import Macniri.Layout.WorkspaceFocus

/-! The active workspace of a monitor while workspaces are added, filled and activated. -/
namespace Macniri.Layout.Monitor

open List Option

variable {m m' mt : Monitor} {ws ws' : Workspace} {i j : ℕ} {activate : Bool}

/-- Where a workspace is after another one was inserted. -/
def indexAfter (idx i : ℕ) : ℕ := if idx ≤ i then i + 1 else i

theorem getElem?_addWorkspaceAt (m : Monitor) (idx i : ℕ) :
    (m.addWorkspaceAt idx).workspaces[indexAfter idx i]? = m.workspaces[i]? := by
  unfold addWorkspaceAt indexAfter
  dsimp only
  split
  · rw [getElem?_insertIdx_of_gt (by omega), Nat.add_sub_cancel]
  · rw [getElem?_insertIdx_of_lt (by omega)]

theorem activeWorkspace_addWorkspaceAt (m : Monitor) (idx : ℕ) :
    (m.addWorkspaceAt idx).activeWorkspace = m.activeWorkspace :=
  getElem?_addWorkspaceAt m idx m.activeWorkspaceIdx

/-- Padding moves neither the active workspace nor the one that was filled. -/
theorem padEnds_workspaces (hi : i < m.workspaces.length) :
    (m.padEnds i).1.workspaces[(m.padEnds i).2]? = m.workspaces[i]? ∧
      (m.padEnds i).1.activeWorkspace = m.activeWorkspace := by
  obtain ⟨mb, hmb⟩ : ∃ mb, mb = if i + 1 = m.workspaces.length then m.addWorkspaceBottom else m :=
    ⟨_, rfl⟩
  obtain ⟨hat, hactive⟩ : mb.workspaces[i]? = m.workspaces[i]? ∧
      mb.activeWorkspace = m.activeWorkspace := by
    subst hmb
    split
    · have hsame := getElem?_addWorkspaceAt m m.workspaces.length i
      rw [indexAfter, if_neg (Nat.not_le.mpr hi)] at hsame
      exact ⟨hsame, activeWorkspace_addWorkspaceAt ..⟩
    · exact ⟨rfl, rfl⟩
  unfold padEnds
  rw [← hmb]
  dsimp only
  split
  · have hshift := getElem?_addWorkspaceAt mb 0 i
    exact ⟨hshift.trans hat, (activeWorkspace_addWorkspaceAt ..).trans hactive⟩
  · exact ⟨hat, hactive⟩

theorem activateIf_spec (h : m.activateIf activate i = some m') :
    m'.workspaces = m.workspaces ∧
      m'.activeWorkspaceIdx = if activate then i else m.activeWorkspaceIdx := by
  unfold activateIf at h
  split at h
  · obtain ⟨active, -, rfl⟩ := of_bind_some h
    exact ⟨rfl, (if_pos ‹_›).symm⟩
  · obtain rfl := some.inj h
    exact ⟨rfl, (if_neg ‹_›).symm⟩

theorem activeWorkspace_activateIf (h : m.activateIf activate i = some m') :
    m'.activeWorkspace = if activate then m.workspaces[i]? else m.activeWorkspace := by
  obtain ⟨hws, hidx⟩ := activateIf_spec h
  unfold activeWorkspace
  rw [hws, hidx]
  split <;> rfl

/-- The list after one workspace was filled and became the output's own. -/
def filledAt (m : Monitor) (i : ℕ) (ws : Workspace) : Monitor :=
  m.setWorkspace i (adopted m.output ws)

theorem activeWorkspace_filledAt (hi : i < m.workspaces.length) (ws : Workspace) :
    (m.filledAt i ws).activeWorkspace =
      if i = m.activeWorkspaceIdx then some (adopted m.output ws) else m.activeWorkspace := by
  unfold activeWorkspace filledAt setWorkspace
  dsimp only
  split
  · rename_i hsame
    rw [← hsame, getElem?_set_self hi]
  · rename_i hne
    rw [getElem?_set_ne hne]

/-- What filling a workspace, padding the list and maybe activating the workspace comes to. -/
theorem filled_active (hws : m.workspaces[i]? = some ws) (hmt : mt = m.setWorkspace i ws')
    (h : ((mt.adoptWorkspace i).padEnds i).1.activateIf activate
      ((mt.adoptWorkspace i).padEnds i).2 = some m') :
    adopted m.output ws' ∈ m'.workspaces ∧
      m'.activeWorkspace = if activate || i == m.activeWorkspaceIdx
        then some (adopted m.output ws') else m.activeWorkspace := by
  have hlt := lt_length_of_getElem? hws
  have hlen : (m.filledAt i ws').workspaces.length = m.workspaces.length := length_set
  have hfilled : mt.adoptWorkspace i = m.filledAt i ws' := by
    rw [hmt]
    exact adoptWorkspace_setWorkspace hlt ws'
  rw [hfilled] at h
  obtain ⟨hat, hactive⟩ := padEnds_workspaces (m := m.filledAt i ws') (i := i) (by omega)
  have hself : (m.filledAt i ws').workspaces[i]? = some (adopted m.output ws') :=
    getElem?_set_self hlt
  refine ⟨?_, ?_⟩
  · rw [(activateIf_spec h).1]
    exact mem_of_getElem? (hat.trans hself)
  · rw [activeWorkspace_activateIf h, hat, hactive, hself, activeWorkspace_filledAt hlt]
    cases activate with
    | true => rfl
    | false => simp

end Macniri.Layout.Monitor
