import Macniri.Layout.MonitorOutput
import Macniri.Layout.Step

/-! Workspaces are at home on their monitors, through all operations of the layout. -/
namespace Macniri.Layout

open Option List

open Workspace (Stays AtHome)
open Monitor (Houses)

/-- A monitor whose workspaces are at home. A connector name has no blanks, other than a make, model
and serial. -/
structure Monitor.Housed (m : Monitor) : Prop where
  atHome : ∀ ws ∈ m.workspaces, AtHome m.output ws
  connector : ' ' ∉ m.output.name.connector.toList

/-- Without outputs, the workspaces are on none. -/
def MonitorSet.Housed : MonitorSet → Prop
  | .normal monitors _ _ => ∀ m ∈ monitors, m.Housed
  | .noOutputs workspaces => ∀ ws ∈ workspaces, ws.output = none

def Housed (l : Layout) : Prop := l.monitorSet.Housed

variable {l l' lt : Layout} {m m' : Monitor} {idx : ℕ}
variable {f : Monitor → Option Monitor} {g : Workspace → Option Workspace}

theorem Monitor.Housed.houses (h : m.Housed) (hm : Houses m m') : m'.Housed :=
  ⟨hm.output ▸ hm.atHome h.atHome, hm.output ▸ h.connector⟩

theorem Housed.congr (h : l.Housed) (hset : l'.monitorSet = l.monitorSet) : l'.Housed := by
  unfold Housed
  rwa [hset]

theorem Housed.normal {ms : List Monitor} {primaryIdx activeMonitorIdx : ℕ} (h : l.Housed)
    (hset : l.monitorSet = .normal ms primaryIdx activeMonitorIdx) : ∀ m ∈ ms, m.Housed := by
  unfold Housed at h
  rwa [hset] at h

theorem Housed.noOutputs {workspaces : List Workspace} (h : l.Housed)
    (hset : l.monitorSet = .noOutputs workspaces) : ∀ ws ∈ workspaces, ws.output = none := by
  unfold Housed at h
  rwa [hset] at h

theorem Housed.monitors (h : l.Housed) : ∀ m ∈ l.monitors, m.Housed := by
  unfold Layout.monitors
  split
  · rename_i hset
    exact h.normal hset
  · exact fun m hm => absurd hm not_mem_nil

theorem housed_of_normal {ms : List Monitor} {primaryIdx activeMonitorIdx : ℕ}
    (hset : l.monitorSet = .normal ms primaryIdx activeMonitorIdx) (h : ∀ m ∈ ms, m.Housed) :
    l.Housed := by
  unfold Housed
  rwa [hset]

theorem housed_of_noOutputs {workspaces : List Workspace} (hset : l.monitorSet = .noOutputs workspaces)
    (h : ∀ ws ∈ workspaces, ws.output = none) : l.Housed := by
  unfold Housed
  rwa [hset]

/-! The operations that others are made of. -/

theorem Housed.setMonitor (h : l.Housed) (hm : m.Housed) (idx : ℕ) : (l.setMonitor idx m).Housed := by
  unfold Layout.setMonitor
  split
  · rename_i hset
    refine housed_of_normal rfl fun w hw => ?_
    obtain rfl | hw := mem_of_mem_set hw
    · exact hm
    · exact h.normal hset w hw
  · exact h

theorem Housed.monitorAt (h : l.Housed) (hm : l.monitorAt idx = some m) : m.Housed := by
  obtain ⟨w, hw, rfl⟩ := of_map hm
  have hhoused := h.monitors w (mem_of_getElem? hw)
  exact ⟨hhoused.atHome, hhoused.connector⟩

theorem Housed.onMonitor (h : l.Housed) (hf : ∀ m m', f m = some m' → Houses m m')
    (hl : l.onMonitor idx f = some l') : l'.Housed := by
  obtain ⟨m, hm, hl⟩ := of_bind hl
  obtain ⟨m', hm', hl⟩ := of_bind hl
  exact some.inj hl ▸ h.setMonitor ((h.monitorAt hm).houses (hf m m' hm')) idx

theorem Housed.onActiveMonitor (h : l.Housed) (hf : ∀ m m', f m = some m' → Houses m m')
    (hl : l.onActiveMonitor f = some l') : l'.Housed := by
  unfold Layout.onActiveMonitor at hl
  split at hl
  · exact h.onMonitor hf hl
  · exact some.inj hl ▸ h

theorem Housed.onActiveWorkspace (h : l.Housed) (hg : ∀ ws ws', g ws = some ws' → Stays ws ws')
    (hl : l.onActiveWorkspace g = some l') : l'.Housed :=
  h.onActiveMonitor (fun _ _ => Monitor.houses_onWorkspace hg) hl

theorem housed_threadMonitors (hf : ∀ m m', f m = some m' → Houses m m') {ms ms' : List Monitor}
    {n n' : ℕ} (h : ∀ m ∈ ms, m.Housed) (hms : threadMonitors f n ms = some (n', ms')) :
    ∀ m ∈ ms', m.Housed := by
  induction ms generalizing n ms' with
  | nil =>
    obtain ⟨-, rfl⟩ := pair_inj hms
    exact h
  | cons m ms ih =>
    obtain ⟨m', hm', hms⟩ := of_bind hms
    obtain ⟨⟨k, rest⟩, hrest, hms⟩ := of_bind hms
    obtain ⟨rfl, rfl⟩ := pair_inj hms
    have hfirst : ({ m with nextId := n } : Monitor).Housed :=
      ⟨(h m mem_cons_self).atHome, (h m mem_cons_self).connector⟩
    rintro w (_ | ⟨_, hw⟩)
    · exact hfirst.houses (hf _ _ hm')
    · exact ih (fun m hm => h m (mem_cons_of_mem _ hm)) hrest w hw

theorem Housed.forMonitors (h : l.Housed) (hf : ∀ m m', f m = some m' → Houses m m')
    (hl : l.forMonitors f = some l') : l'.Housed := by
  unfold Layout.forMonitors at hl
  split at hl
  · rename_i hset
    obtain ⟨⟨n', ms'⟩, hms, hl⟩ := of_bind hl
    obtain rfl := some.inj hl
    exact housed_of_normal rfl (housed_threadMonitors hf (h.normal hset) hms)
  · exact some.inj hl ▸ h

theorem mem_mapM {α β : Type} {f : α → Option β} {xs : List α} {ys : List β} {b : β}
    (h : xs.mapM f = some ys) (hb : b ∈ ys) : ∃ a ∈ xs, f a = some b := by
  induction xs generalizing ys with
  | nil =>
    obtain rfl := some.inj h
    exact absurd hb not_mem_nil
  | cons a xs ih =>
    rw [mapM_cons] at h
    obtain ⟨c, hc, h⟩ := of_bind h
    obtain ⟨rest, hrest, rfl⟩ := of_bind_some h
    obtain - | ⟨-, hb⟩ := hb
    · exact ⟨a, mem_cons_self, hc⟩
    · obtain ⟨a', ha', hf⟩ := ih hrest hb
      exact ⟨a', mem_cons_of_mem _ ha', hf⟩

theorem houses_forWorkspaces (hg : ∀ ws ws', g ws = some ws' → Stays ws ws')
    (h : m.forWorkspaces g = some m') : Houses m m' := by
  obtain ⟨workspaces, hws, rfl⟩ := of_map h
  refine .of_forall rfl fun ws' hws' => ?_
  obtain ⟨ws, hmem, hws⟩ := mem_mapM hws hws'
  exact .inr ⟨ws, hmem, hg ws ws' hws⟩

theorem Housed.forWorkspaces (h : l.Housed) (hg : ∀ ws ws', g ws = some ws' → Stays ws ws')
    (hl : l.forWorkspaces g = some l') : l'.Housed := by
  unfold Layout.forWorkspaces at hl
  split at hl
  · exact h.forMonitors (fun _ _ => houses_forWorkspaces hg) hl
  · rename_i hset
    obtain ⟨workspaces, hws, rfl⟩ := of_map hl
    refine housed_of_noOutputs rfl fun ws' hws' => ?_
    obtain ⟨ws, hmem, hws⟩ := mem_mapM hws hws'
    rw [(hg ws ws' hws).output]
    exact h.noOutputs hset ws hmem

theorem Housed.forWorkspacesIf (h : l.Housed) (hg : ∀ ws ws', g ws = some ws' → Stays ws ws') {b : Bool}
    (hl : l.forWorkspacesIf b g = some l') : l'.Housed := by
  unfold Layout.forWorkspacesIf at hl
  split at hl
  · exact h.forWorkspaces hg hl
  · exact some.inj hl ▸ h

theorem Housed.onFirstOf (h : l.Housed) {p : Workspace → Bool}
    (hf : ∀ m m', m.onFirst p g = some m' → Houses m m')
    (hg : ∀ ws ws', g ws = some ws' → ws'.output = ws.output) (hl : l.onFirstWorkspace p g = some l') :
    l'.Housed := by
  unfold Layout.onFirstWorkspace at hl
  split at hl
  · obtain ⟨idx, -, hl⟩ := of_bind hl
    exact h.onMonitor hf hl
  · rename_i hset
    obtain ⟨idx, -, hl⟩ := of_bind hl
    obtain ⟨ws, hws, hl⟩ := of_bind hl
    obtain ⟨ws', hws', rfl⟩ := of_bind_some hl
    refine housed_of_noOutputs rfl fun w hw => ?_
    obtain rfl | hw := mem_of_mem_set hw
    · rw [hg ws _ hws']
      exact h.noOutputs hset ws (mem_of_getElem? hws)
    · exact h.noOutputs hset w hw

theorem Housed.onFirstWorkspace (h : l.Housed) {p : Workspace → Bool}
    (hg : ∀ ws ws', g ws = some ws' → Stays ws ws') (hl : l.onFirstWorkspace p g = some l') :
    l'.Housed :=
  h.onFirstOf (fun _ _ => Monitor.houses_onFirst hg) (fun ws ws' hws => (hg ws ws' hws).output) hl

theorem Housed.onWindow (h : l.Housed) {window : Option ℕ}
    (hg : ∀ ws ws', g ws = some ws' → Stays ws ws') (hl : l.onWindow window g = some l') : l'.Housed := by
  unfold Layout.onWindow at hl
  split at hl
  · exact some.inj hl ▸ h
  · split at hl
    · exact h.onFirstWorkspace hg hl
    · exact h.onActiveWorkspace hg hl

theorem Housed.onWorkspaceOf (h : l.Housed) {window : ℕ} (hg : ∀ ws ws', g ws = some ws' → Stays ws ws')
    (hl : l.onWorkspaceOf window g = some l') : l'.Housed := by
  unfold Layout.onWorkspaceOf at hl
  split at hl
  · exact h.onFirstWorkspace hg hl
  · exact some.inj hl ▸ h

theorem Housed.onUnmoved (h : l.Housed) {window : ℕ} (hg : ∀ ws ws', g ws = some ws' → Stays ws ws')
    (hl : l.onUnmoved window g = some l') : l'.Housed := by
  unfold Layout.onUnmoved at hl
  split at hl
  · exact some.inj hl ▸ h
  · exact h.onWorkspaceOf hg hl

theorem Housed.activateMonitor (h : l.Housed) (idx : ℕ) : (l.activateMonitor idx).Housed := by
  unfold Layout.activateMonitor
  split
  · rename_i hset
    exact housed_of_normal rfl (h.normal hset)
  · exact h

theorem Housed.activateMonitorIf (h : l.Housed) (b : Bool) (idx : ℕ) :
    (l.activateMonitorIf b idx).Housed := by
  unfold Layout.activateMonitorIf
  split
  · exact h.activateMonitor idx
  · exact h

theorem Housed.focusOutput (h : l.Housed) (output : Output) : (l.focusOutput output).Housed := by
  unfold Layout.focusOutput
  split
  · exact h.activateMonitor _
  · exact h

theorem Housed.onFirstMonitor (h : l.Housed) {p : Monitor → Bool}
    (hf : ∀ m m', f m = some m' → Houses m m') (hl : l.onFirstMonitor p f = some l') : l'.Housed := by
  unfold Layout.onFirstMonitor at hl
  split at hl
  · exact some.inj hl ▸ h
  · exact h.onMonitor hf hl

end Macniri.Layout
