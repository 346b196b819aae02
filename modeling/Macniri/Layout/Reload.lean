import Macniri.Layout.NamedWorkspaces
import Mathlib.Data.List.Nodup

/-! The workspaces when the config is reloaded. Sections are told apart by their exact names, but
workspaces are looked up by names up to ASCII case. -/
namespace Macniri.Layout

open Option List

open Workspace (tag?)

variable {l l' : Layout} {m m' : Monitor} {name : String} {idx : ℕ} {ts ts' : List Tag} {t : Tag}

def named (l : Layout) : List Tag := l.workspaces.filterMap Workspace.tag?

def Tag.matches (name : String) (t : Tag) : Bool := eqIgnoreAsciiCase t.name name

/-- How many workspaces go by a name. -/
def countNamed (name : String) (ts : List Tag) : ℕ := ts.countP (Tag.matches name)

def MonitorSet.indices : MonitorSet → Prop
  | .normal monitors primaryIdx activeMonitorIdx =>
    primaryIdx < monitors.length ∧ activeMonitorIdx < monitors.length
  | .noOutputs _ => True

instance : (s : MonitorSet) → Decidable s.indices
  | .normal _ _ _ => inferInstanceAs (Decidable (_ ∧ _))
  | .noOutputs _ => inferInstanceAs (Decidable True)

structure Shaped (l : Layout) : Prop where
  tidy : ∀ m ∈ l.monitors, m.Tidy
  indices : l.monitorSet.indices

/-- Workspace ids are taken from the counter. -/
structure Sound (l : Layout) : Prop extends l.Shaped where
  ids : (l.workspaces.map (·.id)).Nodup
  fresh : ∀ ws ∈ l.workspaces, ws.id < l.nextId

/-- At most one workspace with a name forgets it. -/
inductive Forgets (name : String) : List Tag → List Tag → Prop
  | none {ts : List Tag} (h : ∀ t ∈ ts, t.matches name = false) : Forgets name ts ts
  | one {ts ts' : List Tag} (t : Tag) (h : t.matches name = true) (hperm : ts.Perm (t :: ts')) :
    Forgets name ts ts'

theorem matches_congr {t : Tag} {n n' : String} (h : eqIgnoreAsciiCase n n' = true) :
    t.matches n = t.matches n' := by
  unfold Tag.matches eqIgnoreAsciiCase at *
  rw [eq_of_beq h]

theorem Forgets.count (h : Forgets name ts ts') (n : String) : countNamed n ts' =
    countNamed n ts - if eqIgnoreAsciiCase name n = true then 1 else 0 := by
  cases h with
  | none h =>
    split
    · rename_i hn
      have hzero : countNamed n ts = 0 := by
        refine countP_eq_zero.mpr fun t ht => ?_
        rw [← matches_congr hn, h t ht]
        decide
      rw [hzero]
    · rfl
  | one t h hperm =>
    have hiff : t.matches n = eqIgnoreAsciiCase name n := by
      rw [Bool.eq_iff_iff]
      exact ⟨eqIgnoreAsciiCase_trans ((eqIgnoreAsciiCase_comm ..).trans h), eqIgnoreAsciiCase_trans h⟩
    rw [countNamed, countNamed, hperm.countP_eq, countP_cons, hiff, Nat.add_sub_cancel]

/-- A workspace is created for a section unless there is one of that name. -/
inductive Ensures (config : WorkspaceConfig) (nextId : ℕ) : List Tag → List Tag → Prop
  | there {ts : List Tag} {t : Tag} (ht : t ∈ ts) (h : t.matches config.name = true) :
    Ensures config nextId ts ts
  | created {ts ts' : List Tag} {id : ℕ} (hid : nextId ≤ id)
    (h : ∀ t ∈ ts, t.matches config.name = false) (hperm : ts'.Perm (Monitor.sectionTag id config :: ts)) :
    Ensures config nextId ts ts'

theorem Ensures.count {config : WorkspaceConfig} {nextId : ℕ} (h : Ensures config nextId ts ts')
    (n : String) : countNamed n ts ≤ countNamed n ts' ∧ countNamed n ts' ≤ max 1 (countNamed n ts) := by
  cases h with
  | there => exact ⟨Nat.le_refl _, le_max_right _ _⟩
  | created _ h hperm =>
    rw [countNamed, countNamed, hperm.countP_eq, countP_cons]
    refine ⟨Nat.le_add_right _ _, ?_⟩
    split
    · rename_i hn
      have hzero : ts.countP (Tag.matches n) = 0 := by
        refine countP_eq_zero.mpr fun t ht => ?_
        have hname : eqIgnoreAsciiCase config.name n = true := hn
        rw [← matches_congr hname, h t ht]
        decide
      rw [hzero]
      exact le_max_left _ _
    · exact le_max_right _ _

/-- All that is known of the workspaces that were created. -/
structure Created (configs : List WorkspaceConfig) (nextId : ℕ) (ts new ts' : List Tag) : Prop where
  perm : ts'.Perm (new ++ ts)
  sections : ∀ t ∈ new, nextId ≤ t.id ∧
    ∃ config ∈ configs, t.name = config.name ∧ t.layoutConfig = config.layout
  there : ∀ config ∈ configs, ∃ t ∈ ts', t.matches config.name = true
  count : ∀ n, countNamed n ts ≤ countNamed n ts' ∧ countNamed n ts' ≤ max 1 (countNamed n ts)

/-! The tags before and after a reload. -/
section tags

variable {old config : Config} {gone left new : List Tag} {nextId : ℕ}

end tags

end Macniri.Layout
