import Macniri.Layout.MonitorWorkspaces
import Macniri.Lib.FirstMatch
import Mathlib.Data.Multiset.Basic

/-! The named workspaces of a monitor, and what the operations that name and create workspaces make of
them. -/
namespace Macniri.Layout

open Option List

/-- What a named workspace is known by. -/
structure Tag where
  id : ℕ
  name : String
  layoutConfig : Option LayoutPart
  windowIds : Multiset ℕ
  deriving DecidableEq

namespace Workspace

variable {ws ws' : Workspace}

def tag? (ws : Workspace) : Option Tag :=
  ws.name.map fun name => ⟨ws.id, name, ws.layoutConfig, ws.windowIds⟩

theorem windowIds_reconfigured {viewSize : Size} {area : Rectangle} {scale : ℚ} {options : Options}
    (hscrolling : ws'.scrolling = ws.scrolling.updateConfig viewSize area scale options)
    (hfloating : ws'.floating = ws.floating.updateConfig viewSize area scale options) :
    ws'.windowIds.Perm ws.windowIds := by
  unfold windowIds
  rw [hscrolling, hfloating, FloatingSpace.windowIds_updateConfig]
  exact (ScrollingSpace.perm_updateConfig ..).append_right _

theorem hasWindowsOrName_congr (hname : ws'.name = ws.name) (hids : ws'.windowIds.Perm ws.windowIds) :
    ws'.hasWindowsOrName = ws.hasWindowsOrName := by
  unfold hasWindowsOrName
  rw [hasWindows_congr hids, hname]

@[simp] theorem hasWindowsOrName_updateConfig (options : Options) :
    (ws.updateConfig options).hasWindowsOrName = ws.hasWindowsOrName :=
  hasWindowsOrName_congr rfl (windowIds_reconfigured rfl rfl)

@[simp] theorem tag?_new (id : ℕ) (output : Output) (clock : ℚ) (options : Options) :
    (new id output clock options).tag? = none := rfl

@[simp] theorem hasWindowsOrName_new (id : ℕ) (output : Output) (clock : ℚ) (options : Options) :
    (new id output clock options).hasWindowsOrName = false := rfl

end Workspace

namespace Monitor

open Workspace

variable {m m' mt : Monitor} {i id : ℕ} {ws : Workspace}

def named (m : Monitor) : List Tag := m.workspaces.filterMap tag?

/-- The workspaces at the ends have no windows and no name. -/
structure Tidy (m : Monitor) : Prop where
  pos : 0 < m.workspaces.length
  last : ∀ ws, m.workspaces[m.workspaces.length - 1]? = some ws → ws.hasWindowsOrName = false
  first : m.emptyAboveFirst = true → ∀ ws, m.workspaces[0]? = some ws → ws.hasWindowsOrName = false

theorem tidy_iff : m.Tidy ↔ 0 < m.workspaces.length ∧
    m.workspaces[m.workspaces.length - 1]?.all (!·.hasWindowsOrName) = true ∧
    (m.emptyAboveFirst = true → m.workspaces[0]?.all (!·.hasWindowsOrName) = true) := by
  simp only [Option.all_eq_true, Bool.not_eq_true']
  exact ⟨fun h => ⟨h.pos, h.last, h.first⟩, fun h => ⟨h.1, h.2.1, h.2.2⟩⟩

instance : Decidable m.Tidy := decidable_of_iff _ tidy_iff.symm

/-- What a clean-up does. -/
structure Tidied (m m' : Monitor) : Prop where
  tidy : m'.Tidy
  named : m'.named = m.named
  sublist : m'.workspaces.Sublist m.workspaces
  nextId : m'.nextId = m.nextId

theorem Tidied.refl (h : m.Tidy) : Tidied m m := ⟨h, rfl, .refl _, rfl⟩

theorem Tidied.trans (h : Tidied m mt) (h' : Tidied mt m') : Tidied m m' :=
  ⟨h'.tidy, h'.named.trans h.named, h'.sublist.trans h.sublist, h'.nextId.trans h.nextId⟩

/-- What a section of the config names a new workspace. -/
def sectionTag (id : ℕ) (config : WorkspaceConfig) : Tag := ⟨id, config.name, config.layout, 0⟩

end Monitor

end Macniri.Layout
