import Macniri.Layout.SoundRun

/-! What the layout checks of its monitors and workspaces, in every state that is reached. -/
namespace Macniri.Layout

/-- The checks of `Workspace::verify_invariants` that are about the two spaces. -/
structure Workspace.Checked (ws : Workspace) : Prop where
  scrolling : ws.scrolling.RepInvariant
  floating : ws.floating.windowIds = [] ↔ ws.floating.activeWindowId = none
  active : ∀ id, ws.floating.activeWindowId = some id → ws.floating.hasWindow id = true
  noFloating : ws.floating.windowIds = [] → ws.floatingIsActive ≠ .yes
  noScrolling : ws.scrolling.columns = [] → ws.floating.windowIds ≠ [] → ws.floatingIsActive = .yes

/-- The checks of `Monitor::verify_invariants` that are about windows and the switch. -/
structure Monitor.Checked (m : Monitor) : Prop where
  active : m.activeWorkspaceIdx < m.workspaces.length
  switch : ∀ anim, m.workspaceSwitch = some (.animation anim) →
    ∃ i < m.workspaces.length, anim.toValue = (i : ℚ)
  last : ∀ ws, m.workspaces.getLast? = some ws → ws.windowIds = []
  first : m.emptyAboveFirst = true → ∀ ws, m.workspaces.head? = some ws → ws.windowIds = []

theorem Workspace.Focus.checked {ws : Workspace} (h : ws.Focus) : ws.Checked where
  scrolling := h.ok.scrolling.repInvariant
  floating := by
    constructor
    · intro hnil
      refine Option.eq_none_iff_forall_ne_some.mpr fun id hid => ?_
      exact List.ne_nil_of_mem (h.active.mem id hid) hnil
    · intro hnone
      by_contra hne
      exact absurd hnone (Option.isSome_iff_ne_none.mp (h.active.isSome hne))
  active id hid := FloatingSpace.mem_windowIds_iff.mp (h.active.mem id hid)
  noFloating hnil hyes := h.floating hyes hnil
  noScrolling hnil hne := h.scrolling hne ((ScrollingSpace.columns_eq_nil_iff h.ok.scrolling).mp hnil)

theorem Monitor.Sound.checked {m : Monitor} (h : m.Sound) : m.Checked where
  active := h.inv.active
  switch anim hanim := ⟨m.activeWorkspaceIdx, h.inv.active, h.inv.animation anim hanim⟩
  last ws hws := (h.inv.ends.last not_false ws (List.getLast?_eq_getElem? ▸ hws)).windowIds
  first habove ws hws := (h.inv.ends.first habove not_false ws (List.head?_eq_getElem? ▸ hws)).windowIds

variable {l : Layout}

theorem Intact.checked (h : l.Intact) : ∀ ws ∈ l.workspaces, ws.Checked := by
  intro ws hws
  unfold workspaces at hws
  have hparts := h.parts
  cases hset : l.monitorSet with
  | normal monitors primaryIdx activeMonitorIdx =>
    rw [hset] at hws hparts
    obtain ⟨m, hm, hws⟩ := List.mem_flatMap.mp hws
    exact ((hparts.1 m hm).focused ws hws).checked
  | noOutputs workspaces =>
    rw [hset] at hws hparts
    exact (hparts ws hws).checked

/-- The checks hold in every state that is reached, and no window is in two places. -/
theorem checks_hold {clock : ℚ} {config : Config} {ops : List LayoutOp}
    (hfair : AllAlong apply (fun l op => op.Fair l) (new clock config) ops)
    (hl : run apply (new clock config) ops = some l) :
    (∀ m ∈ l.monitors, m.Checked) ∧ (∀ ws ∈ l.workspaces, ws.Checked) ∧ l.windowIds.Nodup := by
  have h := sound_run hfair hl
  exact ⟨fun m hm => (h.monitors m hm).checked, h.checked, h.windows⟩

theorem checks_hold_spread : ∃ l, run apply (new 0 ⟨[], .default⟩) spread = some l ∧
    l.monitors.map (·.workspaces.map (·.windowIds)) = [[[2], [1], []]] ∧ ∀ m ∈ l.monitors, m.Checked := by
  have hrun : (run apply (new 0 ⟨[], .default⟩) spread).any (fun l =>
      l.monitors.map (·.workspaces.map (·.windowIds)) == [[[2], [1], []]]) = true := by decide +kernel
  obtain ⟨l, hl, hids⟩ := (Option.any_eq_true _ _).mp hrun
  have hchecks := checks_hold (allAlong_of_decide (by decide +kernel)) hl
  exact ⟨l, hl, beq_iff_eq.mp hids, hchecks.1⟩

end Macniri.Layout
