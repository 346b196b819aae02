import Macniri.Layout.MonitorSet
import Macniri.Layout.WorkspaceSteps

/-! What holds of every monitor, and what its primitive operations on the list of workspaces keep. -/
namespace Macniri.Layout.Monitor

open List Option

def windowIds (m : Monitor) : List ℕ := (m.workspaces.map Workspace.windowIds).flatten

def ids (m : Monitor) : List ℕ := m.workspaces.map (·.id)

/-- The part of the invariant that also holds between the steps of an operation. -/
structure Core (m : Monitor) : Prop where
  ok : ∀ ws ∈ m.workspaces, ws.Ok
  windows : m.windowIds.Nodup
  active : m.activeWorkspaceIdx < m.workspaces.length
  animation : ∀ anim, m.workspaceSwitch = some (.animation anim) →
    anim.toValue = (m.activeWorkspaceIdx : ℚ)
  gesture : ∀ g, m.workspaceSwitch = some (.gesture g) → g.centerIdx < m.workspaces.length

/-- A workspace as the monitor of an output adds it at the ends of the list. -/
structure OwnEmpty (output : Output) (ws : Workspace) : Prop where
  original : ws.originalOutput = OutputId.new output
  windowIds : ws.windowIds = []

/-- The ends of the list have no windows, except where an operation is still at work. -/
structure EndsExcept (m : Monitor) (skip : ℕ → Prop) : Prop where
  last : ¬ skip (m.workspaces.length - 1) →
    ∀ ws, m.workspaces[m.workspaces.length - 1]? = some ws → OwnEmpty m.output ws
  first : m.emptyAboveFirst = true → ¬ skip 0 → ∀ ws, m.workspaces[0]? = some ws → OwnEmpty m.output ws

def Ends (m : Monitor) : Prop := m.EndsExcept fun _ => False

structure Inv (m : Monitor) : Prop extends m.Core where
  ends : m.Ends

/-- `m'` is the same monitor with the given windows added, and maybe more workspaces. -/
structure Edit (added : List ℕ) (m m' : Monitor) : Prop where
  core : m'.Core
  output : m'.output = m.output
  options : m'.options = m.options
  windowIds : m'.windowIds.Perm (added ++ m.windowIds)
  ids : m.ids.Sublist m'.ids

abbrev Kept : Monitor → Monitor → Prop := Edit []

/-- `m'` is the same monitor with the given windows removed. -/
structure Cut (removed : List ℕ) (m m' : Monitor) : Prop where
  core : m'.Core
  output : m'.output = m.output
  options : m'.options = m.options
  windowIds : m.windowIds.Perm (removed ++ m'.windowIds)
  ids : m'.ids = m.ids

variable {m m' mt : Monitor} {i j : ℕ} {ws ws' : Workspace} {added removed : List ℕ}
variable {skip skip' : ℕ → Prop}

theorem Kept.refl (h : m.Core) : Kept m m := ⟨h, rfl, rfl, .refl _, .refl _⟩

theorem Edit.trans (h : Edit added m mt) (h' : Kept mt m') : Edit added m m' :=
  ⟨h'.core, h'.output.trans h.output, h'.options.trans h.options, h'.windowIds.trans h.windowIds,
    h.ids.trans h'.ids⟩

theorem Kept.edit (h : Kept m mt) (h' : Edit added mt m') : Edit added m m' :=
  ⟨h'.core, h'.output.trans h.output, h'.options.trans h.options,
    h'.windowIds.trans (h.windowIds.append_left added), h.ids.trans h'.ids⟩

/-- The invariant does not depend on the parts of a monitor that are not mentioned. -/
theorem Core.congr (h : m.Core) (hws : m'.workspaces = m.workspaces)
    (hactive : m'.activeWorkspaceIdx = m.activeWorkspaceIdx)
    (hswitch : m'.workspaceSwitch = m.workspaceSwitch ∨ m'.workspaceSwitch = none) : m'.Core := by
  refine ⟨?_, ?_, ?_, fun anim ha => ?_, fun g hg => ?_⟩
  · rw [hws]
    exact h.ok
  · unfold windowIds
    rw [hws]
    exact h.windows
  · rw [hws, hactive]
    exact h.active
  · rw [hactive]
    rcases hswitch with hsame | hnone
    · exact h.animation anim (hsame ▸ ha)
    · simp [hnone] at ha
  · rw [hws]
    rcases hswitch with hsame | hnone
    · exact h.gesture g (hsame ▸ hg)
    · simp [hnone] at hg

theorem EndsExcept.congr (h : m.EndsExcept skip) (hws : m'.workspaces = m.workspaces)
    (hout : m'.output = m.output) (hopt : m'.emptyAboveFirst = m.emptyAboveFirst) :
    m'.EndsExcept skip := by
  refine ⟨fun hs ws hw => ?_, fun he hs ws hw => ?_⟩
  · rw [hws] at hs hw
    exact hout ▸ h.last hs ws hw
  · rw [hws] at hw
    exact hout ▸ h.first (hopt ▸ he) hs ws hw

theorem EndsExcept.mono (h : m.EndsExcept skip)
    (hlast : skip (m.workspaces.length - 1) → skip' (m.workspaces.length - 1))
    (hfirst : m.emptyAboveFirst = true → skip 0 → skip' 0) : m.EndsExcept skip' :=
  ⟨fun hs => h.last (mt hlast hs), fun he hs => h.first he (mt (hfirst he) hs)⟩

theorem EndsExcept.ends (h : m.EndsExcept skip) (hlast : ¬ skip (m.workspaces.length - 1))
    (hfirst : m.emptyAboveFirst = true → ¬ skip 0) : m.Ends :=
  h.mono hlast hfirst

/-! Workspaces that change in place. -/

theorem windowIds_getElem? (hws : m.workspaces[i]? = some ws) :
    (m.workspaces.map Workspace.windowIds)[i]? = some ws.windowIds := by simp [hws]

theorem windowIds_setWorkspace (m : Monitor) (i : ℕ) (ws : Workspace) :
    (m.setWorkspace i ws).windowIds =
      ((m.workspaces.map Workspace.windowIds).set i ws.windowIds).flatten := by
  unfold windowIds setWorkspace
  rw [map_set]

theorem ids_setWorkspace (hws : m.workspaces[i]? = some ws) (hid : ws'.id = ws.id) :
    (m.setWorkspace i ws').ids = m.ids := map_set_of_eq hws hid

theorem core_setWorkspace (h : m.Core) (hok : ws.Ok) (hnodup : (m.setWorkspace i ws).windowIds.Nodup) :
    (m.setWorkspace i ws).Core := by
  have hlen : (m.setWorkspace i ws).workspaces.length = m.workspaces.length := length_set
  refine ⟨fun w hw => ?_, hnodup, ?_, h.animation, fun g hg => ?_⟩
  · rcases mem_of_mem_set hw with rfl | hw
    · exact hok
    · exact h.ok w hw
  · rw [hlen]
    exact h.active
  · rw [hlen]
    exact h.gesture g hg

theorem mem_windowIds_of_workspace (hws : m.workspaces[i]? = some ws) {w : ℕ}
    (hw : w ∈ ws.windowIds) : w ∈ m.windowIds :=
  mem_flatten.mpr ⟨_, List.mem_map_of_mem (mem_of_getElem? hws), hw⟩

theorem flatten_set_perm_append {α : Type} {ls : List (List α)} {x y a : List α}
    (h : ls[i]? = some x) (hy : y.Perm (a ++ x)) : (ls.set i y).flatten.Perm (a ++ ls.flatten) := by
  have h₁ := flatten_set_perm (x := y) (lt_length_of_getElem? h)
  have h₂ := (perm_flatten_eraseIdx h).symm.append_left a
  refine h₁.trans ((hy.append_right _).trans ?_)
  rw [append_assoc]
  exact h₂

theorem cut_setWorkspace (h : m.Core) (hws : m.workspaces[i]? = some ws)
    (hcut : Workspace.Cut removed ws ws') : Cut removed m (m.setWorkspace i ws') := by
  have hperm : m.windowIds.Perm (removed ++ (m.setWorkspace i ws').windowIds) := by
    rw [windowIds_setWorkspace]
    have hi : i < (m.workspaces.map Workspace.windowIds).length := by
      simpa using lt_length_of_getElem? hws
    have hget : ((m.workspaces.map Workspace.windowIds).set i ws'.windowIds)[i]? =
        some ws'.windowIds := getElem?_set_self hi
    have hset := flatten_set_perm_append hget hcut.windowIds
    rw [List.set_set, set_self_of_getElem? (windowIds_getElem? hws)] at hset
    exact hset
  exact ⟨core_setWorkspace h hcut.ok (nodup_append'.mp (hperm.nodup_iff.mp h.windows)).2.1,
    rfl, rfl, hperm, ids_setWorkspace hws hcut.id⟩

/-- A workspace changes in place; at the ends it has no windows before or after. -/
theorem EndsExcept.setWorkspace (h : m.EndsExcept skip) (hws : m.workspaces[i]? = some ws)
    (hkeep : OwnEmpty m.output ws → OwnEmpty m.output ws' ∨ skip i) :
    (m.setWorkspace i ws').EndsExcept skip := by
  have hlen : (m.setWorkspace i ws').workspaces.length = m.workspaces.length := length_set
  have hget (k : ℕ) (w : Workspace) (hs : ¬ skip k)
      (hold : ∀ v, m.workspaces[k]? = some v → OwnEmpty m.output v)
      (hw : (m.setWorkspace i ws').workspaces[k]? = some w) : OwnEmpty m.output w := by
    have hset : (m.workspaces.set i ws')[k]? = some w := hw
    rw [getElem?_set] at hset
    split at hset
    · rename_i hik
      subst hik
      rw [if_pos (lt_length_of_getElem? hws)] at hset
      obtain rfl := some.inj hset
      rcases hkeep (hold ws hws) with hown | hskip
      · exact hown
      · exact absurd hskip hs
    · exact hold w hset
  refine ⟨fun hs w hw => ?_, fun he hs w hw => hget 0 w hs (h.first he hs) hw⟩
  rw [hlen] at hs hw
  exact hget _ w hs (h.last hs) hw

/-! Adding a workspace. -/

/-- How the switch follows an insertion at an index. -/
def shiftSwitch (i : ℕ) (switch : WorkspaceSwitch) : WorkspaceSwitch :=
  if (i : ℚ) ≤ switch.targetIdx then switch.offset 1 else switch

theorem core_insert (h : m.Core) (hi : i ≤ m.workspaces.length) (hok : ws.Ok)
    (hfresh : ∀ w ∈ ws.windowIds, w ∉ m.windowIds)
    (hws : m'.workspaces = m.workspaces.insertIdx i ws)
    (hactive : m'.activeWorkspaceIdx =
      if i ≤ m.activeWorkspaceIdx then m.activeWorkspaceIdx + 1 else m.activeWorkspaceIdx)
    (hswitch : m'.workspaceSwitch = none ∨
      m'.workspaceSwitch = m.workspaceSwitch.map (shiftSwitch i)) :
    m'.Core ∧ m'.windowIds.Perm (ws.windowIds ++ m.windowIds) := by
  have hperm : m'.windowIds.Perm (ws.windowIds ++ m.windowIds) := by
    unfold windowIds
    rw [hws, map_insertIdx]
    exact flatten_insertIdx_perm (by simpa using hi)
  have hlen : m'.workspaces.length = m.workspaces.length + 1 := by
    rw [hws]
    exact length_insertIdx_of_le_length hi ws
  refine ⟨⟨fun w hw => ?_, ?_, ?_, fun anim ha => ?_, fun g hg => ?_⟩, hperm⟩
  · rw [hws] at hw
    rcases eq_or_mem_of_mem_insertIdx hw with rfl | hw
    · exact hok
    · exact h.ok w hw
  · refine hperm.nodup_iff.mpr (nodup_append'.mpr ⟨hok.ids, h.windows, ?_⟩)
    exact fun w hw hw' => hfresh w hw hw'
  · have := h.active
    rw [hactive, hlen]
    split <;> omega
  · rcases hswitch with hnone | hshift
    · simp [hnone] at ha
    · obtain ⟨switch, hs, hsw⟩ := of_map (hshift.symm.trans ha)
      cases switch with
      | animation a =>
        have htarget := h.animation a hs
        have hle : (i : ℚ) ≤ a.toValue ↔ i ≤ m.activeWorkspaceIdx := by
          rw [htarget]
          exact Nat.cast_le
        have htarget' : (WorkspaceSwitch.animation a).targetIdx = a.toValue := rfl
        unfold shiftSwitch at hsw
        rw [hactive]
        split at hsw
        · rename_i hcond
          rw [if_pos (hle.mp hcond)]
          obtain rfl := WorkspaceSwitch.animation.inj hsw
          simp [htarget]
        · rename_i hcond
          rw [if_neg (mt hle.mpr hcond)]
          obtain rfl := WorkspaceSwitch.animation.inj hsw
          exact htarget
      | gesture g =>
        unfold shiftSwitch at hsw
        split at hsw <;> cases hsw
  · rcases hswitch with hnone | hshift
    · simp [hnone] at hg
    · obtain ⟨switch, hs, hsw⟩ := of_map (hshift.symm.trans hg)
      cases switch with
      | animation a =>
        unfold shiftSwitch at hsw
        split at hsw <;> cases hsw
      | gesture g' =>
        have hlt := h.gesture g' hs
        unfold shiftSwitch at hsw
        rw [hlen]
        split at hsw
        · obtain rfl := WorkspaceSwitch.gesture.inj hsw
          dsimp only
          omega
        · obtain rfl := WorkspaceSwitch.gesture.inj hsw
          omega

/-- Where an operation is still at work after an insertion. -/
def skipInserted (i : ℕ) (foreign : Prop) (skip : ℕ → Prop) (j : ℕ) : Prop :=
  (j < i ∧ skip j) ∨ (j = i ∧ foreign) ∨ (i < j ∧ skip (j - 1))

theorem EndsExcept.insert (h : m.EndsExcept skip) (hi : i ≤ m.workspaces.length)
    {foreign : Prop} (hown : ¬ foreign → OwnEmpty m.output ws)
    (hws : m'.workspaces = m.workspaces.insertIdx i ws) (hout : m'.output = m.output)
    (hopt : m'.emptyAboveFirst = m.emptyAboveFirst) :
    m'.EndsExcept (skipInserted i foreign skip) := by
  have hlen : m'.workspaces.length = m.workspaces.length + 1 := by
    rw [hws]
    exact length_insertIdx_of_le_length hi ws
  refine ⟨fun hs w hw => ?_, fun he hs w hw => ?_⟩
  · rw [hlen, Nat.add_sub_cancel] at hs hw
    rw [hout]
    rw [hws] at hw
    rcases Nat.lt_or_eq_of_le hi with hlt | rfl
    · rw [getElem?_insertIdx_of_gt hlt] at hw
      exact h.last (fun hsk => hs (.inr (.inr ⟨hlt, hsk⟩))) w hw
    · rw [getElem?_insertIdx_self, if_pos le_rfl] at hw
      obtain rfl := some.inj hw
      exact hown fun hf => hs (.inr (.inl ⟨rfl, hf⟩))
  · rw [hout]
    rw [hws] at hw
    rcases Nat.eq_zero_or_pos i with rfl | hlt
    · rw [getElem?_insertIdx_self, if_pos hi] at hw
      obtain rfl := some.inj hw
      exact hown fun hf => hs (.inr (.inl ⟨rfl, hf⟩))
    · rw [getElem?_insertIdx_of_lt hlt] at hw
      exact h.first (hopt ▸ he) (fun hsk => hs (.inl ⟨hlt, hsk⟩)) w hw

theorem ownEmpty_new (id : ℕ) (output : Output) (clock : ℚ) (options : Options) :
    OwnEmpty output (Workspace.new id output clock options) := ⟨rfl, rfl⟩

theorem ok_new (id : ℕ) (output : Output) (clock : ℚ) (options : Options) :
    (Workspace.new id output clock options).Ok := ⟨ScrollingSpace.inv_new, nodup_nil⟩

theorem kept_addWorkspaceAt (h : m.Core) (hi : i ≤ m.workspaces.length) :
    Kept m (m.addWorkspaceAt i) := by
  have hfresh : ∀ w ∈ (Workspace.new m.nextId m.output m.clock m.options).windowIds,
      w ∉ m.windowIds := by simp [(ownEmpty_new ..).windowIds]
  have hcore : (m.addWorkspaceAt i).Core ∧ _ := core_insert h hi (ok_new ..) hfresh rfl rfl (.inr rfl)
  exact ⟨hcore.1, rfl, rfl, hcore.2, (sublist_insertIdx ..).map _⟩

theorem EndsExcept.addWorkspaceAt (h : m.EndsExcept skip) (hi : i ≤ m.workspaces.length) :
    (m.addWorkspaceAt i).EndsExcept (skipInserted i False skip) :=
  h.insert hi (fun _ => ownEmpty_new ..) rfl rfl rfl

theorem length_addWorkspaceAt (hi : i ≤ m.workspaces.length) :
    (m.addWorkspaceAt i).workspaces.length = m.workspaces.length + 1 :=
  length_insertIdx_of_le_length hi _

theorem Ends.addWorkspaceAt (h : m.Ends) (hi : i ≤ m.workspaces.length) :
    (m.addWorkspaceAt i).Ends := by
  have hskip (j : ℕ) : ¬ skipInserted i False (fun _ => False) j := by
    rintro (⟨-, hsk⟩ | ⟨-, hsk⟩ | ⟨-, hsk⟩)
    · exact hsk
    · exact hsk
    · exact hsk
  exact (EndsExcept.addWorkspaceAt h hi).ends (hskip _) fun _ => hskip 0

theorem activeIdx_addWorkspaceBottom (h : m.Core) :
    m.addWorkspaceBottom.activeWorkspaceIdx = m.activeWorkspaceIdx :=
  if_neg (Nat.not_le.mpr h.active)

/-- An empty workspace at the bottom, if an operation changed the list down to there. -/
theorem padBottom_spec {lo hi : ℕ} (h : m.Core) (hhi : hi < m.workspaces.length)
    (hends : m.EndsExcept fun j => lo ≤ j ∧ j ≤ hi)
    (hmt : mt = if hi + 1 = m.workspaces.length then m.addWorkspaceBottom else m) :
    Kept m mt ∧ (mt.EndsExcept fun j => j = 0 ∧ lo = 0) ∧ hi + 1 < mt.workspaces.length := by
  subst hmt
  split
  · rename_i hlast
    have hlen := length_addWorkspaceAt (m := m) le_rfl
    unfold addWorkspaceBottom
    rw [hlen]
    refine ⟨kept_addWorkspaceAt h le_rfl, (hends.addWorkspaceAt le_rfl).mono ?_ ?_, by omega⟩
    · rw [hlen]
      rintro (⟨hsk, -⟩ | ⟨-, hsk⟩ | ⟨hsk, -⟩)
      · omega
      · exact hsk.elim
      · omega
    · rintro - (⟨-, hsk, -⟩ | ⟨-, hsk⟩ | ⟨hsk, -⟩)
      · exact ⟨rfl, Nat.le_zero.mp hsk⟩
      · exact hsk.elim
      · omega
  · rename_i hlast
    refine ⟨.refl h, hends.mono (fun hsk => ?_) (fun _ hsk => ⟨rfl, Nat.le_zero.mp hsk.1⟩), by omega⟩
    omega

/-- An empty workspace at the top, if an operation changed the list up to there. -/
theorem padTop_spec {lo : ℕ} (h : m.Core) (hlen : 1 < m.workspaces.length)
    (hends : m.EndsExcept fun j => j = 0 ∧ lo = 0)
    (hmt : mt = if m.emptyAboveFirst ∧ lo = 0 then m.addWorkspaceTop else m) :
    Kept m mt ∧ mt.Ends := by
  subst hmt
  split
  · have hlen' := length_addWorkspaceAt (m := m) (Nat.zero_le _)
    refine ⟨kept_addWorkspaceAt h (Nat.zero_le _),
      (hends.addWorkspaceAt (Nat.zero_le _)).ends ?_ fun _ => ?_⟩
    · rw [hlen']
      rintro (⟨hsk, -⟩ | ⟨-, hsk⟩ | ⟨-, hsk, -⟩)
      · omega
      · exact hsk
      · omega
    · rintro (⟨hsk, -⟩ | ⟨-, hsk⟩ | ⟨hsk, -⟩)
      · omega
      · exact hsk
      · omega
  · rename_i hfirst
    refine ⟨.refl h, hends.ends ?_ fun he hsk => hfirst ⟨he, hsk.2⟩⟩
    rintro ⟨hsk, -⟩
    omega

/-- The ends are in order again after the workspace at an index was filled. -/
theorem padEnds_spec (h : m.Core) (hi : i < m.workspaces.length) (hends : m.EndsExcept (· = i)) :
    Kept m (m.padEnds i).1 ∧ (m.padEnds i).1.Ends ∧
      (m.padEnds i).2 + 1 < (m.padEnds i).1.workspaces.length ∧
      ((m.padEnds i).1.emptyAboveFirst = true → 0 < (m.padEnds i).2) := by
  obtain ⟨mb, hmb⟩ : ∃ mb, mb = if i + 1 = m.workspaces.length then m.addWorkspaceBottom else m :=
    ⟨_, rfl⟩
  have hrange : m.EndsExcept fun j => i ≤ j ∧ j ≤ i :=
    hends.mono (fun hsk => ⟨hsk.ge, hsk.le⟩) fun _ hsk => ⟨hsk.ge, hsk.le⟩
  obtain ⟨hkept, hendsb, hlt⟩ := padBottom_spec h hi hrange hmb
  obtain ⟨hkept', hends'⟩ := padTop_spec hkept.core (by omega) hendsb rfl
  unfold padEnds
  rw [← hmb]
  dsimp only
  split
  · rename_i hfirst
    rw [if_pos hfirst] at hkept' hends'
    refine ⟨hkept.trans hkept', hends', ?_, fun _ => Nat.succ_pos i⟩
    dsimp only
    unfold addWorkspaceTop
    rw [length_addWorkspaceAt (Nat.zero_le _)]
    omega
  · rename_i hfirst
    rw [if_neg hfirst] at hkept' hends'
    exact ⟨hkept, hends', hlt, fun he => Nat.pos_of_ne_zero fun h0 => hfirst ⟨he, h0⟩⟩

/-! Activating a workspace. -/

theorem switchTo_spec (h : m.Core) (hi : i < m.workspaces.length) {switch : WorkspaceSwitch}
    (hs : m.switchTo i = some switch) :
    (∀ anim, switch = .animation anim → anim.toValue = (i : ℚ)) ∧
      ∀ g, switch = .gesture g → g.centerIdx < m.workspaces.length := by
  unfold switchTo at hs
  split at hs
  · obtain rfl := some.inj hs
    refine ⟨fun _ ha => by simp at ha, fun g hg => ?_⟩
    obtain rfl := WorkspaceSwitch.gesture.inj hg
    exact hi
  · split at hs
    · rename_i hsame
      refine ⟨fun anim ha => ?_, fun g hg => h.gesture g (hg ▸ hs)⟩
      rw [← hsame]
      exact h.animation anim (ha ▸ hs)
    · obtain rfl := some.inj hs
      refine ⟨fun anim ha => ?_, fun _ hg => by simp at hg⟩
      obtain rfl := WorkspaceSwitch.animation.inj ha
      rfl

/-- `m'` shows the same workspaces, maybe at another index. -/
structure Shown (m m' : Monitor) : Prop where
  core : m'.Core
  workspaces : m'.workspaces = m.workspaces
  output : m'.output = m.output
  options : m'.options = m.options

theorem Shown.kept (h : Shown m m') : Kept m m' := by
  refine ⟨h.core, h.output, h.options, .of_eq ?_, ?_⟩
  · unfold windowIds
    rw [h.workspaces]
    rfl
  · unfold ids
    rw [h.workspaces]

theorem Shown.ends (h : Shown m m') (hends : m.EndsExcept skip) : m'.EndsExcept skip :=
  hends.congr h.workspaces h.output (congrArg Options.emptyWorkspaceAboveFirst h.options)

theorem Shown.refl (h : m.Core) : Shown m m := ⟨h, rfl, rfl, rfl⟩

theorem Shown.inv (h : Shown m m') (hinv : m.Inv) : m'.Inv := ⟨h.core, h.ends hinv.ends⟩

theorem shown_activateWorkspace (h : m.Core) (hi : i < m.workspaces.length)
    (hm : m.activateWorkspace i = some m') : Shown m m' := by
  obtain ⟨active, -, rfl⟩ := of_bind_some hm
  refine ⟨⟨h.ok, h.windows, hi, fun anim ha => ?_, fun g hg => ?_⟩, rfl, rfl, rfl⟩
  · exact (switchTo_spec h hi ha).1 anim rfl
  · exact (switchTo_spec h hi hg).2 g rfl

theorem shown_activateIf (h : m.Core) (hi : i < m.workspaces.length) {activate : Bool}
    (hm : m.activateIf activate i = some m') : Shown m m' := by
  unfold activateIf at hm
  split at hm
  · exact shown_activateWorkspace h hi hm
  · exact some.inj hm ▸ .refl h

/-! Cleaning up. -/

/-- `m'` has the same windows, on fewer workspaces in another order, and no switch. -/
structure Settled (m m' : Monitor) : Prop where
  inv : m'.Inv
  output : m'.output = m.output
  options : m'.options = m.options
  windowIds : m'.windowIds.Perm m.windowIds
  switch : m'.workspaceSwitch = none

theorem Settled.refl (h : m.Inv) (hswitch : m.workspaceSwitch = none) : Settled m m :=
  ⟨h, rfl, rfl, .refl _, hswitch⟩

theorem Settled.trans (h : Settled m mt) (h' : Settled mt m') : Settled m m' :=
  ⟨h'.inv, h'.output.trans h.output, h'.options.trans h.options, h'.windowIds.trans h.windowIds,
    h'.switch⟩

theorem windowIds_eq_nil_of_not_hasWindowsOrName (h : ws.hasWindowsOrName = false) :
    ws.windowIds = [] := by
  have hno : ws.hasWindows = false := (Bool.or_eq_false_iff.mp h).1
  by_contra hne
  rw [Workspace.hasWindows_iff.mpr hne] at hno
  cases hno

/-- Taking out a workspace while there is no switch. -/
theorem core_erase (h : m.Core) (hws : m.workspaces[i]? = some ws)
    (hworkspaces : m'.workspaces = m.workspaces.eraseIdx i)
    (hactive : m'.activeWorkspaceIdx + 1 < m.workspaces.length)
    (hswitch : m'.workspaceSwitch = none) :
    m'.Core ∧ m.windowIds.Perm (ws.windowIds ++ m'.windowIds) := by
  have hperm : m.windowIds.Perm (ws.windowIds ++ m'.windowIds) := by
    have herase := perm_flatten_eraseIdx (windowIds_getElem? hws)
    rw [eraseIdx_map, ← hworkspaces] at herase
    exact herase
  have hlen : m'.workspaces.length = m.workspaces.length - 1 := by
    rw [hworkspaces]
    exact length_eraseIdx_of_lt (lt_length_of_getElem? hws)
  have hnodup := (nodup_append'.mp (hperm.nodup_iff.mp h.windows)).2.1
  refine ⟨⟨fun w hw => ?_, hnodup, by omega, ?_, ?_⟩, hperm⟩
  · rw [hworkspaces] at hw
    exact h.ok w (mem_of_mem_eraseIdx hw)
  · intro anim ha
    simp [hswitch] at ha
  · intro g hg
    simp [hswitch] at hg

/-- The ends stay when a workspace between them is taken out. -/
theorem EndsExcept.erase (h : m.Ends) (hi : i + 1 < m.workspaces.length)
    (hfirst : m.emptyAboveFirst = true → 0 < i) (hworkspaces : m'.workspaces = m.workspaces.eraseIdx i)
    (hout : m'.output = m.output) (hopt : m'.emptyAboveFirst = m.emptyAboveFirst) : m'.Ends := by
  have hlen : m'.workspaces.length = m.workspaces.length - 1 := by
    rw [hworkspaces]
    exact length_eraseIdx_of_lt (by omega)
  refine ⟨fun hs w hw => ?_, fun he hs w hw => ?_⟩
  · rw [hlen, hworkspaces, getElem?_eraseIdx_of_ge (by omega)] at hw
    rw [hout]
    refine h.last hs w ?_
    rwa [show m.workspaces.length - 1 - 1 + 1 = m.workspaces.length - 1 by omega] at hw
  · rw [hopt] at he
    rw [hworkspaces, getElem?_eraseIdx_of_lt (hfirst he)] at hw
    rw [hout]
    exact h.first he hs w hw

theorem settled_removeInactiveAt (h : m.Inv) (hswitch : m.workspaceSwitch = none)
    (hi : i + 1 < m.workspaces.length) (hfirst : m.emptyAboveFirst = true → 0 < i)
    (hunused : m.isUnused i = true) : Settled m (m.removeInactiveAt i) := by
  obtain ⟨hne, hunused⟩ := Bool.and_eq_true_iff.mp hunused
  obtain ⟨ws, hws, hempty⟩ := (Option.any_eq_true ..).mp hunused
  have hempty : ws.windowIds = [] := windowIds_eq_nil_of_not_hasWindowsOrName (by simpa using hempty)
  have hactive : (m.removeInactiveAt i).activeWorkspaceIdx + 1 < m.workspaces.length := by
    have := h.active
    have hne : m.activeWorkspaceIdx ≠ i := by simpa using hne
    unfold removeInactiveAt
    dsimp only
    split <;> omega
  obtain ⟨hcore, hperm⟩ := core_erase h.toCore hws rfl hactive hswitch
  rw [hempty] at hperm
  exact ⟨⟨hcore, EndsExcept.erase h.ends hi hfirst rfl rfl rfl⟩, rfl, rfl, hperm.symm, hswitch⟩

/-- The clean-up stays below the last workspace. -/
theorem settled_cleanUpBelow (start n : ℕ) (m : Monitor) (h : m.Inv)
    (hswitch : m.workspaceSwitch = none) (hn : n < m.workspaces.length)
    (hstart : m.emptyAboveFirst = true → 0 < start) : Settled m (m.cleanUpBelow start n) := by
  induction n generalizing m with
  | zero => exact .refl h hswitch
  | succ i ih =>
    unfold cleanUpBelow
    split
    · exact .refl h hswitch
    · rename_i hge
      split
      · rename_i hunused
        have hremoved := settled_removeInactiveAt h hswitch hn
          (fun he => (hstart he).trans_le (Nat.le_of_not_lt hge)) hunused
        refine hremoved.trans (ih _ hremoved.inv hremoved.switch ?_ hstart)
        unfold removeInactiveAt
        dsimp only
        rw [length_eraseIdx_of_lt (by omega)]
        omega
      · exact ih m h hswitch (by omega) hstart

theorem settled_dropSecondEmpty (h : m.Inv) (hswitch : m.workspaceSwitch = none)
    (hm : m.dropSecondEmpty = some m') : Settled m m' := by
  unfold dropSecondEmpty at hm
  split at hm
  · rename_i htwo
    split at hm
    · cases hm
    · rename_i hnone
      obtain rfl := some.inj hm
      have hlt : 1 < m.workspaces.length := by omega
      have hget := getElem?_eq_getElem hlt
      have hempty : (m.workspaces[1]).windowIds = [] := by
        apply windowIds_eq_nil_of_not_hasWindowsOrName
        have hall := (List.any_eq_false.mp (Bool.eq_false_iff.mpr hnone)) _ (getElem_mem hlt)
        simpa using hall
      obtain ⟨hcore, hperm⟩ : Core { m with
          workspaces := m.workspaces.eraseIdx 1, activeWorkspaceIdx := 0 } ∧ _ :=
        core_erase h.toCore hget rfl (by omega) hswitch
      rw [hempty] at hperm
      refine ⟨⟨hcore, ?_⟩, rfl, rfl, hperm.symm, hswitch⟩
      -- The one that is left is the one above the first.
      have hlen : (m.workspaces.eraseIdx 1).length = 1 := by
        rw [length_eraseIdx_of_lt hlt]
        omega
      have hfirst (w : Workspace) (hw : (m.workspaces.eraseIdx 1)[0]? = some w) :
          OwnEmpty m.output w := by
        rw [getElem?_eraseIdx_of_lt Nat.zero_lt_one] at hw
        exact h.ends.first htwo.1 id w hw
      refine ⟨fun _ w hw => ?_, fun _ _ w hw => hfirst w hw⟩
      dsimp only at hw
      rw [hlen] at hw
      exact hfirst w hw
  · exact some.inj hm ▸ .refl h hswitch

theorem settled_cleanUpWorkspaces (h : m.Inv) (hm : m.cleanUpWorkspaces = some m') :
    Settled m m' := by
  unfold cleanUpWorkspaces at hm
  split at hm
  · cases hm
  · rename_i hcond
    rw [not_or] at hcond
    have hswitch : m.workspaceSwitch = none := not_isSome_iff_eq_none.mp hcond.1
    have hactive := h.active
    have hbelow := settled_cleanUpBelow (if m.emptyAboveFirst then 1 else 0)
      (m.workspaces.length - 1) m h hswitch (by omega) (fun he => by simp [he])
    exact hbelow.trans (settled_dropSecondEmpty hbelow.inv hbelow.switch hm)

theorem Inv.setSwitchNone (h : m.Inv) : Inv { m with workspaceSwitch := none } :=
  ⟨h.toCore.congr rfl rfl (.inr rfl), h.ends.congr rfl rfl rfl⟩

theorem settled_stopSwitch (hm : m.stopSwitch = some m')
    (h : Inv { m with workspaceSwitch := none }) : Settled m m' :=
  have hsettled := settled_cleanUpWorkspaces h hm
  ⟨hsettled.inv, hsettled.output, hsettled.options, hsettled.windowIds, hsettled.switch⟩

/-- `m'` is the same monitor with windows added and removed. Only without a switch, workspaces may
be gone or in another order. -/
structure Effect (added removed : List ℕ) (m m' : Monitor) : Prop where
  inv : m'.Inv
  windowIds : (removed ++ m'.windowIds).Perm (added ++ m.windowIds)
  order : m.ids.Sublist m'.ids ∨ m'.workspaceSwitch = none

theorem Edit.effect (h : Edit added m m') (hends : m'.Ends) : Effect added [] m m' :=
  ⟨⟨h.core, hends⟩, h.windowIds, .inl h.ids⟩

theorem Shown.effect (h : Shown m m') (hinv : m.Inv) : Effect [] [] m m' :=
  h.kept.effect (h.ends hinv.ends)

theorem Settled.effect (h : Settled m m') : Effect [] [] m m' :=
  ⟨h.inv, h.windowIds, .inr h.switch⟩

theorem Effect.refl (h : m.Inv) : Effect [] [] m m := (Shown.refl h.toCore).effect h

theorem Effect.settled (h : Effect added removed m mt) (h' : Settled mt m') :
    Effect added removed m m' :=
  ⟨h'.inv, (h'.windowIds.append_left removed).trans h.windowIds, .inr h'.switch⟩

theorem Effect.cleanUp (h : Effect added removed m mt) (hm : mt.cleanUpUnlessSwitching = some m') :
    Effect added removed m m' := by
  unfold cleanUpUnlessSwitching at hm
  split at hm
  · exact h.settled (settled_cleanUpWorkspaces h.inv hm)
  · exact some.inj hm ▸ h

end Macniri.Layout.Monitor
