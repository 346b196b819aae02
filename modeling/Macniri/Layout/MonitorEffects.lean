import Macniri.Layout.MonitorWindows
import Macniri.Layout.Ops

/-! What the other operations of a monitor keep: switching, names, moves of workspaces, config and
time. -/
namespace Macniri.Layout.Monitor

open Option List

variable {m m' mt : Monitor} {i j : ℕ} {ws ws' : Workspace} {added removed : List ℕ}

/-! Switching. -/

theorem clamp_le {x lo hi : ℚ} (h : lo ≤ hi) : clamp x lo hi ≤ hi := by
  unfold clamp
  split
  · exact h
  · split
    · exact le_rfl
    · rename_i hhi
      exact not_lt.mp hhi

theorem clampIdx_lt (h : m.Core) (x : ℚ) : m.clampIdx x < m.workspaces.length := by
  have hactive := h.active
  have hle : clamp x 0 (m.workspaces.length - 1 : ℕ) ≤ (m.workspaces.length - 1 : ℕ) :=
    clamp_le (Nat.cast_nonneg _)
  have hfloor : ⌊clamp x 0 (m.workspaces.length - 1 : ℕ)⌋ ≤ (m.workspaces.length - 1 : ℕ) := by
    have := Int.floor_le_floor hle
    rwa [Int.floor_natCast] at this
  unfold clampIdx
  omega

theorem shown_switchWorkspaceUp (h : m.Core) (hm : m.switchWorkspaceUp = some m') : Shown m m' := by
  refine shown_activateWorkspace h ?_ hm
  have hactive := h.active
  split
  · exact clampIdx_lt h _
  · omega

theorem shown_switchWorkspaceDown (h : m.Core) (hm : m.switchWorkspaceDown = some m') :
    Shown m m' := by
  refine shown_activateWorkspace h ?_ hm
  have hactive := h.active
  split
  · exact clampIdx_lt h _
  · omega

theorem shown_switchWorkspace (h : m.Core) (hm : m.switchWorkspace i = some m') : Shown m m' := by
  have hactive := h.active
  exact shown_activateWorkspace h (by omega) hm

theorem shown_switchWorkspacePrevious (h : m.Core) (hm : m.switchWorkspacePrevious = some m') :
    Shown m m' := by
  unfold switchWorkspacePrevious at hm
  split at hm
  · exact shown_switchWorkspace h hm
  · exact some.inj hm ▸ .refl h

theorem shown_switchWorkspaceAutoBackAndForth (h : m.Core)
    (hm : m.switchWorkspaceAutoBackAndForth i = some m') : Shown m m' := by
  unfold switchWorkspaceAutoBackAndForth at hm
  split at hm
  · exact shown_switchWorkspacePrevious h hm
  · exact shown_switchWorkspace h hm

theorem effect_focusWindowOrWorkspaceDown (h : m.Inv)
    (hm : m.focusWindowOrWorkspaceDown = some m') : Effect [] [] m m' :=
  effect_moveOr (f := Workspace.focusDown) (g := switchWorkspaceDown) h
    (fun _ _ _ hws => Workspace.kept_focusDown hws)
    (fun _ hmt hm => (shown_switchWorkspaceDown hmt.toCore hm).effect hmt) hm

theorem effect_focusWindowOrWorkspaceUp (h : m.Inv) (hm : m.focusWindowOrWorkspaceUp = some m') :
    Effect [] [] m m' :=
  effect_moveOr (f := Workspace.focusUp) (g := switchWorkspaceUp) h
    (fun _ _ _ hws => Workspace.kept_focusUp hws)
    (fun _ hmt hm => (shown_switchWorkspaceUp hmt.toCore hm).effect hmt) hm

/-! Gestures. -/

/-- A gesture around a workspace of the list. -/
theorem shown_gesture (h : m.Core) {g : WorkspaceSwitchGesture}
    (hg : g.centerIdx < m.workspaces.length) :
    Shown m { m with workspaceSwitch := some (.gesture g) } := by
  refine ⟨⟨h.ok, h.windows, h.active, fun _ ha => by simp at ha, fun g' hg' => ?_⟩, rfl, rfl, rfl⟩
  obtain rfl := WorkspaceSwitch.gesture.inj (some.inj hg')
  exact hg

theorem shown_workspaceSwitchGestureBegin (h : m.Core) (isTouchpad : Bool) :
    Shown m (m.workspaceSwitchGestureBegin isTouchpad) := shown_gesture h h.active

theorem shown_dndScrollGestureBegin (h : m.Core) : Shown m m.dndScrollGestureBegin := by
  unfold dndScrollGestureBegin
  split
  · exact .refl h
  · exact shown_gesture h h.active

theorem centerIdx_updateGesture {g g' : WorkspaceSwitchGesture} {deltaY timestamp : ℚ}
    (h : m.updateGesture g deltaY timestamp = some g') : g'.centerIdx = g.centerIdx := by
  unfold updateGesture at h
  dsimp only at h
  split at h
  · cases h
  · exact (some.inj h) ▸ rfl

theorem shown_workspaceSwitchGestureUpdate (h : m.Core) {deltaY timestamp : ℚ} {isTouchpad : Bool}
    (hm : m.workspaceSwitchGestureUpdate deltaY timestamp isTouchpad = some m') : Shown m m' := by
  unfold workspaceSwitchGestureUpdate at hm
  split at hm
  · rename_i g hswitch
    split at hm
    · obtain ⟨g', hg', rfl⟩ := of_map hm
      exact shown_gesture h (centerIdx_updateGesture hg' ▸ h.gesture g hswitch)
    · exact some.inj hm ▸ .refl h
  · exact some.inj hm ▸ .refl h

theorem shown_dndScrollGestureScroll (h : m.Core) {delta : ℚ} {b : Bool}
    (hm : m.dndScrollGestureScroll delta = some (b, m')) : Shown m m' := by
  unfold dndScrollGestureScroll at hm
  split at hm
  · rename_i g hswitch
    have hcenter := h.gesture g hswitch
    split at hm
    · exact (pair_inj hm).2 ▸ .refl h
    · dsimp only at hm
      split at hm
      · exact (pair_inj hm).2 ▸ shown_gesture h hcenter
      · split at hm
        · exact (pair_inj hm).2 ▸ shown_gesture h hcenter
        · split at hm
          · cases hm
          · exact (pair_inj hm).2 ▸ shown_gesture h hcenter
  · exact (pair_inj hm).2 ▸ .refl h

theorem floor_round_le {x : ℚ} {n : ℕ} (h : x ≤ n) : ⌊round x⌋.toNat ≤ n := by
  have hround : ⌊round x⌋ ≤ n := by
    unfold round
    split
    · rw [Int.floor_intCast]
      refine Int.lt_add_one_iff.mp (Int.floor_lt.mpr ?_)
      push_cast
      linarith
    · rename_i hneg
      rw [← Int.cast_neg, Int.floor_intCast]
      have : 0 ≤ ⌊-x + 1 / 2⌋ := Int.floor_nonneg.mpr (by linarith)
      omega
  omega

theorem gestureEndIdx_lt (h : m.Core) {g : WorkspaceSwitchGesture}
    (hg : m.gestureEndIdx g = some i) : i < m.workspaces.length := by
  have hactive := h.active
  unfold gestureEndIdx at hg
  dsimp only at hg
  split at hg
  · cases hg
  · rename_i hle
    obtain rfl := some.inj hg
    have hhi : (g.minMax m.workspaces.length).2 ≤ (m.workspaces.length - 1 : ℕ) := by
      unfold WorkspaceSwitchGesture.minMax
      split
      · exact Nat.cast_le.mpr (Nat.min_le_right ..)
      · exact le_rfl
    exact (floor_round_le ((clamp_le (not_lt.mp hle)).trans hhi)).trans_lt (by omega)

theorem shown_endGesture (h : m.Core) {g : WorkspaceSwitchGesture}
    (hm : m.endGesture g = some m') : Shown m m' := by
  obtain ⟨idx, hidx, hm⟩ := of_bind hm
  obtain ⟨active, -, hm⟩ := of_bind hm
  have hlt := gestureEndIdx_lt h hidx
  obtain rfl := some.inj hm
  refine ⟨⟨h.ok, h.windows, hlt, fun anim ha => ?_, fun _ hg => by simp at hg⟩, rfl, rfl,
    rfl⟩
  obtain rfl := WorkspaceSwitch.animation.inj (some.inj ha)
  rfl

theorem shown_workspaceSwitchGestureEnd (h : m.Core) {isTouchpad : Option Bool}
    (hm : m.workspaceSwitchGestureEnd isTouchpad = some m') : Shown m m' := by
  unfold workspaceSwitchGestureEnd at hm
  split at hm
  · split at hm
    · exact shown_endGesture h hm
    · exact some.inj hm ▸ .refl h
  · exact some.inj hm ▸ .refl h

theorem shown_dndScrollGestureEnd (h : m.Core) (hm : m.dndScrollGestureEnd = some m') :
    Shown m m' := by
  unfold dndScrollGestureEnd at hm
  split at hm
  · exact shown_workspaceSwitchGestureEnd h hm
  · exact some.inj hm ▸ .refl h

/-! Changes to every workspace. -/

theorem ids_of_forall₂ (hws : Forall₂ Workspace.Kept m.workspaces m'.workspaces) :
    m'.ids = m.ids :=
  Forall₂.map_eq hws fun _ _ h => h.id

theorem windowIds_of_forall₂ (hws : Forall₂ Workspace.Kept m.workspaces m'.workspaces) :
    m'.windowIds.Perm m.windowIds := by
  refine (Forall₂.flatten_perm ?_).symm
  rw [forall₂_map_left_iff, forall₂_map_right_iff]
  exact hws.imp fun _ _ h => h.windowIds.symm

theorem core_of_forall₂ (h : m.Core) (hws : Forall₂ Workspace.Kept m.workspaces m'.workspaces)
    (hactive : m'.activeWorkspaceIdx = m.activeWorkspaceIdx)
    (hanim : ∀ anim, m'.workspaceSwitch = some (.animation anim) →
      anim.toValue = (m.activeWorkspaceIdx : ℚ))
    (hgesture : ∀ g, m'.workspaceSwitch = some (.gesture g) → g.centerIdx < m.workspaces.length) :
    m'.Core := by
  have hlen := hws.length_eq
  refine ⟨Forall₂.forall_mem hws (fun _ _ hkept _ => hkept.ok) h.ok, ?_, ?_, ?_, ?_⟩
  · exact (windowIds_of_forall₂ hws).nodup_iff.mpr h.windows
  · rw [hactive, ← hlen]
    exact h.active
  · rw [hactive]
    exact hanim
  · rw [← hlen]
    exact hgesture

/-- The workspace at an end is still this output's own, and empty. -/
theorem ownEmpty_of_forall₂ (hws : Forall₂ Workspace.Kept m.workspaces m'.workspaces)
    (hout : OutputId.new m'.output = OutputId.new m.output)
    (h : ∀ ws, m.workspaces[i]? = some ws → OwnEmpty m.output ws) :
    ∀ ws, m'.workspaces[i]? = some ws → OwnEmpty m'.output ws := by
  intro ws' hws'
  obtain ⟨ws, hget, hkept⟩ : ∃ ws, m.workspaces[i]? = some ws ∧ Workspace.Kept ws ws' := by
    have hlt : i < m.workspaces.length := hws.length_eq ▸ lt_length_of_getElem? hws'
    refine ⟨_, getElem?_eq_getElem hlt, ?_⟩
    obtain ⟨wt, hwt, hkept⟩ := Forall₂.getElem? hws (getElem?_eq_getElem hlt)
    exact some.inj (hwt.symm.trans hws') ▸ hkept
  have hown := h ws hget
  have hperm := hkept.windowIds
  rw [hown.windowIds] at hperm
  exact ⟨(hkept.originalOutput.trans hown.original).trans hout.symm, perm_nil.mp hperm⟩

theorem effect_of_forall₂ (h : m.Inv) (hws : Forall₂ Workspace.Kept m.workspaces m'.workspaces)
    (hcore : m'.Core) (hout : OutputId.new m'.output = OutputId.new m.output)
    (hopt : m'.emptyAboveFirst = m.emptyAboveFirst) : Effect [] [] m m' := by
  refine ⟨⟨hcore, ⟨fun hs => ?_, fun he hs => ?_⟩⟩, windowIds_of_forall₂ hws,
    .inl (ids_of_forall₂ hws ▸ .refl _)⟩
  · rw [← hws.length_eq]
    exact ownEmpty_of_forall₂ hws hout (h.ends.last hs)
  · exact ownEmpty_of_forall₂ hws hout (h.ends.first (hopt ▸ he) hs)

theorem effect_updateOutputSize (h : m.Inv) {output : Output}
    (hout : OutputId.new output = OutputId.new m.output) :
    Effect [] [] m (m.updateOutputSize output) := by
  have hws : Forall₂ Workspace.Kept m.workspaces (m.updateOutputSize output).workspaces := by
    refine forall₂_map fun ws hws => ?_
    have hok := h.ok ws hws
    have hkept := Workspace.kept_updateOutputSize
      (show Workspace.Ok { ws with output := some output } from ⟨hok.scrolling, hok.ids⟩)
    exact ⟨hkept.ok, hkept.id, hkept.name, hkept.originalOutput, hkept.windowIds⟩
  exact effect_of_forall₂ h hws (core_of_forall₂ h.toCore hws rfl h.animation h.gesture) hout rfl

/-- The overview opens or closes. -/
theorem shown_setOverviewProgress (h : m.Core) (overviewOpen : Bool) (progress : Option ℚ) :
    Shown m (setOverviewProgress { m with overviewOpen := overviewOpen } progress) := by
  refine ⟨⟨h.ok, h.windows, h.active, fun anim ha => ?_, fun g hg => ?_⟩, rfl, rfl, rfl⟩
  · unfold setOverviewProgress at ha
    dsimp only at ha
    split at ha
    · rename_i anim' hanim
      obtain rfl := WorkspaceSwitch.animation.inj (some.inj ha)
      exact h.animation anim' hanim
    · exact h.animation anim ha
  · unfold setOverviewProgress at hg
    dsimp only at hg
    split at hg
    · simp at hg
    · exact h.gesture g hg

theorem effect_setClock (h : m.Inv) (now : ℚ) (anim : AnimationState) :
    Effect [] [] m (m.setClock now anim) := by
  have hws : Forall₂ Workspace.Kept m.workspaces (m.setClock now anim).workspaces :=
    forall₂_map fun ws hws =>
      have hset : ws.applyUpdate (.setClock now (anim.workspaces ws.id)) = some _ := rfl
      Workspace.kept_applyUpdate (h.ok ws hws) hset
  refine effect_of_forall₂ h hws (core_of_forall₂ h.toCore hws rfl (fun a ha => ?_) fun g hg => ?_)
    rfl rfl
  · obtain ⟨switch, hs, heq⟩ := of_map ha
    cases switch with
    | animation a' =>
      obtain rfl := WorkspaceSwitch.animation.inj heq
      exact h.animation a' hs
    | gesture g => simp at heq
  · obtain ⟨switch, hs, heq⟩ := of_map hg
    cases switch with
    | animation a => simp at heq
    | gesture g' =>
      obtain rfl := WorkspaceSwitch.gesture.inj heq
      exact h.gesture g' hs

theorem centerIdx_advanceGesture (g : WorkspaceSwitchGesture) (done : Bool) :
    (m.advanceGesture g done).centerIdx = g.centerIdx := by
  unfold advanceGesture
  dsimp only
  split <;> rfl

theorem effect_advanceSwitch (h : m.Inv) {done : Bool} (hm : m.advanceSwitch done = some m') :
    Effect [] [] m m' := by
  unfold advanceSwitch at hm
  split at hm
  · split at hm
    · exact (settled_stopSwitch hm h.setSwitchNone).effect
    · exact some.inj hm ▸ .refl h
  · rename_i g hswitch
    obtain rfl := some.inj hm
    have hcenter : (m.advanceGesture g done).centerIdx < m.workspaces.length :=
      centerIdx_advanceGesture g done ▸ h.gesture g hswitch
    exact (shown_gesture h.toCore hcenter).effect h
  · exact some.inj hm ▸ .refl h

/-- What changes no index and no order can follow anything. -/
theorem Effect.pointwise (h : Effect added removed m mt) (h' : Effect [] [] mt m')
    (hids : m'.ids = mt.ids) (hswitch : m'.workspaceSwitch = mt.workspaceSwitch) :
    Effect added removed m m' :=
  ⟨h'.inv, (h'.windowIds.append_left removed).trans h.windowIds, hids ▸ hswitch ▸ h.order⟩

theorem effect_advanceAnimations (h : m.Inv) {anim : AnimationState}
    (hm : m.advanceAnimations anim = some m') : Effect [] [] m m' := by
  obtain ⟨mt, hmt, rfl⟩ := of_bind_some hm
  have heffect := effect_advanceSwitch h hmt
  have hinv := heffect.inv
  have hws : Forall₂ Workspace.Kept mt.workspaces
      (mt.workspaces.map fun ws => ws.advanceAnimations (anim.workspaces ws.id)) :=
    forall₂_map fun ws hws =>
      have hadvance : ws.applyUpdate (.advanceAnimations (anim.workspaces ws.id)) = some _ := rfl
      Workspace.kept_applyUpdate (hinv.ok ws hws) hadvance
  refine heffect.pointwise (effect_of_forall₂ hinv hws ?_ rfl rfl) (ids_of_forall₂ hws) rfl
  exact core_of_forall₂ hinv.toCore hws rfl hinv.animation hinv.gesture

/-! Config. -/

/-- The list is in order for the new setting. -/
theorem updateEmptyAboveFirst_spec (h : m.Inv) (b : Bool)
    (hmt : mt = m.updateEmptyAboveFirst b) :
    mt.Core ∧ mt.output = m.output ∧ mt.windowIds.Perm m.windowIds ∧
      (m.ids.Sublist mt.ids ∨ mt.workspaceSwitch = none) ∧
      (∀ ws, mt.workspaces[mt.workspaces.length - 1]? = some ws → OwnEmpty m.output ws) ∧
      (b = true → ∀ ws, mt.workspaces[0]? = some ws → OwnEmpty m.output ws) := by
  have hactive := h.active
  have hlast := h.ends.last id
  unfold updateEmptyAboveFirst at hmt
  split at hmt
  · rename_i hcond
    obtain ⟨hne, hlen⟩ := hcond
    split at hmt
    · subst hmt
      have hkept := kept_addWorkspaceAt h.toCore (Nat.zero_le _)
      have hlen' := length_addWorkspaceAt (m := m) (Nat.zero_le _)
      refine ⟨hkept.core, rfl, hkept.windowIds, .inl hkept.ids, fun ws hws => ?_, fun _ ws hws => ?_⟩
      · unfold addWorkspaceTop at hws
        rw [hlen'] at hws
        unfold addWorkspaceAt at hws
        dsimp only at hws
        rw [getElem?_insertIdx_of_gt (by omega), Nat.add_sub_cancel] at hws
        exact hlast ws hws
      · have hws : (m.workspaces.insertIdx 0 (Workspace.new m.nextId m.output m.clock m.options))[0]? =
          some ws := hws
        rw [getElem?_insertIdx_self, if_pos (Nat.zero_le _)] at hws
        exact some.inj hws ▸ ownEmpty_new ..
    · rename_i hb
      have hfirst : m.emptyAboveFirst = true := by
        cases he : m.emptyAboveFirst with
        | false => simp [he, hb] at hne
        | true => rfl
      split at hmt
      · rename_i hswitch
        subst mt
        have hswitch' : m.workspaceSwitch = none := isNone_iff_eq_none.mp hswitch.1
        have hget := getElem?_eq_getElem (Nat.zero_lt_of_lt hlen)
        obtain ⟨hcore, hperm⟩ : Core { m with
            workspaces := m.workspaces.eraseIdx 0,
            activeWorkspaceIdx := m.activeWorkspaceIdx - 1 } ∧ _ :=
          core_erase h.toCore hget rfl (by dsimp only; omega) hswitch'
        rw [(h.ends.first hfirst id _ hget).windowIds] at hperm
        refine ⟨hcore, rfl, hperm.symm, .inr hswitch', fun ws hws => ?_, fun hb' => absurd hb' hb⟩
        dsimp only at hws
        rw [length_eraseIdx_of_lt (Nat.zero_lt_of_lt hlen),
          getElem?_eraseIdx_of_ge (by omega)] at hws
        refine hlast ws ?_
        rwa [show m.workspaces.length - 1 - 1 + 1 = m.workspaces.length - 1 by omega] at hws
      · subst hmt
        exact ⟨h.toCore, rfl, .refl _, .inl (.refl _), hlast, fun hb' => absurd hb' hb⟩
  · rename_i hcond
    subst mt
    refine ⟨h.toCore, rfl, .refl _, .inl (.refl _), hlast, fun hb ws hws => ?_⟩
    -- A single workspace is the last one too.
    by_cases he : m.emptyAboveFirst = b
    · exact h.ends.first (he.trans hb) id ws hws
    · have hone : m.workspaces.length - 1 = 0 := by
        have : ¬ 1 < m.workspaces.length := fun hlt => hcond ⟨he, hlt⟩
        omega
      exact hlast ws (hone ▸ hws)

theorem effect_updateConfig (h : m.Inv) (baseOptions : Options) :
    Effect [] [] m (m.updateConfig baseOptions) := by
  obtain ⟨mt, hmt⟩ : ∃ mt, mt = m.updateEmptyAboveFirst
    (baseOptions.withMergedLayout m.layoutConfig).emptyWorkspaceAboveFirst := ⟨_, rfl⟩
  obtain ⟨hcore, hout, hperm, horder, hlast, hfirst⟩ := updateEmptyAboveFirst_spec h _ hmt
  have hws : Forall₂ Workspace.Kept mt.workspaces (m.updateConfig baseOptions).workspaces := by
    unfold updateConfig
    dsimp only
    rw [← hmt]
    exact forall₂_map fun ws hws => Workspace.kept_updateConfig (hcore.ok ws hws) _
  have hswitch : (m.updateConfig baseOptions).workspaceSwitch = mt.workspaceSwitch := by
    unfold updateConfig
    dsimp only
    rw [← hmt]
  have hactive : (m.updateConfig baseOptions).activeWorkspaceIdx = mt.activeWorkspaceIdx := by
    unfold updateConfig
    dsimp only
    rw [← hmt]
  have houtput : (m.updateConfig baseOptions).output = mt.output := by
    unfold updateConfig
    dsimp only
    rw [← hmt]
  have hends : (m.updateConfig baseOptions).Ends := by
    refine ⟨fun _ => ?_, fun he _ => ?_⟩
    · rw [← hws.length_eq]
      exact ownEmpty_of_forall₂ hws (congrArg OutputId.new houtput) (hout.symm ▸ hlast)
    · exact ownEmpty_of_forall₂ hws (congrArg OutputId.new houtput) (hout.symm ▸ hfirst he)
  have hcore' : (m.updateConfig baseOptions).Core :=
    core_of_forall₂ hcore hws hactive (hswitch ▸ hcore.animation) (hswitch ▸ hcore.gesture)
  refine ⟨⟨hcore', hends⟩, (windowIds_of_forall₂ hws).trans hperm, ?_⟩
  rw [ids_of_forall₂ hws, hswitch]
  exact horder

theorem effect_updateLayoutConfig (h : m.Inv) (layoutConfig : Option LayoutPart) :
    Effect [] [] m (m.updateLayoutConfig layoutConfig) := by
  unfold updateLayoutConfig
  split
  · exact .refl h
  · have hinv : Inv { m with layoutConfig := layoutConfig } :=
      ⟨h.toCore.congr rfl rfl (.inl rfl), h.ends.congr rfl rfl rfl⟩
    have heffect := effect_updateConfig hinv m.baseOptions
    exact ⟨heffect.inv, heffect.windowIds, heffect.order⟩

end Macniri.Layout.Monitor
