import Macniri.Layout.MonitorEffects

/-! What the operations of a monitor that name, insert, remove and reorder workspaces keep. -/
namespace Macniri.Layout

open Option List

namespace Workspace

variable {ws : Workspace}

/-- A workspace that goes to another output, or loses its output, keeps its windows. -/
theorem setOutput_spec (hws : ws.Ok) (output : Option Output) :
    (ws.setOutput output).Ok ∧ (ws.setOutput output).name = ws.name ∧
      (ws.setOutput output).windowIds.Perm ws.windowIds := by
  unfold setOutput
  split
  · exact ⟨hws, rfl, .refl _⟩
  · split
    · exact ⟨⟨hws.scrolling, hws.ids⟩, rfl, .refl _⟩
    · have hsame (o : Option Output) (original : OutputId) :
          Ok { ws with output := o, originalOutput := original } := ⟨hws.scrolling, hws.ids⟩
      refine ⟨?_, ?_, ?_⟩
      · exact (kept_updateOutputSize (hsame _ _)).ok
      · exact (kept_updateOutputSize (hsame _ _)).name
      · exact (kept_updateOutputSize (hsame _ _)).windowIds

/-- The same on the monitor of an output. -/
def attached (output : Output) (options : Options) (ws : Workspace) : Workspace :=
  (ws.setOutput (some output)).updateConfig options

theorem attached_spec (hws : ws.Ok) (output : Output) (options : Options) :
    (attached output options ws).Ok ∧ (attached output options ws).windowIds.Perm ws.windowIds ∧
      (attached output options ws).hasWindowsOrName = ws.hasWindowsOrName := by
  obtain ⟨hok, hname, hperm⟩ := setOutput_spec hws (some output)
  have hkept := kept_updateConfig hok options
  have hids : (attached output options ws).windowIds.Perm ws.windowIds := hkept.windowIds.trans hperm
  have hname' : (attached output options ws).name = ws.name := hkept.name.trans hname
  refine ⟨hkept.ok, hids, ?_⟩
  unfold hasWindowsOrName
  rw [hasWindows_congr hids, hname']

end Workspace

namespace Monitor

variable {m m' mt : Monitor} {i j id : ℕ} {ws ws' : Workspace}

/-! Names and original outputs. -/

theorem effect_replaced (h : m.Inv) (hws : m.workspaces[i]? = some ws) (hok : ws'.Ok)
    (hid : ws'.id = ws.id) (hids : ws'.windowIds = ws.windowIds)
    (hown : OwnEmpty m.output ws → OwnEmpty m.output ws') :
    Effect [] [] m (m.setWorkspace i ws') := by
  have hwindows : (m.setWorkspace i ws').windowIds = m.windowIds := by
    rw [windowIds_setWorkspace, hids, set_self_of_getElem? (windowIds_getElem? hws)]
    rfl
  refine ⟨⟨core_setWorkspace h.toCore hok (hwindows ▸ h.windows), ?_⟩, .of_eq hwindows,
    .inl (ids_setWorkspace hws hid ▸ .refl _)⟩
  exact h.ends.setWorkspace hws fun ho => .inl (hown ho)

theorem effect_rename (h : m.Inv) (hws : m.workspaces[i]? = some ws) (name : Option String) :
    Effect [] [] m (m.setWorkspace i { ws with name := name }) :=
  have hok := h.ok_getElem? hws
  effect_replaced h hws ⟨hok.scrolling, hok.ids⟩ rfl rfl fun ho => ⟨ho.original, ho.windowIds⟩

theorem effect_unnameWorkspace (h : m.Inv) (hm : m.unnameWorkspace id = some m') :
    Effect [] [] m m' := by
  unfold unnameWorkspace at hm
  split at hm
  · exact some.inj hm ▸ .refl h
  · rename_i idx hidx
    have hlt : idx < m.workspaces.length := (findIdx?_eq_some_iff_getElem.mp hidx).1
    have hget := getElem?_eq_getElem hlt
    rw [modify_eq_set_of_getElem? hget] at hm
    exact (effect_rename h hget none).cleanUp hm

/-- An explicit move to the output where a workspace already is. -/
theorem effect_setOriginalOutput (h : m.Inv) (hws : m.workspaces[i]? = some ws) :
    Effect [] [] m (m.setWorkspace i { ws with originalOutput := OutputId.new m.output }) :=
  have hok := h.ok_getElem? hws
  effect_replaced h hws ⟨hok.scrolling, hok.ids⟩ rfl rfl fun ho => ⟨rfl, ho.windowIds⟩

theorem kept_padNamed (h : m.Inv) (id : ℕ) : Kept m (padNamed m id) ∧ (padNamed m id).Ends := by
  obtain ⟨mt, hmt⟩ : ∃ mt, mt = if m.emptyAboveFirst ∧ m.workspaces.head?.any (·.id == id)
    then m.addWorkspaceTop else m := ⟨_, rfl⟩
  have htop : Kept m mt ∧ mt.Ends := by
    subst hmt
    split
    · exact ⟨kept_addWorkspaceAt h.toCore (Nat.zero_le _), Ends.addWorkspaceAt h.ends (Nat.zero_le _)⟩
    · exact ⟨.refl h.toCore, h.ends⟩
  unfold padNamed
  rw [← hmt]
  dsimp only
  split
  · exact ⟨htop.1.trans (kept_addWorkspaceAt htop.1.core le_rfl), Ends.addWorkspaceAt htop.2 le_rfl⟩
  · exact htop

/-! Removing and inserting. -/

theorem padEnds_of_le (h : m.Core) (hi : m.workspaces.length ≤ i) : m.padEnds i = (m, i) := by
  have hactive := h.active
  have hbottom : i + 1 ≠ m.workspaces.length := by omega
  have htop : ¬ (m.emptyAboveFirst = true ∧ i = 0) := by omega
  unfold padEnds
  rw [if_neg hbottom]
  exact if_neg htop

theorem effect_removeWorkspaceByIdx (h : m.Inv) (hm : m.removeWorkspaceByIdx i = some (ws, m')) :
    Effect [] ws.windowIds m m' ∧ ws.Ok ∧ m'.workspaceSwitch = none := by
  have hspec := padEnds_spec (i := i) h.toCore
  have hout := padEnds_of_le (i := i) h.toCore
  unfold removeWorkspaceByIdx at hm
  generalize m.padEnds i = p at hm hspec hout
  obtain ⟨mp, idx⟩ := p
  obtain ⟨ws₀, hws, hm⟩ := of_bind hm
  obtain ⟨mr, hmr, hm⟩ := of_bind hm
  obtain ⟨rfl, rfl⟩ := pair_inj hm
  have hi : i < m.workspaces.length := by
    by_contra hge
    obtain ⟨rfl, rfl⟩ := Prod.mk.inj (hout (Nat.not_lt.mp hge))
    exact hge (lt_length_of_getElem? hws)
  obtain ⟨hkept, hends, hlt, hfirst⟩ := hspec hi (h.ends.mono False.elim fun _ => False.elim)
  dsimp only at hkept hends hlt hfirst
  have hactive := hkept.core.active
  obtain ⟨hcore, hperm⟩ : Core { mp with
      workspaces := mp.workspaces.eraseIdx idx
      activeWorkspaceIdx := if idx ≤ mp.activeWorkspaceIdx ∧ 0 < mp.activeWorkspaceIdx
        then mp.activeWorkspaceIdx - 1 else mp.activeWorkspaceIdx
      workspaceSwitch := none } ∧ _ := by
    refine core_erase hkept.core hws rfl ?_ rfl
    dsimp only
    split <;> omega
  have hsettled := settled_stopSwitch hmr ⟨hcore, EndsExcept.erase hends hlt hfirst rfl rfl rfl⟩
  obtain ⟨hok, -, hids⟩ := Workspace.setOutput_spec (hkept.core.ok _ (mem_of_getElem? hws)) none
  have hwindows := (hids.append_right _).trans ((hsettled.windowIds.append_left _).trans hperm.symm)
  exact ⟨⟨hsettled.inv, hwindows.trans hkept.windowIds, .inr hsettled.switch⟩, hok, hsettled.switch⟩

/-- An inserted workspace goes between the ends. -/
theorem prepareInsertion_spec (h : m.Inv) (hi : i ≤ m.workspaces.length) :
    Kept m (m.prepareInsertion i).1 ∧ (m.prepareInsertion i).1.Ends ∧
      (m.prepareInsertion i).2 < (m.prepareInsertion i).1.workspaces.length ∧
      ((m.prepareInsertion i).1.emptyAboveFirst = true → 0 < (m.prepareInsertion i).2) := by
  have hactive := h.active
  obtain ⟨idx, hidx⟩ : ∃ idx, idx = if i = m.workspaces.length then i - 1 else i := ⟨_, rfl⟩
  have hlt : idx < m.workspaces.length := by
    rw [hidx]
    split <;> omega
  unfold prepareInsertion
  rw [← hidx]
  dsimp only
  split
  · refine ⟨kept_addWorkspaceAt h.toCore (Nat.zero_le _), Ends.addWorkspaceAt h.ends (Nat.zero_le _),
      ?_, fun _ => Nat.succ_pos idx⟩
    dsimp only
    unfold addWorkspaceTop
    rw [length_addWorkspaceAt (Nat.zero_le _)]
    omega
  · rename_i hfirst
    exact ⟨.refl h.toCore, h.ends, hlt, fun he => Nat.pos_of_ne_zero fun h0 => hfirst ⟨h0, he⟩⟩

/-- A workspace inserted between the ends. -/
theorem inv_inserted (h : m.Inv) (hi : i < m.workspaces.length)
    (hfirst : m.emptyAboveFirst = true → 0 < i) (hws : ws.Ok)
    (hfresh : ∀ w ∈ ws.windowIds, w ∉ m.windowIds) :
    let mi : Monitor := { m with
      workspaces := m.workspaces.insertIdx i ws
      activeWorkspaceIdx :=
        if i ≤ m.activeWorkspaceIdx then m.activeWorkspaceIdx + 1 else m.activeWorkspaceIdx
      workspaceSwitch := none }
    mi.Inv ∧ mi.windowIds.Perm (ws.windowIds ++ m.windowIds) ∧ i < mi.workspaces.length := by
  intro mi
  have hcore : mi.Core ∧ _ := core_insert h.toCore hi.le hws hfresh rfl rfl (.inl rfl)
  have hlen : mi.workspaces.length = m.workspaces.length + 1 :=
    length_insertIdx_of_le_length hi.le ws
  have hends : mi.EndsExcept (skipInserted i True fun _ => False) :=
    EndsExcept.insert h.ends hi.le (fun hf => absurd trivial hf) rfl rfl rfl
  refine ⟨⟨hcore.1, hends.ends ?_ fun he => ?_⟩, hcore.2, by omega⟩
  · rw [hlen]
    rintro (⟨-, hsk⟩ | ⟨hsk, -⟩ | ⟨-, hsk⟩)
    · exact hsk
    · omega
    · exact hsk
  · have hpos := hfirst he
    rintro (⟨-, hsk⟩ | ⟨hsk, -⟩ | ⟨-, hsk⟩)
    · exact hsk
    · omega
    · exact hsk

theorem effect_insertWorkspace (h : m.Inv) (hws : ws.Ok) (hfresh : ∀ w ∈ ws.windowIds, w ∉ m.windowIds)
    (hi : i ≤ m.workspaces.length) {activate : Bool}
    (hm : m.insertWorkspace ws i activate = some m') :
    Effect ws.windowIds [] m m' ∧ m'.workspaceSwitch = none := by
  obtain ⟨hok, hids, -⟩ := Workspace.attached_spec hws m.output m.options
  have hspec := prepareInsertion_spec h hi
  unfold insertWorkspace at hm
  generalize m.prepareInsertion i = p at hm hspec
  obtain ⟨mp, idx⟩ := p
  obtain ⟨hkept, hends, hlt, hfirst⟩ := hspec
  dsimp only at hkept hends hlt hfirst
  obtain ⟨hinv, hperm, hidx⟩ := inv_inserted ⟨hkept.core, hends⟩ hlt hfirst hok fun w hw hmem =>
    hfresh w (hids.mem_iff.mp hw) (hkept.windowIds.mem_iff.mp hmem)
  have hwindows := hperm.trans (hids.append hkept.windowIds)
  obtain ⟨ma, hma, hm⟩ := of_bind hm
  suffices hsettled : Inv { ma with workspaceSwitch := none } ∧
      ma.windowIds.Perm (ws.windowIds ++ m.windowIds) by
    have hstop := settled_stopSwitch hm hsettled.1
    exact ⟨⟨hstop.inv, hstop.windowIds.trans hsettled.2, .inr hstop.switch⟩, hstop.switch⟩
  cases activate with
  | true =>
    have hshown := shown_activateWorkspace hinv.toCore hidx hma
    exact ⟨(hshown.inv hinv).setSwitchNone, hshown.kept.windowIds.trans hwindows⟩
  | false =>
    obtain rfl := some.inj hma
    exact ⟨hinv, hwindows⟩

theorem effect_insertNamed (h : m.Inv) {config : WorkspaceConfig} {clock : ℚ} {options : Options}
    (hm : insertNamed m config clock options = some m') : Effect [] [] m m' := by
  have hinv : Inv { m with nextId := m.nextId + 1 } :=
    ⟨h.toCore.congr rfl rfl (.inl rfl), h.ends.congr rfl rfl rfl⟩
  have hok : (Workspace.newWithConfig m.nextId m.output (some config) clock options).Ok :=
    ⟨ScrollingSpace.inv_new, nodup_nil⟩
  obtain ⟨heffect, -⟩ := effect_insertWorkspace hinv hok (fun _ hw => absurd hw not_mem_nil)
    (Nat.zero_le _) hm
  exact ⟨heffect.inv, heffect.windowIds, heffect.order⟩

/-- The windows of a list of workspaces. -/
def windowsOf (workspaces : List Workspace) : List ℕ :=
  (workspaces.map Workspace.windowIds).flatten

/-- What the workspaces of one monitor promise when they go to another one. -/
structure Movable (m : Monitor) (workspaces : List Workspace) : Prop where
  ok : ∀ ws ∈ workspaces, ws.Ok
  used : ∀ ws ∈ workspaces, ws.hasWindowsOrName = true
  nodup : (windowsOf workspaces).Nodup
  fresh : ∀ w ∈ windowsOf workspaces, w ∉ m.windowIds

theorem windowsOf_attached {workspaces : List Workspace} (hok : ∀ ws ∈ workspaces, ws.Ok)
    (output : Output) (options : Options) :
    (windowsOf (workspaces.map (Workspace.attached output options))).Perm (windowsOf workspaces) := by
  refine (Forall₂.flatten_perm ?_).symm
  rw [forall₂_map_left_iff, forall₂_map_right_iff]
  refine Forall₂.imp (fun _ _ h => h) (forall₂_map ?_)
  exact fun ws hws => (Workspace.attached_spec (hok ws hws) output options).2.1.symm

theorem windowsOf_append (l₁ l₂ : List Workspace) :
    windowsOf (l₁ ++ l₂) = windowsOf l₁ ++ windowsOf l₂ := by
  simp [windowsOf]

/-- The list after the workspaces of a removed monitor were added, with the first one still to see. -/
theorem appended_spec (h : m.Inv) {own front : List Workspace} {empty : Workspace}
    (hws : m.workspaces = front ++ [empty]) (hown : m.Movable own)
    (hmt : mt = { m with workspaces := front ++ own ++ [empty] }) :
    mt.Core ∧ mt.windowIds.Perm (windowsOf own ++ m.windowIds) ∧ mt.EndsExcept (· = 0) := by
  have hlen : m.workspaces.length = front.length + 1 := by simp [hws]
  have hlen' : mt.workspaces.length = front.length + own.length + 1 := by
    simp [hmt, Nat.add_assoc]
  have hactive := h.active
  have hperm : mt.windowIds.Perm (windowsOf own ++ m.windowIds) := by
    have hm : m.windowIds = windowsOf front ++ windowsOf [empty] := by
      rw [← windowsOf_append, ← hws]
      rfl
    have hmt' : mt.windowIds = windowsOf front ++ windowsOf own ++ windowsOf [empty] := by
      rw [← windowsOf_append, ← windowsOf_append, hmt]
      rfl
    rw [hm, hmt', ← append_assoc]
    exact perm_append_comm.append_right _
  have hnodup : (windowsOf own ++ m.windowIds).Nodup :=
    nodup_append'.mpr ⟨hown.nodup, h.windows, fun w hw hw' => hown.fresh w hw hw'⟩
  refine ⟨⟨fun w hw => ?_, hperm.nodup_iff.mpr hnodup, ?_, ?_, fun g hg => ?_⟩, hperm, ?_⟩
  · have hmem : w ∈ front ++ own ++ [empty] := by simpa [hmt] using hw
    rcases mem_append.mp hmem with hmem | hmem
    · rcases mem_append.mp hmem with hmem | hmem
      · exact h.ok w (hws ▸ mem_append_left _ hmem)
      · exact hown.ok w hmem
    · exact h.ok w (hws ▸ mem_append_right _ hmem)
  · rw [hlen']
    subst hmt
    dsimp only
    omega
  · subst hmt
    exact h.animation
  · have hg' : m.workspaceSwitch = some (.gesture g) := by simpa [hmt] using hg
    have := h.gesture g hg'
    omega
  · refine ⟨fun _ w hw => ?_, fun _ hs => absurd rfl hs⟩
    have hlast : m.workspaces[m.workspaces.length - 1]? = some empty := by simp [hws]
    have hw' : (front ++ own ++ [empty])[front.length + own.length + 1 - 1]? = some w := by
      rw [hlen', hmt] at hw
      exact hw
    have heq : (front ++ own ++ [empty])[front.length + own.length + 1 - 1]? = some empty := by simp
    obtain rfl := some.inj (heq.symm.trans hw')
    rw [hmt]
    exact h.ends.last id _ hlast

/-- With an empty workspace above the first, either there still is one or it is added. -/
theorem padAppended_spec (h : m.Inv) {own front : List Workspace} {empty : Workspace}
    (hws : m.workspaces = front ++ [empty]) (hown : m.Movable own) (hne : own ≠ [])
    (hma : mt = { m with workspaces := front ++ own ++ [empty] })
    (hm' : m' = if mt.emptyAboveFirst && mt.workspaces.head?.any (·.hasWindowsOrName)
      then mt.addWorkspaceTop else mt) :
    m'.Inv ∧ m'.windowIds.Perm (windowsOf own ++ m.windowIds) := by
  obtain ⟨hcore, hperm, hends⟩ := appended_spec h hws hown hma
  have hlen : 1 < mt.workspaces.length := by
    have := length_pos_iff.mpr hne
    simp [hma]
    omega
  split at hm'
  · have hkept := kept_addWorkspaceAt hcore (Nat.zero_le _)
    have hlen' := length_addWorkspaceAt (m := mt) (Nat.zero_le _)
    subst hm'
    refine ⟨⟨hkept.core, (hends.addWorkspaceAt (Nat.zero_le _)).ends ?_ fun _ => ?_⟩,
      hkept.windowIds.trans hperm⟩
    · rw [hlen']
      rintro (⟨hsk, -⟩ | ⟨-, hsk⟩ | ⟨-, hsk⟩)
      · omega
      · exact hsk
      · omega
    · rintro (⟨hsk, -⟩ | ⟨-, hsk⟩ | ⟨hsk, -⟩)
      · omega
      · exact hsk
      · omega
  · rename_i hcond
    subst m'
    refine ⟨⟨hcore, fun _ => hends.last (by omega), fun he _ w hw => ?_⟩, hperm⟩
    have hunused : w.hasWindowsOrName = false := by
      have hhead : mt.workspaces.head? = some w := head?_eq_getElem?.trans hw
      rw [he, Bool.true_and, hhead] at hcond
      simpa using hcond
    cases front with
    | nil =>
      -- The first one is one of those that were added.
      obtain ⟨ws, rest, rfl⟩ := exists_cons_of_ne_nil hne
      have hw' : some ws = some w := by simpa [hma] using hw
      obtain rfl := some.inj hw'
      rw [hown.used ws (mem_cons_self ..)] at hunused
      cases hunused
    | cons ws rest =>
      have hw' : some ws = some w := by simpa [hma] using hw
      obtain rfl := some.inj hw'
      subst hma
      exact h.ends.first he id ws (by simp [hws])

theorem Movable.attached {workspaces : List Workspace} (h : m.Movable workspaces) (output : Output)
    (options : Options) : m.Movable (workspaces.map (Workspace.attached output options)) := by
  have hperm := windowsOf_attached h.ok output options
  refine ⟨fun ws hws => ?_, fun ws hws => ?_, hperm.nodup_iff.mpr h.nodup, fun w hw => ?_⟩
  · obtain ⟨ws₀, hws₀, rfl⟩ := List.mem_map.mp hws
    exact (Workspace.attached_spec (h.ok ws₀ hws₀) output options).1
  · obtain ⟨ws₀, hws₀, rfl⟩ := List.mem_map.mp hws
    exact (Workspace.attached_spec (h.ok ws₀ hws₀) output options).2.2.trans (h.used ws₀ hws₀)
  · exact h.fresh w (hperm.mem_iff.mp hw)

theorem effect_appendWorkspaces (h : m.Inv) {workspaces : List Workspace} (hown : m.Movable workspaces)
    (hm : m.appendWorkspaces workspaces = some m') :
    Effect (windowsOf workspaces) [] m m' ∧ (workspaces ≠ [] → m'.workspaceSwitch = none) := by
  unfold appendWorkspaces at hm
  split at hm
  · rename_i hnil
    obtain rfl := List.isEmpty_iff.mp hnil
    exact ⟨some.inj hm ▸ .refl h, fun hne => absurd rfl hne⟩
  · rename_i hne
    have hne : workspaces ≠ [] := fun hnil => hne (List.isEmpty_iff.mpr hnil)
    obtain ⟨empty, hempty, hm⟩ := of_bind hm
    dsimp only at hm
    have hws : m.workspaces = m.workspaces.dropLast ++ [empty] :=
      (dropLast_append_getLast? empty hempty).symm
    obtain ⟨own, hattached⟩ : ∃ own, own = workspaces.map (Workspace.attached m.output m.options) :=
      ⟨_, rfl⟩
    obtain ⟨ma, hma⟩ : ∃ ma : Monitor, ma =
      { m with workspaces := m.workspaces.dropLast ++ own ++ [empty] } := ⟨_, rfl⟩
    obtain ⟨mp, hmp⟩ : ∃ mp, mp = if ma.emptyAboveFirst && ma.workspaces.head?.any (·.hasWindowsOrName)
      then ma.addWorkspaceTop else ma := ⟨_, rfl⟩
    have hm : (if m.activeWorkspaceIdx + 1 = m.workspaces.length
      then { mp with activeWorkspaceIdx := mp.workspaces.length - 1 } else mp).stopSwitch = some m' := by
      rw [hmp, hma, hattached]
      exact hm
    obtain ⟨hinv, hperm⟩ := padAppended_spec h hws (hattached ▸ hown.attached m.output m.options)
      (by simpa [hattached] using hne) hma hmp
    rw [hattached] at hperm
    have hwindows := hperm.trans ((windowsOf_attached hown.ok m.output m.options).append_right _)
    have hactive := hinv.active
    split at hm
    · have hfocused : Inv { mp with
          activeWorkspaceIdx := mp.workspaces.length - 1, workspaceSwitch := none } := by
        refine ⟨⟨hinv.ok, hinv.windows, ?_, fun _ ha => by simp at ha, fun _ hg => by simp at hg⟩,
          hinv.ends.congr rfl rfl rfl⟩
        dsimp only
        omega
      have hstop := settled_stopSwitch hm hfocused
      exact ⟨⟨hstop.inv, hstop.windowIds.trans hwindows, .inr hstop.switch⟩, fun _ => hstop.switch⟩
    · have hstop := settled_stopSwitch hm hinv.setSwitchNone
      exact ⟨⟨hstop.inv, hstop.windowIds.trans hwindows, .inr hstop.switch⟩, fun _ => hstop.switch⟩

/-! Reordering. -/

theorem core_reordered (h : m.Core) (hperm : m'.workspaces.Perm m.workspaces)
    (hactive : m'.activeWorkspaceIdx = m.activeWorkspaceIdx)
    (hswitch : m'.workspaceSwitch = m.workspaceSwitch) :
    m'.Core ∧ m'.windowIds.Perm m.windowIds := by
  have hids : m'.windowIds.Perm m.windowIds := (hperm.map _).flatten
  refine ⟨⟨fun ws hws => h.ok ws (hperm.mem_iff.mp hws), hids.nodup_iff.mpr h.windows, ?_, ?_, ?_⟩, hids⟩
  · rw [hactive, hperm.length_eq]
    exact h.active
  · rw [hactive, hswitch]
    exact h.animation
  · rw [hswitch, hperm.length_eq]
    exact h.gesture

/-- Only workspaces between two indices moved. -/
theorem EndsExcept.reordered {lo hi : ℕ} (h : m.Ends)
    (hlen : m'.workspaces.length = m.workspaces.length)
    (hsame : ∀ k, k < lo ∨ hi < k → m'.workspaces[k]? = m.workspaces[k]?)
    (hout : m'.output = m.output) (hopt : m'.emptyAboveFirst = m.emptyAboveFirst) :
    m'.EndsExcept fun j => lo ≤ j ∧ j ≤ hi := by
  refine ⟨fun hs w hw => ?_, fun he hs w hw => ?_⟩
  · rw [hlen] at hs hw
    rw [hsame _ (by omega)] at hw
    exact hout ▸ h.last id w hw
  · rw [hsame _ (by omega)] at hw
    exact hout ▸ h.first (hopt ▸ he) id w hw

theorem settled_activateMoved (h : m.Inv) (hi : i < m.workspaces.length)
    (hm : m.activateMoved i = some m') : Settled m m' := by
  obtain ⟨mt, hmt, hm⟩ := of_bind hm
  have hshown := shown_activateWorkspace h.toCore hi hmt
  have hinv := (hshown.inv h).setSwitchNone
  have hinv' : Inv { mt with previousWorkspaceId := m.previousWorkspaceId, workspaceSwitch := none } :=
    ⟨hinv.toCore.congr rfl rfl (.inl rfl), hinv.ends.congr rfl rfl rfl⟩
  have hstop := settled_stopSwitch hm hinv'
  exact ⟨hstop.inv, hstop.output.trans hshown.output, hstop.options.trans hshown.options,
    hstop.windowIds.trans hshown.kept.windowIds, hstop.switch⟩

/-- The end of a move of the active workspace by one. -/
theorem settled_movedByOne {lo hi : ℕ} (h : m.Core) (hhi : hi < m.workspaces.length)
    (hends : m.EndsExcept fun j => lo ≤ j ∧ j ≤ hi) (hi' : i ≤ hi)
    (hmt : mt = if hi + 1 = m.workspaces.length then m.addWorkspaceBottom else m)
    (hm : (if mt.emptyAboveFirst ∧ lo = 0 then mt.addWorkspaceTop.activateMoved (i + 1)
      else mt.activateMoved i) = some m') :
    Settled m m' := by
  obtain ⟨hkept, hendst, hlt⟩ := padBottom_spec h hhi hends hmt
  obtain ⟨hkept', hends'⟩ := padTop_spec hkept.core (by omega) hendst rfl
  split at hm
  · rename_i hfirst
    rw [if_pos hfirst] at hkept' hends'
    have hlen := length_addWorkspaceAt (m := mt) (Nat.zero_le _)
    have hlt' : i + 1 < mt.addWorkspaceTop.workspaces.length := by
      unfold addWorkspaceTop
      omega
    have hsettled := settled_activateMoved ⟨hkept'.core, hends'⟩ hlt' hm
    have hboth := hkept.trans hkept'
    exact ⟨hsettled.inv, hsettled.output.trans hboth.output, hsettled.options.trans hboth.options,
      hsettled.windowIds.trans hboth.windowIds, hsettled.switch⟩
  · rename_i hfirst
    rw [if_neg hfirst] at hkept' hends'
    have hsettled := settled_activateMoved ⟨hkept.core, hends'⟩ (by omega) hm
    exact ⟨hsettled.inv, hsettled.output.trans hkept.output, hsettled.options.trans hkept.options,
      hsettled.windowIds.trans hkept.windowIds, hsettled.switch⟩

theorem swapWorkspaces_spec (lo hi : ℕ) (h : m.Inv) (hm : m.swapWorkspaces i j = some mt)
    (hi' : lo ≤ i ∧ i ≤ hi) (hj : lo ≤ j ∧ j ≤ hi) :
    mt.Core ∧ mt.windowIds.Perm m.windowIds ∧ (mt.EndsExcept fun k => lo ≤ k ∧ k ≤ hi) ∧
      mt.activeWorkspaceIdx = m.activeWorkspaceIdx ∧
      mt.workspaces.length = m.workspaces.length := by
  obtain ⟨a, ha, hm⟩ := of_bind hm
  obtain ⟨b, hb, rfl⟩ := of_bind_some hm
  have hperm : ((m.workspaces.set i b).set j a).Perm m.workspaces := by
    obtain ⟨hlti, rfl⟩ := List.getElem?_eq_some_iff.mp ha
    obtain ⟨hltj, rfl⟩ := List.getElem?_eq_some_iff.mp hb
    exact set_set_perm hlti hltj
  obtain ⟨hcore, hids⟩ : Core { m with workspaces := (m.workspaces.set i b).set j a } ∧ _ :=
    core_reordered h.toCore hperm rfl rfl
  refine ⟨hcore, hids, EndsExcept.reordered h.ends hperm.length_eq (fun k hk => ?_) rfl rfl, rfl,
    hperm.length_eq⟩
  dsimp only
  rw [getElem?_set_ne (by omega), getElem?_set_ne (by omega)]

theorem effect_moveWorkspaceDown (h : m.Inv) (hm : m.moveWorkspaceDown = some m') :
    Effect [] [] m m' := by
  have hactive := h.active
  unfold moveWorkspaceDown at hm
  dsimp only at hm
  split at hm
  · exact some.inj hm ▸ .refl h
  · obtain ⟨mt, hmt, hm⟩ := of_bind hm
    obtain ⟨hcore, hids, hends, hidx, hlen⟩ := swapWorkspaces_spec m.activeWorkspaceIdx
      (min (m.activeWorkspaceIdx + 1) (m.workspaces.length - 1)) h hmt (by omega) (by omega)
    have hactive' (b : Prop) [Decidable b] : (if b then mt.addWorkspaceBottom else mt).activeWorkspaceIdx =
        m.activeWorkspaceIdx := by
      split
      · exact (activeIdx_addWorkspaceBottom hcore).trans hidx
      · exact hidx
    rw [hactive'] at hm
    have hsettled := settled_movedByOne hcore (by omega) hends le_rfl rfl hm
    exact ⟨hsettled.inv, hsettled.windowIds.trans hids, .inr hsettled.switch⟩

theorem effect_moveWorkspaceUp (h : m.Inv) (hm : m.moveWorkspaceUp = some m') :
    Effect [] [] m m' := by
  have hactive := h.active
  unfold moveWorkspaceUp at hm
  dsimp only at hm
  split at hm
  · exact some.inj hm ▸ .refl h
  · obtain ⟨mt, hmt, hm⟩ := of_bind hm
    obtain ⟨hcore, hids, hends, hidx, hlen⟩ := swapWorkspaces_spec (m.activeWorkspaceIdx - 1)
      m.activeWorkspaceIdx h hmt (by omega) (by omega)
    rw [hidx] at hm
    have hsettled := settled_movedByOne hcore (by omega) hends (Nat.sub_le ..) rfl hm
    exact ⟨hsettled.inv, hsettled.windowIds.trans hids, .inr hsettled.switch⟩

theorem getElem?_move {α : Type} {l : List α} {a : α} {k : ℕ} (hi : i < l.length)
    (hk : k < min i j ∨ max i j < k) : ((l.eraseIdx i).insertIdx j a)[k]? = l[k]? := by
  have hlen : (l.eraseIdx i).length = l.length - 1 := length_eraseIdx_of_lt hi
  rcases hk with hk | hk
  · rw [getElem?_insertIdx_of_lt (by omega), getElem?_eraseIdx_of_lt (by omega)]
  · rw [getElem?_insertIdx_of_gt (by omega), getElem?_eraseIdx_of_ge (by omega),
      Nat.sub_add_cancel (by omega)]

theorem padAfterMove_spec (h : m.Core) (hi : i < m.workspaces.length) (hj : j < m.workspaces.length)
    (hends : m.EndsExcept fun k => min i j ≤ k ∧ k ≤ max i j) :
    Kept m (m.padAfterMove i j).1 ∧ (m.padAfterMove i j).1.Ends ∧
      m.workspaces.length ≤ (m.padAfterMove i j).1.workspaces.length ∧
      (m.padAfterMove i j).2 < (m.padAfterMove i j).1.workspaces.length := by
  obtain ⟨mb, hmb⟩ : ∃ mb, mb = if max i j + 1 = m.workspaces.length then m.addWorkspaceBottom else m :=
    ⟨_, rfl⟩
  obtain ⟨hkept, hendsb, hlt⟩ := padBottom_spec h (by omega) hends hmb
  obtain ⟨hkept', hends'⟩ := padTop_spec hkept.core (by omega) hendsb rfl
  have hle : m.workspaces.length ≤ mb.workspaces.length := by
    have := hkept.ids.length_le
    simpa [ids] using this
  unfold padAfterMove
  rw [← hmb]
  dsimp only
  split
  · rename_i hfirst
    rw [if_pos hfirst] at hkept' hends'
    have hlen := length_addWorkspaceAt (m := mb) (Nat.zero_le _)
    refine ⟨hkept.trans hkept', hends', ?_, ?_⟩
    · dsimp only
      unfold addWorkspaceTop
      omega
    · dsimp only
      unfold addWorkspaceTop
      omega
  · rename_i hfirst
    rw [if_neg hfirst] at hkept' hends'
    refine ⟨hkept, hends', hle, ?_⟩
    dsimp only
    omega

theorem activeAfterMove_lt {n active oldIdx newIdx : ℕ} (ha : active < n) (ho : oldIdx < n)
    (hn : newIdx < n) : activeAfterMove active oldIdx newIdx < n := by
  unfold activeAfterMove
  split
  · exact hn
  · split
    · omega
    · split <;> omega

theorem effect_moveWorkspaceToIdx (h : m.Inv) (hm : m.moveWorkspaceToIdx i j = some m') :
    Effect [] [] m m' := by
  have hactive := h.active
  unfold moveWorkspaceToIdx at hm
  dsimp only at hm
  generalize hj : min j (m.workspaces.length - 1) = k at hm
  have hk : k < m.workspaces.length := by omega
  split at hm
  · exact some.inj hm ▸ .refl h
  · obtain ⟨ws, hws, hm⟩ := of_bind hm
    have hi := lt_length_of_getElem? hws
    have hperm : ((m.workspaces.eraseIdx i).insertIdx k ws).Perm m.workspaces := perm_move hws hk
    obtain ⟨mt, hmt⟩ : ∃ mt : Monitor, mt =
      { m with workspaces := (m.workspaces.eraseIdx i).insertIdx k ws } := ⟨_, rfl⟩
    obtain ⟨hcore, hids⟩ : mt.Core ∧ mt.windowIds.Perm m.windowIds := by
      subst hmt
      exact core_reordered h.toCore hperm rfl rfl
    have hlen : mt.workspaces.length = m.workspaces.length := by
      subst hmt
      exact hperm.length_eq
    have hends : mt.EndsExcept fun n => min i k ≤ n ∧ n ≤ max i k := by
      subst hmt
      exact EndsExcept.reordered h.ends hperm.length_eq (fun n hn => getElem?_move hi hn) rfl rfl
    have hspec := padAfterMove_spec hcore (hlen ▸ hi) (hlen ▸ hk) hends
    rw [← hmt] at hm
    generalize mt.padAfterMove i k = p at hm hspec
    obtain ⟨mp, idx⟩ := p
    obtain ⟨hkept, hends', hle, hidx⟩ := hspec
    dsimp only at hkept hends' hle hidx
    have hinv : Inv { mp with
        activeWorkspaceIdx := activeAfterMove mp.activeWorkspaceIdx i idx, workspaceSwitch := none } := by
      refine ⟨⟨hkept.core.ok, hkept.core.windows, ?_, fun _ ha => by simp at ha,
        fun _ hg => by simp at hg⟩, EndsExcept.congr hends' rfl rfl rfl⟩
      have hi' : i < mp.workspaces.length := by omega
      exact activeAfterMove_lt hkept.core.active hi' hidx
    have hstop := settled_stopSwitch hm hinv
    exact ⟨hstop.inv, hstop.windowIds.trans (hkept.windowIds.trans hids), .inr hstop.switch⟩

/-! The workspaces of an output that is added. -/

theorem removeForOutput_spec (h : m.Inv) (hws : m.workspaces[i]? = some ws)
    (hother : ¬ OwnEmpty m.output ws) :
    (m.removeForOutput i).Inv ∧
      m.windowIds.Perm (ws.windowIds ++ (m.removeForOutput i).windowIds) := by
  have hactive := h.active
  have hlt := lt_length_of_getElem? hws
  have hlast : i + 1 < m.workspaces.length := by
    by_contra hge
    have hi : m.workspaces.length - 1 = i := by omega
    exact hother (h.ends.last id ws (hi ▸ hws))
  have hfirst (he : m.emptyAboveFirst = true) : 0 < i := by
    refine Nat.pos_of_ne_zero fun h0 => hother ?_
    subst h0
    exact h.ends.first he id ws hws
  have hidx : (m.removeForOutput i).activeWorkspaceIdx + 1 < m.workspaces.length := by
    unfold removeForOutput
    dsimp only
    split
    · omega
    · rename_i hcond
      by_cases hle : i ≤ m.activeWorkspaceIdx
      · -- The one above is the empty one above the first.
        have hsecond : m.emptyAboveFirst = true ∧ m.activeWorkspaceIdx = 1 := by
          by_contra hno
          exact hcond ⟨hle, hno⟩
        have := hfirst hsecond.1
        omega
      · omega
  obtain ⟨hcore, hperm⟩ : (m.removeForOutput i).Core ∧ _ := core_erase h.toCore hws rfl hidx rfl
  exact ⟨⟨hcore, EndsExcept.erase h.ends hlast hfirst rfl rfl rfl⟩, hperm⟩

theorem windowsOf_filter_used (ws : Workspace) :
    windowsOf ([ws].filter (·.hasWindowsOrName)) = ws.windowIds := by
  cases hused : ws.hasWindowsOrName with
  | true => simp [windowsOf, hused]
  | false => simp [windowsOf, hused, windowIds_eq_nil_of_not_hasWindowsOrName hused]

/-- The workspaces of another output are taken from between the ends. -/
theorem takeForOutput_spec {output : Output} (n : ℕ) (m : Monitor) (h : m.Inv)
    (hother : (OutputId.new m.output).matches output = false) :
    (m.takeForOutput output n).1.Inv ∧
      m.windowIds.Perm
        (windowsOf (m.takeForOutput output n).2 ++ (m.takeForOutput output n).1.windowIds) ∧
      (m.takeForOutput output n = (m, []) ∨ (m.takeForOutput output n).1.workspaceSwitch = none) := by
  induction n generalizing m with
  | zero => exact ⟨h, .refl _, .inl rfl⟩
  | succ i ih =>
    unfold takeForOutput
    dsimp only
    split
    · rename_i hfound
      obtain ⟨ws, hws⟩ := isSome_iff_exists.mp hfound
      obtain ⟨hget, hmatch⟩ := filter_eq_some_iff.mp hws
      have hforeign : ¬ OwnEmpty m.output ws := by
        intro hown
        rw [hown.original, hother] at hmatch
        cases hmatch
      obtain ⟨hinv, hperm⟩ := removeForOutput_spec h hget hforeign
      obtain ⟨hrest, hwindows, hswitch⟩ := ih (m.removeForOutput i) hinv hother
      have htaken : windowsOf ((some ws).toList.filter (·.hasWindowsOrName)) = ws.windowIds :=
        windowsOf_filter_used ws
      refine ⟨hrest, ?_, .inr ?_⟩
      · rw [hws, windowsOf_append, htaken]
        refine hperm.trans ((hwindows.append_left _).trans ?_)
        rw [← append_assoc]
        exact perm_append_comm.append_right _
      · rcases hswitch with heq | hnone
        · rw [heq]
          rfl
        · exact hnone
    · exact ih m h hother

theorem effect_releaseFor (h : m.Inv) {output : Output} {taken : List Workspace}
    (hother : (OutputId.new m.output).matches output = false)
    (hm : m.releaseFor output = some (m', taken)) : Effect [] (windowsOf taken) m m' := by
  have hspec := takeForOutput_spec m.workspaces.length m h hother
  unfold releaseFor at hm
  generalize m.takeForOutput output m.workspaces.length = p at hm hspec
  obtain ⟨rest, taken'⟩ := p
  obtain ⟨mr, hmr, hm⟩ := of_bind hm
  obtain ⟨rfl, rfl⟩ := pair_inj hm
  obtain ⟨hinv, hperm, hswitch⟩ := hspec
  have hrest : Effect [] (windowsOf taken') m rest := by
    refine ⟨hinv, hperm.symm, ?_⟩
    rcases hswitch with heq | hnone
    · obtain ⟨rfl, -⟩ := Prod.mk.inj heq
      exact .inl (.refl _)
    · exact .inr hnone
  unfold cleanUpIf at hmr
  split at hmr
  · exact hrest.settled (settled_cleanUpWorkspaces hinv hmr)
  · exact some.inj hmr ▸ hrest

end Monitor

end Macniri.Layout
