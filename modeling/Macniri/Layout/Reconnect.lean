import Macniri.Layout.HomesRun
import Macniri.Layout.NamedWorkspaces

/-! The workspaces of an output that is unplugged wait for it and return. -/
namespace Macniri.Layout

open Option List

theorem toLower_eq_blank {c : Char} : Char.toLower c = ' ' ↔ c = ' ' := by
  constructor
  · intro h
    unfold Char.toLower at h
    split at h
    · rename_i hc
      have hval : c.val + 32 = 32 := congrArg Char.val h
      have hzero : c.val = 0 := by simpa using hval
      rw [hzero] at hc
      exact absurd hc.1 (by decide)
    · exact h
  · rintro rfl
    rfl

namespace OutputName

variable {n : OutputName} {field a b rest : List Char} {target target' : String}

theorem stripField_eq_some (h : stripField field a = some rest) :
    ∃ front, front.map Char.toLower = field.map Char.toLower ∧ a = front ++ ' ' :: rest := by
  unfold stripField at h
  split at h
  · rename_i hfront
    refine ⟨a.take field.length, hfront, ?_⟩
    split at h
    · rename_i hdrop
      obtain rfl := some.inj h
      rw [← hdrop, take_append_drop]
    · cases h
  · cases h

theorem stripField_front {front : List Char} (h : front.map Char.toLower = field.map Char.toLower) :
    stripField field (front ++ ' ' :: rest) = some rest := by
  have hlen : field.length = front.length := by simpa using (congrArg List.length h).symm
  unfold stripField
  rw [hlen, take_left, if_pos h, drop_left]
  rfl

theorem stripField_congr (h : a.map Char.toLower = b.map Char.toLower)
    (hrest : stripField field a = some rest) :
    ∃ rest', stripField field b = some rest' ∧ rest'.map Char.toLower = rest.map Char.toLower := by
  obtain ⟨front, hfront, rfl⟩ := stripField_eq_some hrest
  rw [map_append, map_cons] at h
  obtain ⟨front', tail, rfl, hfront', htail⟩ := map_eq_append_iff.mp h.symm
  obtain ⟨c, rest', rfl, hc, hrest'⟩ := map_eq_cons_iff.mp htail
  obtain rfl := toLower_eq_blank.mp hc
  exact ⟨rest', stripField_front (hfront'.trans hfront), hrest'⟩

/-- Up to ASCII case, an output is named by its connector or by its make, model and serial. -/
theorem matches_iff : n.matches target = true ↔ eqIgnoreAsciiCase target n.connector = true ∨
    (n.missingMms = false ∧ eqIgnoreAsciiCase target n.formatMakeModelSerial = true) := by
  have hformat : n.formatMakeModelSerial.toList = (n.make.getD "Unknown").toList ++
      ' ' :: ((n.model.getD "Unknown").toList ++ ' ' :: (n.serial.getD "Unknown").toList) := by
    simp [formatMakeModelSerial]
  unfold «matches»
  split
  · rename_i hconnector
    simp [hconnector]
  · rename_i hconnector
    rw [or_iff_right hconnector]
    split
    · rename_i hmissing
      simp [hmissing]
    · rename_i hmissing
      rw [and_iff_right (by simpa using hmissing)]
      unfold eqIgnoreAsciiCase
      rw [hformat, beq_iff_eq]
      constructor
      · intro h
        split at h
        · cases h
        · rename_i rest hstrip
          split at h
          · cases h
          · rename_i serial hrest
            obtain ⟨make, hmake, htarget⟩ := stripField_eq_some hstrip
            obtain ⟨model, hmodel, rfl⟩ := stripField_eq_some hrest
            simp [htarget, hmake, hmodel, beq_iff_eq.mp h]
      · intro h
        obtain ⟨rest, hrest, hlower⟩ := stripField_congr h.symm (stripField_append ..)
        obtain ⟨serial, hserial, hlower⟩ := stripField_congr hlower.symm (stripField_append ..)
        simp [hrest, hserial, hlower]

theorem matches_congr (h : eqIgnoreAsciiCase target target' = true) :
    n.matches target = n.matches target' := by
  have hother {other : String} :
      eqIgnoreAsciiCase target other = true ↔ eqIgnoreAsciiCase target' other = true :=
    ⟨eqIgnoreAsciiCase_trans (eqIgnoreAsciiCase_comm target target' ▸ h), eqIgnoreAsciiCase_trans h⟩
  rw [Bool.eq_iff_iff, matches_iff, matches_iff, hother, hother]

/-- A text with blanks names no connector. -/
theorem eq_format_of_matches (hconnector : ' ' ∉ n.connector.toList) (hblank : ' ' ∈ target.toList)
    (h : n.matches target = true) :
    n.missingMms = false ∧ eqIgnoreAsciiCase target n.formatMakeModelSerial = true := by
  refine (matches_iff.mp h).resolve_left fun hsame => hconnector ?_
  have hmem : ' ' ∈ n.connector.toList.map Char.toLower := by
    rw [← beq_iff_eq.mp hsame]
    exact List.mem_map.mpr ⟨' ', hblank, rfl⟩
  obtain ⟨c, hc, hblank⟩ := List.mem_map.mp hmem
  exact toLower_eq_blank.mp hblank ▸ hc

theorem blank_mem_format (n : OutputName) : ' ' ∈ n.formatMakeModelSerial.toList := by
  simp [formatMakeModelSerial]

end OutputName

namespace Workspace

variable {ws ws' : Workspace} {output : Output} {id : ℕ} {own : String}

theorem hasWindowsOrName_setViewSize (ws : Workspace) (scale : ℚ) (transform : Transform) (size : Size)
    (area : Rectangle) :
    (ws.setViewSize scale transform size area).hasWindowsOrName = ws.hasWindowsOrName := by
  unfold setViewSize
  split
  · rfl
  · dsimp only
    split
    · exact hasWindowsOrName_congr rfl (windowIds_reconfigured rfl rfl)
    · exact hasWindowsOrName_congr rfl (windowIds_reconfigured rfl rfl)

theorem hasWindowsOrName_updateOutputSize (ws : Workspace) :
    ws.updateOutputSize.hasWindowsOrName = ws.hasWindowsOrName := by
  unfold updateOutputSize
  split
  · rfl
  · exact hasWindowsOrName_setViewSize ..

theorem hasWindowsOrName_setOutput (ws : Workspace) (output : Option Output) :
    (ws.setOutput output).hasWindowsOrName = ws.hasWindowsOrName := by
  unfold setOutput
  split
  · rfl
  · split
    · rfl
    · exact hasWindowsOrName_updateOutputSize _

theorem id_setOutput (ws : Workspace) (output : Option Output) : (ws.setOutput output).id = ws.id := by
  unfold setOutput
  split
  · rfl
  · split
    · rfl
    · exact (stays_updateOutputSize _).id

theorem originalOutput_setOutput (ws : Workspace) (output : Option Output) :
    (ws.setOutput output).originalOutput = ws.originalOutput ∨
      ∃ o, ws.originalOutput.matches o = true ∧ (ws.setOutput output).originalOutput = .new o ∧
        output = some o := by
  unfold setOutput
  split
  · exact .inl rfl
  · split
    · exact .inl rfl
    · rw [(stays_updateOutputSize _).originalOutput]
      dsimp only
      split
      · rename_i hmatches
        exact .inr ⟨_, hmatches, rfl, rfl⟩
      · exact .inl rfl

/-- A workspace with windows or a name, that belongs to the output of a make, model and serial. -/
structure Belongs (id : ℕ) (own : String) (ws : Workspace) : Prop where
  id : ws.id = id
  used : ws.hasWindowsOrName = true
  own : eqIgnoreAsciiCase own ws.originalOutput.name = true

theorem Belongs.matches_eq (h : Belongs id own ws) (output : Output) :
    ws.originalOutput.matches output = output.name.matches own :=
  (OutputName.matches_congr h.own).symm

theorem Belongs.updateConfig (h : Belongs id own ws) (options : Options) :
    Belongs id own (ws.updateConfig options) :=
  ⟨h.id, (hasWindowsOrName_updateConfig options).trans h.used, h.own⟩

theorem Belongs.setOutput (h : Belongs id own ws) (hblank : ' ' ∈ own.toList)
    {output : Option Output} (hconnector : ∀ o, output = some o → ' ' ∉ o.name.connector.toList) :
    Belongs id own (ws.setOutput output) := by
  refine ⟨(id_setOutput ws output).trans h.id, (hasWindowsOrName_setOutput ws output).trans h.used, ?_⟩
  obtain hsame | ⟨o, hmatches, hnew, houtput⟩ := originalOutput_setOutput ws output
  · rw [hsame]
    exact h.own
  · rw [h.matches_eq] at hmatches
    obtain ⟨hmissing, heq⟩ := OutputName.eq_format_of_matches (hconnector o houtput) hblank hmatches
    rw [hnew]
    change eqIgnoreAsciiCase own o.name.formatMakeModelSerialOrConnector = true
    rwa [OutputName.formatMakeModelSerialOrConnector, hmissing, if_neg Bool.false_ne_true]

end Workspace

/-! A monitor keeps the workspaces that have windows or a name. -/

theorem mem_eraseIdx {α : Type} {l : List α} {i : ℕ} {a : α} (ha : a ∈ l) (hne : l[i]? ≠ some a) :
    a ∈ l.eraseIdx i := by
  obtain ⟨j, hj⟩ := getElem?_of_mem ha
  refine mem_eraseIdx_iff_getElem?.mpr ⟨j, ?_, hj⟩
  rintro rfl
  exact hne hj

namespace Monitor

variable {m m' : Monitor} {ws : Workspace} {output : Output} {id i : ℕ} {own : String}

theorem mem_removeInactiveAt (hws : ws ∈ m.workspaces) (hused : ws.hasWindowsOrName = true)
    (h : m.isUnused i = true) : ws ∈ (m.removeInactiveAt i).workspaces := by
  obtain ⟨ws', hws', hunused⟩ := (Option.any_eq_true ..).mp (Bool.and_eq_true_iff.mp h).2
  refine mem_eraseIdx hws fun hget => ?_
  obtain rfl := some.inj (hws'.symm.trans hget)
  simp [hused] at hunused

theorem mem_cleanUpBelow (start n : ℕ) (m : Monitor) (hws : ws ∈ m.workspaces)
    (hused : ws.hasWindowsOrName = true) : ws ∈ (m.cleanUpBelow start n).workspaces := by
  induction n generalizing m with
  | zero => exact hws
  | succ i ih =>
    unfold cleanUpBelow
    split
    · exact hws
    · split
      · rename_i hunused
        exact ih _ (mem_removeInactiveAt hws hused hunused)
      · exact ih m hws

theorem mem_dropSecondEmpty (hws : ws ∈ m.workspaces) (hused : ws.hasWindowsOrName = true)
    (h : m.dropSecondEmpty = some m') : ws ∈ m'.workspaces := by
  unfold dropSecondEmpty at h
  split at h
  · split at h
    · cases h
    · rename_i hnone
      exact absurd (List.any_eq_true.mpr ⟨ws, hws, hused⟩) hnone
  · exact some.inj h ▸ hws

theorem mem_cleanUpWorkspaces (hws : ws ∈ m.workspaces) (hused : ws.hasWindowsOrName = true)
    (h : m.cleanUpWorkspaces = some m') : ws ∈ m'.workspaces := by
  unfold cleanUpWorkspaces at h
  split at h
  · cases h
  · exact mem_dropSecondEmpty (mem_cleanUpBelow _ _ m hws hused) hused h

theorem mem_stopSwitch (hws : ws ∈ m.workspaces) (hused : ws.hasWindowsOrName = true)
    (h : m.stopSwitch = some m') : ws ∈ m'.workspaces :=
  mem_cleanUpWorkspaces (m := { m with workspaceSwitch := none }) hws hused h

/-- The monitor has a workspace that belongs to the output of a make, model and serial. -/
def Holds (id : ℕ) (own : String) (workspaces : List Workspace) : Prop :=
  ∃ ws ∈ workspaces, Workspace.Belongs id own ws

theorem holds_intoWorkspaces (hblank : ' ' ∈ own.toList) (h : Holds id own m.workspaces) :
    Holds id own m.intoWorkspaces := by
  obtain ⟨ws, hws, hbelongs⟩ := h
  exact ⟨_, List.mem_map.mpr ⟨ws, mem_filter.mpr ⟨hws, hbelongs.used⟩, rfl⟩,
    hbelongs.setOutput hblank (fun _ ho => nomatch ho)⟩

theorem holds_attached (hblank : ' ' ∈ own.toList) (hconnector : ' ' ∉ output.name.connector.toList)
    (options : Options) {workspaces : List Workspace} (h : Holds id own workspaces) :
    Holds id own (workspaces.map fun ws => (ws.setOutput (some output)).updateConfig options) := by
  obtain ⟨ws, hws, hbelongs⟩ := h
  refine ⟨_, List.mem_map.mpr ⟨ws, hws, rfl⟩, (hbelongs.setOutput hblank fun o ho => ?_).updateConfig options⟩
  exact some.inj ho ▸ hconnector

theorem holds_appendWorkspaces (hblank : ' ' ∈ own.toList)
    (hconnector : ' ' ∉ m.output.name.connector.toList) {workspaces : List Workspace}
    (h : Holds id own m.workspaces ∨ Holds id own workspaces)
    (hm : m.appendWorkspaces workspaces = some m') : Holds id own m'.workspaces := by
  unfold appendWorkspaces at hm
  split at hm
  · rename_i hempty
    obtain rfl := some.inj hm
    refine h.resolve_right ?_
    rintro ⟨ws, hws, -⟩
    exact absurd hws (by simp [List.isEmpty_iff.mp hempty])
  · obtain ⟨empty, hlast, hm⟩ := of_bind hm
    have hall : Holds id own (m.workspaces.dropLast ++
        workspaces.map (fun ws => (ws.setOutput (some m.output)).updateConfig m.options) ++ [empty]) := by
      obtain ⟨ws, hws, hbelongs⟩ | h := h
      · refine ⟨ws, ?_, hbelongs⟩
        rw [← dropLast_append_getLast? empty hlast] at hws
        simp only [mem_append] at hws ⊢
        exact hws.imp_left .inl
      · obtain ⟨ws, hws, hbelongs⟩ := holds_attached hblank hconnector m.options h
        exact ⟨ws, mem_append_left _ (mem_append_right _ hws), hbelongs⟩
    obtain ⟨ws, hws, hbelongs⟩ := hall
    refine ⟨ws, mem_stopSwitch ?_ hbelongs.used hm, hbelongs⟩
    dsimp only
    split
    · split
      · exact mem_cons_of_mem _ hws
      · exact hws
    · split
      · exact mem_cons_of_mem _ hws
      · exact hws

/-- The workspaces of other outputs stay. -/
theorem mem_takeForOutput_fst (n : ℕ) (m : Monitor) (hws : ws ∈ m.workspaces)
    (hother : ws.originalOutput.matches output = false) :
    ws ∈ (m.takeForOutput output n).1.workspaces := by
  induction n generalizing m with
  | zero => exact hws
  | succ idx ih =>
    unfold takeForOutput
    dsimp only
    split
    · rename_i hfound
      refine ih (m.removeForOutput idx) (mem_eraseIdx hws fun hget => ?_)
      rw [hget, filter_some, hother] at hfound
      simp at hfound
    · exact ih m hws

/-- The output's own ones are taken. -/
theorem mem_takeForOutput_snd (n : ℕ) (m : Monitor) (hws : m.workspaces[i]? = some ws) (hi : i < n)
    (hown : ws.originalOutput.matches output = true) (hused : ws.hasWindowsOrName = true) :
    ws ∈ (m.takeForOutput output n).2 := by
  induction n generalizing m with
  | zero => omega
  | succ idx ih =>
    unfold takeForOutput
    dsimp only
    obtain rfl | hlt : i = idx ∨ i < idx := by omega
    · have hfound : m.workspaces[i]?.filter (·.originalOutput.matches output) = some ws := by
        rw [hws, filter_some, if_pos hown]
      rw [hfound]
      simp [hused]
    · split
      · refine mem_append_left _ (ih _ ?_ hlt)
        change (m.workspaces.eraseIdx idx)[i]? = some ws
        rwa [getElem?_eraseIdx_of_lt hlt]
      · exact ih m hws hlt

theorem holds_releaseFor {taken : List Workspace} (h : Holds id own m.workspaces)
    (hm : m.releaseFor output = some (m', taken)) :
    if output.name.matches own then Holds id own taken else Holds id own m'.workspaces := by
  obtain ⟨ws, hws, hbelongs⟩ := h
  obtain ⟨rest, hrest, hm⟩ := of_bind hm
  obtain ⟨rfl, rfl⟩ := pair_inj hm
  have hmatches := hbelongs.matches_eq output
  split
  · rename_i hown
    obtain ⟨i, hi⟩ := getElem?_of_mem hws
    refine ⟨ws, mem_takeForOutput_snd _ m hi ?_ (hmatches.trans hown) hbelongs.used, hbelongs⟩
    exact (List.getElem?_eq_some_iff.mp hi).1
  · rename_i hother
    have hmem := mem_takeForOutput_fst m.workspaces.length m hws
      (hmatches.trans (Bool.eq_false_iff.mpr hother))
    refine ⟨ws, ?_, hbelongs⟩
    unfold cleanUpIf at hrest
    split at hrest
    · exact mem_cleanUpWorkspaces hmem hbelongs.used hrest
    · exact some.inj hrest ▸ hmem

end Monitor

variable {l l' lt : Layout} {m m' : Monitor} {output : Output} {id : ℕ} {own : String}

open Monitor (Holds)

/-- The workspace waits on the primary monitor or, without outputs, in the layout. -/
def MonitorSet.Waits (id : ℕ) (own : String) : MonitorSet → Prop
  | .normal monitors primaryIdx _ =>
    ∃ m, monitors[primaryIdx]? = some m ∧ Holds id own m.workspaces
  | .noOutputs workspaces => Holds id own workspaces

/-- A workspace of the output that is removed waits for it, like those that waited already. -/
theorem waits_removeOutput (hhoused : l.Housed) (hblank : ' ' ∈ own.toList)
    (h : l.monitorSet.Waits id own ∨
      ∃ m, l.monitors.find? (·.output.same output) = some m ∧ Holds id own m.workspaces)
    (hl : l.removeOutput output = some l') : l'.monitorSet.Waits id own := by
  unfold removeOutput at hl
  split at hl
  · rename_i ms primaryIdx activeMonitorIdx hset
    have hms : l.monitors = ms := by simp [monitors, hset]
    obtain ⟨idx, hidx, hl⟩ := of_bind hl
    obtain ⟨removed, hremoved, hl⟩ := of_bind hl
    obtain ⟨active, -, hl⟩ := of_bind hl
    -- The workspaces of the primary monitor stay where they are, if it does.
    have hcase : Holds id own removed.workspaces ∨
        ∃ m, (ms.eraseIdx idx)[idxAfterRemoval primaryIdx idx]? = some m ∧ Holds id own m.workspaces := by
      obtain h | ⟨m, hm, hholds⟩ := h
      · rw [hset] at h
        obtain ⟨primary, hprimary, hholds⟩ := h
        obtain rfl | hne := eq_or_ne primaryIdx idx
        · obtain rfl := some.inj (hprimary.symm.trans hremoved)
          exact .inl hholds
        · refine .inr ⟨primary, ?_, hholds⟩
          unfold idxAfterRemoval
          split
          · rw [getElem?_eraseIdx_of_ge (by omega)]
            rwa [show primaryIdx - 1 + 1 = primaryIdx by omega]
          · rwa [getElem?_eraseIdx_of_lt (by omega)]
      · rw [hms, find?_of_findIdx? hidx hremoved] at hm
        exact .inl (some.inj hm ▸ hholds)
    dsimp only at hl
    split at hl
    · rename_i hempty
      obtain rfl := some.inj hl
      obtain hholds | ⟨m, hm, -⟩ := hcase
      · obtain ⟨ws, hws, hbelongs⟩ := Monitor.holds_intoWorkspaces hblank hholds
        exact ⟨_, List.mem_map.mpr ⟨ws, hws, rfl⟩, hbelongs.updateConfig l.options⟩
      · rw [List.isEmpty_iff.mp hempty] at hm
        cases hm
    · obtain ⟨primary, hprimary, hl⟩ := of_bind hl
      obtain ⟨primary', hprimary', rfl⟩ := of_bind_some hl
      obtain ⟨m, hm, rfl⟩ := of_map hprimary
      have hm : (ms.eraseIdx idx)[idxAfterRemoval primaryIdx idx]? = some m := hm
      have hmem := mem_of_mem_eraseIdx (mem_of_getElem? hm)
      refine ⟨primary', getElem?_set_self (List.getElem?_eq_some_iff.mp hm).1, ?_⟩
      refine Monitor.holds_appendWorkspaces (m := { m with nextId := l.nextId }) hblank
        (hhoused.normal hset m hmem).connector ?_ hprimary'
      obtain hholds | ⟨w, hw, hholds⟩ := hcase
      · exact .inr (Monitor.holds_intoWorkspaces hblank hholds)
      · obtain rfl := some.inj (hm.symm.trans hw)
        exact .inl hholds
  · cases hl

theorem holds_newMonitor (hblank : ' ' ∈ own.toList) (hconnector : ' ' ∉ output.name.connector.toList)
    {workspaces : List Workspace} {layoutConfig : Option LayoutPart} (h : Holds id own workspaces)
    (hm : l.newMonitor output workspaces layoutConfig = some m) : Holds id own m.workspaces := by
  obtain ⟨mt, hmt, rfl⟩ := of_bind_some hm
  unfold Monitor.new at hmt
  split at hmt
  · cases hmt
  · obtain rfl := some.inj hmt
    obtain ⟨ws, hws, hbelongs⟩ := Monitor.holds_attached hblank hconnector
      (l.options.withMergedLayout layoutConfig) h
    exact ⟨ws, mem_append_left _ (mem_append_right _ hws), hbelongs⟩

theorem output_newMonitor {workspaces : List Workspace} {layoutConfig : Option LayoutPart}
    (hm : l.newMonitor output workspaces layoutConfig = some m) : m.output = output := by
  obtain ⟨mt, hmt, rfl⟩ := of_bind_some hm
  unfold Monitor.new at hmt
  split at hmt
  · cases hmt
  · exact some.inj hmt ▸ rfl

/-- The workspace goes to the output that is added, if it is the one it waits for. -/
theorem addOutput_cases (hblank : ' ' ∈ own.toList) {layoutConfig : Option LayoutPart}
    (hconnector : ' ' ∉ output.name.connector.toList) (h : l.monitorSet.Waits id own)
    (hl : l.addOutput output layoutConfig = some l') :
    if output.name.matches own then ∃ m ∈ l'.monitors, m.output = output ∧ Holds id own m.workspaces
    else l'.monitorSet.Waits id own := by
  unfold addOutput at hl
  split at hl
  · rename_i ms primaryIdx activeMonitorIdx hset
    rw [hset] at h
    obtain ⟨primary, hprimary, hholds⟩ := h
    obtain ⟨w, hw, hl⟩ := of_bind hl
    obtain ⟨⟨rest, taken⟩, hrelease, hl⟩ := of_bind hl
    obtain ⟨monitor, hmonitor, rfl⟩ := of_bind_some hl
    obtain rfl := some.inj (hprimary.symm.trans hw)
    have hreleased := Monitor.holds_releaseFor hholds hrelease
    split
    · rename_i hown
      rw [if_pos hown] at hreleased
      exact ⟨monitor, mem_append_right _ (mem_singleton_self monitor),
        output_newMonitor hmonitor, holds_newMonitor hblank hconnector hreleased hmonitor⟩
    · rename_i hother
      rw [if_neg hother] at hreleased
      have hlt := (List.getElem?_eq_some_iff.mp hprimary).1
      refine ⟨rest, ?_, hreleased⟩
      rw [getElem?_append_left (by simpa using hlt), getElem?_set_self hlt]
  · rename_i workspaces hset
    rw [hset] at h
    obtain ⟨monitor, hmonitor, rfl⟩ := of_bind_some hl
    have hholds := holds_newMonitor hblank hconnector h hmonitor
    split
    · exact ⟨monitor, mem_singleton_self monitor, output_newMonitor hmonitor, hholds⟩
    · exact ⟨monitor, rfl, hholds⟩

/-- Other outputs come and go. -/
def OutputOp.Elsewhere (own : OutputId) : OutputOp → Prop
  | .addOutput output _ => own.matches output = false
  | .removeOutput _ => True
  | .focusOutput _ => True
  | .updateOutputSize _ => False
  | .updateLayoutConfig _ _ => False

theorem MonitorSet.Waits.focusOutput (h : l.monitorSet.Waits id own) (output : Output) :
    (l.focusOutput output).monitorSet.Waits id own := by
  unfold Layout.focusOutput Layout.activateMonitor
  split
  · split
    · rename_i hset
      rw [hset] at h
      exact h
    · exact h
  · exact h

theorem waits_applyOutput (hhoused : l.Housed) (hblank : ' ' ∈ own.toList)
    (h : l.monitorSet.Waits id own) {op : OutputOp} (hpromised : op.Promised l)
    (hop : op.Elsewhere ⟨own⟩) (hl : l.applyOutput op = some l') : l'.monitorSet.Waits id own := by
  cases op with
  | addOutput output =>
    have hcases := addOutput_cases hblank hpromised.2 h hl
    have hother : output.name.matches own = false := hop
    rwa [hother, if_neg Bool.false_ne_true] at hcases
  | removeOutput => exact waits_removeOutput hhoused hblank (.inl h) hl
  | focusOutput output => exact some.inj hl ▸ h.focusOutput output
  | updateOutputSize | updateLayoutConfig => exact hop.elim

/-- An output is unplugged and, after others came and went, one of the same make, model and serial is
plugged in. -/
def reconnection (output : Output) (between : List OutputOp) (output' : Output)
    (layoutConfig : Option LayoutPart) : List LayoutOp :=
  .output (.removeOutput output) :: (between.map .output ++ [.output (.addOutput output' layoutConfig)])

theorem returns_reconnection (hhoused : l.Housed) {between : List OutputOp} {output' : Output}
    {layoutConfig : Option LayoutPart} (hm : l.monitors.find? (·.output.same output) = some m)
    (hblank : ' ' ∈ own.toList) (hown : output'.name.matches own = true)
    (hholds : Holds id own m.workspaces) (hbetween : ∀ op ∈ between, op.Elsewhere ⟨own⟩)
    (hpromised : AllAlong apply (fun l op => op.Promised l) l
      (reconnection output between output' layoutConfig))
    (hl : run apply l (reconnection output between output' layoutConfig) = some l') :
    ∃ m' ∈ l'.monitors, m'.output = output' ∧ ∃ ws ∈ m'.workspaces, ws.id = id := by
  obtain ⟨lt, hlt, hl⟩ := of_bind hl
  have hpromised := hpromised.2 lt hlt
  obtain ⟨lu, hlu, hl⟩ := run_concat.mp hl
  obtain ⟨hthrough, hadd⟩ := (allAlong_concat hlu).mp hpromised
  have hwaits := waits_removeOutput hhoused hblank (.inr ⟨m, hm, hholds⟩) hlt
  -- The workspace waits while others come and go.
  have hkept (ops : List OutputOp) (hops : ∀ op ∈ ops, op.Elsewhere ⟨own⟩) (lt : Layout)
      (hthere : lt.Housed ∧ lt.monitorSet.Waits id own)
      (hthrough : AllAlong apply (fun l op => op.Promised l) lt (ops.map .output))
      (hlu : run apply lt (ops.map .output) = some lu) : lu.monitorSet.Waits id own := by
    induction ops generalizing lt with
    | nil => exact some.inj hlu ▸ hthere.2
    | cons op ops ih =>
      obtain ⟨lv, hlv, hlu⟩ := of_bind hlu
      refine ih (fun op hop => hops op (mem_cons_of_mem _ hop)) lv ⟨?_, ?_⟩ (hthrough.2 lv hlv) hlu
      · exact housed_applyOutput hthere.1 hthrough.1 hlv
      · exact waits_applyOutput hthere.1 hblank hthere.2 hthrough.1 (hops op mem_cons_self) hlv
  have hcases := addOutput_cases hblank hadd.2
    (hkept between hbetween lt ⟨housed_removeOutput hhoused hlt, hwaits⟩ hthrough hlu) hl
  rw [if_pos hown] at hcases
  obtain ⟨m', hm', hout, ws, hws, hbelongs⟩ := hcases
  exact ⟨m', hm', hout, ws, hws, hbelongs.id⟩

/-- If the config spells the outputs that it opens workspaces on in full, every workspace on its own
output goes by the output's very id, and returns to it on whatever connector. -/
theorem originalOutput_normal {clock : ℚ} {config : Config} {ops : List LayoutOp}
    (hpromised : AllAlong apply (fun l op => op.Promised l) (new clock config) ops)
    (hspelled : AllAlong apply (fun l op => op.Spelled l) (new clock config) ops)
    (hl : run apply (new clock config) ops = some l) :
    (∀ m ∈ l.monitors, ∀ ws ∈ m.workspaces,
      ws.originalOutput.matches m.output = true → ws.originalOutput = .new m.output) ∧
    ∀ output m, l.monitors.find? (·.output.same output) = some m → m.output.name.missingMms = false →
      ∀ ws ∈ m.workspaces, ws.hasWindowsOrName = true → ws.originalOutput.matches m.output = true →
      ∀ (between : List OutputOp) (output' : Output) (layoutConfig : Option LayoutPart) (l' : Layout),
        (∀ op ∈ between, op.Elsewhere (.new m.output)) →
        output'.name.make = m.output.name.make → output'.name.model = m.output.name.model →
        output'.name.serial = m.output.name.serial →
        AllAlong apply (fun l op => op.Promised l) l
          (reconnection output between output' layoutConfig) →
        run apply l (reconnection output between output' layoutConfig) = some l' →
        ∃ m' ∈ l'.monitors, m'.output = output' ∧ ∃ ws' ∈ m'.workspaces, ws'.id = ws.id := by
  have hhoused := housed_run hpromised hspelled hl
  refine ⟨fun m hm ws hws => ((hhoused.monitors m hm).atHome ws hws).own, ?_⟩
  intro output m hm hmissing ws hws hused hmatches between output' layoutConfig l' hbetween hmake hmodel
    hserial hpromised' hl'
  have hmem := mem_of_find?_eq_some hm
  have hown := ((hhoused.monitors m hmem).atHome ws hws).own hmatches
  have hname : OutputId.new m.output = ⟨m.output.name.formatMakeModelSerial⟩ := by
    rw [OutputId.new, OutputName.formatMakeModelSerialOrConnector, hmissing, if_neg Bool.false_ne_true]
  have hformat : output'.name.formatMakeModelSerial = m.output.name.formatMakeModelSerial := by
    rw [OutputName.formatMakeModelSerial, hmake, hmodel, hserial, OutputName.formatMakeModelSerial]
  have hmissing' : output'.name.missingMms = false := by
    rwa [OutputName.missingMms, hmake, hmodel, hserial]
  refine returns_reconnection hhoused hm (OutputName.blank_mem_format m.output.name) ?_
    ⟨ws, hws, rfl, hused, ?_⟩ ?_ hpromised' hl'
  · exact OutputName.matches_iff.mpr (.inr ⟨hmissing', by rw [hformat]; exact eqIgnoreAsciiCase_self _⟩)
  · rw [hown, hname]
    exact eqIgnoreAsciiCase_self _
  · rwa [hname] at hbetween

def connected (handle : ℕ) (name : OutputName) : Output :=
  ⟨handle, name, 1, .normal, ⟨1280, 720⟩, ⟨⟨0, 0⟩, ⟨1280, 720⟩⟩⟩

def laptop : Output := connected 0 ⟨"eDP-1", none, none, none⟩

def screen (handle : ℕ) (connector : String) : Output :=
  connected handle ⟨connector, some "Acme", some "Wide", some "7"⟩

/-- A workspace of the config is opened on the screen. -/
def opened (openOnOutput : String) : List LayoutOp :=
  [.output (.addOutput laptop none), .output (.addOutput (screen 1 "DP-1") none),
    .naming (.ensureNamedWorkspace ⟨"web", some openOnOutput, none⟩)]

def replugged : List LayoutOp := reconnection (screen 1 "DP-1") [] (screen 2 "DP-2") none

/-- The ids of the workspaces on an output. -/
def idsOn (l : Layout) (output : Output) : List ℕ :=
  (l.monitors.filter (·.output.same output)).flatMap fun m => m.workspaces.map (·.id)

theorem originalOutput_normal_screen :
    ∃ l l', run apply (new 0 ⟨[], .default⟩) (opened "Acme Wide 7") = some l ∧
      run apply l replugged = some l' ∧
      ∃ m' ∈ l'.monitors, m'.output = screen 2 "DP-2" ∧ ∃ ws' ∈ m'.workspaces, ws'.id = 3 := by
  refine ⟨_, _, rfl, rfl, ?_⟩
  have hopened := @originalOutput_normal _ 0 ⟨[], .default⟩ (opened "Acme Wide 7")
    (allAlong_of_decide (by decide))
    (allAlong_of_decide (by decide)) rfl
  exact hopened.2 (screen 1 "DP-1") _ rfl rfl _ mem_cons_self rfl (by decide) [] (screen 2 "DP-2") none _
    (fun _ hop => absurd hop not_mem_nil) rfl rfl rfl
    (allAlong_of_decide (by decide)) rfl

/-- A workspace opened on a connector does not follow its output to another one. -/
theorem opened_on_connector_stays_behind :
    ∃ l l', run apply (new 0 ⟨[], .default⟩) (opened "DP-1") = some l ∧
      AllAlong apply (fun l op => op.Promised l) (new 0 ⟨[], .default⟩) (opened "DP-1") ∧
      run apply l replugged = some l' ∧ AllAlong apply (fun l op => op.Promised l) l replugged ∧
      (∃ m ∈ l.monitors, ∃ ws ∈ m.workspaces, ws.id = 3 ∧
        ws.originalOutput.matches m.output = true ∧ ws.originalOutput ≠ .new m.output) ∧
      3 ∈ idsOn l (screen 1 "DP-1") ∧ 3 ∈ idsOn l' laptop ∧ 3 ∉ idsOn l' (screen 2 "DP-2") := by
  refine ⟨_, _, rfl,
    allAlong_of_decide (by decide), rfl,
    allAlong_of_decide (by decide),
    by decide, by decide, by decide, by decide⟩

end Macniri.Layout
