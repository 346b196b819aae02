import Macniri.Layout.ActiveWorkspace
import Macniri.Layout.Reconnect
import Macniri.Lib.Moved

/-! Which workspace is active after workspaces are reordered. -/
namespace Macniri.Layout.Monitor

open List Option

/-- What the layout asserts about the list of workspaces of a monitor; the ids come from a counter. -/
structure Listed (m : Monitor) : Prop where
  active : m.activeWorkspaceIdx < m.workspaces.length
  last : (m.workspaces[m.workspaces.length - 1]?.any (·.hasWindowsOrName)) = false
  first : m.emptyAboveFirst = true → (m.workspaces[0]?.any (·.hasWindowsOrName)) = false
  notTwo : m.emptyAboveFirst = true → m.workspaces.length ≠ 2
  settled : m.workspaceSwitch = none → ∀ i, i < m.workspaces.length - 1 →
    (if m.emptyAboveFirst then 1 else 0) ≤ i → i ≠ m.activeWorkspaceIdx →
    (m.workspaces[i]?.any (·.hasWindowsOrName)) = true
  nodup : m.ids.Nodup
  fresh : ∀ id ∈ m.ids, id < m.nextId

theorem listed_iff (m : Monitor) : m.Listed ↔ m.activeWorkspaceIdx < m.workspaces.length ∧
    (m.workspaces[m.workspaces.length - 1]?.any (·.hasWindowsOrName)) = false ∧
    (m.emptyAboveFirst = true → (m.workspaces[0]?.any (·.hasWindowsOrName)) = false) ∧
    (m.emptyAboveFirst = true → m.workspaces.length ≠ 2) ∧
    (m.workspaceSwitch = none → ∀ i, i < m.workspaces.length - 1 →
      (if m.emptyAboveFirst then 1 else 0) ≤ i → i ≠ m.activeWorkspaceIdx →
      (m.workspaces[i]?.any (·.hasWindowsOrName)) = true) ∧
    m.ids.Nodup ∧ ∀ id ∈ m.ids, id < m.nextId :=
  ⟨fun h => ⟨h.active, h.last, h.first, h.notTwo, h.settled, h.nodup, h.fresh⟩,
    fun ⟨h₁, h₂, h₃, h₄, h₅, h₆, h₇⟩ => ⟨h₁, h₂, h₃, h₄, h₅, h₆, h₇⟩⟩

instance (m : Monitor) : Decidable m.Listed := decidable_of_iff' _ (listed_iff m)

/-- The ways to reorder the workspaces of a monitor. -/
inductive Reorder where
  | up
  | down
  | toIdx (oldIdx newIdx : ℕ)
  deriving DecidableEq, Repr

def reorder (m : Monitor) : Reorder → Option Monitor
  | .up => m.moveWorkspaceUp
  | .down => m.moveWorkspaceDown
  | .toIdx oldIdx newIdx => m.moveWorkspaceToIdx oldIdx newIdx

/-- The workspace that moves. -/
def movedId (m : Monitor) : Reorder → Option ℕ
  | .up | .down => m.activeId
  | .toIdx oldIdx _ => m.ids[oldIdx]?

/-- `m'` has the workspaces of `m` in use, the others than the moved one in order, and the same active
one. -/
structure Reordered (moved : Option ℕ) (m m' : Monitor) : Prop where
  focus : m'.activeId = m.activeId
  used : ∀ ws ∈ m.workspaces, ws.hasWindowsOrName = true → ws ∈ m'.workspaces
  order : (m'.ids.filter fun id => decide (id ∈ m.ids ∧ some id ≠ moved)).Sublist m.ids

def allUnused (m : Monitor) : Bool := m.workspaces.all (!·.hasWindowsOrName)

/-- The moves after which another workspace is active. With an empty workspace above the first: the
active one moves away from the top or to it, or the one below the active one moves to the top; or
nothing is in use, the last workspace is active and another one moves above it. -/
def Misfocuses (m : Monitor) : Reorder → Prop
  | .up | .down => False
  | .toIdx i j =>
    let k := min j (m.workspaces.length - 1)
    let a := m.activeWorkspaceIdx
    m.emptyAboveFirst = true ∧ i < m.workspaces.length ∧ i ≠ k ∧
      (i = 0 ∧ a = 0 ∨ k = 0 ∧ (a = i ∨ a + 1 = i) ∨
        m.allUnused = true ∧ a + 1 = m.workspaces.length ∧ i < a ∧ k < a)

instance (m : Monitor) : DecidablePred m.Misfocuses
  | .up | .down => inferInstanceAs (Decidable False)
  | .toIdx _ _ => inferInstanceAs (Decidable (_ ∧ _))

variable {m m' mt : Monitor} {ws : Workspace} {i j k c start n : ℕ}

/-! Cleaning up. -/

theorem isUnused_removeInactiveAt (hn : m.isUnused n = true) {idx : ℕ} (hidx : idx < n) :
    (m.removeInactiveAt n).isUnused idx = m.isUnused idx := by
  have hne : m.activeWorkspaceIdx ≠ n := by
    rintro rfl
    simp [isUnused] at hn
  have hactive : (m.removeInactiveAt n).activeWorkspaceIdx ≠ idx ↔ m.activeWorkspaceIdx ≠ idx := by
    unfold removeInactiveAt
    dsimp only
    split <;> omega
  have hws : (m.removeInactiveAt n).workspaces[idx]? = m.workspaces[idx]? :=
    getElem?_eraseIdx_of_lt hidx
  unfold isUnused
  rw [hws, Bool.eq_iff_iff.mpr (bne_iff_ne.trans (hactive.trans bne_iff_ne.symm))]

/-- The clean-up leaves both ends, and nothing between them when nothing there is in use. -/
theorem cleanUpBelow_spec (hstart : start ≤ n) (hn : n ≤ m.workspaces.length) :
    ∃ mid, (m.cleanUpBelow start n).workspaces =
        m.workspaces.take start ++ mid ++ m.workspaces.drop n ∧
      (mid = [] ↔ ∀ idx, start ≤ idx → idx < n → m.isUnused idx = true) := by
  induction n generalizing m with
  | zero =>
    obtain rfl : start = 0 := by omega
    exact ⟨[], rfl, iff_of_true rfl fun idx _ h => absurd h (Nat.not_lt_zero idx)⟩
  | succ n ih =>
    unfold cleanUpBelow
    rcases Nat.lt_or_ge n start with hlt | hge
    · obtain rfl : start = n + 1 := by omega
      rw [if_pos hlt]
      exact ⟨[], by simp, iff_of_true rfl fun idx h h' => by omega⟩
    · rw [if_neg (by omega)]
      have hlt : n < m.workspaces.length := hn
      cases hunused : m.isUnused n with
      | true =>
        have hlen : (m.removeInactiveAt n).workspaces.length = m.workspaces.length - 1 :=
          length_eraseIdx_of_lt hlt
        obtain ⟨mid, hmid, hnil⟩ := ih (m := m.removeInactiveAt n) hge (by omega)
        rw [if_pos rfl]
        refine ⟨mid, hmid.trans ?_, hnil.trans ⟨fun h idx hs hi => ?_, fun h idx hs hi => ?_⟩⟩
        · unfold removeInactiveAt
          dsimp only
          rw [take_eraseIdx_eq_take_of_le _ _ _ hge, eraseIdx_eq_take_drop_succ,
            drop_left' (by simp; omega)]
        · rcases Nat.lt_or_ge idx n with hlt' | hge'
          · exact (isUnused_removeInactiveAt hunused hlt').symm.trans (h idx hs hlt')
          · obtain rfl : idx = n := by omega
            exact hunused
        · exact (isUnused_removeInactiveAt hunused hi).trans (h idx hs (by omega))
      | false =>
        obtain ⟨mid, hmid, -⟩ := ih (m := m) hge (by omega)
        rw [if_neg Bool.false_ne_true]
        refine ⟨mid ++ [m.workspaces[n]], hmid.trans ?_, iff_of_false (by simp) fun h => ?_⟩
        · rw [drop_eq_getElem_cons hlt]
          simp
        · exact Bool.false_ne_true (hunused.symm.trans (h n hge (Nat.lt_succ_self n)))

theorem sublist_cleanUpBelow (start n : ℕ) (m : Monitor) :
    (m.cleanUpBelow start n).workspaces.Sublist m.workspaces := by
  induction n generalizing m with
  | zero => exact .refl _
  | succ n ih =>
    unfold cleanUpBelow
    split
    · exact .refl _
    · split
      · exact (ih _).trans (eraseIdx_sublist _ _)
      · exact ih m

theorem dropSecondEmpty_two {a b : Workspace} (habove : m.emptyAboveFirst = true)
    (hws : m.workspaces = [a, b]) (ha : a.hasWindowsOrName = false) (hb : b.hasWindowsOrName = false) :
    m.dropSecondEmpty = some { m with workspaces := [a], activeWorkspaceIdx := 0 } := by
  unfold dropSecondEmpty
  rw [if_pos ⟨habove, by rw [hws]; rfl⟩, hws, if_neg (by simp [ha, hb])]
  rfl

theorem dropSecondEmpty_of_ne (h : ¬ (m.emptyAboveFirst = true ∧ m.workspaces.length = 2)) :
    m.dropSecondEmpty = some m := by
  unfold dropSecondEmpty
  rw [if_neg h]

/-- With an empty workspace above the first, the clean-up leaves nothing but the two ends. -/
def Emptied (m : Monitor) : Prop := m.emptyAboveFirst = true ∧
  ∀ idx, 1 ≤ idx → idx < m.workspaces.length - 1 → m.isUnused idx = true

theorem exists_stopSwitch (hlen : 1 < m.workspaces.length)
    (hlast : (m.workspaces[m.workspaces.length - 1]?.any (·.hasWindowsOrName)) = false)
    (hfirst : m.emptyAboveFirst = true → (m.workspaces[0]?.any (·.hasWindowsOrName)) = false) :
    ∃ m', m.stopSwitch = some m' ∧ m'.ids.Sublist m.ids ∧ (Emptied m → m'.activeId = m.ids[0]?) ∧
      (¬ Emptied m → m'.activeId = m.activeId) := by
  obtain ⟨ms, hms⟩ : ∃ ms : Monitor, ms = { m with workspaceSwitch := none } := ⟨_, rfl⟩
  obtain ⟨start, hstart⟩ : ∃ start, start = if m.emptyAboveFirst then 1 else 0 := ⟨_, rfl⟩
  obtain ⟨mt, hmt⟩ : ∃ mt, mt = ms.cleanUpBelow start (m.workspaces.length - 1) := ⟨_, rfl⟩
  have hstop : m.stopSwitch = mt.dropSecondEmpty := by
    subst hmt hstart hms
    unfold stopSwitch cleanUpWorkspaces
    dsimp only
    rw [if_neg (by simp; rintro h; simp [h] at hlen)]
    rfl
  have hws : ms.workspaces = m.workspaces := by rw [hms]
  have hsub : mt.ids.Sublist m.ids := by
    rw [hmt]
    exact (hws ▸ sublist_cleanUpBelow start _ ms).map _
  have hactive : mt.activeId = m.activeId := by
    rw [hmt, activeId_cleanUpBelow, hms]
    rfl
  have habove : mt.emptyAboveFirst = m.emptyAboveFirst := by
    rw [hmt, emptyAboveFirst_cleanUpBelow, hms]
    rfl
  have hle : start ≤ 1 := by
    rw [hstart]
    split <;> omega
  obtain ⟨first, hfirst'⟩ : ∃ first, m.workspaces[0]? = some first :=
    ⟨_, getElem?_eq_getElem (by omega)⟩
  obtain ⟨last, hlast'⟩ : ∃ last, m.workspaces[m.workspaces.length - 1]? = some last :=
    ⟨_, getElem?_eq_getElem (by omega)⟩
  obtain ⟨mid, hmid, hnil⟩ := cleanUpBelow_spec (m := ms)
    (show start ≤ m.workspaces.length - 1 by omega) (by rw [hws]; omega)
  have hends (h : m.emptyAboveFirst = true) : mt.workspaces = first :: (mid ++ [last]) := by
    rw [if_pos h] at hstart
    rw [hmt, hmid, hws, hstart, take_one_of_getElem? hfirst', drop_of_getElem?_last hlast']
    rfl
  have hnone (h : m.emptyAboveFirst = true) :
      mid = [] ↔ ∀ idx, 1 ≤ idx → idx < m.workspaces.length - 1 → m.isUnused idx = true := by
    rw [if_pos h] at hstart
    rw [hnil, hstart, hms]
    rfl
  rw [hstop]
  by_cases h : Emptied m
  · have htwo : mt.workspaces = [first, last] := by
      rw [hends h.1, (hnone h.1).mpr h.2]
      rfl
    rw [hlast'] at hlast
    rw [hfirst'] at hfirst
    refine ⟨_, dropSecondEmpty_two (habove.trans h.1) htwo (hfirst h.1) hlast, ?_, fun _ => ?_,
      fun hnot => absurd h hnot⟩
    · refine Sublist.trans ?_ hsub
      unfold ids
      rw [htwo]
      exact sublist_append_left [first.id] [last.id]
    · unfold activeId ids
      rw [getElem?_map, getElem?_map, hfirst']
      rfl
  · refine ⟨mt, dropSecondEmpty_of_ne fun ⟨h₁, h₂⟩ => h ?_, hsub, fun h' => absurd h' h,
      fun _ => hactive⟩
    have h' := habove.symm.trans h₁
    refine ⟨h', (hnone h').mp ?_⟩
    rw [hends h'] at h₂
    exact eq_nil_of_length_eq_zero (by simpa using h₂)

theorem any_eq_false_of_allUnused (h : m.allUnused = true) (idx : ℕ) :
    (m.workspaces[idx]?.any (·.hasWindowsOrName)) = false := by
  cases hws : m.workspaces[idx]? with
  | none => rfl
  | some ws =>
    have hunused := List.all_eq_true.mp h ws (mem_of_getElem? hws)
    simpa using hunused

theorem emptied_iff (hlast : (m.workspaces[m.workspaces.length - 1]?.any (·.hasWindowsOrName)) = false)
    (hfirst : m.emptyAboveFirst = true → (m.workspaces[0]?.any (·.hasWindowsOrName)) = false)
    (hactive : m.activeWorkspaceIdx < m.workspaces.length) :
    Emptied m ↔ m.emptyAboveFirst = true ∧ m.allUnused = true ∧
      (m.activeWorkspaceIdx = 0 ∨ m.activeWorkspaceIdx + 1 = m.workspaces.length) := by
  constructor
  · rintro ⟨habove, hmid⟩
    refine ⟨habove, List.all_eq_true.mpr fun ws hws => ?_, ?_⟩
    · obtain ⟨idx, hidx⟩ := mem_iff_getElem?.mp hws
      have hlt := lt_length_of_getElem? hidx
      rcases Nat.eq_zero_or_pos idx with rfl | hpos
      · simpa [hidx] using hfirst habove
      · rcases Nat.lt_or_ge idx (m.workspaces.length - 1) with hbefore | hend
        · have hunused := (Bool.and_eq_true_iff.mp (hmid idx hpos hbefore)).2
          simpa [hidx] using hunused
        · obtain rfl : idx = m.workspaces.length - 1 := by omega
          simpa [hidx] using hlast
    · by_contra hne
      have hunused := hmid m.activeWorkspaceIdx (by omega) (by omega)
      simp [isUnused] at hunused
  · rintro ⟨habove, hunused, hends⟩
    refine ⟨habove, fun idx hpos hbefore => Bool.and_eq_true_iff.mpr ⟨bne_iff_ne.mpr (by omega), ?_⟩⟩
    obtain ⟨ws, hws⟩ : ∃ ws, m.workspaces[idx]? = some ws := ⟨_, getElem?_eq_getElem (by omega)⟩
    have hunused := any_eq_false_of_allUnused hunused idx
    rw [hws] at hunused ⊢
    simpa using hunused

/-- The index of the workspace that is active after the clean-up. -/
def keptIdx (m : Monitor) : ℕ :=
  if m.emptyAboveFirst = true ∧ m.allUnused = true ∧ m.activeWorkspaceIdx + 1 = m.workspaces.length then 0
  else m.activeWorkspaceIdx

theorem exists_stopSwitch_keptIdx (hlen : 1 < m.workspaces.length)
    (hlast : (m.workspaces[m.workspaces.length - 1]?.any (·.hasWindowsOrName)) = false)
    (hfirst : m.emptyAboveFirst = true → (m.workspaces[0]?.any (·.hasWindowsOrName)) = false)
    (hactive : m.activeWorkspaceIdx < m.workspaces.length) :
    ∃ m', m.stopSwitch = some m' ∧ m'.ids.Sublist m.ids ∧ m'.activeId = m.ids[m.keptIdx]? := by
  obtain ⟨m', hm', hids, hemptied, hkept⟩ := exists_stopSwitch hlen hlast hfirst
  refine ⟨m', hm', hids, ?_⟩
  have hiff := emptied_iff hlast hfirst hactive
  unfold keptIdx
  split
  · rename_i h
    exact hemptied (hiff.mpr ⟨h.1, h.2.1, .inr h.2.2⟩)
  · rename_i h
    by_cases hem : Emptied m
    · obtain ⟨habove, hunused, hzero | hend⟩ := hiff.mp hem
      · rw [hzero]
        exact hemptied hem
      · exact absurd ⟨habove, hunused, hend⟩ h
    · exact hkept hem

/-! The empty workspaces that a move adds at the ends. -/

structure Padded (m mp : Monitor) (top bottom : List Workspace) : Prop where
  workspaces : mp.workspaces = top ++ m.workspaces ++ bottom
  above : mp.emptyAboveFirst = m.emptyAboveFirst
  unused : ∀ ws ∈ top ++ bottom, ws.hasWindowsOrName = false
  fresh : ∀ ws ∈ top ++ bottom, m.nextId ≤ ws.id
  nodup : ((top ++ bottom).map (·.id)).Nodup

theorem Padded.last {mp : Monitor} {top bottom : List Workspace} (h : Padded m mp top bottom)
    (hne : 0 < m.workspaces.length)
    (hlast : bottom = [] → (m.workspaces[m.workspaces.length - 1]?.any (·.hasWindowsOrName)) = false) :
    (mp.workspaces[mp.workspaces.length - 1]?.any (·.hasWindowsOrName)) = false := by
  rw [h.workspaces]
  rcases eq_nil_or_concat bottom with rfl | ⟨init, w, rfl⟩
  · rw [append_nil, length_append, getElem?_append_right (by omega)]
    rw [show top.length + m.workspaces.length - 1 - top.length = m.workspaces.length - 1 by omega]
    exact hlast rfl
  · have hunused := h.unused w (by simp)
    rw [concat_eq_append, ← append_assoc, length_append, length_singleton,
      Nat.add_sub_cancel, getElem?_concat_length]
    exact hunused

theorem Padded.first {mp : Monitor} {top bottom : List Workspace} (h : Padded m mp top bottom)
    (hne : 0 < m.workspaces.length)
    (hfirst : top = [] → (m.workspaces[0]?.any (·.hasWindowsOrName)) = false) :
    (mp.workspaces[0]?.any (·.hasWindowsOrName)) = false := by
  rw [h.workspaces]
  cases top with
  | nil =>
    rw [nil_append, getElem?_append_left hne]
    exact hfirst rfl
  | cons w top => exact h.unused w mem_cons_self

theorem exists_bottom (hactive : m.activeWorkspaceIdx < m.workspaces.length) (b : Prop) [Decidable b]
    (hmt : mt = if b then m.addWorkspaceBottom else m) :
    ∃ bottom, Padded m mt [] bottom ∧ bottom.length = (if b then 1 else 0) ∧
      mt.activeWorkspaceIdx = m.activeWorkspaceIdx ∧ m.nextId ≤ mt.nextId ∧
      ∀ ws ∈ bottom, ws.id < mt.nextId := by
  subst hmt
  split
  · refine ⟨[Workspace.new m.nextId m.output m.clock m.options], ⟨?_, rfl, ?_, ?_, ?_⟩, rfl, ?_,
      Nat.le_succ _, ?_⟩
    · unfold addWorkspaceBottom addWorkspaceAt
      dsimp only
      rw [insertIdx_length_self, nil_append]
    · intro ws hws
      obtain rfl := mem_singleton.mp hws
      rfl
    · intro ws hws
      obtain rfl := mem_singleton.mp hws
      exact Nat.le_refl _
    · exact nodup_singleton _
    · unfold addWorkspaceBottom addWorkspaceAt
      dsimp only
      rw [if_neg (by omega)]
    · intro ws hws
      obtain rfl := mem_singleton.mp hws
      exact Nat.lt_succ_self _
  · refine ⟨[], ⟨by simp, rfl, ?_, ?_, nodup_nil⟩, rfl, rfl, Nat.le_refl _, ?_⟩
    · exact fun _ h => absurd h not_mem_nil
    · exact fun _ h => absurd h not_mem_nil
    · exact fun _ h => absurd h not_mem_nil

/-- A workspace on top of one or none at the bottom. -/
theorem Padded.addTop {bottom : List Workspace} (h : Padded m mt [] bottom)
    (hlt : ∀ ws ∈ bottom, ws.id < mt.nextId) (hle : m.nextId ≤ mt.nextId) :
    Padded m mt.addWorkspaceTop [Workspace.new mt.nextId mt.output mt.clock mt.options] bottom := by
  refine ⟨?_, h.above, fun ws hws => ?_, fun ws hws => ?_, ?_⟩
  · unfold addWorkspaceTop addWorkspaceAt
    dsimp only
    rw [insertIdx_zero, h.workspaces]
    rfl
  · rcases mem_cons.mp hws with rfl | hws
    · rfl
    · exact h.unused ws hws
  · rcases mem_cons.mp hws with rfl | hws
    · exact hle
    · exact h.fresh ws hws
  · refine nodup_cons.mpr ⟨fun hmem => ?_, h.nodup⟩
    obtain ⟨ws, hws, hid⟩ := List.mem_map.mp hmem
    exact Nat.lt_irrefl _ (hid ▸ hlt ws hws)

theorem exists_padAfterMove (hactive : m.activeWorkspaceIdx < m.workspaces.length) (i j : ℕ) :
    ∃ top bottom, Padded m (m.padAfterMove i j).1 top bottom ∧
      top.length = (if m.emptyAboveFirst ∧ min i j = 0 then 1 else 0) ∧
      bottom.length = (if max i j + 1 = m.workspaces.length then 1 else 0) ∧
      (m.padAfterMove i j).2 = j + top.length ∧
      (m.padAfterMove i j).1.activeWorkspaceIdx = m.activeWorkspaceIdx + top.length := by
  obtain ⟨mb, hmb⟩ : ∃ mb, mb = if max i j + 1 = m.workspaces.length then m.addWorkspaceBottom else m :=
    ⟨_, rfl⟩
  obtain ⟨bottom, hbottom, hlen, hidx, hle, hlt⟩ := exists_bottom hactive _ hmb
  unfold padAfterMove
  rw [← hmb]
  dsimp only
  rw [hbottom.above]
  split
  · exact ⟨_, bottom, hbottom.addTop hlt hle, rfl, hlen, rfl, congrArg (· + 1) hidx⟩
  · exact ⟨[], bottom, hbottom, rfl, hlen, rfl, hidx⟩

/-! A workspace that moves. -/

def placed (m : Monitor) (i k : ℕ) (ws : Workspace) : Monitor :=
  { m with workspaces := (m.workspaces.eraseIdx i).insertIdx k ws }

/-- `mf` has the workspaces of `m` with the one at `i` moved to `k`, the given number of empty ones on
top of them and maybe more below. -/
structure Moved (i k top : ℕ) (moved : Option ℕ) (m mf : Monitor) : Prop where
  above : mf.emptyAboveFirst = m.emptyAboveFirst
  length : mf.workspaces.length =
    m.workspaces.length + top + if max i k + 1 = m.workspaces.length then 1 else 0
  nodup : mf.ids.Nodup
  activeId : m.activeId = mf.ids[indexAfterMove i k m.activeWorkspaceIdx + top]?
  last : (mf.workspaces[mf.workspaces.length - 1]?.any (·.hasWindowsOrName)) = false
  first : mf.emptyAboveFirst = true → (mf.workspaces[0]?.any (·.hasWindowsOrName)) = false
  mem : ∀ ws ∈ m.workspaces, ws ∈ mf.workspaces
  allUnused : mf.allUnused = m.allUnused
  order : (mf.ids.filter fun id => decide (id ∈ m.ids ∧ some id ≠ moved)).Sublist m.ids

theorem Moved.exists_stopSwitch {top : ℕ} {moved : Option ℕ} {mf : Monitor}
    (h : Moved i k top moved m mf) (hlen : 1 < m.workspaces.length)
    (hactive : mf.activeWorkspaceIdx < mf.workspaces.length) :
    ∃ m', mf.stopSwitch = some m' ∧ (Reordered moved m m' ↔
      mf.keptIdx = indexAfterMove i k m.activeWorkspaceIdx + top) := by
  have hlength := h.length
  obtain ⟨m', hm', hids, hid⟩ :=
    exists_stopSwitch_keptIdx (by omega) h.last h.first hactive
  refine ⟨m', hm', fun hr => ?_, fun hidx => ⟨?_, fun ws hws hused => ?_, ?_⟩⟩
  · have hlt : mf.keptIdx < mf.ids.length := by
      unfold keptIdx ids
      rw [length_map]
      split <;> omega
    exact (getElem?_inj hlt h.nodup).mp (hid.symm.trans (hr.focus.trans h.activeId))
  · rw [hid, hidx, h.activeId]
  · exact mem_stopSwitch (h.mem ws hws) hused hm'
  · exact (hids.filter _).trans h.order

theorem ids_placed (m : Monitor) (i k : ℕ) (ws : Workspace) :
    (m.placed i k ws).ids = (m.ids.eraseIdx i).insertIdx k ws.id := by
  unfold placed ids
  rw [map_insertIdx, eraseIdx_map]

theorem allUnused_eq_of_perm (h : m'.workspaces.Perm m.workspaces) : m'.allUnused = m.allUnused :=
  h.all_eq

/-- Both ends stay unused: where the move touches one, an empty workspace is added. -/
theorem moved_padAfterMove {mf : Monitor} {top bottom : List Workspace} (hm : m.Listed)
    (hws : m.workspaces[i]? = some ws) (hk : k < m.workspaces.length)
    (hpad : Padded (m.placed i k ws) mf top bottom)
    (htop : top.length = if m.emptyAboveFirst ∧ min i k = 0 then 1 else 0)
    (hbottom : bottom.length = if max i k + 1 = m.workspaces.length then 1 else 0) :
    Moved i k top.length (some ws.id) m mf := by
  have hi := lt_length_of_getElem? hws
  have hperm : (m.placed i k ws).workspaces.Perm m.workspaces := perm_move hws hk
  have hids : mf.ids = top.map (·.id) ++ (m.placed i k ws).ids ++ bottom.map (·.id) := by
    unfold ids
    rw [hpad.workspaces, map_append, map_append]
  have hfresh : ∀ id ∈ (top ++ bottom).map (·.id), id ∉ m.ids := by
    intro id hid hold
    obtain ⟨w, hw, rfl⟩ := List.mem_map.mp hid
    exact Nat.not_lt.mpr (hpad.fresh w hw) (hm.fresh w.id hold)
  have hidsPerm : (m.placed i k ws).ids.Perm m.ids := hperm.map _
  refine ⟨hpad.above, ?_, ?_, ?_, ?_, ?_, ?_, ?_, ?_⟩
  · rw [hpad.workspaces, length_append, length_append, hperm.length_eq, hbottom]
    omega
  · have hsplit : mf.ids.Perm ((top ++ bottom).map (·.id) ++ m.ids) := by
      rw [hids, map_append, append_assoc, append_assoc]
      exact (perm_append_comm.trans (hidsPerm.append_left _)).append_left _
    refine hsplit.nodup_iff.mpr (nodup_append.mpr ⟨hpad.nodup, hm.nodup, ?_⟩)
    rintro id hid _ hold rfl
    exact hfresh id hid hold
  · have hlt := indexAfterMove_lt hi hk hm.active
    have hlen : (m.placed i k ws).ids.length = m.workspaces.length :=
      hidsPerm.length_eq.trans (length_map _)
    unfold activeId
    rw [hids, append_assoc, getElem?_append_right (by simp), length_map,
      Nat.add_sub_cancel, getElem?_append_left (by omega), ids_placed]
    refine (getElem?_indexAfterMove ?_ ?_ ?_ _).symm
    · simpa [ids] using hi
    · simpa [ids] using hk
    · simp [ids, hws]
  · refine hpad.last (by rw [hperm.length_eq]; omega) fun hnil => ?_
    rw [hnil] at hbottom
    have hend : max i k + 1 ≠ m.workspaces.length := fun h => by simp [h] at hbottom
    rw [hperm.length_eq]
    unfold placed
    dsimp only
    rw [getElem?_move hi (.inr (by omega))]
    exact hm.last
  · intro habove
    have habove' : m.emptyAboveFirst = true := hpad.above.symm.trans habove
    refine hpad.first (by rw [hperm.length_eq]; omega) fun hnil => ?_
    rw [hnil] at htop
    have hstart : min i k ≠ 0 := fun h => by simp [h, habove'] at htop
    unfold placed
    dsimp only
    rw [getElem?_move hi (.inl (by omega))]
    exact hm.first habove'
  · intro w hw
    rw [hpad.workspaces]
    exact mem_append_left _ (mem_append_right _ (hperm.mem_iff.mpr hw))
  · have htop' : top.all (!·.hasWindowsOrName) = true :=
      List.all_eq_true.mpr fun w hw => by simp [hpad.unused w (mem_append_left _ hw)]
    have hbottom' : bottom.all (!·.hasWindowsOrName) = true :=
      List.all_eq_true.mpr fun w hw => by simp [hpad.unused w (mem_append_right _ hw)]
    refine Eq.trans ?_ (allUnused_eq_of_perm hperm)
    unfold allUnused
    rw [hpad.workspaces, all_append, all_append, htop', hbottom', Bool.true_and,
      Bool.and_true]
  · have hnone (l : List Workspace) (hl : ∀ w ∈ l, w ∈ top ++ bottom) :
        (l.map (·.id)).filter (fun id => decide (id ∈ m.ids ∧ some id ≠ some ws.id)) = [] := by
      refine filter_eq_nil_iff.mpr fun id hid => ?_
      obtain ⟨w, hw, rfl⟩ := List.mem_map.mp hid
      have hout := hfresh w.id (List.mem_map_of_mem (hl w hw))
      simp [hout]
    rw [hids, filter_append, filter_append, hnone top fun w => mem_append_left _,
      hnone bottom fun w => mem_append_right _, nil_append, append_nil, ids_placed]
    exact sublist_filter_move (by simp)

theorem Reordered.refl (moved : Option ℕ) (m : Monitor) : Reordered moved m m :=
  ⟨rfl, fun _ h _ => h, filter_sublist⟩

/-- With a workspace on top, the index repair compares with the index from before. -/
theorem activeAfterMove_succ_iff {a : ℕ} (hzero : min i k = 0) :
    activeAfterMove (a + 1) i (k + 1) = indexAfterMove i k a + 1 ↔
      ¬ (i = 0 ∧ a = 0 ∨ k = 0 ∧ (a = i ∨ a + 1 = i)) := by
  unfold activeAfterMove indexAfterMove
  split_ifs <;> omega

theorem repaired_iff {a top : ℕ} {above : Prop} [Decidable above]
    (htop : top = if above ∧ min i k = 0 then 1 else 0) :
    activeAfterMove (a + top) i (k + top) = indexAfterMove i k a + top ↔
      ¬ (above ∧ (i = 0 ∧ a = 0 ∨ k = 0 ∧ (a = i ∨ a + 1 = i))) := by
  by_cases hfirst : above ∧ min i k = 0
  · rw [if_pos hfirst] at htop
    rw [htop, activeAfterMove_succ_iff hfirst.2, and_iff_right hfirst.1]
  · rw [if_neg hfirst] at htop
    rw [htop]
    refine iff_of_true rfl fun ⟨habove, hmoved⟩ => hfirst ⟨habove, ?_⟩
    omega

theorem indexAfterMove_last_iff {a : ℕ} (hi : i < n) (hk : k < n) (ha : a < n) :
    indexAfterMove i k a + 1 = n + (if max i k + 1 = n then 1 else 0) ↔ a + 1 = n ∧ i < a ∧ k < a := by
  unfold indexAfterMove
  split_ifs <;> omega

theorem Moved.keptIdx_eq_iff {top : ℕ} {moved : Option ℕ} {mf : Monitor} (h : Moved i k top moved m mf)
    (hi : i < m.workspaces.length) (hk : k < m.workspaces.length)
    (ha : m.activeWorkspaceIdx < m.workspaces.length)
    (hactive : mf.activeWorkspaceIdx = indexAfterMove i k m.activeWorkspaceIdx + top) :
    mf.keptIdx = indexAfterMove i k m.activeWorkspaceIdx + top ↔
      ¬ (m.emptyAboveFirst = true ∧ m.allUnused = true ∧
        m.activeWorkspaceIdx + 1 = m.workspaces.length ∧ i < m.activeWorkspaceIdx ∧
        k < m.activeWorkspaceIdx) := by
  have hlast := indexAfterMove_last_iff hi hk ha
  have hend : mf.activeWorkspaceIdx + 1 = mf.workspaces.length ↔
      m.activeWorkspaceIdx + 1 = m.workspaces.length ∧ i < m.activeWorkspaceIdx ∧
        k < m.activeWorkspaceIdx := by
    rw [← hlast, hactive, h.length]
    omega
  unfold keptIdx
  rw [h.above, h.allUnused, ← hend]
  split
  · rename_i hbad
    refine iff_of_false (fun hzero => ?_) (not_not.mpr hbad)
    have hmiddle := hend.mp hbad.2.2
    have hlen := h.length
    omega
  · rename_i hgood
    exact iff_of_true hactive hgood

theorem Moved.congr {top : ℕ} {moved : Option ℕ} {mp mf : Monitor} (h : Moved i k top moved m mp)
    (hws : mf.workspaces = mp.workspaces) (habove : mf.emptyAboveFirst = mp.emptyAboveFirst) :
    Moved i k top moved m mf := by
  have hids : mf.ids = mp.ids := by
    unfold ids
    rw [hws]
  have hall : mf.allUnused = mp.allUnused := by
    unfold Monitor.allUnused
    rw [hws]
  refine ⟨habove.trans h.above, ?_, ?_, ?_, ?_, ?_, ?_, hall.trans h.allUnused, ?_⟩
  · rw [hws]
    exact h.length
  · rw [hids]
    exact h.nodup
  · rw [hids]
    exact h.activeId
  · rw [hws]
    exact h.last
  · rw [hws, habove]
    exact h.first
  · rw [hws]
    exact h.mem
  · rw [hids]
    exact h.order

theorem exists_moved (h : m.Listed) (hws : m.workspaces[i]? = some ws)
    (hk : k < m.workspaces.length) :
    ∃ top, Moved i k top (some ws.id) m ((m.placed i k ws).padAfterMove i k).1 ∧
      top = (if m.emptyAboveFirst ∧ min i k = 0 then 1 else 0) ∧
      ((m.placed i k ws).padAfterMove i k).2 = k + top ∧
      ((m.placed i k ws).padAfterMove i k).1.activeWorkspaceIdx = m.activeWorkspaceIdx + top := by
  have hlen : (m.placed i k ws).workspaces.length = m.workspaces.length := (perm_move hws hk).length_eq
  obtain ⟨top, bottom, hpad, htop, hbottom, hidx, hactive⟩ :=
    exists_padAfterMove (m := m.placed i k ws) (hlen ▸ h.active) i k
  rw [hlen] at hbottom
  exact ⟨top.length, moved_padAfterMove h hws hk hpad htop hbottom, htop, hidx, hactive⟩

/-- The moves by one: the workspace that moves is the active one and stays it. -/
theorem reordered_activateMoved (h : m.Listed) (hk : k < m.workspaces.length)
    (hne : m.activeWorkspaceIdx ≠ k) (hws : m.workspaces[m.activeWorkspaceIdx]? = some ws)
    {p : Monitor × ℕ} (hp : p = (m.placed m.activeWorkspaceIdx k ws).padAfterMove m.activeWorkspaceIdx k) :
    ∃ m', p.1.activateMoved p.2 = some m' ∧ Reordered m.activeId m m' := by
  have hactive := h.active
  have hid : m.activeId = some ws.id := by simp [activeId, ids, hws]
  obtain ⟨top, hmoved, htop, hidx, hat⟩ := exists_moved h hws hk
  rw [← hp] at hmoved hidx hat
  have hself : indexAfterMove m.activeWorkspaceIdx k m.activeWorkspaceIdx = k := if_pos rfl
  have hlength := hmoved.length
  obtain ⟨shown, hshown⟩ : ∃ shown, p.1.activeWorkspace = some shown :=
    ⟨_, getElem?_eq_getElem (by omega)⟩
  obtain ⟨mf, hmf⟩ : ∃ mf, p.1.activateWorkspace p.2 = some mf := by
    unfold activateWorkspace
    rw [hshown]
    exact ⟨_, rfl⟩
  have hspec : mf.workspaces = p.1.workspaces ∧ mf.emptyAboveFirst = p.1.emptyAboveFirst ∧
      mf.activeWorkspaceIdx = p.2 := by
    obtain ⟨_, -, rfl⟩ := of_bind_some hmf
    exact ⟨rfl, rfl, rfl⟩
  have hmoved' : Moved m.activeWorkspaceIdx k top m.activeId m
      { mf with previousWorkspaceId := p.1.previousWorkspaceId } :=
    hid ▸ hmoved.congr hspec.1 hspec.2.1
  have hidx' : mf.activeWorkspaceIdx =
      indexAfterMove m.activeWorkspaceIdx k m.activeWorkspaceIdx + top := by
    rw [hself, hspec.2.2, hidx]
  obtain ⟨m', hm', hiff⟩ := hmoved'.exists_stopSwitch (by omega) (by
    dsimp only
    rw [hspec.1, hspec.2.2]
    omega)
  refine ⟨m', ?_, hiff.mpr ((hmoved'.keptIdx_eq_iff hactive hk hactive hidx').mpr fun hbad => ?_)⟩
  · unfold activateMoved
    rw [hmf]
    exact hm'
  · exact Nat.lt_irrefl _ hbad.2.2.2.1

theorem swapWorkspaces_eq_placed (hi : m.workspaces[i]? = some ws) (hk : k < m.workspaces.length)
    (hik : k = i + 1 ∨ i = k + 1) : m.swapWorkspaces i k = some (m.placed i k ws) := by
  obtain ⟨other, hother⟩ : ∃ other, m.workspaces[k]? = some other := ⟨_, getElem?_eq_getElem hk⟩
  unfold swapWorkspaces placed
  rw [hi, hother, ← swap_eq_move hi hother hik]
  rfl

theorem ite_activateMoved (b : Prop) [Decidable b] (mb : Monitor) (k : ℕ) :
    (if b then mb.addWorkspaceTop.activateMoved (k + 1) else mb.activateMoved k) =
      (if b then (mb.addWorkspaceTop, k + 1) else (mb, k)).1.activateMoved
        (if b then (mb.addWorkspaceTop, k + 1) else (mb, k)).2 := by
  split <;> rfl

theorem reordered_moveWorkspaceDown (h : m.Listed) :
    ∃ m', m.moveWorkspaceDown = some m' ∧ Reordered m.activeId m m' := by
  have hactive := h.active
  obtain ⟨ws, hws⟩ : ∃ ws, m.workspaces[m.activeWorkspaceIdx]? = some ws :=
    ⟨_, getElem?_eq_getElem hactive⟩
  unfold moveWorkspaceDown
  dsimp only
  generalize hk : min (m.activeWorkspaceIdx + 1) (m.workspaces.length - 1) = k
  split
  · exact ⟨m, rfl, .refl _ m⟩
  · obtain ⟨m', hm', hr⟩ := reordered_activateMoved h (k := k) (by omega) (by omega) hws rfl
    refine ⟨m', Eq.trans ?_ hm', hr⟩
    rw [swapWorkspaces_eq_placed hws (by omega) (.inl (by omega))]
    unfold padAfterMove
    rw [Nat.max_eq_right (by omega), Nat.min_eq_left (by omega), ← ite_activateMoved]
    obtain ⟨mb, hmb⟩ : ∃ mb, mb = if k + 1 = (m.placed m.activeWorkspaceIdx k ws).workspaces.length
        then (m.placed m.activeWorkspaceIdx k ws).addWorkspaceBottom
        else m.placed m.activeWorkspaceIdx k ws := ⟨_, rfl⟩
    have hlen : (m.placed m.activeWorkspaceIdx k ws).workspaces.length = m.workspaces.length :=
      (perm_move hws (by omega)).length_eq
    obtain ⟨_, _, _, hidx, _⟩ := exists_bottom (hlen ▸ hactive) _ hmb
    dsimp only [bind, Option.bind]
    rw [← hmb, hidx]
    rfl

theorem reordered_moveWorkspaceUp (h : m.Listed) :
    ∃ m', m.moveWorkspaceUp = some m' ∧ Reordered m.activeId m m' := by
  have hactive := h.active
  obtain ⟨ws, hws⟩ : ∃ ws, m.workspaces[m.activeWorkspaceIdx]? = some ws :=
    ⟨_, getElem?_eq_getElem hactive⟩
  unfold moveWorkspaceUp
  dsimp only
  generalize hk : m.activeWorkspaceIdx - 1 = k
  split
  · exact ⟨m, rfl, .refl _ m⟩
  · obtain ⟨m', hm', hr⟩ := reordered_activateMoved h (k := k) (by omega) (by omega) hws rfl
    refine ⟨m', Eq.trans ?_ hm', hr⟩
    rw [swapWorkspaces_eq_placed hws (by omega) (.inr (by omega))]
    unfold padAfterMove
    rw [Nat.max_eq_left (by omega), Nat.min_eq_right (by omega), ← ite_activateMoved]
    rfl

theorem reordered_moveWorkspaceToIdx (h : m.Listed) (i j : ℕ) :
    ∃ m', m.moveWorkspaceToIdx i j = some m' ∧
      (Reordered m.ids[i]? m m' ↔ ¬ m.Misfocuses (.toIdx i j)) := by
  unfold moveWorkspaceToIdx Misfocuses
  dsimp only
  have hactive := h.active
  generalize hj : min j (m.workspaces.length - 1) = k
  have hk : k < m.workspaces.length := by omega
  split
  · exact ⟨m, rfl, iff_of_true (.refl _ m) (by omega)⟩
  · rename_i hmoves
    obtain ⟨ws, hws⟩ : ∃ ws, m.workspaces[i]? = some ws := ⟨_, getElem?_eq_getElem (by omega)⟩
    have hid : m.ids[i]? = some ws.id := by simp [ids, hws]
    rw [hws, hid]
    obtain ⟨top, hmoved, htop, hidx, hat⟩ := exists_moved h hws hk
    obtain ⟨c, hc⟩ : ∃ c, c = activeAfterMove (m.activeWorkspaceIdx + top) i (k + top) := ⟨_, rfl⟩
    obtain ⟨mf, hmf⟩ : ∃ mf : Monitor, mf =
        { ((m.placed i k ws).padAfterMove i k).1 with activeWorkspaceIdx := c } := ⟨_, rfl⟩
    have hmoved' : Moved i k top (some ws.id) m mf := by
      subst hmf
      exact hmoved.congr rfl rfl
    have hmfc : mf.activeWorkspaceIdx = c := by rw [hmf]
    have hclt : c < mf.workspaces.length := by
      have hlength := hmoved'.length
      rw [hc]
      exact activeAfterMove_lt (by omega) (by omega) (by omega)
    obtain ⟨m', hm', hiff⟩ := hmoved'.exists_stopSwitch (by omega) (hmfc.symm ▸ hclt)
    refine ⟨m', ?_, hiff.trans ?_⟩
    · refine Eq.trans ?_ hm'
      rw [hmf, hc, ← hat, ← hidx]
      rfl
    · have hrepaired := repaired_iff (a := m.activeWorkspaceIdx) htop
      rw [← hc] at hrepaired
      by_cases hright : c = indexAfterMove i k m.activeWorkspaceIdx + top
      · rw [hmoved'.keptIdx_eq_iff (by omega) hk hactive (hmfc.trans hright)]
        have hfirst := hrepaired.mp hright
        refine not_congr ⟨?_, ?_⟩
        · rintro ⟨habove, hend⟩
          exact ⟨habove, by omega, by omega, .inr (.inr hend)⟩
        · rintro ⟨habove, -, -, hzero | hzero | hend⟩
          · exact absurd ⟨habove, .inl hzero⟩ hfirst
          · exact absurd ⟨habove, .inr hzero⟩ hfirst
          · exact ⟨habove, hend⟩
      · have hbad := not_not.mp (mt hrepaired.mpr hright)
        refine iff_of_false (fun hkept => ?_) (not_not.mpr ⟨hbad.1, by omega, by omega, ?_⟩)
        · have htop' : top = 1 := htop.trans (if_pos ⟨hbad.1, by omega⟩)
          unfold keptIdx at hkept
          rw [hmfc] at hkept
          split at hkept
          · omega
          · exact hright hkept
        · exact hbad.2.imp_right .inl

theorem reorder_keepsFocus_iff (h : m.Listed) (op : Reorder) :
    ∃ m', m.reorder op = some m' ∧ (Reordered (m.movedId op) m m' ↔ ¬ m.Misfocuses op) := by
  cases op with
  | up =>
    obtain ⟨m', hm', hr⟩ := reordered_moveWorkspaceUp h
    exact ⟨m', hm', iff_of_true hr not_false⟩
  | down =>
    obtain ⟨m', hm', hr⟩ := reordered_moveWorkspaceDown h
    exact ⟨m', hm', iff_of_true hr not_false⟩
  | toIdx i j => exact reordered_moveWorkspaceToIdx h i j

/-- A new monitor that keeps an empty workspace above the first. -/
def testAboveNew : Option Monitor :=
  Monitor.new testOutput [] none 0 { Options.default with emptyWorkspaceAboveFirst := true } none 0

/-- After a window opened there. -/
def testAbove : Option Monitor :=
  testAboveNew.bind (·.apply (openOp 1))

theorem exists_testAbove {p : Monitor → Bool} (hp : testAbove.any p = true) :
    ∃ m, Reachable m ∧ p m = true := by
  obtain ⟨m₁, hm₁, hp⟩ := (Option.any_eq_true ..).mp hp
  obtain ⟨m₀, hm₀, hm₁⟩ := of_bind hm₁
  have hempty : testAboveNew.all (fun m => m.windowIds.isEmpty) = true := by decide +kernel
  have hnew : Reachable m₀ := by
    refine .new ?_ ?_ hm₀
    · simp
    · exact nodup_nil
  have hfresh : m₀.Promised (openOp 1) := by
    rw [hm₀] at hempty
    have hnil : m₀.windowIds = [] := List.isEmpty_iff.mp hempty
    show _ ∉ m₀.windowIds
    rw [hnil]
    exact not_mem_nil
  exact ⟨m₁, hnew.step hfresh hm₁, hp⟩

/-- The empty workspace at the top moves below the active one. -/
theorem reorder_keepsFocus_toEnd : ∃ m m', Reachable m ∧ m.Listed ∧ m.reorder (.toIdx 0 2) = some m' ∧
    Reordered (m.movedId (.toIdx 0 2)) m m' := by
  obtain ⟨m, hm, hp⟩ := exists_testAbove
    (p := fun m => decide m.Listed && decide (¬ m.Misfocuses (.toIdx 0 2))) (by decide +kernel)
  obtain ⟨hlisted, hgood⟩ := Bool.and_eq_true_iff.mp hp
  have hlisted := of_decide_eq_true hlisted
  obtain ⟨m', hm', hiff⟩ := reorder_keepsFocus_iff hlisted (.toIdx 0 2)
  exact ⟨m, m', hm, hlisted, hm', hiff.mpr (of_decide_eq_true hgood)⟩

/-- The active workspace moves to the top: the empty one that was above it is active then. -/
theorem reorder_losesFocus : ∃ m m', Reachable m ∧ m.Listed ∧ m.reorder (.toIdx 1 0) = some m' ∧
    m'.activeId ≠ m.activeId := by
  obtain ⟨m, hm, hp⟩ := exists_testAbove (p := fun m => decide m.Listed &&
    (m.reorder (.toIdx 1 0)).any fun m' => m'.activeId != m.activeId) (by decide +kernel)
  obtain ⟨hlisted, hp⟩ := Bool.and_eq_true_iff.mp hp
  obtain ⟨m', hm', hne⟩ := (Option.any_eq_true ..).mp hp
  exact ⟨m, m', hm, of_decide_eq_true hlisted, hm', by simpa using hne⟩

end Macniri.Layout.Monitor
