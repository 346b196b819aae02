import Macniri.Ipc.State

/-! `ipc_refresh_windows`: the server's window map mirrors every layout snapshot. -/
namespace Macniri.Ipc

open Option List HashMap

/-- What a refresh reads of one mapped window and of its place in the layout. -/
structure WindowView where
  id : ℕ
  title : Option String
  appId : Option String
  pid : Option ℤ
  isFocused : Bool
  isFloating : Bool
  isUrgent : Bool
  focusTimestamp : Option Timestamp
  wsId : Option ℕ
  windowLayout : WindowLayout
  deriving DecidableEq, Repr

def makeIpcWindow (v : WindowView) : Window where
  id := v.id
  title := v.title
  appId := v.appId
  pid := v.pid
  workspaceId := v.wsId
  isFocused := v.isFocused
  isFloating := v.isFloating
  isUrgent := v.isUrgent
  layout := v.windowLayout
  focusTimestamp := v.focusTimestamp

/-- Changes that are only signalled by replacing the whole window. -/
def windowChanged (ipcWin : Window) (v : WindowView) : Bool :=
  ipcWin.workspaceId ≠ v.wsId || ipcWin.isFloating ≠ v.isFloating ||
    (ipcWin.title ≠ v.title || ipcWin.appId ≠ v.appId)

/-- The events pushed by the loop body for one window. -/
def windowEvents (old : HashMap ℕ Window) (v : WindowView) : List Event :=
  match old.get v.id with
  | none => [.windowOpenedOrChanged (makeIpcWindow v)]
  | some ipcWin =>
    if windowChanged ipcWin v then [.windowOpenedOrChanged (makeIpcWindow v)]
    else
      (if v.isFocused ∧ ¬ ipcWin.isFocused then [.windowFocusChanged (some v.id)] else []) ++
      (if v.focusTimestamp ≠ ipcWin.focusTimestamp then
        [.windowFocusTimestampChanged v.id v.focusTimestamp] else []) ++
      (if v.isUrgent ≠ ipcWin.isUrgent then [.windowUrgencyChanged v.id v.isUrgent] else [])

/-- What the loop body adds to `batch_change_layouts` for one window. -/
def windowBatch (old : HashMap ℕ Window) (v : WindowView) : List (ℕ × WindowLayout) :=
  match old.get v.id with
  | none => []
  | some ipcWin =>
    if windowChanged ipcWin v then []
    else if ipcWin.layout ≠ v.windowLayout then [(v.id, v.windowLayout)] else []

def focusedId (views : List WindowView) : Option ℕ :=
  views.foldl (fun acc v => if v.isFocused then some v.id else acc) none

def ipcFocusedId (entries : List (Σ _ : ℕ, Window)) : Option ℕ :=
  entries.foldl (fun acc e => if e.2.isFocused then some e.1 else acc) none

/-- The ids of `old` that were not seen in the layout, in iteration order. -/
def closedIds (ord : IterOrder) (old : HashMap ℕ Window) (views : List WindowView) : List ℕ :=
  ((ord.iter old).map Sigma.fst).filter fun id => id ∉ views.map WindowView.id

/-- `ipc_refresh_windows` up to the point where the events are known. -/
def refreshWindowsEvents (ord : IterOrder) (old : WindowsState) (views : List WindowView) :
    List Event :=
  let batch := views.flatMap (windowBatch old.windows)
  views.flatMap (windowEvents old.windows) ++
  (if batch ≠ [] then [.windowLayoutsChanged batch] else []) ++
  (closedIds ord old.windows views).map .windowClosed ++
  (if focusedId views = none ∧ ipcFocusedId (ord.iter old.windows) ≠ none then
    [.windowFocusChanged none] else [])

/-- A refresh under one choice of the hash map's iteration order. -/
def refreshWindows (old : WindowsState) : IterOrder × List WindowView → Option WindowsState
  | (ord, views) => applyAll (WindowsState.apply ord) old (refreshWindowsEvents ord old views)

section

variable {ord : IterOrder} {cur old : HashMap ℕ Window} {id k : ℕ} {f : Window → Window}
  {w : Window} {v : WindowView} {views done : List WindowView}

/-- When keys are ids, stopping at the first match and testing every id agree. -/
theorem updateFirst_eq (hk : HashMap.KeyedBy Window.id cur) :
    WindowsState.updateFirst ord ⟨cur⟩ id f =
      ⟨cur.mapValues fun w => if w.id = id then f w else w⟩ := by
  unfold WindowsState.updateFirst
  cases hfind : (ord.iter cur).find? (fun e => e.2.id == id) with
  | none =>
    simp only [WindowsState.mk.injEq]
    symm
    apply mapValues_eq_self
    intro k w hw
    have := find?_eq_none.mp hfind ⟨k, w⟩ (mem_iter ord |>.mpr hw)
    simp only [beq_iff_eq] at this
    exact if_neg this
  | some e =>
    have hmem := mem_iter ord |>.mp (mem_of_find?_eq_some hfind)
    have hid : e.2.id = id := by simpa using find?_some hfind
    have hek : e.1 = id := (hk e.1 e.2 hmem).symm.trans hid
    simp only [WindowsState.mk.injEq]
    apply HashMap.ext_get
    intro k
    rw [get_insert, get_mapValues]
    by_cases h : k = e.1
    · rw [if_pos h, h, hmem]
      simp [hid]
    · rw [if_neg h]
      cases hw : cur.get k with
      | none => rfl
      | some w =>
        have hne : w.id ≠ id := by
          rw [hk k w hw, ← hek]
          exact h
        simp [hne]

theorem changeLayouts_get (cur : HashMap ℕ Window) {changes : List (ℕ × WindowLayout)}
    (hn : (changes.map Prod.fst).Nodup) (hp : ∀ c ∈ changes, ∃ w, cur.get c.1 = some w) :
    ∃ m, WindowsState.changeLayouts ⟨cur⟩ changes = some ⟨m⟩ ∧
      (∀ c ∈ changes, m.get c.1 = (cur.get c.1).map fun w => { w with layout := c.2 }) ∧
      ∀ k, k ∉ changes.map Prod.fst → m.get k = cur.get k := by
  induction changes generalizing cur with
  | nil => exact ⟨cur, rfl, by simp, by simp⟩
  | cons c changes ih =>
    obtain ⟨id, update⟩ := c
    simp only [map_cons, nodup_cons] at hn
    obtain ⟨win, hwin⟩ := hp (id, update) (by simp)
    obtain ⟨m, hm, hin, hout⟩ := ih (cur.insert id { win with layout := update }) hn.2 (by
      intro c hc
      obtain ⟨w, hw⟩ := hp c (by simp [hc])
      by_cases h : c.1 = id
      · exact ⟨_, by rw [get_insert, if_pos h]⟩
      · exact ⟨w, by rw [get_insert, if_neg h, hw]⟩)
    have hid : m.get id = some { win with layout := update } := by
      rw [hout id hn.1]
      simp
    refine ⟨m, by simp [WindowsState.changeLayouts, hwin, hm], ?_, ?_⟩
    · intro c hc
      rcases mem_cons.mp hc with rfl | hc
      · simp [hid, hwin]
      · have hne : c.1 ≠ id := fun h => hn.1 (h ▸ List.mem_map_of_mem hc)
        rw [hin c hc, get_insert, if_neg hne]
    · intro k hk
      simp only [map_cons, mem_cons, not_or] at hk
      rw [hout k hk.2, get_insert, if_neg hk.1]

theorem closed_applyAll (ord : IterOrder) (cur : HashMap ℕ Window) (ids : List ℕ) (hn : ids.Nodup)
    (hp : ∀ id ∈ ids, ∃ w, cur.get id = some w) :
    ∃ m, applyAll (WindowsState.apply ord) ⟨cur⟩ (ids.map .windowClosed) = some ⟨m⟩ ∧
      ∀ k, m.get k = if k ∈ ids then none else cur.get k := by
  induction ids generalizing cur with
  | nil => exact ⟨cur, rfl, by simp⟩
  | cons id ids ih =>
    obtain ⟨hid, hn⟩ := nodup_cons.mp hn
    obtain ⟨w, hw⟩ := hp id (by simp)
    obtain ⟨m, hm, hget⟩ := ih (cur.remove id) hn (by
      intro i hi
      obtain ⟨u, hu⟩ := hp i (by simp [hi])
      have hne : i ≠ id := fun h => hid (h ▸ hi)
      exact ⟨u, by rw [get_remove, if_neg hne, hu]⟩)
    refine ⟨m, by simp [WindowsState.apply, hw, hm], ?_⟩
    intro k
    rw [hget k, get_remove]
    by_cases h : k = id <;> simp [h]

/-- The assumptions on a map and on the next snapshot that make them comparable. -/
structure CoherentWindows (pidOf : ℕ → Option ℤ) (m : HashMap ℕ Window) : Prop where
  key_id : HashMap.KeyedBy Window.id m
  pid_eq : ∀ k w, m.get k = some w → w.pid = pidOf k
  focused_unique : ∀ k k' w w', m.get k = some w → m.get k' = some w' →
    w.isFocused → w'.isFocused → k = k'

/-- Unique ids, at most one focused window, and the pid each id always has. -/
structure ValidViews (pidOf : ℕ → Option ℤ) (views : List WindowView) : Prop where
  ids_nodup : (views.map WindowView.id).Nodup
  pid_eq : ∀ v ∈ views, v.pid = pidOf v.id
  focused_unique : ∀ v ∈ views, ∀ u ∈ views, v.isFocused → u.isFocused → v.id = u.id

def anyFocused (done : List WindowView) : Bool := done.any WindowView.isFocused

/-- The window, unfocused if `clear` is set. -/
def Window.clearFocus (clear : Bool) (w : Window) : Window :=
  { w with isFocused := !clear && w.isFocused }

@[simp] theorem clearFocus_false : Window.clearFocus false w = w := rfl

@[simp] theorem clearFocus_clearFocus (a b : Bool) :
    (Window.clearFocus a w).clearFocus b = w.clearFocus (a || b) := by
  cases a <;> cases b <;> simp [Window.clearFocus]

theorem clearFocus_of_unfocused (hw : w.isFocused = false) (b : Bool) : w.clearFocus b = w := by
  cases w
  simp_all [Window.clearFocus]

/-- How far the entry of a window is from its final value once the events of the
windows in `done` have been applied: its layout may still wait in the batch and
its focus for the focused window's own event. -/
structure Signalled (old : HashMap ℕ Window) (done : List WindowView) (v : WindowView)
    (w : Window) : Prop where
  fields : w = { makeIpcWindow v with layout := w.layout, isFocused := w.isFocused }
  layout : w.layout = v.windowLayout ∨ (v.id, v.windowLayout) ∈ windowBatch old v
  focused : anyFocused done → w.isFocused = v.isFocused
  stale : ¬ anyFocused done → w.isFocused → ∃ w₀, old.get v.id = some w₀ ∧ w₀.isFocused

/-- The map between the events of two windows of the loop. -/
structure Midway (old : HashMap ℕ Window) (done : List WindowView) (cur : HashMap ℕ Window) :
    Prop where
  rest : ∀ k, k ∉ done.map WindowView.id → 
    cur.get k = (old.get k).map (Window.clearFocus (anyFocused done))
  seen : ∀ v ∈ done, ∃ w, cur.get v.id = some w ∧ Signalled old done v w

theorem anyFocused_snoc : anyFocused (done ++ [v]) = (anyFocused done || v.isFocused) := by
  simp [anyFocused]

theorem midway_nil : Midway old [] old where
  rest := by
    intro k _
    cases old.get k <;> simp [anyFocused]
  seen := by simp

variable {pidOf : ℕ → Option ℤ}

theorem midway_keyedBy (ho : CoherentWindows pidOf old) (h : Midway old done cur) :
    HashMap.KeyedBy Window.id cur := by
  intro k w hw
  by_cases hk : k ∈ done.map WindowView.id
  · obtain ⟨v, hv, rfl⟩ := List.mem_map.mp hk
    obtain ⟨w', hw', hs⟩ := h.seen v hv
    rw [hw] at hw'
    rw [some.inj hw', hs.fields]
    rfl
  · rw [h.rest k hk] at hw
    obtain ⟨w', hw', rfl⟩ := of_map hw
    exact ho.key_id k w' hw'

/-- A signalled entry after one more window has been processed: its focus is
cleared exactly when that window is focused and was announced so. -/
theorem Signalled.snoc (h : Signalled old done v w) {u : WindowView} {b : Bool}
    (hf : u.isFocused → b = v.isFocused)
    (hn : ¬ u.isFocused → b = w.isFocused) :
    Signalled old (done ++ [u]) v { w with isFocused := b } where
  fields := by
    conv_lhs => rw [h.fields]
  layout := h.layout
  focused := by
    intro ha
    by_cases hu : u.isFocused
    · exact hf hu
    · rw [anyFocused_snoc, Bool.or_eq_true] at ha
      exact (hn hu).trans (h.focused (ha.resolve_right hu))
  stale := by
    intro ha hb
    rw [anyFocused_snoc, Bool.or_eq_true, not_or] at ha
    exact h.stale ha.1 (hn ha.2 ▸ hb)

/-- One more window: its own entry is signalled, and the others have lost their
focus if this window's events clear it (`clear`), or had none to lose. -/
theorem midway_snoc {m : HashMap ℕ Window} (clear : Bool) (h : Midway old done cur)
    (hd : v.id ∉ done.map WindowView.id)
    (hu : v.isFocused → ∀ u ∈ done, u.isFocused = false)
    (hself : ∃ w, m.get v.id = some w ∧ Signalled old (done ++ [v]) v w)
    (hother : ∀ k, k ≠ v.id → m.get k = (cur.get k).map (Window.clearFocus clear))
    (hclear : clear → v.isFocused)
    (hkeep : ¬ clear → v.isFocused → ∀ k w, k ≠ v.id → cur.get k = some w →
      w.isFocused = false) : Midway old (done ++ [v]) m where
  rest := by
    intro k hk
    simp only [map_append, map_cons, map_nil, mem_append, mem_singleton,
      not_or] at hk
    rw [hother k hk.2, anyFocused_snoc]
    have hr := h.rest k hk.1
    cases ho : old.get k with
    | none => simp [hr, ho]
    | some w =>
      rw [ho, map_some] at hr
      rw [hr, map_some, map_some, some.injEq, clearFocus_clearFocus]
      cases hv : v.isFocused with
      | false =>
        have hc : clear = false := by simpa [hv] using mt hclear
        simp [hc]
      | true =>
        cases hc : clear with
        | true => rfl
        | false =>
          have := clearFocus_of_unfocused (hkeep (by simp [hc]) hv k _ hk.2 hr) true
          rw [clearFocus_clearFocus] at this
          rw [Bool.or_false, this]
  seen := by
    intro u hm
    rcases mem_append.mp hm with hm | hm
    · obtain ⟨w, hw, hs⟩ := h.seen u hm
      have hne : u.id ≠ v.id := fun he => hd (he ▸ List.mem_map_of_mem hm)
      refine ⟨w.clearFocus clear, by simp [hother u.id hne, hw], hs.snoc ?_ ?_⟩
      · intro hv
        rw [hu hv u hm]
        by_cases hc : clear
        · simp [hc]
        · simp [hkeep hc hv u.id w hne hw]
      · intro hv
        have hc : clear = false := by simpa using mt hclear hv
        simp [hc]
    · obtain rfl := mem_singleton.mp hm
      exact hself

/-- The loop body whose event replaces the whole window. -/
theorem midway_opened (ord : IterOrder) (h : Midway old done cur) (hd : v.id ∉ done.map WindowView.id)
    (hu : v.isFocused → ∀ u ∈ done, u.isFocused = false) (hk : HashMap.KeyedBy Window.id cur) :
    ∃ m, applyAll (WindowsState.apply ord) ⟨cur⟩ [.windowOpenedOrChanged (makeIpcWindow v)] =
      some ⟨m⟩ ∧ Midway old (done ++ [v]) m := by
  have hs : Signalled old (done ++ [v]) v (makeIpcWindow v) := by
    refine ⟨rfl, Or.inl rfl, fun _ => rfl, ?_⟩
    intro ha hv
    exact absurd (by simp [anyFocused_snoc, show v.isFocused = true from hv]) ha
  by_cases hv : v.isFocused
  · refine ⟨(cur.insert v.id (makeIpcWindow v)).mapValues fun win =>
      if win.id ≠ v.id then { win with isFocused := false } else win, ?_, ?_⟩
    · simp [WindowsState.apply, makeIpcWindow, hv]
    · apply midway_snoc true h hd hu ⟨_, by simp [makeIpcWindow], hs⟩
      · intro k hne
        rw [get_mapValues, get_insert, if_neg hne]
        cases hw : cur.get k with
        | none => rfl
        | some w =>
          have : w.id ≠ v.id := by rwa [hk k w hw]
          simp [this, Window.clearFocus]
      · exact fun _ => hv
      · simp
  · refine ⟨cur.insert v.id (makeIpcWindow v), by simp [WindowsState.apply, makeIpcWindow, hv], ?_⟩
    apply midway_snoc false h hd hu ⟨_, by simp, hs⟩
    · intro k hne
      cases hw : cur.get k <;> simp [hne, hw]
    · simp
    · exact fun _ hc => absurd hc hv

/-- An event for one field of one window, sent only if that field differs. -/
theorem update_applyAll (ord : IterOrder) (p : Prop) [Decidable p] (event : Event)
    (hk : HashMap.KeyedBy Window.id cur) (hf : ∀ w, (f w).id = w.id)
    (hevent : WindowsState.apply ord ⟨cur⟩ event =
      some (WindowsState.updateFirst ord ⟨cur⟩ id f, none))
    (hp : ¬ p → ∀ w, cur.get id = some w → f w = w) :
    ∃ m, applyAll (WindowsState.apply ord) ⟨cur⟩ (if p then [event] else []) = some ⟨m⟩ ∧
      HashMap.KeyedBy Window.id m ∧ ∀ k, m.get k = (cur.get k).map fun w => if k = id then f w else w := by
  have hget : ∀ k, (cur.mapValues fun w => if w.id = id then f w else w).get k =
      (cur.get k).map fun w => if k = id then f w else w := by
    intro k
    cases hw : cur.get k with
    | none => simp [hw]
    | some w => simp [hw, hk k w hw]
  by_cases h : p
  · refine ⟨_, by simp [h, hevent, updateFirst_eq hk], ?_, hget⟩
    intro k w hw
    rw [hget] at hw
    obtain ⟨u, hu, rfl⟩ := of_map hw
    rw [← hk k u hu]
    split <;> simp [hf]
  · refine ⟨cur, by simp [h], hk, ?_⟩
    intro k
    cases hw : cur.get k with
    | none => rfl
    | some w =>
      by_cases hki : k = id
      · subst hki
        simp [hp h w hw]
      · simp [hki]

/-- If the focused window was focused before, nobody else's focus is left. -/
theorem midway_unfocused {ipcWin : Window} (ho : CoherentWindows pidOf old)
    (h : Midway old done cur) (ha : anyFocused done = false)
    (hi : old.get v.id = some ipcWin) (hf : ipcWin.isFocused) (hk : k ≠ v.id)
    (hw : cur.get k = some w) : w.isFocused = false := by
  by_contra hc
  have hc : w.isFocused = true := by simpa using hc
  apply hk
  by_cases hkd : k ∈ done.map WindowView.id
  · obtain ⟨u, hu, rfl⟩ := List.mem_map.mp hkd
    obtain ⟨w', hw', hs⟩ := h.seen u hu
    obtain rfl := some.inj (hw.symm.trans hw')
    obtain ⟨w₀, hw₀, hf₀⟩ := hs.stale (by simp [ha]) hc
    exact ho.focused_unique _ _ _ _ hw₀ hi hf₀ hf
  · rw [h.rest k hkd] at hw
    obtain ⟨w₀, hw₀, rfl⟩ := of_map hw
    exact ho.focused_unique _ _ _ _ hw₀ hi (by simpa [Window.clearFocus, ha] using hc) hf

theorem anyFocused_eq_false (h : ∀ u ∈ done, u.isFocused = false) : anyFocused done = false := by
  simpa [anyFocused] using h

/-- The loop body that signals focus, timestamp and urgency one by one. -/
theorem midway_changed {ipcWin : Window} (ho : CoherentWindows pidOf old)
    (h : Midway old done cur) (hd : v.id ∉ done.map WindowView.id)
    (hu : v.isFocused → ∀ u ∈ done, u.isFocused = false) (hpid : v.pid = pidOf v.id)
    (hi : old.get v.id = some ipcWin) (hc : ¬ windowChanged ipcWin v) :
    ∃ m, applyAll (WindowsState.apply ord) ⟨cur⟩ (windowEvents old v) = some ⟨m⟩ ∧
      Midway old (done ++ [v]) m := by
  have hk := midway_keyedBy ho h
  have hcur : cur.get v.id = some (ipcWin.clearFocus (anyFocused done)) := by
    rw [h.rest v.id hd, hi, map_some]
  have hfocus : ∃ m, applyAll (WindowsState.apply ord) ⟨cur⟩
      (if v.isFocused ∧ ¬ ipcWin.isFocused then [.windowFocusChanged (some v.id)] else []) =
        some ⟨m⟩ ∧ HashMap.KeyedBy Window.id m ∧ ∀ k, m.get k = (cur.get k).map fun w =>
          if v.isFocused ∧ ¬ ipcWin.isFocused then { w with isFocused := decide (k = v.id) }
          else w := by
    by_cases hf : v.isFocused ∧ ¬ ipcWin.isFocused
    · have hget : ∀ k, (cur.mapValues fun w =>
          { w with isFocused := decide (some w.id = some v.id) }).get k =
          (cur.get k).map fun w => { w with isFocused := decide (k = v.id) } := by
        intro k
        cases hw : cur.get k with
        | none => simp [hw]
        | some w => simp [hw, hk k w hw]
      refine ⟨_, by rw [if_pos hf]; rfl, ?_, by simpa only [if_pos hf] using hget⟩
      intro k w hw
      rw [hget] at hw
      obtain ⟨u, hu, rfl⟩ := of_map hw
      exact hk k u hu
    · exact ⟨cur, by simp only [if_neg hf, applyAll_nil], hk, by simp only [if_neg hf]; simp⟩
  obtain ⟨m₁, hm₁, hk₁, hget₁⟩ := hfocus
  have hv₁ : ∃ b, m₁.get v.id = some { ipcWin with isFocused := b } := by
    rw [hget₁, hcur]
    split_ifs
    · exact ⟨_, rfl⟩
    · exact ⟨_, rfl⟩
  obtain ⟨m₂, hm₂, hk₂, hget₂⟩ := update_applyAll ord (v.focusTimestamp ≠ ipcWin.focusTimestamp)
    (.windowFocusTimestampChanged v.id v.focusTimestamp)
    (f := fun w => { w with focusTimestamp := v.focusTimestamp }) hk₁ (fun _ => rfl) rfl (by
      intro hp w hw
      obtain ⟨b, hb⟩ := hv₁
      rw [hb] at hw
      simp only [ne_eq, not_not] at hp
      rw [← some.inj hw, hp])
  obtain ⟨m₃, hm₃, -, hget₃⟩ := update_applyAll ord (v.isUrgent ≠ ipcWin.isUrgent)
    (.windowUrgencyChanged v.id v.isUrgent) (f := fun w => { w with isUrgent := v.isUrgent })
    hk₂ (fun _ => rfl) rfl (by
      intro hp w hw
      obtain ⟨b, hb⟩ := hv₁
      rw [hget₂, hb] at hw
      simp only [ne_eq, not_not] at hp
      rw [← some.inj hw]
      simp [hp])
  refine ⟨m₃, ?_, ?_⟩
  · simp only [windowEvents, hi, hc, if_false, applyAll_append, hm₁, hm₂, hm₃, bind_some,
      Bool.false_eq_true]
  · have hsame : ipcWin.workspaceId = v.wsId ∧ ipcWin.isFloating = v.isFloating ∧
        ipcWin.title = v.title ∧ ipcWin.appId = v.appId := by
      simpa [windowChanged, and_assoc] using hc
    have hid := ho.key_id _ _ hi
    have hipid := ho.pid_eq _ _ hi
    have hnone : v.isFocused → anyFocused done = false := fun hv => anyFocused_eq_false (hu hv)
    apply midway_snoc (v.isFocused && !ipcWin.isFocused) h hd hu
    · refine ⟨_, by rw [hget₃, hget₂, hget₁, hcur]; rfl, ?_, ?_, ?_, ?_⟩
      · simp only [if_true]
        split_ifs <;> simp [Window.clearFocus, makeIpcWindow, hsame, hid, hipid, hpid]
      · by_cases hl : ipcWin.layout = v.windowLayout
        · left
          simp only [if_true]
          split_ifs <;> exact hl
        · right
          simp [windowBatch, hi, hc, hl]
      · intro ha
        rw [anyFocused_snoc] at ha
        cases hv : v.isFocused with
        | false => simp_all [Window.clearFocus]
        | true =>
          have := hnone hv
          cases hf : ipcWin.isFocused <;> simp_all [Window.clearFocus]
      · intro ha hb
        rw [anyFocused_snoc] at ha
        refine ⟨ipcWin, hi, ?_⟩
        simp_all [Window.clearFocus]
    · intro k hk
      rw [hget₃, hget₂, hget₁]
      cases hw : cur.get k with
      | none => rfl
      | some w =>
        cases hv : v.isFocused <;> cases hf : ipcWin.isFocused <;>
          simp [hk, Window.clearFocus]
    · intro hcl
      simp_all
    · intro hcl hv k w hne hw
      exact midway_unfocused ho h (hnone hv) hi (by simpa [hv] using hcl) hne hw

/-- The whole loop over the windows of the layout. -/
theorem midway_loop (ord : IterOrder) (done : List WindowView) (ho : CoherentWindows pidOf old)
    (hv : ValidViews pidOf (done ++ views)) (h : Midway old done cur) :
    ∃ m, applyAll (WindowsState.apply ord) ⟨cur⟩ (views.flatMap (windowEvents old)) = some ⟨m⟩ ∧
      Midway old (done ++ views) m := by
  induction views generalizing done cur with
  | nil => exact ⟨cur, rfl, by simpa using h⟩
  | cons v views ih =>
    have hd : v.id ∉ done.map WindowView.id := by
      have := hv.ids_nodup
      simp only [map_append, map_cons, nodup_append] at this
      intro hm
      exact this.2.2 _ hm _ (by simp) rfl
    have hu : v.isFocused → ∀ u ∈ done, u.isFocused = false := by
      intro hf u hm
      by_contra hc
      have := hv.focused_unique v (by simp) u (by simp [hm]) hf (by simpa using hc)
      exact hd (this ▸ List.mem_map_of_mem hm)
    have hstep : ∃ m, applyAll (WindowsState.apply ord) ⟨cur⟩ (windowEvents old v) = some ⟨m⟩ ∧
        Midway old (done ++ [v]) m := by
      have hopened := midway_opened ord h hd hu (midway_keyedBy ho h)
      cases hi : old.get v.id with
      | none => simpa only [windowEvents, hi] using hopened
      | some ipcWin =>
        by_cases hc : windowChanged ipcWin v
        · simpa only [windowEvents, hi, hc, if_true] using hopened
        · exact midway_changed ho h hd hu (hv.pid_eq v (by simp)) hi hc
    obtain ⟨m, hm, hmid⟩ := hstep
    obtain ⟨m', hm', hmid'⟩ := ih (done ++ [v]) (by simpa using hv) hmid
    refine ⟨m', ?_, by simpa using hmid'⟩
    rw [flatMap_cons, applyAll_append, hm, bind_some, hm']

def windowsMirror (views : List WindowView) : HashMap ℕ Window :=
  HashMap.collect Window.id (views.map makeIpcWindow)

theorem get_windowsMirror (hn : (views.map WindowView.id).Nodup) :
    (windowsMirror views).get k = some w ↔ ∃ v ∈ views, v.id = k ∧ w = makeIpcWindow v := by
  have hn' : ((views.map makeIpcWindow).map Window.id).Nodup := by
    simpa [makeIpcWindow, Function.comp_def] using hn
  rw [windowsMirror, get_collect hn']
  constructor
  · rintro ⟨hw, rfl⟩
    obtain ⟨v, hv, rfl⟩ := List.mem_map.mp hw
    exact ⟨v, hv, rfl, rfl⟩
  · rintro ⟨v, hv, rfl, rfl⟩
    exact ⟨List.mem_map_of_mem hv, rfl⟩

theorem eq_windowsMirror (hn : (views.map WindowView.id).Nodup)
    (hseen : ∀ v ∈ views, cur.get v.id = some (makeIpcWindow v))
    (hgone : ∀ k, k ∉ views.map WindowView.id → cur.get k = none) :
    cur = windowsMirror views := by
  apply HashMap.ext_get
  intro k
  by_cases hk : k ∈ views.map WindowView.id
  · obtain ⟨v, hv, rfl⟩ := List.mem_map.mp hk
    rw [hseen v hv]
    exact ((get_windowsMirror hn).mpr ⟨v, hv, rfl, rfl⟩).symm
  · rw [hgone k hk]
    cases hw : (windowsMirror views).get k with
    | none => rfl
    | some w =>
      obtain ⟨v, hv, rfl, -⟩ := (get_windowsMirror hn).mp hw
      exact absurd (List.mem_map_of_mem hv) hk

theorem foldl_last_eq_none {α : Type} {p : α → Bool} {g : α → ℕ} {l : List α}
    {init : Option ℕ} :
    l.foldl (fun acc a => if p a then some (g a) else acc) init = none ↔
      init = none ∧ ∀ a ∈ l, p a = false := by
  induction l generalizing init with
  | nil => simp
  | cons a l ih =>
    rw [foldl_cons, ih]
    cases h : p a <;> simp [h]

theorem focusedId_eq_none : focusedId views = none ↔ anyFocused views = false := by
  simp [focusedId, foldl_last_eq_none, anyFocused]

theorem ipcFocusedId_eq_none :
    ipcFocusedId (ord.iter old) = none ↔ ∀ k w, old.get k = some w → w.isFocused = false := by
  simp only [ipcFocusedId, foldl_last_eq_none, true_and]
  constructor
  · intro h k w hw
    exact h ⟨k, w⟩ (mem_iter ord |>.mpr hw)
  · intro h e he
    exact h e.1 e.2 (mem_iter ord |>.mp he)

theorem mem_batch {c : ℕ × WindowLayout} (hc : c ∈ views.flatMap (windowBatch old)) :
    ∃ v ∈ views, c = (v.id, v.windowLayout) := by
  obtain ⟨v, hv, hc⟩ := mem_flatMap.mp hc
  refine ⟨v, hv, ?_⟩
  unfold windowBatch at hc
  split at hc
  · simp at hc
  · split_ifs at hc <;> simp_all

theorem batch_sublist :
    Sublist ((views.flatMap (windowBatch old)).map Prod.fst) (views.map WindowView.id) := by
  induction views with
  | nil => simp
  | cons v views ih =>
    have hv : (windowBatch old v).map Prod.fst = [] ∨ (windowBatch old v).map Prod.fst = [v.id] := by
      unfold windowBatch
      split
      · simp
      · split_ifs <;> simp
    rw [flatMap_cons, map_append, map_cons]
    rcases hv with h | h
    · rw [h]
      exact ih.cons _
    · rw [h]
      exact ih.cons_cons _

/-- The batched layout event: every window of the layout now has its layout. -/
theorem midway_batch (ord : IterOrder) (hn : (views.map WindowView.id).Nodup) (h : Midway old views cur) :
    ∃ m, applyAll (WindowsState.apply ord) ⟨cur⟩
        (if views.flatMap (windowBatch old) ≠ [] then
          [.windowLayoutsChanged (views.flatMap (windowBatch old))] else []) = some ⟨m⟩ ∧
      (∀ k, k ∉ views.map WindowView.id → m.get k = cur.get k) ∧
      ∀ v ∈ views, ∃ w, cur.get v.id = some w ∧ Signalled old views v w ∧
        m.get v.id = some { makeIpcWindow v with isFocused := w.isFocused } := by
  have hp : ∀ c ∈ views.flatMap (windowBatch old), ∃ w, cur.get c.1 = some w := by
    intro c hc
    obtain ⟨v, hv, rfl⟩ := mem_batch hc
    obtain ⟨w, hw, -⟩ := h.seen v hv
    exact ⟨w, hw⟩
  obtain ⟨m, hm, hin, hout⟩ := changeLayouts_get cur (hn.sublist batch_sublist) hp
  refine ⟨m, ?_, fun k hk => hout k (fun hb => hk (batch_sublist.subset hb)), ?_⟩
  · split_ifs with hb
    · simp [WindowsState.apply, hm]
    · simp only [ne_eq, not_not] at hb
      rw [hb] at hm
      simpa [WindowsState.changeLayouts] using hm
  · intro v hv
    obtain ⟨w, hw, hs⟩ := h.seen v hv
    refine ⟨w, hw, hs, ?_⟩
    by_cases hb : (v.id, v.windowLayout) ∈ views.flatMap (windowBatch old)
    · rw [hin _ hb, hw, map_some]
      conv_lhs => rw [hs.fields]
      rfl
    · have hvb : v.id ∉ (views.flatMap (windowBatch old)).map Prod.fst := by
        intro hm
        obtain ⟨c, hc, hcv⟩ := List.mem_map.mp hm
        obtain ⟨u, hu, rfl⟩ := mem_batch hc
        obtain rfl := inj_on_of_nodup_map hn hu hv hcv
        exact hb hc
      have hl := hs.layout.resolve_right fun hm => hb (mem_flatMap.mpr ⟨v, hv, hm⟩)
      rw [hout _ hvb, hw]
      conv_lhs => rw [hs.fields, hl]
      rfl

/-- One refresh from any coherent map and under any iteration order. -/
theorem refreshWindows_mirror (ord : IterOrder) (ho : CoherentWindows pidOf old)
    (hv : ValidViews pidOf views) : refreshWindows ⟨old⟩ (ord, views) = some ⟨windowsMirror views⟩ := by
  obtain ⟨m₁, hm₁, hmid⟩ := midway_loop ord [] ho hv midway_nil
  rw [nil_append] at hmid
  obtain ⟨m₂, hm₂, hrest₂, hseen₂⟩ := midway_batch ord hv.ids_nodup hmid
  have hclosed : ∀ {k}, k ∈ closedIds ord old views ↔
      (∃ w, old.get k = some w) ∧ k ∉ views.map WindowView.id := by
    intro k
    simp only [closedIds, mem_filter, List.mem_map, Sigma.exists, mem_iter,
      exists_and_right, exists_eq_right, decide_eq_true_eq]
  have hget₂ : ∀ k, k ∉ views.map WindowView.id →
      m₂.get k = (old.get k).map (Window.clearFocus (anyFocused views)) :=
    fun k hk => (hrest₂ k hk).trans (hmid.rest k hk)
  obtain ⟨m₃, hm₃, hget₃⟩ := closed_applyAll ord m₂ (closedIds ord old views)
    ((nodup_keys_iter ord old).filter _) (by
      intro id hid
      obtain ⟨⟨w, hw⟩, hnew⟩ := hclosed.mp hid
      exact ⟨_, by rw [hget₂ id hnew, hw, map_some]⟩)
  have hrun : refreshWindows ⟨old⟩ (ord, views) = applyAll (WindowsState.apply ord) ⟨m₃⟩
      (if focusedId views = none ∧ ipcFocusedId (ord.iter old) ≠ none then
        [.windowFocusChanged none] else []) := by
    simp only [refreshWindows, refreshWindowsEvents, applyAll_append, hm₁, hm₂, hm₃,
      bind_some]
  have hgone : ∀ k, k ∉ views.map WindowView.id → m₃.get k = none := by
    intro k hk
    rw [hget₃]
    split_ifs with hc
    · rfl
    · have : old.get k = none := by
        by_contra hne
        exact hc (hclosed.mpr ⟨ne_none_iff_exists'.mp hne, hk⟩)
      rw [hget₂ k hk, this, map_none]
  have hseen : ∀ v ∈ views, ∃ w, Signalled old views v w ∧
      m₃.get v.id = some { makeIpcWindow v with isFocused := w.isFocused } := by
    intro v hm
    obtain ⟨w, -, hs, hw⟩ := hseen₂ v hm
    have hc : v.id ∉ closedIds ord old views :=
      fun hc => (hclosed.mp hc).2 (List.mem_map_of_mem hm)
    exact ⟨w, hs, by rw [hget₃, if_neg hc, hw]⟩
  -- Only focus is left: it is right already, or nothing is focused any more.
  rw [hrun]
  split_ifs with hnone
  · have hf : ∀ v ∈ views, v.isFocused = false := by
      simpa [anyFocused] using focusedId_eq_none.mp hnone.1
    simp only [applyAll_cons, WindowsState.apply, map_some, bind_some, applyAll_nil,
      some.injEq, WindowsState.mk.injEq]
    apply eq_windowsMirror hv.ids_nodup
    · intro v hm
      obtain ⟨w, -, hw⟩ := hseen v hm
      simp [hw, makeIpcWindow, hf v hm]
    · intro k hk
      simp [hgone k hk]
  · simp only [applyAll_nil, some.injEq, WindowsState.mk.injEq]
    apply eq_windowsMirror hv.ids_nodup _ hgone
    intro v hm
    obtain ⟨w, hs, hw⟩ := hseen v hm
    have hfocus : w.isFocused = v.isFocused := by
      by_cases ha : anyFocused views
      · exact hs.focused ha
      · have hold : ipcFocusedId (ord.iter old) = none := by
          have := focusedId_eq_none.mpr (by simpa using ha)
          simpa [this] using hnone
        have hvf : v.isFocused = false := by
          simp only [anyFocused, List.any_eq_true, not_exists, not_and] at ha
          simpa using ha v hm
        have hwf : ¬ w.isFocused := by
          intro hf
          obtain ⟨w₀, hw₀, hf₀⟩ := hs.stale ha hf
          simp [ipcFocusedId_eq_none.mp hold _ _ hw₀] at hf₀
        simpa [hvf] using hwf
    rw [hw, hfocus]
    rfl

theorem coherent_windowsMirror (hv : ValidViews pidOf views) :
    CoherentWindows pidOf (windowsMirror views) where
  key_id := by
    intro k w hw
    obtain ⟨v, -, rfl, rfl⟩ := (get_windowsMirror hv.ids_nodup).mp hw
    rfl
  pid_eq := by
    intro k w hw
    obtain ⟨v, hm, rfl, rfl⟩ := (get_windowsMirror hv.ids_nodup).mp hw
    exact hv.pid_eq v hm
  focused_unique := by
    intro k k' w w' hw hw' hf hf'
    obtain ⟨v, hm, rfl, rfl⟩ := (get_windowsMirror hv.ids_nodup).mp hw
    obtain ⟨v', hm', rfl, rfl⟩ := (get_windowsMirror hv.ids_nodup).mp hw'
    exact hv.focused_unique v hm v' hm' hf hf'

theorem coherentWindows_empty : CoherentWindows pidOf ∅ where
  key_id := keyedBy_empty
  pid_eq := by simp
  focused_unique := by simp

/-- After any sequence of refreshes, each under its own iteration order, the
server's map is the one built directly from the last snapshot. -/
theorem refreshWindows_run_mirrors (pidOf : ℕ → Option ℤ)
    (snapshots : List (IterOrder × List WindowView)) (ord : IterOrder)
    (views : List WindowView)
    (h : ∀ s ∈ snapshots ++ [(ord, views)], ValidViews pidOf s.2) :
    run refreshWindows ⟨∅⟩ (snapshots ++ [(ord, views)]) = some ⟨windowsMirror views⟩ := by
  obtain ⟨⟨m⟩, hm, hc⟩ := run_total (I := fun st => CoherentWindows pidOf st.windows)
    (P := fun s => ValidViews pidOf s.2) (s := ⟨∅⟩)
    (fun _ s hc hs => ⟨_, refreshWindows_mirror s.1 hc hs, coherent_windowsMirror hs⟩)
    coherentWindows_empty (fun s hs => h s (mem_append_left _ hs))
  have hv := h (ord, views) (by simp)
  simp [run_append, hm, refreshWindows_mirror ord hc hv]

def exampleLayout : WindowLayout := ⟨some (1, 1), (800, 600), (800, 600), none, (0, 0)⟩

/-- Window 1 was focused; it closes while window 2 is retitled and gets the focus. -/
theorem refreshWindows_run_close_and_focus :
    run refreshWindows ⟨∅⟩
      ([(.arbitrary, [⟨1, some "a", none, some 7, true, false, false, none, some 1, exampleLayout⟩,
        ⟨2, some "b", none, some 8, false, false, false, none, some 1, exampleLayout⟩])] ++
      [(.arbitrary, [⟨2, some "c", none, some 8, true, false, true, none, some 1,
        exampleLayout⟩])]) =
      some ⟨windowsMirror [⟨2, some "c", none, some 8, true, false, true, none, some 1,
        exampleLayout⟩]⟩ := by
  apply refreshWindows_run_mirrors fun id => if id = 1 then some 7 else some 8
  intro s hs
  simp only [cons_append, nil_append, mem_cons, not_mem_nil, or_false] at hs
  rcases hs with rfl | rfl
  · exact ⟨by decide, by decide, by decide⟩
  · exact ⟨by decide, by decide, by decide⟩

end

end Macniri.Ipc
