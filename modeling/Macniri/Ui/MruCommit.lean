import Macniri.Lib.Run
import Mathlib.Data.List.Nodup

/-! When a window enters the recent windows order: the commit of its focus timestamp, pending for as long
as the debounce takes. -/
namespace Macniri.MruCommit

open Option List

inductive KeyboardFocus
  | layout (surface : Option ℕ)
  | layerShell (surface : ℕ)
  | lockScreen (surface : Option ℕ)
  | screenshotUi
  | exitConfirmDialog
  | overview
  | mru
  deriving DecidableEq, Repr

structure Mapped where
  id : ℕ
  surface : ℕ
  focusTimestamp : Option ℕ
  deriving DecidableEq, Repr

structure PendingMruCommit where
  id : ℕ
  token : ℕ
  stamp : ℕ
  deriving DecidableEq, Repr

structure Niri where
  /-- The monotonic clock, in nanoseconds. -/
  now : ℕ
  keyboardFocus : KeyboardFocus
  windows : List Mapped
  pendingMruCommit : Option PendingMruCommit
  /-- The timers of the event loop: their tokens and deadlines. -/
  timers : List (ℕ × ℕ)
  nextToken : ℕ
  nextId : ℕ
  deriving DecidableEq, Repr

def fromMillis (ms : UInt16) : ℕ := ms.toNat * 1000000

/-- Change the first window that satisfies `p`. -/
def updateFirst (p : Mapped → Bool) (f : Mapped → Mapped) : List Mapped → List Mapped
  | [] => []
  | w :: ws => if p w then f w :: ws else w :: updateFirst p f ws

namespace Niri

def init : Niri := ⟨0, .layout none, [], none, [], 0, 0⟩

def findWindow (s : Niri) (surface : ℕ) : Option Mapped := s.windows.find? (·.surface == surface)

def updateWindow (s : Niri) (surface : ℕ) (f : Mapped → Mapped) : Niri :=
  { s with windows := updateFirst (·.surface == surface) f s.windows }

/-- `mru_apply_keyboard_commit`. -/
def mruApplyKeyboardCommit (s : Niri) : Niri :=
  match s.pendingMruCommit with
  | none => s
  | some pending =>
    { s with
      pendingMruCommit := none
      timers := s.timers.filter (·.1 ≠ pending.token)
      windows := updateFirst (·.id == pending.id)
        (fun w => { w with focusTimestamp := some pending.stamp }) s.windows }

/-- The new focus of a window: a new one is stamped at once, another one after the debounce. -/
def stampOrDebounce (debounceMs : UInt16) (s : Niri) (surface : ℕ) (mapped : Mapped) : Niri :=
  let debounce := fromMillis debounceMs
  if mapped.focusTimestamp.isNone ∨ debounce = 0 then
    s.updateWindow surface fun w => { w with focusTimestamp := some s.now }
  else
    { s with
      nextToken := s.nextToken + 1
      pendingMruCommit := some ⟨mapped.id, s.nextToken, s.now⟩
      timers := (match s.pendingMruCommit with
        | some old => s.timers.filter (·.1 ≠ old.token)
        | none => s.timers) ++ [(s.nextToken, s.now + debounce)] }

/-- `update_keyboard_focus`, from where the new focus is known; the flags for the window rules are left
out. -/
def updateKeyboardFocus (debounceMs : UInt16) (s : Niri) (focus : KeyboardFocus) : Niri :=
  if s.keyboardFocus = focus then s
  else
    let s' := match focus with
      | .layout (some surface) =>
        match s.findWindow surface with
        | some mapped => s.stampOrDebounce debounceMs surface mapped
        | none => s
      | _ => s
    { s' with keyboardFocus := focus }

end Niri

inductive Op
  /-- Time passes. -/
  | wait (duration : ℕ)
  | focus (focus : KeyboardFocus)
  /-- A timer of the event loop fires. -/
  | timer (token : ℕ)
  /-- A key event is forwarded to the focused surface. -/
  | key
  /-- A surface is mapped as a new window. -/
  | openWindow (surface : ℕ)
  | closeWindow (id : ℕ)
  deriving DecidableEq, Repr

/-- `none` where the event cannot happen: a timer fires once, at its deadline or later, and a surface is
one window. -/
def Niri.step (debounceMs : UInt16) (s : Niri) : Op → Option Niri
  | .wait duration => some { s with now := s.now + duration }
  | .focus focus => some (s.updateKeyboardFocus debounceMs focus)
  | .timer token =>
    if s.timers.any fun e => e.1 = token ∧ e.2 ≤ s.now then
      let s' := s.mruApplyKeyboardCommit
      some { s' with timers := s'.timers.filter (·.1 ≠ token) }
    else none
  | .key => some s.mruApplyKeyboardCommit
  | .openWindow surface =>
    if (s.findWindow surface).isSome then none
    else
      some { s with
        windows := s.windows ++ [⟨s.nextId, surface, none⟩]
        nextId := s.nextId + 1 }
  | .closeWindow id => some { s with windows := s.windows.filter (·.id ≠ id) }

/-- A state with the focus periods so far: the windows and the times at which the keyboard focus came to
them. -/
structure History where
  niri : Niri
  periods : List (ℕ × ℕ)
  /-- The one that still lasts. -/
  period : Option (ℕ × ℕ)
  deriving DecidableEq, Repr

namespace History

def init : History := ⟨Niri.init, [], none⟩

/-- The window that a new focus comes to. -/
def begun (s : Niri) (focus : KeyboardFocus) : Option (ℕ × ℕ) :=
  match focus with
  | .layout (some surface) => (s.findWindow surface).map fun w => (w.id, s.now)
  | _ => none

def step (debounceMs : UInt16) (r : History) (op : Op) : Option History :=
  (r.niri.step debounceMs op).map fun s =>
    match op with
    | .focus focus =>
      if r.niri.keyboardFocus = focus then ⟨s, r.periods, r.period⟩
      else ⟨s, r.periods ++ (begun r.niri focus).toList, begun r.niri focus⟩
    | _ => ⟨s, r.periods, r.period⟩

end History

section Windows

variable {ws : List Mapped} {f : Mapped → Mapped} {k : ℕ} {key : Mapped → ℕ}

/-- Where the keys differ, the first window with a key is the only one. -/
theorem updateFirst_eq_map (h : (ws.map key).Nodup) :
    updateFirst (key · == k) f ws = ws.map fun w => if key w = k then f w else w := by
  induction ws with
  | nil => rfl
  | cons w ws ih =>
    rw [map_cons, nodup_cons] at h
    by_cases hw : key w = k
    · have hrest : ∀ x ∈ ws, (if key x = k then f x else x) = x := by
        intro x hx
        refine if_neg fun hk => h.1 ?_
        exact (hw.trans hk.symm) ▸ List.mem_map_of_mem hx
      have hmap : (ws.map fun x => if key x = k then f x else x) = ws :=
        (map_congr_left hrest).trans (List.map_id ws)
      simp [updateFirst, hw, hmap]
    · simp [updateFirst, hw, ih h.2]

theorem eq_of_key {w w' : Mapped} (h : (ws.map key).Nodup) (hw : w ∈ ws) (hw' : w' ∈ ws)
    (hk : key w = key w') : w = w' :=
  inj_on_of_nodup_map h hw hw' hk

end Windows

/-- What holds whatever the focus does. -/
structure Inv (debounceMs : UInt16) (r : History) : Prop where
  ids : (r.niri.windows.map Mapped.id).Nodup
  surfaces : (r.niri.windows.map Mapped.surface).Nodup
  fresh : ∀ w ∈ r.niri.windows, w.id < r.niri.nextId
  /-- A timestamp is the beginning of a focus period of its window. -/
  stamped : ∀ w ∈ r.niri.windows, ∀ t, w.focusTimestamp = some t → (w.id, t) ∈ r.periods
  /-- So is a pending one, and its timer is the only one. -/
  pending : ∀ p, r.niri.pendingMruCommit = some p → (p.id, p.stamp) ∈ r.periods ∧
    p.id < r.niri.nextId ∧ r.niri.timers = [(p.token, p.stamp + fromMillis debounceMs)]
  idle : r.niri.pendingMruCommit = none → r.niri.timers = []
  period : ∀ id t, r.period = some (id, t) → id < r.niri.nextId ∧ t ≤ r.niri.now ∧
    ∀ w ∈ r.niri.windows, w.id = id → r.niri.keyboardFocus = .layout (some w.surface)

/-- The pending commit is that of the focus period that still lasts, unless its window is closed. -/
def Current (r : History) : Prop :=
  ∀ p, r.niri.pendingMruCommit = some p → ∀ w ∈ r.niri.windows, w.id = p.id →
    r.period = some (p.id, p.stamp)

section Steps

variable {debounceMs : UInt16} {r r' : History} {s s' : Niri} {op : Op}

theorem inv_init : Inv debounceMs History.init :=
  ⟨by simp [History.init, Niri.init], by simp [History.init, Niri.init],
    by simp [History.init, Niri.init], by simp [History.init, Niri.init],
    by simp [History.init, Niri.init], by simp [History.init, Niri.init], by simp [History.init]⟩

theorem current_init : Current History.init := by
  intro p hp
  simp [History.init, Niri.init] at hp

/-- The window with an id gets a timestamp. -/
def restamp (id : ℕ) (t : ℕ) (ws : List Mapped) : List Mapped :=
  ws.map fun w => if w.id = id then { w with focusTimestamp := some t } else w

@[simp] theorem map_id_restamp (id t : ℕ) (ws : List Mapped) :
    (restamp id t ws).map Mapped.id = ws.map Mapped.id := by
  rw [restamp, List.map_map]
  refine map_congr_left fun w _ => ?_
  simp only [Function.comp]
  split <;> rfl

@[simp] theorem map_surface_restamp (id t : ℕ) (ws : List Mapped) :
    (restamp id t ws).map Mapped.surface = ws.map Mapped.surface := by
  rw [restamp, List.map_map]
  refine map_congr_left fun w _ => ?_
  simp only [Function.comp]
  split <;> rfl

theorem mem_restamp {id t : ℕ} {ws : List Mapped} {w : Mapped} (h : w ∈ restamp id t ws) :
    ∃ w₀ ∈ ws, w₀.id = w.id ∧ w₀.surface = w.surface ∧
      (w.id = id ∧ w.focusTimestamp = some t ∨ w.id ≠ id ∧ w = w₀) := by
  obtain ⟨w₀, hw₀, rfl⟩ := List.mem_map.mp h
  refine ⟨w₀, hw₀, ?_⟩
  split
  · rename_i heq
    exact ⟨rfl, rfl, .inl ⟨heq, rfl⟩⟩
  · rename_i hne
    exact ⟨rfl, rfl, .inr ⟨hne, rfl⟩⟩

/-- A commit stamps the window of the pending commit with its stamp. -/
theorem commit_some (h : Inv debounceMs r) {p : PendingMruCommit}
    (hp : r.niri.pendingMruCommit = some p) :
    r.niri.mruApplyKeyboardCommit = { r.niri with
      pendingMruCommit := none
      timers := []
      windows := restamp p.id p.stamp r.niri.windows } := by
  unfold Niri.mruApplyKeyboardCommit
  rw [hp]
  dsimp only
  rw [updateFirst_eq_map h.ids, (h.pending p hp).2.2]
  simp [restamp]

theorem commit_none (hp : s.pendingMruCommit = none) : s.mruApplyKeyboardCommit = s := by
  simp [Niri.mruApplyKeyboardCommit, hp]

/-- The effects of a new focus on the state. -/
inductive Focuses (debounceMs : UInt16) (s : Niri) (focus : KeyboardFocus) : Niri → Prop
  /-- It comes to no window. -/
  | elsewhere : History.begun s focus = none → Focuses debounceMs s focus { s with keyboardFocus := focus }
  /-- It comes to a window without a timestamp, or there is no debounce. -/
  | stamps {w : Mapped} : w ∈ s.windows → focus = .layout (some w.surface) →
      History.begun s focus = some (w.id, s.now) →
      (w.focusTimestamp = none ∨ fromMillis debounceMs = 0) →
      Focuses debounceMs s focus
        { s with keyboardFocus := focus, windows := restamp w.id s.now s.windows }
  | debounces {w : Mapped} : w ∈ s.windows → focus = .layout (some w.surface) →
      History.begun s focus = some (w.id, s.now) →
      (w.focusTimestamp.isSome = true ∧ fromMillis debounceMs ≠ 0) →
      Focuses debounceMs s focus { s with
        keyboardFocus := focus
        nextToken := s.nextToken + 1
        pendingMruCommit := some ⟨w.id, s.nextToken, s.now⟩
        timers := [(s.nextToken, s.now + fromMillis debounceMs)] }

theorem stampOrDebounce_stamps (h : Inv debounceMs r) {w : Mapped} (hw : w ∈ r.niri.windows)
    (hstamp : w.focusTimestamp = none ∨ fromMillis debounceMs = 0) :
    r.niri.stampOrDebounce debounceMs w.surface w =
      { r.niri with windows := restamp w.id r.niri.now r.niri.windows } := by
  have hmap : updateFirst (·.surface == w.surface)
      (fun x => { x with focusTimestamp := some r.niri.now }) r.niri.windows =
      restamp w.id r.niri.now r.niri.windows := by
    rw [updateFirst_eq_map h.surfaces, restamp]
    refine map_congr_left fun x hx => ?_
    have hiff : x.surface = w.surface ↔ x.id = w.id := by
      constructor
      · exact fun hk => congrArg Mapped.id (eq_of_key h.surfaces hx hw hk)
      · exact fun hk => congrArg Mapped.surface (eq_of_key h.ids hx hw hk)
    simp only [hiff]
  unfold Niri.stampOrDebounce
  rw [if_pos (by simpa using hstamp), Niri.updateWindow, hmap]

theorem stampOrDebounce_debounces (h : Inv debounceMs r) {w : Mapped}
    (hstamp : ¬ (w.focusTimestamp = none ∨ fromMillis debounceMs = 0)) :
    r.niri.stampOrDebounce debounceMs w.surface w = { r.niri with
      nextToken := r.niri.nextToken + 1
      pendingMruCommit := some ⟨w.id, r.niri.nextToken, r.niri.now⟩
      timers := [(r.niri.nextToken, r.niri.now + fromMillis debounceMs)] } := by
  have htimers : (match r.niri.pendingMruCommit with
      | some old => r.niri.timers.filter (·.1 ≠ old.token)
      | none => r.niri.timers) = [] := by
    cases hp : r.niri.pendingMruCommit with
    | none => exact h.idle hp
    | some p => simp [(h.pending p hp).2.2]
  unfold Niri.stampOrDebounce
  rw [if_neg (by simpa using hstamp), htimers, nil_append]

theorem updateKeyboardFocus_cases (h : Inv debounceMs r) {focus : KeyboardFocus}
    (hne : r.niri.keyboardFocus ≠ focus) :
    Focuses debounceMs r.niri focus (r.niri.updateKeyboardFocus debounceMs focus) := by
  unfold Niri.updateKeyboardFocus
  rw [if_neg hne]
  cases focus with
  | layout surface =>
    cases surface with
    | none => exact .elsewhere rfl
    | some surface =>
      cases hfind : r.niri.findWindow surface with
      | none =>
        simp only [hfind]
        exact .elsewhere (by simp [History.begun, hfind])
      | some w =>
        have hw : w ∈ r.niri.windows := mem_of_find?_eq_some hfind
        have hsurface : w.surface = surface := by simpa using find?_some hfind
        have hbegun : History.begun r.niri (.layout (some surface)) = some (w.id, r.niri.now) := by
          simp [History.begun, hfind]
        subst hsurface
        simp only [hfind]
        by_cases hstamp : w.focusTimestamp = none ∨ fromMillis debounceMs = 0
        · rw [stampOrDebounce_stamps h hw hstamp]
          exact .stamps hw rfl hbegun hstamp
        · rw [stampOrDebounce_debounces h hstamp]
          refine .debounces hw rfl hbegun ?_
          rw [not_or] at hstamp
          exact ⟨isSome_iff_ne_none.mpr hstamp.1, hstamp.2⟩
  | layerShell | lockScreen | screenshotUi | exitConfirmDialog | overview | mru => exact .elsewhere rfl

/-- What a step can do. -/
inductive Does (debounceMs : UInt16) (r : History) : Op → History → Prop
  | nothing {op : Op} : Does debounceMs r op r
  | waits {d : ℕ} : Does debounceMs r (.wait d) { r with niri := { r.niri with now := r.niri.now + d } }
  | focuses {focus : KeyboardFocus} {s : Niri} :
      r.niri.keyboardFocus ≠ focus → Focuses debounceMs r.niri focus s →
      Does debounceMs r (.focus focus)
        ⟨s, r.periods ++ (History.begun r.niri focus).toList, History.begun r.niri focus⟩
  /-- The pending commit is applied, by a key event or at its deadline. -/
  | commits {op : Op} {p : PendingMruCommit} : r.niri.pendingMruCommit = some p →
      (op = .key ∨ p.stamp + fromMillis debounceMs ≤ r.niri.now) →
      Does debounceMs r op { r with
        niri := { r.niri with
          pendingMruCommit := none
          timers := []
          windows := restamp p.id p.stamp r.niri.windows } }
  | opens {surface : ℕ} : r.niri.findWindow surface = none → Does debounceMs r (.openWindow surface) { r with
      niri := { r.niri with
        windows := r.niri.windows ++ [⟨r.niri.nextId, surface, none⟩]
        nextId := r.niri.nextId + 1 } }
  | closes {id : ℕ} : Does debounceMs r (.closeWindow id)
      { r with niri := { r.niri with windows := r.niri.windows.filter (·.id ≠ id) } }

theorem step_cases (h : Inv debounceMs r) (hs : r.step debounceMs op = some r') :
    Does debounceMs r op r' := by
  rw [History.step, map_eq_some_iff] at hs
  obtain ⟨s, hs, rfl⟩ := hs
  cases op with
  | wait d =>
    obtain rfl := some.inj hs
    exact .waits
  | focus focus =>
    obtain rfl := some.inj hs
    dsimp only
    split
    · rename_i heq
      have hsame : r.niri.updateKeyboardFocus debounceMs focus = r.niri := if_pos heq
      rw [hsame]
      exact .nothing
    · rename_i hne
      exact .focuses hne (updateKeyboardFocus_cases h hne)
  | timer token =>
    simp only [Niri.step] at hs
    split at hs
    · rename_i hdue
      obtain rfl := some.inj hs
      cases hp : r.niri.pendingMruCommit with
      | none => simp [h.idle hp] at hdue
      | some p =>
        have hdue : p.token = token ∧ p.stamp + fromMillis debounceMs ≤ r.niri.now := by
          simpa [(h.pending p hp).2.2] using hdue
        rw [commit_some h hp]
        exact .commits hp (.inr hdue.2)
    · simp at hs
  | key =>
    obtain rfl := some.inj hs
    cases hp : r.niri.pendingMruCommit with
    | none =>
      rw [commit_none hp]
      exact .nothing
    | some p =>
      rw [commit_some h hp]
      exact .commits hp (.inl rfl)
  | openWindow surface =>
    simp only [Niri.step] at hs
    split at hs
    · simp at hs
    · rename_i hfind
      obtain rfl := some.inj hs
      exact .opens (by simpa using hfind)
  | closeWindow id =>
    obtain rfl := some.inj hs
    exact .closes

theorem begun_mem {s : Niri} {focus : KeyboardFocus} {id t : ℕ}
    (h : History.begun s focus = some (id, t)) :
    t = s.now ∧ ∃ w ∈ s.windows, w.id = id ∧ focus = .layout (some w.surface) := by
  unfold History.begun at h
  split at h
  · rename_i surface
    obtain ⟨w, hw, heq⟩ := of_map h
    have hsurface : w.surface = surface := by simpa using find?_some hw
    obtain ⟨rfl, rfl⟩ := Prod.mk.inj heq
    exact ⟨rfl, w, mem_of_find?_eq_some hw, rfl, by rw [hsurface]⟩
  · simp at h

/-- The facts about windows, of a state whose windows are the old ones with other timestamps. -/
theorem inv_restamp {id t : ℕ} (h : Inv debounceMs r) (hperiod : (id, t) ∈ r.periods) :
    Inv debounceMs { r with niri := { r.niri with windows := restamp id t r.niri.windows } } := by
  refine ⟨by simpa using h.ids, by simpa using h.surfaces, fun w hw => ?_, fun w hw t' ht' => ?_,
    h.pending, h.idle, fun id' t' hp => ?_⟩
  · obtain ⟨w₀, hw₀, hid, -⟩ := mem_restamp hw
    exact hid ▸ h.fresh w₀ hw₀
  · obtain ⟨w₀, hw₀, hid, -, ⟨heq, hstamp⟩ | ⟨-, rfl⟩⟩ := mem_restamp hw
    · rw [heq, ← some.inj (hstamp.symm.trans ht')]
      exact hperiod
    · exact h.stamped w hw₀ t' ht'
  · obtain ⟨hlt, hle, hfocus⟩ := h.period id' t' hp
    refine ⟨hlt, hle, fun w hw hid => ?_⟩
    obtain ⟨w₀, hw₀, hid₀, hsurface, -⟩ := mem_restamp hw
    rw [← hsurface]
    exact hfocus w₀ hw₀ (hid₀.trans hid)

/-- A new focus period begins, or none. -/
theorem inv_begin (focus : KeyboardFocus) (h : Inv debounceMs r) :
    Inv debounceMs ⟨{ r.niri with keyboardFocus := focus },
      r.periods ++ (History.begun r.niri focus).toList, History.begun r.niri focus⟩ := by
  refine ⟨h.ids, h.surfaces, h.fresh, fun w hw t ht => mem_append_left _ (h.stamped w hw t ht),
    fun p hp => ?_, h.idle, fun id t hp => ?_⟩
  · obtain ⟨hmem, hrest⟩ := h.pending p hp
    exact ⟨mem_append_left _ hmem, hrest⟩
  · obtain ⟨rfl, w, hw, rfl, rfl⟩ := begun_mem hp
    refine ⟨h.fresh w hw, Nat.le_refl _, fun w' hw' hid => ?_⟩
    rw [eq_of_key h.ids hw' hw hid]

theorem step_inv (h : Inv debounceMs r) (hs : r.step debounceMs op = some r') :
    Inv debounceMs r' := by
  cases step_cases h hs with
  | nothing => exact h
  | waits =>
    refine ⟨h.ids, h.surfaces, h.fresh, h.stamped, h.pending, h.idle, fun id t hp => ?_⟩
    obtain ⟨hlt, hle, hfocus⟩ := h.period id t hp
    exact ⟨hlt, Nat.le_add_right_of_le hle, hfocus⟩
  | @focuses focus s hne hf =>
    have hbegin := inv_begin focus h
    cases hf with
    | elsewhere hb => exact hbegin
    | @stamps w hw hfocus hb _ => exact inv_restamp hbegin (by simp [hb])
    | @debounces w hw hfocus hb _ =>
      refine { hbegin with pending := fun p hp => ?_, idle := fun hp => by simp at hp }
      obtain rfl := some.inj hp
      exact ⟨by simp [hb], h.fresh w hw, rfl⟩
  | @commits op p hp _ =>
    have hstamp := inv_restamp h (h.pending p hp).1
    exact { hstamp with pending := fun p' hp' => by simp at hp', idle := fun _ => rfl }
  | @opens surface hfind =>
    have hnew : ∀ w ∈ r.niri.windows, w.id ≠ r.niri.nextId := fun w hw => Nat.ne_of_lt (h.fresh w hw)
    have hsurface : ∀ w ∈ r.niri.windows, w.surface ≠ surface := by
      simpa [Niri.findWindow] using hfind
    refine ⟨?_, ?_, fun w hw => ?_, fun w hw t ht => ?_, fun p hp => ?_, h.idle, fun id t hp => ?_⟩
    · rw [map_append, nodup_append]
      refine ⟨h.ids, by simp, fun a ha b hb => ?_⟩
      obtain ⟨w, hw, rfl⟩ := List.mem_map.mp ha
      obtain rfl : b = r.niri.nextId := by simpa using hb
      exact hnew w hw
    · rw [map_append, nodup_append]
      refine ⟨h.surfaces, by simp, fun a ha b hb => ?_⟩
      obtain ⟨w, hw, rfl⟩ := List.mem_map.mp ha
      obtain rfl : b = surface := by simpa using hb
      exact hsurface w hw
    · rcases mem_append.mp hw with hw | hw
      · exact Nat.lt_succ_of_lt (h.fresh w hw)
      · rw [mem_singleton.mp hw]
        exact Nat.lt_succ_self _
    · rcases mem_append.mp hw with hw | hw
      · exact h.stamped w hw t ht
      · rw [mem_singleton.mp hw] at ht
        simp at ht
    · obtain ⟨hmem, hlt, htimers⟩ := h.pending p hp
      exact ⟨hmem, Nat.lt_succ_of_lt hlt, htimers⟩
    · obtain ⟨hlt, hle, hfocus⟩ := h.period id t hp
      refine ⟨Nat.lt_succ_of_lt hlt, hle, fun w hw hid => ?_⟩
      rcases mem_append.mp hw with hw | hw
      · exact hfocus w hw hid
      · rw [mem_singleton.mp hw] at hid
        have hid : r.niri.nextId = id := hid
        omega
  | @closes id =>
    have hsub : (r.niri.windows.filter (·.id ≠ id)).Sublist r.niri.windows := filter_sublist
    refine ⟨h.ids.sublist (hsub.map _), h.surfaces.sublist (hsub.map _),
      fun w hw => h.fresh w (hsub.subset hw), fun w hw => h.stamped w (hsub.subset hw), h.pending,
      h.idle, fun id' t hp => ?_⟩
    obtain ⟨hlt, hle, hfocus⟩ := h.period id' t hp
    exact ⟨hlt, hle, fun w hw => hfocus w (hsub.subset hw)⟩

end Steps

/-- A new focus replaces the pending commit of a window that is open: it comes to a window that has a
timestamp. -/
def Replaces (r : History) : Op → Prop
  | .focus focus => r.niri.keyboardFocus ≠ focus →
      (∃ p, r.niri.pendingMruCommit = some p ∧ ∃ w ∈ r.niri.windows, w.id = p.id) →
      ∃ w ∈ r.niri.windows, focus = .layout (some w.surface) ∧ w.focusTimestamp.isSome = true
  | _ => True

/-- What a step may do to a timestamp: it is changed to the beginning of the running focus period of its
window, after the debounce or by a key event. -/
def Keeps (debounceMs : UInt16) (r : History) (op : Op) (r' : History) : Prop :=
  ∀ w ∈ r.niri.windows, ∀ t, w.focusTimestamp = some t → ∀ w' ∈ r'.niri.windows, w'.id = w.id →
    w'.focusTimestamp = some t ∨
      ∃ since, w'.focusTimestamp = some since ∧ r'.period = some (w.id, since) ∧
        r'.niri.keyboardFocus = .layout (some w'.surface) ∧
        (since + fromMillis debounceMs ≤ r'.niri.now ∨ op = .key)

section Commits

variable {debounceMs : UInt16} {r r' : History} {op : Op} {ops : List Op}

/-- A pending commit needs a debounce. -/
def Debounced (debounceMs : UInt16) (r : History) : Prop :=
  r.niri.pendingMruCommit ≠ none → fromMillis debounceMs ≠ 0

theorem step_debounced (h : Inv debounceMs r) (hd : Debounced debounceMs r)
    (hs : r.step debounceMs op = some r') : Debounced debounceMs r' := by
  cases step_cases h hs with
  | nothing | waits | opens | closes => exact hd
  | commits => exact fun hp => absurd rfl hp
  | focuses _ hf =>
    cases hf with
    | elsewhere | stamps => exact hd
    | debounces _ _ _ hw => exact fun _ => hw.2

theorem step_current (h : Inv debounceMs r) (hd : Debounced debounceMs r) (hc : Current r)
    (hop : Replaces r op) (hs : r.step debounceMs op = some r') : Current r' := by
  cases step_cases h hs with
  | nothing | waits => exact hc
  | commits => exact fun p hp => by simp at hp
  | closes => exact fun p hp w hw hid => hc p hp w (mem_of_mem_filter hw) hid
  | @opens surface _ =>
    intro p hp w hw hid
    rcases mem_append.mp hw with hw | hw
    · exact hc p hp w hw hid
    · rw [mem_singleton.mp hw] at hid
      have hlt := (h.pending p hp).2.1
      have hid : r.niri.nextId = p.id := hid
      omega
  | @focuses focus s hne hf =>
    -- a commit that is left over belongs to a closed window
    have hclosed : (∀ w ∈ r.niri.windows, focus = .layout (some w.surface) →
        w.focusTimestamp = none) → ∀ p, r.niri.pendingMruCommit = some p →
        ∀ w ∈ r.niri.windows, w.id ≠ p.id := by
      intro hnone p hp w hw hid
      obtain ⟨w', hw', hfocus, hstamp⟩ := hop hne ⟨p, hp, w, hw, hid⟩
      simp [hnone w' hw' hfocus] at hstamp
    cases hf with
    | elsewhere hb =>
      intro p hp w hw hid
      refine absurd hid (hclosed (fun w' hw' hfocus => ?_) p hp w hw)
      subst hfocus
      have hfind : r.niri.findWindow w'.surface ≠ none := by
        simp only [Niri.findWindow, ne_eq, find?_eq_none, not_forall]
        exact ⟨w', hw', by simp⟩
      simp [History.begun] at hb
      exact absurd hb hfind
    | @stamps w₀ hw₀ hfocus hb hstamp =>
      intro p hp w hw hid
      obtain ⟨w₁, hw₁, hid₁, -⟩ := mem_restamp hw
      refine absurd (hid₁.trans hid) (hclosed (fun w' hw' hfocus' => ?_) p hp w₁ hw₁)
      have hsurface : w'.surface = w₀.surface := by
        have := hfocus'.symm.trans hfocus
        simpa using this
      rw [eq_of_key h.surfaces hw' hw₀ hsurface]
      refine hstamp.resolve_right (hd ?_)
      have hp : r.niri.pendingMruCommit = some p := hp
      simp [hp]
    | debounces _ _ hb _ =>
      intro p hp w hw hid
      obtain rfl := some.inj hp
      exact hb

theorem step_keeps (h : Inv debounceMs r) (hc : Current r) (hs : r.step debounceMs op = some r') :
    Keeps debounceMs r op r' := by
  intro w hw t ht w' hw' hid
  have hsame : ∀ {x}, x ∈ r.niri.windows → x.id = w.id → x.focusTimestamp = some t :=
    fun hx hk => eq_of_key h.ids hx hw hk ▸ ht
  cases step_cases h hs with
  | nothing | waits => exact .inl (hsame hw' hid)
  | closes => exact .inl (hsame (mem_of_mem_filter hw') hid)
  | opens =>
    rcases mem_append.mp hw' with hw' | hw'
    · exact .inl (hsame hw' hid)
    · rw [mem_singleton.mp hw'] at hid
      have hid : r.niri.nextId = w.id := hid
      have := h.fresh w hw
      omega
  | @commits op p hp hwhen =>
    obtain ⟨w₀, hw₀, hid₀, hsurface, ⟨heq, hstamp⟩ | ⟨-, rfl⟩⟩ := mem_restamp hw'
    · have hperiod := hc p hp w hw (hid.symm.trans heq)
      refine .inr ⟨p.stamp, hstamp, by rw [hperiod, ← heq, hid], ?_, hwhen.symm⟩
      rw [← hsurface]
      exact (h.period _ _ hperiod).2.2 w₀ hw₀ (hid₀.trans heq)
    · exact .inl (hsame hw₀ hid)
  | @focuses focus s hne hf =>
    cases hf with
    | elsewhere | debounces => exact .inl (hsame hw' hid)
    | @stamps w₁ hw₁ hfocus hb hzero =>
      obtain ⟨w₀, hw₀, hid₀, hsurface, ⟨heq, hstamp⟩ | ⟨-, rfl⟩⟩ := mem_restamp hw'
      · have hw₀w : w₀ = w₁ := eq_of_key h.ids hw₀ hw₁ (hid₀.trans heq)
        have hz : fromMillis debounceMs = 0 := by
          refine hzero.resolve_left fun hnone => ?_
          have := hsame hw₁ (heq.symm.trans hid)
          simp [hnone] at this
        refine .inr ⟨_, hstamp, by rw [hb, ← heq, hid], ?_, .inl (by simp [hz])⟩
        rw [hfocus, ← hsurface, hw₀w]
      · exact .inl (hsame hw₀ hid)

/-- What the runs keep in which every new focus replaces the pending commit of an open window. -/
def Good (debounceMs : UInt16) (r : History) : Prop :=
  Inv debounceMs r ∧ Debounced debounceMs r ∧ Current r

theorem good_init : Good debounceMs History.init :=
  ⟨inv_init, fun hp => absurd rfl hp, current_init⟩

theorem step_good (h : Good debounceMs r) (hop : Replaces r op)
    (hs : r.step debounceMs op = some r') : Good debounceMs r' :=
  ⟨step_inv h.1 hs, step_debounced h.1 h.2.1 hs, step_current h.1 h.2.1 h.2.2 hop hs⟩

/-- A closed window is never opened again. -/
theorem step_open (h : Inv debounceMs r) (hs : r.step debounceMs op = some r') {w' : Mapped}
    (hw' : w' ∈ r'.niri.windows) (hlt : w'.id < r.niri.nextId) :
    ∃ w ∈ r.niri.windows, w.id = w'.id := by
  cases step_cases h hs with
  | nothing | waits => exact ⟨w', hw', rfl⟩
  | closes => exact ⟨w', mem_of_mem_filter hw', rfl⟩
  | commits =>
    obtain ⟨w, hw, hid, -⟩ := mem_restamp hw'
    exact ⟨w, hw, hid⟩
  | opens =>
    rcases mem_append.mp hw' with hw' | hw'
    · exact ⟨w', hw', rfl⟩
    · rw [mem_singleton.mp hw'] at hlt
      exact absurd hlt (Nat.lt_irrefl _)
  | focuses _ hf =>
    cases hf with
    | elsewhere | debounces => exact ⟨w', hw', rfl⟩
    | stamps =>
      obtain ⟨w, hw, hid, -⟩ := mem_restamp hw'
      exact ⟨w, hw, hid⟩

theorem step_nextId (h : Inv debounceMs r) (hs : r.step debounceMs op = some r') :
    r.niri.nextId ≤ r'.niri.nextId := by
  cases step_cases h hs with
  | nothing | waits | closes | commits => exact Nat.le_refl _
  | opens => exact Nat.le_succ _
  | focuses _ hf =>
    cases hf with
    | elsewhere | debounces | stamps => exact Nat.le_refl _

/-- The step leaves the window without a focus that lasts for the debounce, and types nothing into it. -/
def PassesOver (debounceMs : UInt16) (id : ℕ) (r : History) (op : Op) : Prop :=
  ∀ r', r.step debounceMs op = some r' → ∀ since, r'.period = some (id, since) →
    r'.niri.now < since + fromMillis debounceMs ∧ op ≠ .key

theorem open_of_run (h : Good debounceMs r)
    (hop : AllAlong (History.step debounceMs) (fun r op => Replaces r op) r ops)
    (hr : run (History.step debounceMs) r ops = some r') {w' : Mapped} (hw' : w' ∈ r'.niri.windows)
    (hlt : w'.id < r.niri.nextId) : ∃ w ∈ r.niri.windows, w.id = w'.id := by
  induction ops generalizing r with
  | nil =>
    obtain rfl := some.inj hr
    exact ⟨w', hw', rfl⟩
  | cons op ops ih =>
    obtain ⟨q, hq, hrest⟩ := of_bind hr
    obtain ⟨w, hw, hid⟩ := ih (step_good h hop.1 hq) (hop.2 q hq) hrest
      (Nat.lt_of_lt_of_le hlt (step_nextId h.1 hq))
    obtain ⟨w₀, hw₀, hid₀⟩ := step_open h.1 hq hw (hid ▸ hlt)
    exact ⟨w₀, hw₀, hid₀.trans hid⟩

/-- A window that is only passed over keeps its timestamp. -/
theorem run_passesOver (h : Good debounceMs r)
    (hop : AllAlong (History.step debounceMs) (fun r op => Replaces r op) r ops)
    (hr : run (History.step debounceMs) r ops = some r') {w w' : Mapped} {t : ℕ}
    (hpass : AllAlong (History.step debounceMs) (PassesOver debounceMs w.id) r ops)
    (hw : w ∈ r.niri.windows) (ht : w.focusTimestamp = some t) (hw' : w' ∈ r'.niri.windows)
    (hid : w'.id = w.id) : w'.focusTimestamp = some t := by
  induction ops generalizing r w with
  | nil =>
    obtain rfl := some.inj hr
    rwa [eq_of_key h.1.ids hw' hw hid]
  | cons op ops ih =>
    obtain ⟨q, hq, hrest⟩ := of_bind hr
    have hgood := step_good h hop.1 hq
    have hlt : w'.id < q.niri.nextId :=
      Nat.lt_of_lt_of_le (hid ▸ h.1.fresh w hw) (step_nextId h.1 hq)
    obtain ⟨v, hv, hvid⟩ := open_of_run hgood (hop.2 q hq) hrest hw' hlt
    have hvw : v.id = w.id := hvid.trans hid
    have hvt : v.focusTimestamp = some t := by
      rcases step_keeps h.1 h.2.2 hq w hw t ht v hv hvw with hkeep | ⟨since, -, hperiod, -, hwhen⟩
      · exact hkeep
      · obtain ⟨hearly, hkey⟩ := hpass.1 q hq since hperiod
        rcases hwhen with hlate | hk
        · omega
        · exact absurd hk hkey
    refine ih hgood (hop.2 q hq) hrest ?_ hv hvt hvid.symm
    rw [hvw]
    exact hpass.2 q hq

/-- In every run in which every new focus replaces the pending commit of an open window: a timestamp is the
beginning of a focus period, it changes only while its window has the focus, after the debounce or by a
key event, and never for a window that is passed over. -/
theorem mru_commit {debounceMs : UInt16} {ops : List Op} {r : History}
    (h : run (History.step debounceMs) History.init ops = some r)
    (hop : AllAlong (History.step debounceMs) (fun r op => Replaces r op) History.init ops) :
    (∀ w ∈ r.niri.windows, ∀ t, w.focusTimestamp = some t → (w.id, t) ∈ r.periods) ∧
      (∀ before op after, ops = before ++ op :: after → ∃ q q',
        run (History.step debounceMs) History.init before = some q ∧
          q.step debounceMs op = some q' ∧ Keeps debounceMs q op q') ∧
      ∀ before after q, ops = before ++ after →
        run (History.step debounceMs) History.init before = some q → ∀ w ∈ q.niri.windows, ∀ t,
          w.focusTimestamp = some t →
          AllAlong (History.step debounceMs) (PassesOver debounceMs w.id) q after →
          ∀ w' ∈ r.niri.windows, w'.id = w.id → w'.focusTimestamp = some t := by
  have hgood : ∀ {before after q}, ops = before ++ after →
      run (History.step debounceMs) History.init before = some q →
      Good debounceMs q ∧ AllAlong (History.step debounceMs) (fun r op => Replaces r op) q after ∧
        run (History.step debounceMs) q after = some r := by
    intro before after q heq hq
    subst heq
    obtain ⟨hbefore, hafter⟩ := hop.split hq
    rw [run_append, hq] at h
    exact ⟨run_invariant_of_allAlong (fun _ _ _ hg ho hs => step_good hg ho hs) good_init hbefore hq,
      hafter, h⟩
  refine ⟨?_, fun before op after heq => ?_, fun before after q heq hq w hw t ht hpass w' hw' hid => ?_⟩
  · exact (hgood (append_nil ops).symm h).1.1.stamped
  · have hrun := h
    rw [heq, run_append] at hrun
    obtain ⟨q, hq, hrest⟩ := of_bind hrun
    obtain ⟨q', hq', -⟩ := of_bind hrest
    obtain ⟨hg, -, -⟩ := hgood heq hq
    exact ⟨q, q', hq, hq', step_keeps hg.1 hg.2.2 hq'⟩
  · obtain ⟨hg, ho, hrest⟩ := hgood heq hq
    exact run_passesOver hg ho hrest hpass hw ht hw' hid

/-- Whether the focus comes to a window with a timestamp, or nothing is pending. -/
def replaces (r : History) : Op → Bool
  | .focus (.layout (some surface)) => r.niri.pendingMruCommit.isNone ||
      (r.niri.findWindow surface).any fun w => w.focusTimestamp.isSome
  | .focus _ => r.niri.pendingMruCommit.isNone
  | _ => true

theorem Replaces.of_replaces (r : History) (op : Op) (h : replaces r op = true) : Replaces r op := by
  cases op with
  | focus focus =>
    rintro - ⟨p, hp, -⟩
    unfold replaces at h
    split at h
    · rename_i surface heq
      obtain rfl := Op.focus.inj heq
      rw [hp, isNone_some, Bool.false_or, Option.any_eq_true] at h
      obtain ⟨w, hw, hstamp⟩ := h
      have hsurface : w.surface = surface := by simpa using find?_some hw
      exact ⟨w, mem_of_find?_eq_some hw, by rw [hsurface], hstamp⟩
    · simp [hp] at h
    · rename_i hother
      exact absurd rfl (hother focus)
  | _ => trivial

/-- Two windows that have had the focus, of which the first one is passed over. -/
def passOver : List Op :=
  [.openWindow 1, .openWindow 2, .focus (.layout (some 1)), .focus (.layout (some 2)), .wait 10,
    .focus (.layout (some 1)), .wait 5, .focus (.layout (some 2)), .wait 750000000, .timer 1]

theorem mru_commit_passOver :
    (run (History.step 750) History.init passOver).map (fun r => r.niri.windows) =
        some [⟨0, 1, some 0⟩, ⟨1, 2, some 15⟩] ∧
      ∀ r, run (History.step 750) History.init passOver = some r → ∀ w ∈ r.niri.windows, ∀ t,
        w.focusTimestamp = some t → (w.id, t) ∈ r.periods :=
  ⟨by decide, fun _ hr => (mru_commit hr (allAlong_of_along Replaces.of_replaces (by decide))).1⟩

/-- The focus moves on to a layer surface, and the timer stamps the window all the same. -/
theorem mru_commit_left_over : ∃ q q',
    run (History.step 750) History.init [.openWindow 1, .focus (.layout (some 1)), .focus .overview,
        .wait 10, .focus (.layout (some 1)), .focus (.layerShell 5), .wait 750000000] = some q ∧
      q.step 750 (.timer 0) = some q' ∧ ¬ Keeps 750 q (.timer 0) q' := by
  refine ⟨⟨⟨750000010, .layerShell 5, [⟨0, 1, some 0⟩], some ⟨0, 0, 10⟩, [(0, 750000010)], 1, 1⟩,
    [(0, 0), (0, 10)], none⟩, ⟨⟨750000010, .layerShell 5, [⟨0, 1, some 10⟩], none, [], 1, 1⟩,
    [(0, 0), (0, 10)], none⟩, by decide, by decide, fun h => ?_⟩
  have := h ⟨0, 1, some 0⟩ (by simp) 0 rfl ⟨0, 1, some 10⟩ (by simp) rfl
  simp at this

end Commits

end Macniri.MruCommit
