import Macniri.OutputManagement.State

/-! What a client of wlr-output-management knows: the fold of the events it was sent. -/
namespace Macniri.OutputManagement

open Option List

open Layout (Transform)

structure ModeView where
  size : Option (ℕ × ℕ)
  refresh : Option ℕ
  deriving DecidableEq, Repr

/-- A live head; `modes` are the objects of its modes, in the order they were announced. -/
structure HeadView where
  modes : List ℕ
  enabled : Bool
  currentMode : Option ℕ
  position : Option (ℤ × ℤ)
  transform : Option Transform
  scale : Option ℚ
  adaptiveSync : Option Bool
  deriving DecidableEq, Repr

def HeadView.new : HeadView := ⟨[], false, none, none, none, none, none⟩

/-- What an event says about the head object `h`. -/
def HeadView.next (h : ℕ) (hv : Option HeadView) : Event → Option HeadView
  | .head _ h' => if h' = h then some .new else hv
  | .mode h' m => if h' = h then hv.map fun v => { v with modes := v.modes ++ [m] } else hv
  | .modeFinished m => hv.map fun v => { v with modes := v.modes.filter (· != m) }
  | .currentMode h' m => if h' = h then hv.map fun v => { v with currentMode := some m } else hv
  | .position h' x y => if h' = h then hv.map fun v => { v with position := some (x, y) } else hv
  | .transform h' t => if h' = h then hv.map fun v => { v with transform := some t } else hv
  | .scale h' s => if h' = h then hv.map fun v => { v with scale := some s } else hv
  | .enabled h' b => if h' = h then hv.map fun v => { v with enabled := b } else hv
  | .adaptiveSync h' b => if h' = h then hv.map fun v => { v with adaptiveSync := some b } else hv
  | .headFinished h' => if h' = h then none else hv
  | _ => hv

/-- What an event says about the mode object `m`. -/
def ModeView.next (m : ℕ) (mv : Option ModeView) : Event → Option ModeView
  | .mode _ m' => if m' = m then some ⟨none, none⟩ else mv
  | .size m' width height =>
    if m' = m then mv.map fun v => { v with size := some (width, height) } else mv
  | .refresh m' refresh => if m' = m then mv.map fun v => { v with refresh := some refresh } else mv
  | .modeFinished m' => if m' = m then none else mv
  | _ => mv

structure View where
  heads : ℕ → Option HeadView
  modes : ℕ → Option ModeView

namespace View

def empty : View := ⟨fun _ => none, fun _ => none⟩

def apply (v : View) (events : List Event) : View where
  heads h := events.foldl (HeadView.next h) (v.heads h)
  modes m := events.foldl (ModeView.next m) (v.modes m)

end View

/-- The events that a client was sent. -/
def Client.events (c : Client) : List Event :=
  c.log.filterMap fun
    | .event event => some event
    | .applyOutputConfig _ _ => none

def Client.view (c : Client) : View := View.empty.apply c.events

def Mode.view (mode : Mode) : ModeView := ⟨some (mode.width, mode.height), some mode.refreshRate⟩

/-- A head shows the state of an output, on a manager of the given version. -/
structure HeadView.Shows (v : View) (version : ℕ) (hv : HeadView) (conf : Output) : Prop where
  modes : hv.modes.map v.modes = conf.modes.map fun mode => some mode.view
  enabled : hv.enabled = conf.currentMode.isSome
  currentMode : ∀ i, conf.currentMode = some i → i < conf.modes.length →
    hv.currentMode = hv.modes[i]?
  logical : ∀ l, conf.logical = some l →
    hv.position = some (l.x, l.y) ∧ hv.transform = some l.transform ∧ hv.scale = some l.scale
  adaptiveSync : evtAdaptiveSyncSince ≤ version → hv.adaptiveSync = some conf.vrrEnabled

/-- The live heads are those of the outputs, one each, and show their state. -/
def View.Mirrors (v : View) (version : ℕ) (state : HashMap ℕ Output) : Prop :=
  ∃ obj : ℕ → ℕ,
    (∀ o o', (state.get o).isSome → (state.get o').isSome → obj o = obj o' → o = o') ∧
    (∀ h, (v.heads h).isSome ↔ ∃ o, (state.get o).isSome ∧ obj o = h) ∧
    ∀ o conf, state.get o = some conf → ∃ hv, v.heads (obj o) = some hv ∧ hv.Shows v version conf

namespace View

variable {v : View} {xs ys : List Event} {e : Event} {h m : ℕ}

@[simp] theorem apply_nil : v.apply [] = v := rfl

theorem apply_append : v.apply (xs ++ ys) = (v.apply xs).apply ys := by
  simp [apply, foldl_append]

@[simp] theorem heads_apply_cons :
    (v.apply (e :: xs)).heads h = xs.foldl (HeadView.next h) (HeadView.next h (v.heads h) e) := rfl

end View

/-- The head and mode objects that an event tells something about. -/
def Event.objects : Event → List ℕ
  | .head _ h => [h]
  | .mode h m => [h, m]
  | .size m _ _ | .refresh m _ | .modeFinished m => [m]
  | .currentMode h _ | .position h _ _ | .transform h _ | .scale h _ | .enabled h _
  | .adaptiveSync h _ | .headFinished h => [h]
  | .name _ _ | .description _ _ | .physicalSize _ _ _ | .preferred _ | .make _ _ | .model _ _
  | .serialNumber _ _ | .done _ _ | .managerFinished _ | .succeeded _ | .failed _ | .cancelled _
  | .error _ _ _ => []

section Frame

variable {hv : HeadView} {e : Event} {xs : List Event} {h m : ℕ}

/-- An event about other objects leaves a head alone. -/
theorem HeadView.next_of_notMem {o : Option HeadView} (hh : h ∉ e.objects)
    (hm : ∀ v, o = some v → ∀ m ∈ v.modes, m ∉ e.objects) : HeadView.next h o e = o := by
  cases e with
  | modeFinished m =>
    cases o with
    | none => rfl
    | some v =>
      have hfilter : v.modes.filter (· != m) = v.modes := by
        rw [filter_eq_self]
        intro a ha
        have := hm v rfl a ha
        simpa [Event.objects] using this
      simp [next, hfilter]
  | head _ h' | mode h' _ | currentMode h' _ | position h' _ _ | transform h' _ | scale h' _
  | enabled h' _ | adaptiveSync h' _ | headFinished h' =>
    have hne : h' ≠ h := by
      intro he
      simp [Event.objects, he] at hh
    simp [next, hne]
  | _ => rfl

theorem HeadView.foldl_of_notMem {o : Option HeadView} (hh : ∀ e ∈ xs, h ∉ e.objects)
    (hm : ∀ v, o = some v → ∀ m ∈ v.modes, ∀ e ∈ xs, m ∉ e.objects) :
    xs.foldl (HeadView.next h) o = o := by
  induction xs with
  | nil => rfl
  | cons e xs ih =>
    rw [foldl_cons, next_of_notMem (hh e (by simp)) (fun v hv m hm' => hm v hv m hm' e (by simp))]
    exact ih (fun e he => hh e (by simp [he])) (fun v hv m hm' e he => hm v hv m hm' e (by simp [he]))

theorem ModeView.next_of_notMem {o : Option ModeView} (hm : m ∉ e.objects) :
    ModeView.next m o e = o := by
  cases e with
  | mode _ m' | size m' _ _ | refresh m' _ | modeFinished m' =>
    have hne : m' ≠ m := by
      intro he
      simp [Event.objects, he] at hm
    simp [next, hne]
  | _ => rfl

theorem ModeView.foldl_of_notMem {o : Option ModeView} (hm : ∀ e ∈ xs, m ∉ e.objects) :
    xs.foldl (ModeView.next m) o = o := by
  induction xs with
  | nil => rfl
  | cons e xs ih =>
    rw [foldl_cons, next_of_notMem (hm e (by simp))]
    exact ih fun e he => hm e (by simp [he])

end Frame

/-- The head object with the given modes shows the state of an output. -/
def Shown (v : View) (head : Head) (modes : List ℕ) (conf : Output) : Prop :=
  ∃ hv, v.heads head.id = some hv ∧ hv.modes = modes ∧ hv.Shows v head.version conf

section Shown

variable {v : View} {head : Head} {modes ids : List ℕ} {conf new : Output} {xs : List Event}
variable {ms : List Mode}

theorem Shown.frame (h : Shown v head modes conf)
    (hxs : ∀ e ∈ xs, ∀ id ∈ head.id :: modes, id ∉ e.objects) :
    Shown (v.apply xs) head modes conf := by
  obtain ⟨hv, hhead, rfl, hshows⟩ := h
  refine ⟨hv, ?_, rfl, { hshows with modes := ?_ }⟩
  · change xs.foldl _ (v.heads head.id) = _
    rw [hhead]
    refine HeadView.foldl_of_notMem (fun e he => hxs e he _ (by simp)) ?_
    intro w hw m hm e he
    obtain rfl := some.inj hw
    exact hxs e he m (by simp [hm])
  · rw [← hshows.modes]
    refine map_congr_left fun m hm => ?_
    exact ModeView.foldl_of_notMem fun e he => hxs e he m (by simp [hm])

/-- Only some parts of the state are shown; a position that is not known any more stays. -/
theorem Shown.congr (h : Shown v head modes conf) (hmodes : new.modes = conf.modes)
    (hcurrent : new.currentMode = conf.currentMode) (hvrr : new.vrrEnabled = conf.vrrEnabled)
    (hlogical : ∀ l, new.logical = some l → conf.logical = some l) : Shown v head modes new := by
  obtain ⟨hv, hhead, rfl, hshows⟩ := h
  refine ⟨hv, hhead, rfl, ⟨?_, ?_, ?_, fun l hl => hshows.logical l (hlogical l hl), ?_⟩⟩
  · rw [hmodes, hshows.modes]
  · rw [hcurrent, hshows.enabled]
  · intro i hi hlt
    rw [hcurrent] at hi
    rw [hmodes] at hlt
    exact hshows.currentMode i hi hlt
  · intro hversion
    rw [hvrr, hshows.adaptiveSync hversion]

theorem shown_adaptiveSync (h : Shown v head modes conf) (b : Bool) :
    Shown (v.apply [.adaptiveSync head.id b]) head modes { conf with vrrEnabled := b } := by
  obtain ⟨hv, hhead, rfl, hshows⟩ := h
  exact ⟨{ hv with adaptiveSync := some b }, by simp [HeadView.next, hhead], rfl,
    ⟨hshows.modes, hshows.enabled, hshows.currentMode, hshows.logical, fun _ => rfl⟩⟩

theorem shown_oldVersion (h : Shown v head modes conf) (b : Bool)
    (hversion : ¬evtAdaptiveSyncSince ≤ head.version) :
    Shown v head modes { conf with vrrEnabled := b } := by
  obtain ⟨hv, hhead, rfl, hshows⟩ := h
  exact ⟨hv, hhead, rfl, ⟨hshows.modes, hshows.enabled, hshows.currentMode, hshows.logical,
    fun hle => absurd hle hversion⟩⟩

/-! The modes. -/

theorem modes_foldl_reused {id : ℕ} {mode : Mode} {mv : ModeView} (hr : mode.refreshRate < 2 ^ 31) :
    (.size id mode.width mode.height :: refreshEvents id mode).foldl (ModeView.next id) (some mv) =
      some mode.view := by
  rw [refreshEvents, if_pos hr]
  simp [ModeView.next, Mode.view]

theorem objects_refreshEvents {id : ℕ} {mode : Mode} {e : Event} (he : e ∈ refreshEvents id mode) :
    e.objects = [id] := by
  unfold refreshEvents at he
  split at he
  · obtain rfl := mem_singleton.mp he
    rfl
  · simp at he

theorem objects_reusedModesEvents {e : Event} (he : e ∈ Client.reusedModesEvents modes ms) :
    ∃ id ∈ modes, e.objects = [id] := by
  obtain ⟨⟨id, mode⟩, hz, he⟩ := mem_flatMap.mp he
  refine ⟨id, (of_mem_zip hz).1, ?_⟩
  rcases mem_cons.mp he with rfl | he
  · rfl
  · exact objects_refreshEvents he

theorem map_modes_reused (v : View) (ms : List Mode) (hn : modes.Nodup)
    (hsome : ∀ m ∈ modes, ∃ mv, v.modes m = some mv)
    (hr : ∀ mode ∈ ms, mode.refreshRate < 2 ^ 31) :
    modes.map (v.apply (Client.reusedModesEvents modes ms)).modes =
      (ms.take modes.length).map (fun mode => some mode.view) ++
        (modes.drop ms.length).map v.modes := by
  induction modes generalizing ms v with
  | nil => simp
  | cons id modes ih =>
    cases ms with
    | nil => simp [Client.reusedModesEvents]
    | cons mode ms =>
      obtain ⟨hid, hn⟩ := nodup_cons.mp hn
      obtain ⟨mv, hmv⟩ := hsome id (by simp)
      have hsplit : Client.reusedModesEvents (id :: modes) (mode :: ms) =
          (.size id mode.width mode.height :: refreshEvents id mode) ++
            Client.reusedModesEvents modes ms := rfl
      -- The events of the first mode set that mode and leave the others alone.
      have hfirst : (v.apply (.size id mode.width mode.height :: refreshEvents id mode)).modes id =
          some mode.view := by
        change List.foldl _ (v.modes id) _ = _
        rw [hmv]
        exact modes_foldl_reused (hr mode (by simp))
      have hother : ∀ m ∈ modes,
          (v.apply (.size id mode.width mode.height :: refreshEvents id mode)).modes m =
            v.modes m := by
        intro m hm
        refine ModeView.foldl_of_notMem fun e he => ?_
        have hobj : e.objects = [id] := by
          rcases mem_cons.mp he with rfl | he
          · rfl
          · exact objects_refreshEvents he
        rw [hobj, mem_singleton]
        rintro rfl
        exact hid hm
      have hrest := ih (v.apply (.size id mode.width mode.height :: refreshEvents id mode)) ms hn
        (fun m hm => by rw [hother m hm]; exact hsome m (by simp [hm]))
        (fun mode hmode => hr mode (by simp [hmode]))
      rw [hsplit, View.apply_append, map_cons, hrest]
      have hkeep : ((v.apply (.size id mode.width mode.height :: refreshEvents id mode)).apply
          (Client.reusedModesEvents modes ms)).modes id = some mode.view := by
        rw [← hfirst]
        refine ModeView.foldl_of_notMem fun e he => ?_
        obtain ⟨m, hm, hobj⟩ := objects_reusedModesEvents he
        rw [hobj, mem_singleton]
        rintro rfl
        exact hid hm
      have hdrop : (modes.drop ms.length).map
          (v.apply (.size id mode.width mode.height :: refreshEvents id mode)).modes =
            (modes.drop ms.length).map v.modes :=
        map_congr_left fun m hm => hother m (mem_of_mem_drop hm)
      rw [hkeep, hdrop]
      simp

/-- The current mode once the modes from `index` on are announced with these ids. -/
def currentAmong (currentMode : Option ℕ) (index : ℕ) (ids : List ℕ) (current : Option ℕ) :
    Option ℕ :=
  match currentMode with
  | some i => if index ≤ i ∧ i < index + ids.length then ids[i - index]? else current
  | none => current

theorem foldl_next_refreshEvents {h id : ℕ} {mode : Mode} {o : Option HeadView} :
    (refreshEvents id mode).foldl (HeadView.next h) o = o := by
  unfold refreshEvents
  split <;> rfl

theorem foldl_next_newModeEvents {h id index : ℕ} {cm : Option ℕ} {mode : Mode} {hv : HeadView} :
    (newModeEvents h cm index id mode).foldl (HeadView.next h) (some hv) =
      some { hv with
        modes := hv.modes ++ [id]
        currentMode := if some index = cm then some id else hv.currentMode } := by
  unfold newModeEvents
  simp only [foldl_append, foldl_next_refreshEvents]
  cases mode.isPreferred <;> by_cases hc : some index = cm <;> simp [hc, HeadView.next]

theorem currentAmong_cons {cm current : Option ℕ} {index id : ℕ} {ids : List ℕ} :
    currentAmong cm (index + 1) ids (if some index = cm then some id else current) =
      currentAmong cm index (id :: ids) current := by
  cases cm with
  | none => simp [currentAmong]
  | some i =>
    simp only [currentAmong, length_cons, some.injEq]
    rcases Nat.lt_trichotomy i index with hlt | rfl | hlt
    · rw [if_neg (by omega), if_neg (by omega), if_neg (by omega)]
    · rw [if_neg (by omega), if_pos rfl, if_pos (by omega)]
      simp
    · have hidx : i - index = i - (index + 1) + 1 := by omega
      by_cases hin : i < index + 1 + ids.length
      · rw [if_pos (by omega), if_pos (by omega), hidx, getElem?_cons_succ]
      · rw [if_neg (by omega), if_neg (by omega), if_neg (by omega)]

theorem foldl_next_newModesEvents {h index : ℕ} {cm : Option ℕ} {hv : HeadView}
    (hlen : ids.length = ms.length) :
    (newModesEvents h cm index ids ms).foldl (HeadView.next h) (some hv) =
      some { hv with
        modes := hv.modes ++ ids
        currentMode := currentAmong cm index ids hv.currentMode } := by
  induction ids generalizing ms index hv with
  | nil =>
    have hcurrent : currentAmong cm index [] hv.currentMode = hv.currentMode := by
      cases cm with
      | none => rfl
      | some i =>
        rw [currentAmong, if_neg]
        simp
    simp [newModesEvents, hcurrent]
  | cons id ids ih =>
    cases ms with
    | nil => simp at hlen
    | cons mode ms =>
      rw [newModesEvents, foldl_append, foldl_next_newModeEvents, ih (by simpa using hlen)]
      simp [currentAmong_cons]

theorem objects_newModeEvents {h id index : ℕ} {cm : Option ℕ} {mode : Mode} {e : Event}
    (he : e ∈ newModeEvents h cm index id mode) : ∀ x ∈ e.objects, x = h ∨ x = id := by
  simp only [newModeEvents, mem_append, mem_cons, not_mem_nil, or_false] at he
  rcases he with (((rfl | rfl) | he) | he) | he
  · simp [Event.objects]
  · simp [Event.objects]
  · split at he
    · obtain rfl := mem_singleton.mp he
      simp [Event.objects]
    · simp at he
  · simp [objects_refreshEvents he]
  · split at he
    · obtain rfl := mem_singleton.mp he
      simp [Event.objects]
    · simp at he

theorem objects_newModesEvents {h index : ℕ} {cm : Option ℕ} {e : Event}
    (he : e ∈ newModesEvents h cm index ids ms) : ∀ x ∈ e.objects, x ∈ h :: ids := by
  induction ids generalizing ms index with
  | nil => simp [newModesEvents] at he
  | cons id ids ih =>
    cases ms with
    | nil => simp [newModesEvents] at he
    | cons mode ms =>
      intro x hx
      rcases mem_append.mp he with he | he
      · rcases objects_newModeEvents he x hx with rfl | rfl <;> simp
      · have := ih he x hx
        simp only [mem_cons] at this ⊢
        tauto

theorem head_notMem_newModesEvents {h index m h' : ℕ} {cm : Option ℕ} :
    Event.head m h' ∉ newModesEvents h cm index ids ms := by
  induction ids generalizing ms index with
  | nil => simp [newModesEvents]
  | cons id ids ih =>
    cases ms with
    | nil => simp [newModesEvents]
    | cons mode ms =>
      intro he
      rcases mem_append.mp he with he | he
      · simp only [newModeEvents, refreshEvents, mem_append] at he
        rcases he with ((he | he) | he) | he
        · simp at he
        all_goals split at he <;> simp at he
      · exact ih he

theorem foldl_modes_newModeEvents {h id index : ℕ} {cm : Option ℕ} {mode : Mode}
    {o : Option ModeView} (hr : mode.refreshRate < 2 ^ 31) :
    (newModeEvents h cm index id mode).foldl (ModeView.next id) o = some mode.view := by
  rw [newModeEvents, refreshEvents, if_pos hr]
  cases mode.isPreferred <;> by_cases hc : some index = cm <;>
    simp [hc, ModeView.next, Mode.view]

theorem map_modes_new {h : ℕ} (cm : Option ℕ) (index : ℕ) (v : View) (ms : List Mode)
    (hn : (h :: ids).Nodup) (hlen : ids.length = ms.length)
    (hr : ∀ mode ∈ ms, mode.refreshRate < 2 ^ 31) :
    ids.map (v.apply (newModesEvents h cm index ids ms)).modes =
      ms.map fun mode => some mode.view := by
  induction ids generalizing index v ms with
  | nil => cases ms <;> simp_all
  | cons id ids ih =>
    cases ms with
    | nil => simp at hlen
    | cons mode ms =>
      obtain ⟨hh, hid, hn⟩ : h ∉ id :: ids ∧ id ∉ ids ∧ ids.Nodup := by
        simpa [nodup_cons] using hn
      have hrest := ih (index + 1) (v.apply (newModeEvents h cm index id mode)) ms
        (nodup_cons.mpr ⟨fun hmem => hh (by simp [hmem]), hn⟩) (by simpa using hlen)
        (fun mode hmode => hr mode (by simp [hmode]))
      have hfirst : (v.apply (newModeEvents h cm index id mode)).modes id = some mode.view :=
        foldl_modes_newModeEvents (hr mode (by simp))
      rw [newModesEvents, View.apply_append, map_cons, hrest, map_cons]
      congr 1
      rw [← hfirst]
      refine ModeView.foldl_of_notMem fun e he hmem => ?_
      rcases mem_cons.mp (objects_newModesEvents he id hmem) with rfl | hmem
      · exact hh (by simp)
      · exact hid hmem

theorem objects_physicalSizeEvents {h : ℕ} {e : Event} (he : e ∈ physicalSizeEvents h conf) :
    e.objects = [] := by
  unfold physicalSizeEvents at he
  split at he
  · split at he
    · obtain rfl := mem_singleton.mp he
      rfl
    · simp at he
  · simp at he

theorem objects_vendorEvents {e : Event} (he : e ∈ vendorEvents head conf) : e.objects = [] := by
  simp only [vendorEvents, mem_append] at he
  rcases he with (he | he) | he <;> split at he
  all_goals simp at he
  · rw [he]
    rfl
  · rw [he]
    rfl
  · obtain ⟨_, _, rfl⟩ := he
    rfl

theorem objects_logicalEvents {h : ℕ} {l : LogicalOutput} {e : Event} (he : e ∈ logicalEvents h l) :
    e.objects = [h] := by
  simp only [logicalEvents, mem_cons, not_mem_nil, or_false] at he
  rcases he with rfl | rfl | rfl <;> rfl

theorem objects_vrrEvents {e : Event} (he : e ∈ vrrEvents head conf) : e.objects = [head.id] := by
  unfold vrrEvents at he
  split at he
  · obtain rfl := mem_singleton.mp he
    rfl
  · simp at he

/-- Events that are not about any head or mode. -/
theorem foldl_next_of_objects_nil {h : ℕ} {o : Option HeadView} (hxs : ∀ e ∈ xs, e.objects = []) :
    xs.foldl (HeadView.next h) o = o :=
  HeadView.foldl_of_notMem (fun e he => by simp [hxs e he]) (fun _ _ _ _ e he => by simp [hxs e he])

/-- What the events of a new head say about it. -/
theorem foldl_next_newHeadEvents {manager : Manager} {o : Option HeadView}
    (hlen : modes.length = conf.modes.length) :
    (newHeadEvents manager head modes conf).foldl (HeadView.next head.id) o =
      some
        { modes := modes
          enabled := conf.currentMode.isSome
          currentMode := currentAmong conf.currentMode 0 modes none
          position := conf.logical.map fun l => (l.x, l.y)
          transform := conf.logical.map (·.transform)
          scale := conf.logical.map (·.scale)
          adaptiveSync :=
            if evtAdaptiveSyncSince ≤ head.version then some conf.vrrEnabled else none } := by
  have hstart : ([.head manager.id head.id, .name head.id conf.name,
      .description head.id (conf.make ++ " - " ++ conf.model ++ " - " ++ conf.name)] :
        List Event).foldl (HeadView.next head.id) o = some HeadView.new := by
    simp [HeadView.next]
  simp only [newHeadEvents, headStateEvents, foldl_append, hstart,
    foldl_next_of_objects_nil fun _ => objects_physicalSizeEvents,
    foldl_next_of_objects_nil fun _ => objects_vendorEvents, foldl_next_newModesEvents hlen]
  cases conf.logical <;> by_cases hv : evtAdaptiveSyncSince ≤ head.version <;>
    simp [HeadView.next, HeadView.new, hv, logicalEvents, vrrEvents]

theorem objects_headStateEvents {e : Event} (he : e ∈ headStateEvents head conf) :
    ∀ x ∈ e.objects, x = head.id := by
  simp only [headStateEvents, mem_append] at he
  rcases he with ((he | he) | he) | he
  · obtain ⟨l, _, he⟩ := mem_flatMap.mp he
    simp [objects_logicalEvents he]
  · obtain rfl := mem_singleton.mp he
    simp [Event.objects]
  · simp [objects_vendorEvents he]
  · simp [objects_vrrEvents he]

theorem objects_newHeadEvents {manager : Manager} {e : Event}
    (he : e ∈ newHeadEvents manager head modes conf) : ∀ x ∈ e.objects, x ∈ head.id :: modes := by
  simp only [newHeadEvents, mem_append] at he
  rcases he with ((he | he) | he) | he
  · simp only [mem_cons, not_mem_nil, or_false] at he
    rcases he with rfl | rfl | rfl <;> simp [Event.objects]
  · simp [objects_physicalSizeEvents he]
  · exact objects_newModesEvents he
  · intro x hx
    simp [objects_headStateEvents he x hx]

theorem map_modes_newHead {manager : Manager} (hn : (head.id :: modes).Nodup)
    (hlen : modes.length = conf.modes.length) (hr : ∀ mode ∈ conf.modes, mode.refreshRate < 2 ^ 31) :
    modes.map (v.apply (newHeadEvents manager head modes conf)).modes =
      conf.modes.map fun mode => some mode.view := by
  rw [newHeadEvents, View.apply_append, View.apply_append, ← map_modes_new _ _ _ conf.modes hn hlen hr]
  refine map_congr_left fun m hm => ?_
  -- The events after those of the modes are about the head.
  refine ModeView.foldl_of_notMem fun e he hmem => (nodup_cons.mp hn).1 ?_
  rwa [← objects_headStateEvents he m hmem]

theorem shown_newHead {manager : Manager} (hn : (head.id :: modes).Nodup)
    (hlen : modes.length = conf.modes.length) (hr : ∀ mode ∈ conf.modes, mode.refreshRate < 2 ^ 31) :
    Shown (v.apply (newHeadEvents manager head modes conf)) head modes conf := by
  refine ⟨_, foldl_next_newHeadEvents hlen, rfl, ⟨map_modes_newHead hn hlen hr, rfl, ?_, ?_, ?_⟩⟩
  · intro i hi hlt
    simp [hi, currentAmong, hlen, hlt]
  · intro l hl
    simp [hl]
  · intro hversion
    simp [hversion]

/-! Changes of the modes. -/

theorem Shown.length_eq (h : Shown v head modes conf) : modes.length = conf.modes.length := by
  obtain ⟨hv, _, rfl, hshows⟩ := h
  simpa using congrArg List.length hshows.modes

theorem Shown.mode_some (h : Shown v head modes conf) {m : ℕ} (hm : m ∈ modes) :
    ∃ mv, v.modes m = some mv := by
  obtain ⟨hv, _, rfl, hshows⟩ := h
  have hmem : v.modes m ∈ conf.modes.map fun mode => some mode.view := by
    rw [← hshows.modes]
    exact List.mem_map_of_mem hm
  obtain ⟨mode, _, hmode⟩ := List.mem_map.mp hmem
  exact ⟨_, hmode.symm⟩

/-- The state of the modes is only about modes. -/
theorem foldl_next_reusedModesEvents {h : ℕ} {o : Option HeadView} :
    (Client.reusedModesEvents modes ms).foldl (HeadView.next h) o = o := by
  induction modes generalizing ms with
  | nil => simp [Client.reusedModesEvents]
  | cons id modes ih =>
    cases ms with
    | nil => simp [Client.reusedModesEvents]
    | cons mode ms =>
      have hsplit : Client.reusedModesEvents (id :: modes) (mode :: ms) =
          (.size id mode.width mode.height :: refreshEvents id mode) ++
            Client.reusedModesEvents modes ms := rfl
      rw [hsplit, foldl_append, foldl_cons, foldl_next_refreshEvents]
      exact ih

/-- Modes that are added later are announced like those of a new head, except for the preferred one
and the current one. -/
theorem apply_addedModesEvents {h : ℕ} (index : ℕ) :
    v.apply (Client.addedModesEvents h ids ms) = v.apply (newModesEvents h none index ids ms) := by
  induction ids generalizing v ms index with
  | nil => simp [Client.addedModesEvents, newModesEvents]
  | cons id ids ih =>
    cases ms with
    | nil => simp [Client.addedModesEvents, newModesEvents]
    | cons mode ms =>
      have hsplit : Client.addedModesEvents h (id :: ids) (mode :: ms) =
          ([.mode h id, .size id mode.width mode.height] ++ refreshEvents id mode) ++
            Client.addedModesEvents h ids ms := rfl
      have hone : v.apply ([.mode h id, .size id mode.width mode.height] ++ refreshEvents id mode) =
          v.apply (newModeEvents h none index id mode) := by
        unfold newModeEvents
        cases mode.isPreferred <;> simp [View.apply, HeadView.next, ModeView.next]
      rw [hsplit, View.apply_append, hone, newModesEvents, View.apply_append, ih (index + 1)]

theorem foldl_next_modeFinished {h : ℕ} {hv : HeadView} (ds : List ℕ) :
    (ds.map Event.modeFinished).foldl (HeadView.next h) (some hv) =
      some { hv with modes := hv.modes.filter (· ∉ ds) } := by
  induction ds generalizing hv with
  | nil => simp
  | cons d ds ih =>
    rw [map_cons, foldl_cons, HeadView.next, map_some, ih]
    simp only [List.filter_filter, mem_cons, not_or, decide_not, Bool.decide_and, Bool.and_comm]
    rfl

theorem filter_notMem_drop (hn : modes.Nodup) (k : ℕ) :
    modes.filter (· ∉ modes.drop k) = modes.take k := by
  have hsplit := take_append_drop k modes
  have hdisj : ∀ m ∈ modes.take k, m ∉ modes.drop k := by
    rw [← hsplit] at hn
    exact fun m hm hm' => (nodup_append'.mp hn).2.2 hm hm'
  conv_lhs => arg 2; rw [← hsplit]
  rw [filter_append, filter_eq_self.mpr (by simpa using hdisj),
    filter_eq_nil_iff.mpr (by simp), append_nil]

/-- The existing modes become the first ones of the new list; the others are left as they are. -/
theorem shown_reusedModes (h : Shown v head modes conf) (hn : modes.Nodup)
    (hr : ∀ mode ∈ ms, mode.refreshRate < 2 ^ 31) :
    ∃ hv, (v.apply (Client.reusedModesEvents modes ms)).heads head.id = some hv ∧ hv.modes = modes ∧
      hv.Shows v head.version conf ∧
      (modes.take ms.length).map (v.apply (Client.reusedModesEvents modes ms)).modes =
        (ms.take modes.length).map fun mode => some mode.view := by
  have hmap := map_modes_reused v ms hn (fun m hm => h.mode_some hm) hr
  obtain ⟨hv, hhead, rfl, hshows⟩ := h
  refine ⟨hv, ?_, rfl, hshows, ?_⟩
  · change List.foldl _ (v.heads head.id) _ = _
    rw [foldl_next_reusedModesEvents, hhead]
  · have htake := congrArg (List.take ms.length) hmap
    have hrest : List.take (ms.length - min hv.modes.length ms.length)
        ((hv.modes.drop ms.length).map v.modes) = [] := by
      rcases Nat.le_total ms.length hv.modes.length with hle | hle
      · simp [hle]
      · simp [drop_of_length_le hle]
    rw [← map_take, take_append, length_map, length_take, hrest,
      append_nil] at htake
    rw [htake, take_of_length_le (by simp)]

theorem shown_addedModes (h : Shown v head modes conf) (hn : (head.id :: (modes ++ ids)).Nodup)
    (hr : ∀ mode ∈ ms, mode.refreshRate < 2 ^ 31) (hle : modes.length ≤ ms.length)
    (hlen : ids.length = (ms.drop modes.length).length)
    (hrange : ∀ i, conf.currentMode = some i → i < conf.modes.length) :
    Shown (v.apply (Client.reusedModesEvents modes ms ++
      Client.addedModesEvents head.id ids (ms.drop modes.length))) head (modes ++ ids)
        { conf with modes := ms } := by
  rw [View.apply_append]
  have hclen := h.length_eq
  obtain ⟨hhead, hmodes, hids⟩ : head.id ∉ modes ++ ids ∧ modes.Nodup ∧
      (head.id :: ids).Nodup ∧ ∀ m ∈ modes, m ∉ ids := by
    obtain ⟨hh, hn⟩ := nodup_cons.mp hn
    obtain ⟨h₁, h₂, h₃⟩ := nodup_append'.mp hn
    exact ⟨hh, h₁, nodup_cons.mpr ⟨fun hm => hh (by simp [hm]), h₂⟩, fun m hm hm' => h₃ hm hm'⟩
  obtain ⟨hv, hhv, rfl, hshows, hmap⟩ := shown_reusedModes h hmodes hr
  rw [take_of_length_le hle] at hmap
  rw [apply_addedModesEvents 0]
  refine ⟨{ hv with modes := hv.modes ++ ids }, ?_, rfl,
    ⟨?_, hshows.enabled, ?_, hshows.logical, hshows.adaptiveSync⟩⟩
  · change List.foldl _ (View.heads _ head.id) _ = _
    rw [hhv, foldl_next_newModesEvents hlen]
    simp [currentAmong]
  · have hnew := map_modes_new none 0
      (v.apply (Client.reusedModesEvents hv.modes ms)) (ms.drop hv.modes.length) hids.1 hlen
      (fun mode hmode => hr mode (mem_of_mem_drop hmode))
    have hold : hv.modes.map ((v.apply (Client.reusedModesEvents hv.modes ms)).apply
        (newModesEvents head.id none 0 ids (ms.drop hv.modes.length))).modes =
          hv.modes.map (v.apply (Client.reusedModesEvents hv.modes ms)).modes := by
      refine map_congr_left fun m hm => ModeView.foldl_of_notMem fun e he hmem => ?_
      rcases mem_cons.mp (objects_newModesEvents he m hmem) with rfl | hmem
      · exact hhead (by simp [hm])
      · exact hids.2 m hm hmem
    rw [map_append, hnew, hold, hmap, ← map_append, take_append_drop]
  · intro i hi _
    have hlt := hrange i hi
    rw [getElem?_append_left (by omega)]
    exact hshows.currentMode i hi hlt

theorem shown_removedModes (h : Shown v head modes conf) (hn : (head.id :: modes).Nodup)
    (hr : ∀ mode ∈ ms, mode.refreshRate < 2 ^ 31) (hle : ms.length ≤ modes.length) :
    Shown (v.apply (Client.reusedModesEvents modes ms ++
      (modes.drop ms.length).map .modeFinished)) head (modes.take ms.length)
        { conf with modes := ms } := by
  rw [View.apply_append]
  have hclen := h.length_eq
  obtain ⟨hhead, hmodes⟩ := nodup_cons.mp hn
  obtain ⟨hv, hhv, rfl, hshows, hmap⟩ := shown_reusedModes h hmodes hr
  rw [take_of_length_le hle] at hmap
  refine ⟨{ hv with modes := hv.modes.take ms.length }, ?_, rfl,
    ⟨?_, hshows.enabled, ?_, hshows.logical, hshows.adaptiveSync⟩⟩
  · change List.foldl _ (View.heads _ head.id) _ = _
    rw [hhv, foldl_next_modeFinished, filter_notMem_drop hmodes]
  · rw [← hmap]
    refine map_congr_left fun m hm => ModeView.foldl_of_notMem fun e he hmem => ?_
    obtain ⟨d, hd, rfl⟩ := List.mem_map.mp he
    rw [Event.objects, mem_singleton] at hmem
    subst hmem
    rw [← take_append_drop ms.length hv.modes] at hmodes
    exact (nodup_append'.mp hmodes).2.2 hm hd
  · intro i hi hlt
    change i < ms.length at hlt
    rw [getElem?_take_of_lt hlt]
    exact hshows.currentMode i hi (by omega)

theorem objects_addedModesEvents {h : ℕ} {e : Event}
    (he : e ∈ Client.addedModesEvents h ids ms) : ∀ x ∈ e.objects, x = h ∨ x ∈ ids := by
  obtain ⟨⟨id, mode⟩, hz, he⟩ := mem_flatMap.mp he
  have hid := (of_mem_zip hz).1
  simp only [cons_append, nil_append, mem_cons] at he
  rcases he with rfl | rfl | he
  · simp [Event.objects, hid]
  · simp [Event.objects, hid]
  · simp [objects_refreshEvents he, hid]

/-! Changes of the current mode and of the place. -/

theorem shown_currentMode (h : Shown v head modes conf) {i : ℕ} {m : ℕ} (hm : modes[i]? = some m)
    (hcurrent : conf.currentMode.isSome) :
    Shown (v.apply [.currentMode head.id m]) head modes { conf with currentMode := some i } := by
  obtain ⟨hv, hhead, rfl, hshows⟩ := h
  refine ⟨{ hv with currentMode := some m }, by simp [HeadView.next, hhead], rfl,
    ⟨hshows.modes, ?_, ?_, hshows.logical, hshows.adaptiveSync⟩⟩
  · simpa [hcurrent] using hshows.enabled
  · intro j hj _
    obtain rfl := some.inj hj
    exact hm.symm

theorem shown_disabled (h : Shown v head modes conf) :
    Shown (v.apply [.enabled head.id false]) head modes { conf with currentMode := none } := by
  obtain ⟨hv, hhead, rfl, hshows⟩ := h
  exact ⟨{ hv with enabled := false }, by simp [HeadView.next, hhead], rfl,
    ⟨hshows.modes, rfl, by simp, hshows.logical, hshows.adaptiveSync⟩⟩

theorem shown_enabled (h : Shown v head modes conf) {i : ℕ} {m : ℕ} (hm : modes[i]? = some m) :
    Shown (v.apply [.enabled head.id true, .currentMode head.id m]) head modes
      { conf with currentMode := some i } := by
  obtain ⟨hv, hhead, rfl, hshows⟩ := h
  refine ⟨{ hv with enabled := true, currentMode := some m }, by simp [HeadView.next, hhead], rfl,
    ⟨hshows.modes, rfl, ?_, hshows.logical, hshows.adaptiveSync⟩⟩
  intro j hj _
  obtain rfl := some.inj hj
  exact hm.symm

theorem shown_logical (h : Shown v head modes conf) (l : LogicalOutput) :
    Shown (v.apply (logicalEvents head.id l)) head modes { conf with logical := some l } := by
  obtain ⟨hv, hhead, rfl, hshows⟩ := h
  refine ⟨⟨hv.modes, hv.enabled, hv.currentMode, some (l.x, l.y), some l.transform, some l.scale,
    hv.adaptiveSync⟩, by simp [HeadView.next, logicalEvents, hhead], rfl,
    ⟨hshows.modes, hshows.enabled, hshows.currentMode, ?_, hshows.adaptiveSync⟩⟩
  intro l' hl'
  obtain rfl := some.inj hl'
  exact ⟨rfl, rfl, rfl⟩

theorem objects_movedEvents {h : ℕ} {l l' : LogicalOutput} {e : Event}
    (he : e ∈ Client.movedEvents h l l') : e.objects = [h] := by
  simp only [Client.movedEvents, mem_append] at he
  rcases he with (he | he) | he <;> split at he <;> simp at he <;> rw [he] <;> rfl

theorem shown_moved (h : Shown v head modes conf) {l : LogicalOutput} (hl : conf.logical = some l)
    (l' : LogicalOutput) :
    Shown (v.apply (Client.movedEvents head.id l l')) head modes
      { conf with logical := some l' } := by
  obtain ⟨⟨modes, enabled, current, position, transform, scale, vrr⟩, hhead, rfl, hshows⟩ := h
  obtain ⟨rfl, rfl, rfl⟩ := hshows.logical l hl
  refine ⟨⟨modes, enabled, current, some (l'.x, l'.y), some l'.transform, some l'.scale, vrr⟩, ?_,
    rfl, ⟨?_, hshows.enabled, hshows.currentMode, ?_, hshows.adaptiveSync⟩⟩
  · change List.foldl _ (v.heads head.id) _ = _
    rw [hhead]
    by_cases h₁ : l.x ≠ l'.x ∨ l.y ≠ l'.y <;> by_cases h₂ : l.scale = l'.scale <;>
      by_cases h₃ : l.transform = l'.transform <;> simp_all [HeadView.next, Client.movedEvents]
  · rw [← hshows.modes]
    refine map_congr_left fun m _ => ?_
    change List.foldl _ _ _ = _
    by_cases h₁ : l.x ≠ l'.x ∨ l.y ≠ l'.y <;> by_cases h₂ : l.scale = l'.scale <;>
      by_cases h₃ : l.transform = l'.transform <;>
      simp [h₁, h₂, h₃, ModeView.next, Client.movedEvents]
  · intro l'' hl''
    obtain rfl := some.inj hl''
    exact ⟨rfl, rfl, rfl⟩

end Shown

end Macniri.OutputManagement
