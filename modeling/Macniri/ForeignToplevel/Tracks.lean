import Macniri.ForeignToplevel.Handles

/-! A whole refresh leaves the toplevels as the snapshot has them. -/
namespace Macniri.ForeignToplevel

open Option List HashMap

open View (AtMostOneActivated)

variable {s t u : State} {ord : IterOrder} {surface : ℕ} {data : ToplevelData} {manager : Manager}
  {window : Window} {snapshot : Snapshot}

/-- What is known about the window of a toplevel. -/
def ToplevelData.core (data : ToplevelData) : ToplevelData := { data with instances := ∅ }

theorem output_of_core {d d' : ToplevelData} (h : d.core = d'.core) : d.output = d'.output := by
  have : d.core.output = d'.core.output := congrArg ToplevelData.output h
  exact this

/-- Toplevels got new handles, and nothing else changed. -/
structure Grows (s t : State) : Prop where
  instances : t.instances = s.instances
  wlOutputs : t.wlOutputs = s.wlOutputs
  next : s.next ≤ t.next
  core : ∀ w, (t.toplevels.get w).map ToplevelData.core = (s.toplevels.get w).map ToplevelData.core
  kept : ∀ {w d h o}, s.Has w d h o → ∃ d', t.Has w d' h o
  entered : ∀ {w d h o}, t.Has w d h o → (∃ d', s.Has w d' h o) ∨ o = s.entered d.output h

theorem Grows.refl (s : State) : Grows s s :=
  ⟨rfl, rfl, Nat.le_refl _, fun _ => rfl, fun h => ⟨_, h⟩, fun h => .inl ⟨_, h⟩⟩

theorem State.Has.core (hcore : ∀ w, (t.toplevels.get w).map ToplevelData.core =
      (s.toplevels.get w).map ToplevelData.core) {w : ℕ} {d d' : ToplevelData}
    (hd : s.toplevels.get w = some d) (hd' : t.toplevels.get w = some d') : d'.core = d.core := by
  have := hcore w
  rw [hd, hd'] at this
  exact some.inj this

theorem Grows.trans (h : Grows s t) (h' : Grows t u) : Grows s u where
  instances := h'.instances.trans h.instances
  wlOutputs := h'.wlOutputs.trans h.wlOutputs
  next := Nat.le_trans h.next h'.next
  core := fun w => (h'.core w).trans (h.core w)
  kept := by
    intro w d handle o hhas
    obtain ⟨d', hhas⟩ := h.kept hhas
    exact h'.kept hhas
  entered := by
    intro w d handle o hhas
    rcases h'.entered hhas with ⟨d', hhas'⟩ | rfl
    · rcases h.entered hhas' with hold | rfl
      · exact .inl hold
      · right
        rw [output_of_core (State.Has.core h'.core hhas'.1 hhas.1)]
    · right
      unfold State.entered
      rw [h.wlOutputs]

theorem Inv.grows_bindToplevel (hs : Inv s) (manager : Manager) (surface : ℕ) :
    Grows s (s.bindToplevel manager surface) := by
  cases hdata : s.toplevels.get surface with
  | none =>
    unfold State.bindToplevel
    rw [hdata]
    exact .refl s
  | some data =>
    constructor
    case instances => rw [bindToplevel_eq hdata]
    case wlOutputs => rw [bindToplevel_eq hdata]
    case next =>
      rw [bindToplevel_eq hdata]
      exact Nat.le_succ _
    case core =>
      intro w
      rw [bindToplevel_eq hdata, get_insert]
      by_cases hw : w = surface
      · rw [if_pos hw, hw, hdata]
        rfl
      · rw [if_neg hw]
    case kept =>
      intro w d h o hhas
      obtain ⟨d', hhas', -⟩ := hs.has_bindToplevel_of manager hdata hhas
      exact ⟨d', hhas'⟩
    case entered =>
      intro w d h o hhas
      rcases has_of_bindToplevel hdata hhas with ⟨-, rfl, -, rfl⟩ | hold
      · exact .inr rfl
      · exact .inl hold

/-- Only the toplevel itself gets a handle, of the manager. -/
theorem State.new_bindToplevel {w : ℕ} {d : ToplevelData} {h : Handle} {o : List ℕ}
    (hhas : (s.bindToplevel manager surface).Has w d h o) :
    (w = surface ∧ h.manager = manager) ∨ ∃ d', s.Has w d' h o := by
  cases hdata : s.toplevels.get surface with
  | none =>
    unfold State.bindToplevel at hhas
    rw [hdata] at hhas
    exact .inr ⟨d, hhas⟩
  | some data =>
    rcases has_of_bindToplevel hdata hhas with ⟨rfl, -, rfl, -⟩ | hold
    · exact .inl ⟨rfl, rfl⟩
    · exact .inr hold

theorem State.has_new_bindToplevel (hdata : s.toplevels.get surface = some data) (manager : Manager) :
    ∃ d h o, (s.bindToplevel manager surface).Has surface d h o ∧ h.manager = manager :=
  ⟨_, _, _, (has_bindToplevel hdata).mpr (.inl ⟨rfl, rfl, .inl ⟨rfl, rfl⟩⟩), rfl⟩

/-- A new toplevel is sent to one manager after the other. -/
theorem Inv.bindManagers (managers : List Manager) (hs : Inv s)
    (hnodup : (managers.map Manager.id).Nodup) (hlt : ∀ m ∈ managers, m.id < s.next)
    (hnone : ∀ m ∈ managers, ∀ d h o, s.Has surface d h o → h.manager.id ≠ m.id)
    (hdata : s.toplevels.get surface = some data) :
    Inv (managers.foldl (fun s m => s.bindToplevel m surface) s) ∧
      Grows s (managers.foldl (fun s m => s.bindToplevel m surface) s) ∧
      ∀ m ∈ managers, ∃ d h o,
        (managers.foldl (fun s m => s.bindToplevel m surface) s).Has surface d h o ∧ h.manager = m := by
  induction managers generalizing s data with
  | nil => exact ⟨hs, .refl s, fun m hm => nomatch hm⟩
  | cons m managers ih =>
    obtain ⟨hnot, hnodup⟩ := nodup_cons.mp hnodup
    have hinv := hs.bindToplevel (hlt m (mem_cons_self ..)) (hnone m (mem_cons_self ..))
    have hgrows := hs.grows_bindToplevel m surface
    obtain ⟨d, h, o, hhas, hm⟩ := State.has_new_bindToplevel hdata m
    have hlt' : ∀ m' ∈ managers, m'.id < (s.bindToplevel m surface).next := fun m' hm' =>
      Nat.lt_of_lt_of_le (hlt m' (mem_cons_of_mem m hm')) hgrows.next
    have hnone' : ∀ m' ∈ managers, ∀ d h o, (s.bindToplevel m surface).Has surface d h o →
        h.manager.id ≠ m'.id := by
      intro m' hm' d h o hhas
      rcases State.new_bindToplevel hhas with ⟨-, rfl⟩ | ⟨d', hold⟩
      · exact fun heq => hnot (heq ▸ List.mem_map_of_mem hm')
      · exact hnone m' (mem_cons_of_mem m hm') d' h o hold
    obtain ⟨hinv', hgrows', hall⟩ := ih hinv hnodup hlt' hnone' hhas.1
    refine ⟨hinv', hgrows.trans hgrows', fun m' hm' => ?_⟩
    rcases mem_cons.mp hm' with rfl | hm'
    · obtain ⟨d', hkept⟩ := hgrows'.kept hhas
      exact ⟨d', h, o, hkept, hm⟩
    · exact hall m' hm'

/-- Each manager has a handle of each toplevel, which has entered the outputs it should. -/
structure Good (s : State) : Prop extends Inv s where
  managers_nodup : (s.instances.map Manager.id).Nodup
  manager_lt : ∀ m ∈ s.instances, m.id < s.next
  live : ∀ m ∈ s.instances, ∀ w d, s.toplevels.get w = some d →
    ∃ h o, d.instances.get h = some o ∧ h.manager = m
  entered : ∀ {w d h o}, s.Has w d h o → o = s.entered d.output h
  output_lt : ∀ wl ∈ s.wlOutputs, wl.id < s.next

theorem good_init : Good .init where
  lt := fun h => nomatch h.1
  object_inj := fun h => nomatch h.1
  one := fun h => nomatch h.1
  alive := fun h => nomatch h.1
  outputs_nodup := nodup_nil
  activated := fun h => nomatch h
  view := by
    refine fun m => ⟨.empty, rfl, fun h hv => ⟨(fun hget => nomatch hget), ?_⟩⟩
    rintro ⟨w, d, handle, o, hhas, -⟩
    exact nomatch hhas.1
  managers_nodup := nodup_nil
  manager_lt := fun m hm => nomatch hm
  live := fun m hm => nomatch hm
  entered := fun h => nomatch h.1
  output_lt := fun wl hwl => nomatch hwl

theorem mem_toStateVec {maximized fullscreen hasFocus : Bool} :
    .activated ∈ toStateVec maximized fullscreen hasFocus ↔ hasFocus = true := by
  cases maximized <;> cases fullscreen <;> cases hasFocus <;> decide

theorem insert_addInstance (managers : List Manager) (s : State) (d : ToplevelData) :
    { (managers.foldl State.addInstance (s, d)).1 with
      toplevels := (managers.foldl State.addInstance (s, d)).1.toplevels.insert surface
        (managers.foldl State.addInstance (s, d)).2 } =
      managers.foldl (fun s m => s.bindToplevel m surface) (s.track surface d) := by
  induction managers generalizing s d with
  | nil => rfl
  | cons m managers ih =>
    have hget : (s.track surface d).toplevels.get surface = some d := get_track.trans (if_pos rfl)
    have hbind : (s.track surface d).bindToplevel m surface =
        { (State.addInstance (s, d) m).1 with
          toplevels := (State.addInstance (s, d) m).1.toplevels.insert surface
            (State.addInstance (s, d) m).2 } := by
      rw [bindToplevel_eq hget]
      unfold State.track
      rw [insert_insert]
      rfl
    rw [foldl_cons, foldl_cons, hbind]
    exact ih _ _

theorem refreshToplevel_new {hasFocus : Bool} (hfree : s.toplevels.get window.surface = none) :
    s.refreshToplevel ord hasFocus window =
      s.instances.foldl (fun s m => s.bindToplevel m window.surface)
        (s.track window.surface (State.newData window hasFocus)) := by
  unfold State.refreshToplevel
  rw [hfree]
  exact insert_addInstance _ _ _

/-- A refresh of one toplevel, and what it makes of the data. -/
structure Refreshes (s t : State) (window : Window) (hasFocus : Bool) : Prop where
  good : Good t
  core : ∀ w, (t.toplevels.get w).map ToplevelData.core =
    if w = window.surface then some (State.newData window hasFocus)
    else (s.toplevels.get w).map ToplevelData.core

theorem Grows.entered_eq (h : Grows s t) (output : Option ℕ) (handle : Handle) :
    t.entered output handle = s.entered output handle := by
  unfold State.entered
  rw [h.wlOutputs]

/-- With new handles for every manager on the one toplevel that had none. -/
theorem Good.of_grows (hs : Good s) {new : ToplevelData} (hfree : s.toplevels.get surface = none)
    (hempty : new.instances = ∅)
    (hgrows : Grows (s.track surface new) t) (hinv : Inv t)
    (hall : ∀ m ∈ s.instances, ∃ d h o, t.Has surface d h o ∧ h.manager = m) : Good t where
  toInv := hinv
  managers_nodup := by
    rw [hgrows.instances]
    exact hs.managers_nodup
  manager_lt := by
    rw [hgrows.instances]
    exact fun m hm => Nat.lt_of_lt_of_le (hs.manager_lt m hm) hgrows.next
  live := by
    rw [hgrows.instances]
    intro m hm w d hd
    by_cases hw : w = surface
    · subst hw
      obtain ⟨d', h, o, hhas, hmanager⟩ := hall m hm
      obtain rfl := some.inj (hhas.1.symm.trans hd)
      exact ⟨h, o, hhas.2, hmanager⟩
    · have hcore := hgrows.core w
      rw [hd, get_track, if_neg hw] at hcore
      obtain ⟨d₀, hd₀, -⟩ := of_map hcore.symm
      obtain ⟨h, o, ho, hmanager⟩ := hs.live m hm w d₀ hd₀
      have hhas : (s.track surface new).Has w d₀ h o := ⟨get_track.trans ((if_neg hw).trans hd₀), ho⟩
      obtain ⟨d', hkept⟩ := hgrows.kept hhas
      obtain rfl := some.inj (hkept.1.symm.trans hd)
      exact ⟨h, o, hkept.2, hmanager⟩
  entered := by
    intro w d h o hhas
    rw [hgrows.entered_eq]
    rcases hgrows.entered hhas with ⟨d', hold⟩ | rfl
    · rw [output_of_core (State.Has.core hgrows.core hold.1 hhas.1)]
      obtain ⟨hget, ho⟩ := hold
      rw [get_track] at hget
      by_cases hw : w = surface
      · rw [if_pos hw] at hget
        rw [← some.inj hget, hempty] at ho
        exact nomatch ho
      · rw [if_neg hw] at hget
        exact hs.entered ⟨hget, ho⟩
    · rfl
  output_lt := by
    rw [hgrows.wlOutputs]
    exact fun wl hwl => Nat.lt_of_lt_of_le (hs.output_lt wl hwl) hgrows.next

theorem Good.refreshes_new (hs : Good s) {hasFocus : Bool}
    (hfree : s.toplevels.get window.surface = none)
    (halone : hasFocus = true → ∀ w d, w ≠ window.surface → s.toplevels.get w = some d →
      .activated ∉ d.states) :
    Refreshes s (s.refreshToplevel ord hasFocus window) window hasFocus := by
  rw [refreshToplevel_new hfree]
  have halone' : .activated ∈ (State.newData window hasFocus).states →
      ∀ w d, s.toplevels.get w = some d → .activated ∉ d.states := by
    intro hact w d hd
    refine halone (mem_toStateVec.mp hact) w d ?_ hd
    rintro rfl
    rw [hfree] at hd
    exact nomatch hd
  have hget : (s.track window.surface (State.newData window hasFocus)).toplevels.get window.surface =
      some (State.newData window hasFocus) := get_track.trans (if_pos rfl)
  obtain ⟨hinv, hgrows, hall⟩ := (hs.toInv.insert_new hfree rfl halone').bindManagers s.instances
    hs.managers_nodup hs.manager_lt (by
      rintro m - d h o ⟨hd, ho⟩
      obtain rfl := some.inj (hd.symm.trans hget)
      exact nomatch ho) hget
  refine ⟨hs.of_grows hfree rfl hgrows hinv hall, fun w => ?_⟩
  rw [hgrows.core w, get_track]
  by_cases hw : w = window.surface
  · rw [if_pos hw, if_pos hw]
    rfl
  · rw [if_neg hw, if_neg hw]

theorem Good.refreshes_existing (hs : Good s) {hasFocus : Bool}
    (hdata : s.toplevels.get window.surface = some data)
    (hnames : KeepsNames data (State.newData window hasFocus))
    (halone : hasFocus = true → ∀ w d, w ≠ window.surface → s.toplevels.get w = some d →
      .activated ∉ d.states) :
    Refreshes s (s.refreshToplevel ord hasFocus window) window hasFocus := by
  have heq : s.refreshToplevel ord hasFocus window =
      s.refreshExisting ord window.surface data (State.newData window hasFocus) := by
    unfold State.refreshToplevel
    rw [hdata]
  have hupdates := hs.toInv.updates_refreshExisting hdata hnames
    fun hact => halone (mem_toStateVec.mp hact)
  have hget : ∀ w, (s.refreshToplevel ord hasFocus window).toplevels.get w =
      if w = window.surface then some { State.newData window hasFocus with
        instances := data.instances.mapEntries (s.keptOutputs data (State.newData window hasFocus)) }
      else s.toplevels.get w := by
    intro w
    rw [heq, refreshExisting_eq]
    exact get_insert
  refine ⟨?_, ?_⟩
  · rw [heq, refreshExisting_eq] at hget ⊢
    refine ⟨hs.toInv.update hupdates, hs.managers_nodup, hs.manager_lt, ?_, ?_, hs.output_lt⟩
    · intro m hm w d hd
      rw [hget] at hd
      by_cases hw : w = window.surface
      · rw [if_pos hw] at hd
        obtain ⟨h, o, ho, hmanager⟩ := hs.live m hm window.surface data hdata
        obtain rfl := some.inj hd
        exact ⟨h, _, by rw [get_mapEntries, ho]; rfl, hmanager⟩
      · rw [if_neg hw] at hd
        exact hs.live m hm w d hd
    · intro w d h o hhas
      rcases (has_updated hupdates.instances).mp hhas with ⟨rfl, rfl, o', ho', rfl⟩ | ⟨-, hold⟩
      · rw [hs.toInv.keptOutputs_eq ⟨hdata, ho'⟩]
        split
        · rfl
        · rename_i hsame
          rw [hs.entered ⟨hdata, ho'⟩, not_not.mp hsame]
          rfl
      · exact hs.entered hold
  · intro w
    rw [hget]
    by_cases hw : w = window.surface
    · rw [if_pos hw, if_pos hw]
      rfl
    · rw [if_neg hw, if_neg hw]

theorem Good.refreshToplevel (hs : Good s) {hasFocus : Bool}
    (hnames : ∀ d, s.toplevels.get window.surface = some d →
      KeepsNames d (State.newData window hasFocus))
    (halone : hasFocus = true → ∀ w d, w ≠ window.surface → s.toplevels.get w = some d →
      .activated ∉ d.states) :
    Refreshes s (s.refreshToplevel ord hasFocus window) window hasFocus := by
  cases hdata : s.toplevels.get window.surface with
  | none => exact hs.refreshes_new hdata halone
  | some data => exact hs.refreshes_existing hdata (hnames data hdata) halone

theorem Good.closeToplevel (hs : Good s) : Good (s.closeToplevel ord surface) where
  toInv := hs.toInv.closeToplevel
  managers_nodup := by
    rw [instances_closeToplevel]
    exact hs.managers_nodup
  manager_lt := by
    rw [instances_closeToplevel, next_closeToplevel]
    exact hs.manager_lt
  live := by
    rw [instances_closeToplevel]
    intro m hm w d hd
    rw [get_closeToplevel] at hd
    exact hs.live m hm w d (ite_none_left_eq_some.mp hd).2
  entered := by
    intro w d h o hhas
    unfold State.entered
    rw [wlOutputs_closeToplevel]
    exact hs.entered (has_closeToplevel.mp hhas).2
  output_lt := by
    rw [wlOutputs_closeToplevel, next_closeToplevel]
    exact hs.output_lt

theorem Good.closeAll (surfaces : List ℕ) (hs : Good s) :
    Good (surfaces.foldl (State.closeToplevel ord) s) ∧
      ∀ w, (surfaces.foldl (State.closeToplevel ord) s).toplevels.get w =
        if w ∈ surfaces then none else s.toplevels.get w := by
  induction surfaces generalizing s with
  | nil => exact ⟨hs, fun w => rfl⟩
  | cons surface surfaces ih =>
    have hclosed : Good (s.closeToplevel ord surface) := hs.closeToplevel
    obtain ⟨hgood, hget⟩ := ih hclosed
    refine ⟨hgood, fun w => ?_⟩
    rw [foldl_cons, hget, get_closeToplevel]
    by_cases hw : w = surface
    · simp [hw]
    · simp [hw]

theorem KeepsNames.of_core {d d' new : ToplevelData} (h : KeepsNames d new) (hcore : d'.core = d.core) :
    KeepsNames d' new := by
  have htitle : d'.core.title = d.core.title := congrArg ToplevelData.title hcore
  have happId : d'.core.appId = d.core.appId := congrArg ToplevelData.appId hcore
  exact ⟨fun hn => htitle.trans (h.1 hn), fun hn => happId.trans (h.2 hn)⟩

variable (ord) in
/-- Windows that are not focused, one after the other. -/
theorem Good.refreshAll (windows : List Window) (hs : Good s)
    (hnodup : (windows.map Window.surface).Nodup)
    (hnames : ∀ window ∈ windows, ∀ d, s.toplevels.get window.surface = some d →
      KeepsNames d (State.newData window false)) :
    Good (windows.foldl (State.refreshToplevel ord false) s) ∧
      (∀ window ∈ windows, ((windows.foldl (State.refreshToplevel ord false) s).toplevels.get
        window.surface).map ToplevelData.core = some (State.newData window false)) ∧
      ∀ w, w ∉ windows.map Window.surface →
        ((windows.foldl (State.refreshToplevel ord false) s).toplevels.get w).map ToplevelData.core =
          (s.toplevels.get w).map ToplevelData.core := by
  induction windows generalizing s with
  | nil => exact ⟨hs, (fun window hw => nomatch hw), fun w _ => rfl⟩
  | cons x windows ih =>
    obtain ⟨hnot, hnodup⟩ := nodup_cons.mp hnodup
    have hrefreshes : Refreshes s (s.refreshToplevel ord false x) x false :=
      hs.refreshToplevel (hnames x (mem_cons_self ..)) fun h => nomatch h
    obtain ⟨hgood, hcore⟩ := hrefreshes
    have hother : ∀ w, w ≠ x.surface → ((s.refreshToplevel ord false x).toplevels.get w).map
        ToplevelData.core = (s.toplevels.get w).map ToplevelData.core :=
      fun w hw => (hcore w).trans (if_neg hw)
    have hnames' : ∀ window ∈ windows, ∀ d,
        (s.refreshToplevel ord false x).toplevels.get window.surface = some d →
          KeepsNames d (State.newData window false) := by
      intro window hw d hd
      have hne : window.surface ≠ x.surface := fun heq => hnot (heq ▸ List.mem_map_of_mem hw)
      have hsame := hother window.surface hne
      rw [hd] at hsame
      obtain ⟨d', hd', hcore'⟩ := of_map hsame.symm
      exact (hnames window (mem_cons_of_mem x hw) d' hd').of_core hcore'.symm
    obtain ⟨hgood', hin, hout⟩ := ih hgood hnodup hnames'
    refine ⟨hgood', ?_, ?_⟩
    · intro window hw
      rcases mem_cons.mp hw with rfl | hw
      · exact (hout _ hnot).trans ((hcore _).trans (if_pos rfl))
      · exact hin window hw
    · intro w hw
      rw [map_cons, mem_cons, not_or] at hw
      exact (hout w hw.2).trans (hother w hw.1)

/-- The toplevels are those of the snapshot. -/
structure Tracks (s : State) (snapshot : Snapshot) : Prop where
  windows : ∀ window ∈ snapshot.windows,
    (s.toplevels.get window.surface).map ToplevelData.core =
      some (State.newData window (decide (snapshot.keyboardFocus = some window.surface)))
  only : ∀ w d, s.toplevels.get w = some d → w ∈ snapshot.windows.map Window.surface

/-- No window that stays loses its title or app id. -/
def NamesKept (s : State) (snapshot : Snapshot) : Prop :=
  ∀ window ∈ snapshot.windows, ∀ d, s.toplevels.get window.surface = some d →
    (window.title = none → d.title = none) ∧ (window.appId = none → d.appId = none)

theorem Snapshot.eq_of_surface {a b : Window} (ha : a ∈ snapshot.windows) (hb : b ∈ snapshot.windows)
    (h : a.surface = b.surface) : a = b :=
  inj_on_of_nodup_map snapshot.nodup ha hb h

theorem isSome_of_core {w : ℕ} {d : ToplevelData} (h : (s.toplevels.get w).map ToplevelData.core =
    (t.toplevels.get w).map ToplevelData.core) (hd : s.toplevels.get w = some d) :
    ∃ d', t.toplevels.get w = some d' ∧ d'.core = d.core := by
  rw [hd] at h
  exact of_map h.symm

/-- The surfaces of the toplevels whose windows are gone. -/
def State.gone (ord : IterOrder) (s : State) (snapshot : Snapshot) : List ℕ :=
  ((ord.iter s.toplevels).map Sigma.fst).filter (· ∉ snapshot.windows.map Window.surface)

def Snapshot.IsFocused (snapshot : Snapshot) (window : Window) : Bool :=
  snapshot.keyboardFocus = some window.surface

theorem Good.closeGone (hs : Good s) :
    Good ((s.gone ord snapshot).foldl (State.closeToplevel ord) s) ∧
      ∀ w d, ((s.gone ord snapshot).foldl (State.closeToplevel ord) s).toplevels.get w = some d →
        s.toplevels.get w = some d ∧ w ∈ snapshot.windows.map Window.surface := by
  obtain ⟨hgood, hget⟩ := hs.closeAll (s.gone ord snapshot)
  refine ⟨hgood, fun w d hd => ?_⟩
  rw [hget] at hd
  obtain ⟨hnot, hd⟩ := ite_none_left_eq_some.mp hd
  refine ⟨hd, not_not.mp fun hw => hnot ?_⟩
  refine mem_filter.mpr ⟨?_, by simpa using hw⟩
  exact List.mem_map.mpr ⟨⟨w, d⟩, (mem_iter ord).mpr hd, rfl⟩

/-- Refreshing the windows without the focus leaves none of them activated. -/
theorem Good.refreshOthers (hs : Good s) (hnames : NamesKept s snapshot)
    (honly : ∀ w d, s.toplevels.get w = some d → w ∈ snapshot.windows.map Window.surface)
    (ht : (snapshot.windows.filter (!snapshot.IsFocused ·)).foldl (State.refreshToplevel ord false) s = t) :
    Good t ∧ NamesKept t snapshot ∧
      (∀ window ∈ snapshot.windows, snapshot.IsFocused window = false →
        (t.toplevels.get window.surface).map ToplevelData.core = some (State.newData window false)) ∧
      ∀ w d, t.toplevels.get w = some d → w ∈ snapshot.windows.map Window.surface := by
  have hnodup : ((snapshot.windows.filter (!snapshot.IsFocused ·)).map Window.surface).Nodup :=
    snapshot.nodup.sublist (filter_sublist.map _)
  have hall := hs.refreshAll ord _ hnodup fun window hw => hnames window (mem_filter.mp hw).1
  rw [ht] at hall
  obtain ⟨hgood, hin, hout⟩ := hall
  have hcore : ∀ window ∈ snapshot.windows, snapshot.IsFocused window = false →
      (t.toplevels.get window.surface).map ToplevelData.core = some (State.newData window false) :=
    fun window hw hfocus => hin window (mem_filter.mpr ⟨hw, by simp [hfocus]⟩)
  refine ⟨hgood, ?_, hcore, ?_⟩
  · intro window hw d hd
    cases hfocus : snapshot.IsFocused window with
    | false =>
      have := hcore window hw hfocus
      rw [hd] at this
      have hdata := some.inj this
      exact ⟨fun hn => (congrArg ToplevelData.title hdata).trans hn,
        fun hn => (congrArg ToplevelData.appId hdata).trans hn⟩
    | true =>
      have hnot : window.surface ∉
          (snapshot.windows.filter (!snapshot.IsFocused ·)).map Window.surface := by
        intro hmem
        obtain ⟨other, hother, heq⟩ := List.mem_map.mp hmem
        obtain ⟨hother, hunfocused⟩ := mem_filter.mp hother
        obtain rfl := Snapshot.eq_of_surface hother hw heq
        simp [hfocus] at hunfocused
      obtain ⟨d', hd', hcore'⟩ := isSome_of_core (hout _ hnot) hd
      have hkept : KeepsNames d' (State.newData window false) := hnames window hw d' hd'
      exact hkept.of_core hcore'.symm
  · intro w d hd
    by_cases hw : w ∈ (snapshot.windows.filter (!snapshot.IsFocused ·)).map Window.surface
    · exact (filter_sublist.map _).subset hw
    · obtain ⟨d', hd', -⟩ := isSome_of_core (hout w hw) hd
      exact honly w d' hd'

theorem Snapshot.isFocused_iff : snapshot.IsFocused window = true ↔
    snapshot.keyboardFocus = some window.surface := decide_eq_true_iff

/-- The focused window comes last: by then no other window is activated. -/
theorem Good.refreshFocused (hs : Good s) (hnames : NamesKept s snapshot)
    (hothers : ∀ window ∈ snapshot.windows, snapshot.IsFocused window = false →
      (s.toplevels.get window.surface).map ToplevelData.core = some (State.newData window false))
    (honly : ∀ w d, s.toplevels.get w = some d → w ∈ snapshot.windows.map Window.surface)
    (hwindow : window ∈ snapshot.windows) (hfocus : snapshot.IsFocused window = true) :
    Good (s.refreshToplevel ord true window) ∧ Tracks (s.refreshToplevel ord true window) snapshot := by
  have hunfocused : ∀ other ∈ snapshot.windows, other.surface ≠ window.surface →
      snapshot.IsFocused other = false := by
    intro other hother hne
    rw [Bool.eq_false_iff]
    intro hf
    rw [Snapshot.isFocused_iff] at hf hfocus
    exact hne (some.inj (hf.symm.trans hfocus))
  have hrefreshes : Refreshes s (s.refreshToplevel ord true window) window true := by
    refine hs.refreshToplevel (fun d hd => hnames window hwindow d hd) fun _ w d hw hd hact => ?_
    obtain ⟨other, hother, rfl⟩ := List.mem_map.mp (honly w d hd)
    have hcore := hothers other hother (hunfocused other hother hw)
    rw [hd] at hcore
    have hdata : d.core = State.newData other false := some.inj hcore
    have hstates : d.core.states = (State.newData other false).states := by rw [hdata]
    exact Bool.false_ne_true (mem_toStateVec.mp (hstates ▸ hact))
  obtain ⟨hgood, hcore⟩ := hrefreshes
  refine ⟨hgood, ⟨fun other hother => ?_, fun w d hd => ?_⟩⟩
  · rw [hcore]
    by_cases heq : other.surface = window.surface
    · obtain rfl := Snapshot.eq_of_surface hother hwindow heq
      rw [if_pos rfl, decide_eq_true (Snapshot.isFocused_iff.mp hfocus)]
    · rw [if_neg heq, hothers other hother (hunfocused other hother heq)]
      rw [← Snapshot.IsFocused, hunfocused other hother heq]
  · by_cases heq : w = window.surface
    · exact heq ▸ List.mem_map_of_mem hwindow
    · have := (hcore w).trans (if_neg heq)
      obtain ⟨d', hd', -⟩ := isSome_of_core this hd
      exact honly w d' hd'

/-- The windows that are closed, then those without the focus, then the one with it. -/
theorem Good.refresh (hs : Good s) (hnames : NamesKept s snapshot) :
    Good (s.refresh ord snapshot) ∧ Tracks (s.refresh ord snapshot) snapshot := by
  obtain ⟨hclosed, hget⟩ : Good ((s.gone ord snapshot).foldl (State.closeToplevel ord) s) ∧ _ :=
    hs.closeGone
  obtain ⟨hgood, hnames', hothers, honly⟩ := hclosed.refreshOthers
    (fun window hw d hd => hnames window hw d (hget _ d hd).1) (fun w d hd => (hget w d hd).2) rfl
  have hrefresh : s.refresh ord snapshot = (snapshot.windows.filter snapshot.IsFocused).getLast?.elim
      ((snapshot.windows.filter (!snapshot.IsFocused ·)).foldl (State.refreshToplevel ord false)
        ((s.gone ord snapshot).foldl (State.closeToplevel ord) s))
      (((snapshot.windows.filter (!snapshot.IsFocused ·)).foldl (State.refreshToplevel ord false)
        ((s.gone ord snapshot).foldl (State.closeToplevel ord) s)).refreshToplevel ord true) := rfl
  rw [hrefresh]
  cases hlast : (snapshot.windows.filter snapshot.IsFocused).getLast? with
  | none =>
    have hnone : ∀ window ∈ snapshot.windows, snapshot.IsFocused window = false := by
      rw [getLast?_eq_none_iff, filter_eq_nil_iff] at hlast
      exact fun window hw => Bool.eq_false_iff.mpr (hlast window hw)
    refine ⟨hgood, ⟨fun window hw => ?_, honly⟩⟩
    rw [← Snapshot.IsFocused, hnone window hw]
    exact hothers window hw (hnone window hw)
  | some window =>
    obtain ⟨hwindow, hfocus⟩ := mem_filter.mp (mem_of_getLast? hlast)
    exact hgood.refreshFocused hnames' hothers honly hwindow hfocus

end Macniri.ForeignToplevel
