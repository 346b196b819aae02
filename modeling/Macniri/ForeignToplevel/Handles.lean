import Macniri.ForeignToplevel.Refresh

/-! New handles: a toplevel that is sent to a manager. -/
namespace Macniri.ForeignToplevel

open Option HashMap

open View (AtMostOneActivated)

variable {s : State} {ord : IterOrder} {surface : ℕ} {data : ToplevelData} {manager : Manager}

/-- The data of a toplevel with one more handle. -/
def State.withHandle (s : State) (data : ToplevelData) (manager : Manager) : ToplevelData :=
  let handle : Handle := ⟨manager, s.next⟩
  { data with instances := data.instances.insert handle (s.entered data.output handle) }

theorem bindToplevel_eq (hdata : s.toplevels.get surface = some data) :
    s.bindToplevel manager surface =
      { s with
        toplevels := s.toplevels.insert surface (s.withHandle data manager)
        next := s.next + 1
        sent := s.sent ++ (data.announce s.next (s.entered data.output ⟨manager, s.next⟩)).map
          (manager.id, ·) } := by
  unfold State.bindToplevel
  rw [hdata]
  rfl

theorem has_bindToplevel (hdata : s.toplevels.get surface = some data) {w : ℕ} {d : ToplevelData}
    {h : Handle} {o : List ℕ} : (s.bindToplevel manager surface).Has w d h o ↔
      (w = surface ∧ d = s.withHandle data manager ∧
        ((h = ⟨manager, s.next⟩ ∧ o = s.entered data.output h) ∨
          (h ≠ ⟨manager, s.next⟩ ∧ data.instances.get h = some o))) ∨
        (w ≠ surface ∧ s.Has w d h o) := by
  rw [bindToplevel_eq hdata]
  unfold State.Has
  dsimp only
  rw [get_insert]
  by_cases hw : w = surface
  · rw [if_pos hw]
    constructor
    · rintro ⟨hd, ho⟩
      obtain rfl := some.inj hd
      rw [State.withHandle, get_insert] at ho
      by_cases hh : h = ⟨manager, s.next⟩
      · rw [if_pos hh] at ho
        exact .inl ⟨hw, rfl, .inl ⟨hh, by rw [hh, some.inj ho]⟩⟩
      · rw [if_neg hh] at ho
        exact .inl ⟨hw, rfl, .inr ⟨hh, ho⟩⟩
    · rintro (⟨-, rfl, hh⟩ | ⟨hne, -⟩)
      · refine ⟨rfl, ?_⟩
        rw [State.withHandle, get_insert]
        rcases hh with ⟨rfl, rfl⟩ | ⟨hh, ho⟩
        · rw [if_pos rfl]
        · rw [if_neg hh, ho]
      · exact absurd hw hne
  · rw [if_neg hw]
    constructor
    · exact fun h => .inr ⟨hw, h⟩
    · rintro (⟨heq, -⟩ | ⟨-, h⟩)
      · exact absurd heq hw
      · exact h

/-- Each handle is the new one or was there before. -/
theorem has_of_bindToplevel (hdata : s.toplevels.get surface = some data) {w : ℕ} {d : ToplevelData}
    {h : Handle} {o : List ℕ} (hhas : (s.bindToplevel manager surface).Has w d h o) :
    (w = surface ∧ d = s.withHandle data manager ∧ h = ⟨manager, s.next⟩ ∧
      o = s.entered data.output h) ∨ ∃ d', s.Has w d' h o := by
  rcases (has_bindToplevel hdata).mp hhas with ⟨rfl, rfl, ⟨rfl, rfl⟩ | ⟨-, ho⟩⟩ | ⟨-, hold⟩
  · exact .inl ⟨rfl, rfl, rfl, rfl⟩
  · exact .inr ⟨data, hdata, ho⟩
  · exact .inr ⟨d, hold⟩

variable (manager) in
theorem Inv.has_bindToplevel_of (hs : Inv s) (hdata : s.toplevels.get surface = some data) {w : ℕ}
    {d : ToplevelData} {h : Handle} {o : List ℕ} (hold : s.Has w d h o) :
    ∃ d', (s.bindToplevel manager surface).Has w d' h o ∧ d'.shown o = d.shown o := by
  by_cases hw : w = surface
  · subst hw
    obtain rfl := some.inj (hold.1.symm.trans hdata)
    have hne : h ≠ ⟨manager, s.next⟩ := by
      rintro rfl
      exact Nat.lt_irrefl _ (hs.lt hold).1
    exact ⟨s.withHandle d manager,
      (has_bindToplevel hdata).mpr (.inl ⟨rfl, rfl, .inr ⟨hne, hold.2⟩⟩), rfl⟩
  · exact ⟨d, (has_bindToplevel hdata).mpr (.inr ⟨hw, hold⟩), rfl⟩

theorem shown_of_bindToplevel (hdata : s.toplevels.get surface = some data) {w : ℕ}
    {d d' : ToplevelData} {h : Handle} {o : List ℕ}
    (hhas : (s.bindToplevel manager surface).Has w d h o) (hold : s.Has w d' h o) :
    d.shown o = d'.shown o := by
  rcases (has_bindToplevel hdata).mp hhas with ⟨rfl, rfl, -⟩ | ⟨-, hhas⟩
  · obtain rfl := some.inj (hold.1.symm.trans hdata)
    rfl
  · rw [some.inj (hhas.1.symm.trans hold.1)]

theorem Inv.view_bindToplevel (hs : Inv s) (hdata : s.toplevels.get surface = some data)
    (hnone : ∀ h o, data.instances.get h = some o → h.manager.id ≠ manager.id) (m : ℕ) :
    ∃ v, Through View.apply AtMostOneActivated .empty (stream m (s.bindToplevel manager surface).sent) v ∧
      Mirrors (s.bindToplevel manager surface) m v := by
  obtain ⟨v, hthrough, hmirror⟩ := hs.view m
  have hsent : stream m (s.bindToplevel manager surface).sent = stream m s.sent ++
      if manager.id = m then data.announce s.next (s.entered data.output ⟨manager, s.next⟩) else [] := by
    rw [bindToplevel_eq hdata, stream_append, stream_map]
  rw [hsent]
  by_cases hm : manager.id = m
  · subst hm
    have hfree : v.handles s.next = none := by
      cases hget : v.handles s.next with
      | none => rfl
      | some hv =>
        obtain ⟨w, d, h, o, hhas, -, hobject, -⟩ := (hmirror _ _).mp hget
        exact absurd (hs.lt hhas).1 (hobject ▸ Nat.lt_irrefl _)
    refine ⟨v.set s.next (some (data.shown (s.entered data.output ⟨manager, s.next⟩))), ?_, ?_⟩
    · rw [if_pos rfl]
      refine hthrough.append (View.through_on (run_announce hfree (hs.nodup_entered _ _))
        (fun e he => (announce_on e he).1) (hs.atMostOne hmirror) ?_)
      by_cases hact : .activated ∈ data.states
      · right
        -- the manager has no handle of the activated toplevel yet
        intro h' ha
        obtain ⟨w, d, h, o, hhas, hm, rfl, hstates⟩ := hmirror.activated ha
        obtain rfl := hs.activated hhas.1 hdata hstates hact
        obtain rfl := some.inj (hhas.1.symm.trans hdata)
        exact absurd hm (hnone h o hhas.2)
      · exact .inl fun e he ha => hact ((announce_on e he).2 ha)
    · intro h hv
      rw [View.handles_set]
      constructor
      · intro hget
        by_cases hh : h = s.next
        · rw [if_pos hh] at hget
          exact ⟨surface, s.withHandle data manager, ⟨manager, s.next⟩, _,
            (has_bindToplevel hdata).mpr (.inl ⟨rfl, rfl, .inl ⟨rfl, rfl⟩⟩), rfl, hh.symm,
            some.inj hget⟩
        · rw [if_neg hh] at hget
          obtain ⟨w, d, handle, o, hhas, hm, hobject, rfl⟩ := (hmirror h hv).mp hget
          obtain ⟨d', hhas', hshown⟩ := hs.has_bindToplevel_of manager hdata hhas
          exact ⟨w, d', handle, o, hhas', hm, hobject, hshown⟩
      · rintro ⟨w, d, handle, o, hhas, hm, rfl, rfl⟩
        rcases has_of_bindToplevel hdata hhas with ⟨rfl, rfl, rfl, rfl⟩ | ⟨d', hold⟩
        · rw [if_pos rfl]
          rfl
        · rw [if_neg (Nat.ne_of_lt (hs.lt hold).1), shown_of_bindToplevel hdata hhas hold]
          exact (hmirror _ _).mpr ⟨w, d', handle, o, hold, hm, rfl, rfl⟩
  · refine ⟨v, ?_, ?_⟩
    · rw [if_neg hm, List.append_nil]
      exact hthrough
    · intro h hv
      rw [hmirror h hv]
      constructor
      · rintro ⟨w, d, handle, o, hhas, hm', hobject, rfl⟩
        obtain ⟨d', hhas', hshown⟩ := hs.has_bindToplevel_of manager hdata hhas
        exact ⟨w, d', handle, o, hhas', hm', hobject, hshown⟩
      · rintro ⟨w, d, handle, o, hhas, hm', hobject, rfl⟩
        rcases has_of_bindToplevel hdata hhas with ⟨rfl, rfl, rfl, rfl⟩ | ⟨d', hold⟩
        · exact absurd hm' hm
        · exact ⟨w, d', handle, o, hold, hm', hobject, (shown_of_bindToplevel hdata hhas hold).symm⟩

theorem Inv.bindToplevel (hs : Inv s) (hm : manager.id < s.next)
    (hnone : ∀ d h o, s.Has surface d h o → h.manager.id ≠ manager.id) :
    Inv (s.bindToplevel manager surface) := by
  cases hdata : s.toplevels.get surface with
  | none =>
    unfold State.bindToplevel
    rw [hdata]
    exact hs
  | some data =>
    have hnext : (s.bindToplevel manager surface).next = s.next + 1 := by rw [bindToplevel_eq hdata]
    have hwl : (s.bindToplevel manager surface).wlOutputs = s.wlOutputs := by
      rw [bindToplevel_eq hdata]
    constructor
    case lt =>
      intro w d h o hhas
      rw [hnext]
      rcases has_of_bindToplevel hdata hhas with ⟨-, -, rfl, -⟩ | ⟨d', hold⟩
      · exact ⟨Nat.lt_succ_self _, Nat.lt_succ_of_lt hm⟩
      · exact ⟨Nat.lt_succ_of_lt (hs.lt hold).1, Nat.lt_succ_of_lt (hs.lt hold).2⟩
    case object_inj =>
      intro w d h o w' d' h' o' hhas hhas' hobject
      rcases has_of_bindToplevel hdata hhas with ⟨rfl, -, rfl, -⟩ | ⟨_, hold⟩ <;>
        rcases has_of_bindToplevel hdata hhas' with ⟨rfl, -, rfl, -⟩ | ⟨_, hold'⟩
      · exact ⟨rfl, rfl⟩
      · exact absurd hobject.symm (Nat.ne_of_lt (hs.lt hold').1)
      · exact absurd hobject (Nat.ne_of_lt (hs.lt hold).1)
      · exact hs.object_inj hold hold' hobject
    case one =>
      intro w d h o h' o' hhas hhas' hm'
      rcases has_of_bindToplevel hdata hhas with ⟨rfl, -, rfl, -⟩ | ⟨_, hold⟩
      · rcases has_of_bindToplevel hdata hhas' with ⟨-, -, rfl, -⟩ | ⟨_, hold'⟩
        · rfl
        · exact absurd hm'.symm (hnone _ _ _ hold')
      · rcases has_of_bindToplevel hdata hhas' with ⟨rfl, -, rfl, -⟩ | ⟨_, hold'⟩
        · exact absurd hm' (hnone _ _ _ hold)
        · obtain rfl := some.inj (hold.1.symm.trans hold'.1)
          exact hs.one hold hold' hm'
    case alive =>
      intro w d h o hhas
      unfold State.isAlive
      rw [hwl]
      rcases has_of_bindToplevel hdata hhas with ⟨-, -, -, rfl⟩ | ⟨_, hold⟩
      · exact s.isAlive_entered _ _
      · exact hs.alive hold
    case outputs_nodup =>
      rw [hwl]
      exact hs.outputs_nodup
    case activated =>
      have hstates : ∀ {w d}, (s.bindToplevel manager surface).toplevels.get w = some d →
          ∃ d', s.toplevels.get w = some d' ∧ d'.states = d.states := by
        intro w d hd
        rw [bindToplevel_eq hdata, get_insert] at hd
        by_cases hw : w = surface
        · rw [if_pos hw] at hd
          exact ⟨data, hw ▸ hdata, by rw [← some.inj hd]; rfl⟩
        · rw [if_neg hw] at hd
          exact ⟨d, hd, rfl⟩
      intro w w' d d' hd hd' ha ha'
      obtain ⟨e, he, hes⟩ := hstates hd
      obtain ⟨e', he', hes'⟩ := hstates hd'
      exact hs.activated he he' (hes ▸ ha) (hes' ▸ ha')
    case view => exact hs.view_bindToplevel hdata fun h o hget => hnone data h o ⟨hdata, hget⟩

/-- Start tracking a window. -/
def State.track (s : State) (surface : ℕ) (new : ToplevelData) : State :=
  { s with toplevels := s.toplevels.insert surface new }

theorem get_track {new : ToplevelData} {w : ℕ} : (s.track surface new).toplevels.get w =
    if w = surface then some new else s.toplevels.get w := get_insert

/-- A toplevel without handles shows nothing to anyone. -/
theorem Inv.insert_new (hs : Inv s) (hfree : s.toplevels.get surface = none) {new : ToplevelData}
    (hempty : new.instances = ∅)
    (halone : .activated ∈ new.states → ∀ w d, s.toplevels.get w = some d → .activated ∉ d.states) :
    Inv (s.track surface new) := by
  have hhas : ∀ {w d h o}, (s.track surface new).Has w d h o ↔ s.Has w d h o := by
    intro w d h o
    unfold State.Has
    rw [get_track]
    by_cases hw : w = surface
    · subst hw
      rw [if_pos rfl, hfree]
      constructor
      · rintro ⟨hd, ho⟩
        rw [← some.inj hd, hempty] at ho
        exact nomatch ho
      · exact fun h => nomatch h.1
    · rw [if_neg hw]
  constructor
  case lt => exact fun h => hs.lt (hhas.mp h)
  case object_inj => exact fun h h' => hs.object_inj (hhas.mp h) (hhas.mp h')
  case one => exact fun h h' => hs.one (hhas.mp h) (hhas.mp h')
  case alive => exact fun h => hs.alive (hhas.mp h)
  case outputs_nodup => exact hs.outputs_nodup
  case activated =>
    intro w w' d d' hd hd' ha ha'
    rw [get_track] at hd hd'
    by_cases hw : w = surface <;> by_cases hw' : w' = surface
    · rw [hw, hw']
    · rw [if_pos hw] at hd
      rw [if_neg hw'] at hd'
      obtain rfl := some.inj hd
      exact absurd ha' (halone ha w' d' hd')
    · rw [if_neg hw] at hd
      rw [if_pos hw'] at hd'
      obtain rfl := some.inj hd'
      exact absurd ha (halone ha' w d hd)
    · rw [if_neg hw] at hd
      rw [if_neg hw'] at hd'
      exact hs.activated hd hd' ha ha'
  case view =>
    intro m
    obtain ⟨v, hthrough, hmirror⟩ := hs.view m
    refine ⟨v, hthrough, fun h hv => (hmirror h hv).trans ?_⟩
    unfold State.Shows
    simp only [hhas]

end Macniri.ForeignToplevel
