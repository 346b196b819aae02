import Macniri.ForeignToplevel.View

/-! The invariant that ties the views of the managers to the toplevels. -/
namespace Macniri.ForeignToplevel

open Option HashMap

open View (AtMostOneActivated)

/-- The handle is one of the toplevel of the surface. -/
def State.Has (s : State) (surface : ℕ) (data : ToplevelData) (handle : Handle) (outputs : List ℕ) :
    Prop :=
  s.toplevels.get surface = some data ∧ data.instances.get handle = some outputs

/-- The manager has a handle that shows a toplevel. -/
def State.Shows (s : State) (m h : ℕ) (hv : HandleView) : Prop :=
  ∃ surface data handle outputs, s.Has surface data handle outputs ∧ handle.manager.id = m ∧
    handle.object = h ∧ data.shown outputs = hv

def Mirrors (s : State) (m : ℕ) (v : View) : Prop := ∀ h hv, v.handles h = some hv ↔ s.Shows m h hv

structure Inv (s : State) : Prop where
  lt : ∀ {w d h o}, s.Has w d h o → h.object < s.next ∧ h.manager.id < s.next
  object_inj : ∀ {w d h o w' d' h' o'}, s.Has w d h o → s.Has w' d' h' o' → h.object = h'.object →
    w = w' ∧ h = h'
  one : ∀ {w d h o h' o'}, s.Has w d h o → s.Has w d h' o' → h.manager.id = h'.manager.id → h = h'
  alive : ∀ {w d h o}, s.Has w d h o → ∀ x ∈ o, s.isAlive x = true
  outputs_nodup : (s.wlOutputs.map WlOutput.id).Nodup
  activated : ∀ {w w' d d'}, s.toplevels.get w = some d → s.toplevels.get w' = some d' →
    .activated ∈ d.states → .activated ∈ d'.states → w = w'
  view : ∀ m, ∃ v, Through View.apply AtMostOneActivated .empty (stream m s.sent) v ∧ Mirrors s m v

variable {s : State} {surface : ℕ} {data new : ToplevelData} {m : ℕ} {v : View} {handle : Handle}
  {outputs : List ℕ}

/-- An activated handle is one of the activated toplevel. -/
theorem Mirrors.activated (hv : Mirrors s m v) {h : ℕ} (ha : v.Activated h) :
    ∃ w d handle o, s.Has w d handle o ∧ handle.manager.id = m ∧ handle.object = h ∧
      .activated ∈ d.states := by
  obtain ⟨hv', hget, hstates⟩ := ha
  obtain ⟨w, d, handle, o, hhas, hm, hh, rfl⟩ := (hv h hv').mp hget
  exact ⟨w, d, handle, o, hhas, hm, hh, hstates⟩

theorem Inv.atMostOne (hs : Inv s) (hv : Mirrors s m v) : AtMostOneActivated v := by
  intro a b ha hb
  obtain ⟨w, d, h, o, hhas, hm, rfl, hact⟩ := hv.activated ha
  obtain ⟨w', d', h', o', hhas', hm', rfl, hact'⟩ := hv.activated hb
  obtain rfl := hs.activated hhas.1 hhas'.1 hact hact'
  obtain rfl := some.inj (hhas.1.symm.trans hhas'.1)
  rw [hs.one hhas hhas' (hm.trans hm'.symm)]

/-- The state after the data of a toplevel changed and events about its handles were sent. -/
def State.updated (s : State) (ord : IterOrder) (surface : ℕ) (data new : ToplevelData)
    (f : Handle → List ℕ → List Event) : State :=
  { s with toplevels := s.toplevels.insert surface new }.send (sendEach ord data.instances f)

theorem has_updated {ord : IterOrder} {f : Handle → List ℕ → List Event} {g : Handle → List ℕ → List ℕ}
    (hnew : new.instances = data.instances.mapEntries g) {w : ℕ} {d : ToplevelData} {h : Handle}
    {o : List ℕ} : (s.updated ord surface data new f).Has w d h o ↔
      (w = surface ∧ d = new ∧ ∃ o', data.instances.get h = some o' ∧ o = g h o') ∨
        (w ≠ surface ∧ s.Has w d h o) := by
  have hget : (s.updated ord surface data new f).toplevels.get w =
      if w = surface then some new else s.toplevels.get w := get_insert
  unfold State.Has
  rw [hget]
  by_cases hw : w = surface
  · rw [if_pos hw]
    constructor
    · rintro ⟨hd, ho⟩
      obtain rfl := some.inj hd
      rw [hnew, get_mapEntries] at ho
      obtain ⟨o', ho', rfl⟩ := of_map ho
      exact .inl ⟨hw, rfl, o', ho', rfl⟩
    · rintro (⟨-, rfl, o', ho', rfl⟩ | ⟨hne, -⟩)
      · exact ⟨rfl, by rw [hnew, get_mapEntries, ho']; rfl⟩
      · exact absurd hw hne
  · rw [if_neg hw]
    constructor
    · exact fun h => .inr ⟨hw, h⟩
    · rintro (⟨heq, -⟩ | ⟨-, h⟩)
      · exact absurd heq hw
      · exact h

/-- The data of one toplevel may change if the events bring each of its handles up to date. -/
structure Updates (s : State) (surface : ℕ) (data new : ToplevelData)
    (f : Handle → List ℕ → List Event) (g : Handle → List ℕ → List ℕ) : Prop where
  tracked : s.toplevels.get surface = some data
  instances : new.instances = data.instances.mapEntries g
  run : ∀ {h o} {v : View}, data.instances.get h = some o →
    v.handles h.object = some (data.shown o) →
    Macniri.run View.apply v (f h o) = some (v.set h.object (some (new.shown (g h o))))
  on : ∀ h o, ∀ e ∈ f h o, e.On h.object ∧ (e.Activates → .activated ∈ new.states)
  alive : ∀ {h o}, data.instances.get h = some o → ∀ x ∈ g h o, s.isAlive x = true
  alone : .activated ∈ new.states → ∀ w d, w ≠ surface → s.toplevels.get w = some d →
    .activated ∉ d.states

section Update

variable {ord : IterOrder} {f : Handle → List ℕ → List Event} {g : Handle → List ℕ → List ℕ}

/-- Which handles there are does not change. -/
theorem Updates.has (hu : Updates s surface data new f g) {w : ℕ} {d : ToplevelData} {h : Handle}
    {o : List ℕ} (hhas : (s.updated ord surface data new f).Has w d h o) : ∃ d' o', s.Has w d' h o' := by
  rcases (has_updated hu.instances).mp hhas with ⟨rfl, rfl, o', ho', rfl⟩ | ⟨-, hold⟩
  · exact ⟨data, o', hu.tracked, ho'⟩
  · exact ⟨d, o, hold⟩

theorem Inv.view_update (hs : Inv s) (hu : Updates s surface data new f g) (m : ℕ) :
    ∃ v, Through View.apply AtMostOneActivated .empty
      (stream m (s.updated ord surface data new f).sent) v ∧
        Mirrors (s.updated ord surface data new f) m v := by
  obtain ⟨v, hthrough, hmirror⟩ := hs.view m
  have hsent : stream m (s.updated ord surface data new f).sent =
      stream m s.sent ++ stream m (sendEach ord data.instances f) := stream_append
  by_cases hmine : ∃ handle o, data.instances.get handle = some o ∧ handle.manager.id = m
  · obtain ⟨handle, o, hget, hm⟩ := hmine
    have hhas : s.Has surface data handle o := ⟨hu.tracked, hget⟩
    have hone : ∀ other, (data.instances.get other).isSome → other.manager.id = m → other = handle := by
      intro other hother hm'
      obtain ⟨o', ho'⟩ := isSome_iff_exists.mp hother
      exact hs.one ⟨hu.tracked, ho'⟩ hhas (hm'.trans hm.symm)
    have hshown : v.handles handle.object = some (data.shown o) :=
      (hmirror _ _).mpr ⟨surface, data, handle, o, hhas, hm, rfl, rfl⟩
    refine ⟨v.set handle.object (some (new.shown (g handle o))), ?_, ?_⟩
    · rw [hsent, stream_sendEach_one ord hget hm hone]
      refine hthrough.append (View.through_on (hu.run hget hshown) (fun e he => (hu.on _ _ e he).1)
        (hs.atMostOne hmirror) ?_)
      by_cases hact : .activated ∈ new.states
      · right
        -- the other toplevels are not activated, and the manager has one handle of this one
        intro h' ha
        obtain ⟨w, d, handle', o', hhas', hm', rfl, hstates⟩ := hmirror.activated ha
        obtain rfl : w = surface := not_not.mp fun hne => hu.alone hact w d hne hhas'.1 hstates
        obtain rfl := some.inj (hhas'.1.symm.trans hu.tracked)
        rw [hs.one hhas' hhas (hm'.trans hm.symm)]
      · exact .inl fun e he ha => hact ((hu.on _ _ e he).2 ha)
    · intro h hv
      rw [View.handles_set]
      constructor
      · intro hget'
        by_cases hh : h = handle.object
        · subst hh
          rw [if_pos rfl] at hget'
          obtain rfl := some.inj hget'
          exact ⟨surface, new, handle, g handle o,
            (has_updated hu.instances).mpr (.inl ⟨rfl, rfl, o, hget, rfl⟩), hm, rfl, rfl⟩
        · rw [if_neg hh] at hget'
          obtain ⟨w, d, handle', o', hhas', hm', rfl, rfl⟩ := (hmirror h hv).mp hget'
          by_cases hw : w = surface
          · subst hw
            obtain rfl := some.inj (hhas'.1.symm.trans hu.tracked)
            exact absurd (congrArg Handle.object (hs.one hhas' hhas (hm'.trans hm.symm))) hh
          · exact ⟨w, d, handle', o', (has_updated hu.instances).mpr (.inr ⟨hw, hhas'⟩), hm', rfl, rfl⟩
      · rintro ⟨w, d, handle', o', hhas', hm', rfl, rfl⟩
        rcases (has_updated hu.instances).mp hhas' with ⟨rfl, rfl, o', ho', rfl⟩ | ⟨hw, hold⟩
        · obtain rfl := hs.one ⟨hu.tracked, ho'⟩ hhas (hm'.trans hm.symm)
          obtain rfl := some.inj (ho'.symm.trans hget)
          rw [if_pos rfl]
        · rw [if_neg fun heq => hw (hs.object_inj hold hhas heq).1]
          exact (hmirror _ _).mpr ⟨w, d, handle', o', hold, hm', rfl, rfl⟩
  · have hnone : ∀ handle, (data.instances.get handle).isSome → handle.manager.id ≠ m := by
      intro handle hhandle hm
      obtain ⟨o, ho⟩ := isSome_iff_exists.mp hhandle
      exact hmine ⟨handle, o, ho, hm⟩
    refine ⟨v, ?_, ?_⟩
    · rw [hsent, stream_sendEach_none ord hnone, List.append_nil]
      exact hthrough
    · intro h hv
      rw [hmirror h hv]
      constructor
      · rintro ⟨w, d, handle', o', hhas', hm', rfl, rfl⟩
        have hw : w ≠ surface := by
          rintro rfl
          obtain rfl := some.inj (hhas'.1.symm.trans hu.tracked)
          exact hmine ⟨handle', o', hhas'.2, hm'⟩
        exact ⟨w, d, handle', o', (has_updated hu.instances).mpr (.inr ⟨hw, hhas'⟩), hm', rfl, rfl⟩
      · rintro ⟨w, d, handle', o', hhas', hm', rfl, rfl⟩
        rcases (has_updated hu.instances).mp hhas' with ⟨rfl, rfl, o', ho', rfl⟩ | ⟨hw, hold⟩
        · exact absurd ⟨handle', o', ho', hm'⟩ hmine
        · exact ⟨w, d, handle', o', hold, hm', rfl, rfl⟩

theorem Inv.update (hs : Inv s) (hu : Updates s surface data new f g) :
    Inv (s.updated ord surface data new f) where
  lt := by
    intro w d h o hhas
    obtain ⟨d', o', hold⟩ := hu.has hhas
    exact hs.lt hold
  object_inj := by
    intro w d h o w' d' h' o' hhas hhas' hobject
    obtain ⟨_, _, hold⟩ := hu.has hhas
    obtain ⟨_, _, hold'⟩ := hu.has hhas'
    exact hs.object_inj hold hold' hobject
  one := by
    intro w d h o h' o' hhas hhas' hm
    obtain ⟨d₁, o₁, hold⟩ := hu.has hhas
    obtain ⟨d₂, o₂, hold'⟩ := hu.has hhas'
    obtain rfl := some.inj (hold.1.symm.trans hold'.1)
    exact hs.one hold hold' hm
  alive := by
    intro w d h o hhas
    rcases (has_updated hu.instances).mp hhas with ⟨rfl, rfl, o', ho', rfl⟩ | ⟨-, hold⟩
    · exact hu.alive ho'
    · exact hs.alive hold
  outputs_nodup := hs.outputs_nodup
  activated := by
    intro w w' d d' hd hd' ha ha'
    have hget : ∀ w, (s.updated ord surface data new f).toplevels.get w =
        if w = surface then some new else s.toplevels.get w := fun w => get_insert
    rw [hget] at hd hd'
    by_cases hw : w = surface <;> by_cases hw' : w' = surface
    · rw [hw, hw']
    · rw [if_pos hw] at hd
      rw [if_neg hw'] at hd'
      obtain rfl := some.inj hd
      exact absurd ha' (hu.alone ha w' d' hw' hd')
    · rw [if_neg hw] at hd
      rw [if_pos hw'] at hd'
      obtain rfl := some.inj hd'
      exact absurd ha (hu.alone ha' w d hw hd)
    · rw [if_neg hw] at hd
      rw [if_neg hw'] at hd'
      exact hs.activated hd hd' ha ha'
  view := hs.view_update hu

end Update

end Macniri.ForeignToplevel
