import Macniri.ForeignToplevel.Mirror

/-! Each operation keeps the views of the managers in step with the toplevels. -/
namespace Macniri.ForeignToplevel

open Option List

open View (AtMostOneActivated)

variable {s : State} {ord : IterOrder} {surface : ℕ} {data new : ToplevelData} {handle : Handle}
  {outputs : List ℕ} {manager : Manager}

theorem Inv.nodup_entered (hs : Inv s) (output : Option ℕ) (handle : Handle) :
    (s.entered output handle).Nodup :=
  hs.outputs_nodup.sublist (Sublist.map _ filter_sublist)

theorem State.isAlive_entered (s : State) (output : Option ℕ) (handle : Handle) :
    ∀ x ∈ s.entered output handle, s.isAlive x = true := by
  intro x hx
  obtain ⟨wl, hwl, rfl⟩ := List.mem_map.mp hx
  simp only [isAlive, List.any_eq_true, decide_eq_true_eq]
  exact ⟨wl, (mem_filter.mp hwl).1, rfl⟩

/-- The outputs of a handle after its toplevel changed. -/
def State.keptOutputs (s : State) (data new : ToplevelData) (handle : Handle) (outputs : List ℕ) :
    List ℕ :=
  (if (Changes.of data new).outputChanged then s.entered new.output handle else outputs).filter s.isAlive

theorem Inv.keptOutputs_eq (hs : Inv s) (hhas : s.Has surface data handle outputs) :
    s.keptOutputs data new handle outputs =
      if data.output ≠ new.output then s.entered new.output handle else outputs := by
  unfold State.keptOutputs
  simp only [Changes.of, decide_eq_true_eq]
  refine filter_eq_self.mpr fun x hx => ?_
  split at hx
  · exact s.isAlive_entered _ _ x hx
  · exact hs.alive hhas x hx

theorem refreshExisting_eq : s.refreshExisting ord surface data new =
    s.updated ord surface data { new with instances := data.instances.mapEntries (s.keptOutputs data new) }
      fun handle outputs => if (Changes.of data new).somethingChanged then
        (Changes.of data new).events new.states handle.object outputs (s.entered new.output handle)
      else [] := by
  unfold State.refreshExisting State.updated
  dsimp only
  cases (Changes.of data new).somethingChanged with
  | true => rfl
  | false =>
    have hnone : sendEach ord data.instances (fun _ _ => []) = [] := by
      simp [sendEach, flatMap_eq_nil_iff]
    simp only [Bool.false_eq_true, if_false, hnone]
    rfl

theorem Inv.updates_refreshExisting (hs : Inv s) (hdata : s.toplevels.get surface = some data)
    (hnames : KeepsNames data new)
    (halone : .activated ∈ new.states → ∀ w d, w ≠ surface → s.toplevels.get w = some d →
      .activated ∉ d.states) :
    Updates s surface data { new with instances := data.instances.mapEntries (s.keptOutputs data new) }
      (fun handle outputs => if (Changes.of data new).somethingChanged then
        (Changes.of data new).events new.states handle.object outputs (s.entered new.output handle)
      else []) (s.keptOutputs data new) where
  tracked := hdata
  instances := rfl
  run := by
    intro h o v hget hv
    rw [hs.keptOutputs_eq ⟨hdata, hget⟩]
    cases hchanged : (Changes.of data new).somethingChanged with
    | true =>
      rw [if_pos rfl, run_changes hv hnames (hs.nodup_entered _ _)]
      rfl
    | false =>
      obtain ⟨hshown, houtput⟩ := shown_of_same o hnames hchanged
      rw [if_neg Bool.false_ne_true, run_nil, if_neg (not_not.mpr houtput)]
      exact congrArg some (View.set_self (hv.trans (congrArg some hshown.symm))).symm
  on := by
    intro h o e he
    split at he
    · exact changes_on e he
    · exact nomatch he
  alive := by
    intro h o hget x hx
    exact (mem_filter.mp hx).2
  alone := halone

theorem Inv.outputBoundToplevel (hs : Inv s) {wl : WlOutput} (halive : s.isAlive wl.id = true)
    (hnew : ∀ d h o, s.Has surface d h o → wl.id ∉ o) :
    Inv (s.outputBoundToplevel ord wl surface) := by
  unfold State.outputBoundToplevel
  split
  case h_2 => exact hs
  case h_1 data hdata =>
    split
    case isFalse => exact hs
    case isTrue houtput =>
      refine hs.update (g := fun handle outputs =>
        if handle.manager.client = wl.client then outputs ++ [wl.id] else outputs) ⟨hdata, rfl, ?_, ?_, ?_, ?_⟩
      · intro h o v hget hv
        by_cases hclient : h.manager.client = wl.client
        · have hout : wl.id ∉ o := hnew data h o ⟨hdata, hget⟩
          have henter := View.run_outputEnter hv (nodup_singleton wl.id)
            (fun x hx => mem_singleton.mp hx ▸ hout)
          rw [if_pos hclient, if_pos hclient]
          have hlist : [Event.outputEnter h.object wl.id, .done h.object] =
              [wl.id].map (.outputEnter h.object) ++ [.done h.object] := rfl
          rw [hlist, run_append, henter, bind_some, run_done (View.handles_set.trans (if_pos rfl))]
          rfl
        · rw [if_neg hclient, if_neg hclient, run_nil]
          exact congrArg some (View.set_self hv).symm
      · intro h o e he
        split at he
        · rcases mem_cons.mp he with rfl | he
          · exact ⟨rfl, False.elim⟩
          · obtain rfl := mem_singleton.mp he
            exact ⟨rfl, False.elim⟩
        · exact nomatch he
      · intro h o hget x hx
        split at hx
        · rcases mem_append.mp hx with hx | hx
          · exact hs.alive ⟨hdata, hget⟩ x hx
          · exact mem_singleton.mp hx ▸ halive
        · exact hs.alive ⟨hdata, hget⟩ x hx
      · intro hact w d hw hd hact'
        exact hw (hs.activated hd hdata hact' hact)

/-! Closing a window. -/

theorem get_closeToplevel {w : ℕ} : (s.closeToplevel ord surface).toplevels.get w =
    if w = surface then none else s.toplevels.get w := by
  unfold State.closeToplevel
  split
  · exact HashMap.get_remove
  · rename_i hnone
    by_cases hw : w = surface
    · rw [if_pos hw, hw, hnone]
    · rw [if_neg hw]

theorem has_closeToplevel {w : ℕ} {d : ToplevelData} {h : Handle} {o : List ℕ} :
    (s.closeToplevel ord surface).Has w d h o ↔ w ≠ surface ∧ s.Has w d h o := by
  unfold State.Has
  rw [get_closeToplevel]
  by_cases hw : w = surface <;> simp [hw]

theorem shows_closeToplevel {m h : ℕ} {hv : HandleView} :
    (s.closeToplevel ord surface).Shows m h hv ↔ ∃ w d handle o, w ≠ surface ∧ s.Has w d handle o ∧
      handle.manager.id = m ∧ handle.object = h ∧ d.shown o = hv := by
  unfold State.Shows
  simp only [has_closeToplevel, and_assoc]

@[simp] theorem next_closeToplevel : (s.closeToplevel ord surface).next = s.next := by
  unfold State.closeToplevel
  split <;> rfl

@[simp] theorem wlOutputs_closeToplevel : (s.closeToplevel ord surface).wlOutputs = s.wlOutputs := by
  unfold State.closeToplevel
  split <;> rfl

@[simp] theorem instances_closeToplevel : (s.closeToplevel ord surface).instances = s.instances := by
  unfold State.closeToplevel
  split <;> rfl

theorem sent_closeToplevel (hdata : s.toplevels.get surface = some data) :
    (s.closeToplevel ord surface).sent =
      s.sent ++ sendEach ord data.instances fun handle _ => [.closed handle.object] := by
  unfold State.closeToplevel
  rw [hdata]
  rfl

theorem Inv.view_closeToplevel (hs : Inv s) (hdata : s.toplevels.get surface = some data) (m : ℕ) :
    ∃ v, Through View.apply AtMostOneActivated .empty (stream m (s.closeToplevel ord surface).sent) v ∧
      Mirrors (s.closeToplevel ord surface) m v := by
  obtain ⟨v, hthrough, hmirror⟩ := hs.view m
  rw [sent_closeToplevel hdata, stream_append]
  by_cases hmine : ∃ handle o, data.instances.get handle = some o ∧ handle.manager.id = m
  · obtain ⟨handle, o, hget, hm⟩ := hmine
    have hhas : s.Has surface data handle o := ⟨hdata, hget⟩
    have hone : ∀ other, (data.instances.get other).isSome → other.manager.id = m → other = handle := by
      intro other hother hm'
      obtain ⟨o', ho'⟩ := isSome_iff_exists.mp hother
      exact hs.one ⟨hdata, ho'⟩ hhas (hm'.trans hm.symm)
    have hshown : v.handles handle.object = some (data.shown o) :=
      (hmirror _ _).mpr ⟨surface, data, handle, o, hhas, hm, rfl, rfl⟩
    have hrun : run View.apply v [.closed handle.object] = some (v.set handle.object none) := by
      simp [View.apply, hshown]
    refine ⟨v.set handle.object none, ?_, ?_⟩
    · rw [stream_sendEach_one ord hget hm hone]
      refine hthrough.append (View.through_on hrun (h := handle.object) ?_ (hs.atMostOne hmirror) (.inl ?_))
      · intro e he
        obtain rfl := mem_singleton.mp he
        rfl
      · intro e he
        obtain rfl := mem_singleton.mp he
        exact id
    · intro h hv
      rw [View.handles_set, shows_closeToplevel]
      constructor
      · intro hget'
        by_cases hh : h = handle.object
        · rw [if_pos hh] at hget'
          cases hget'
        · rw [if_neg hh] at hget'
          obtain ⟨w, d, handle', o', hhas', hm', rfl, rfl⟩ := (hmirror h hv).mp hget'
          refine ⟨w, d, handle', o', ?_, hhas', hm', rfl, rfl⟩
          rintro rfl
          obtain rfl := some.inj (hhas'.1.symm.trans hdata)
          exact hh (congrArg Handle.object (hs.one hhas' hhas (hm'.trans hm.symm)))
      · rintro ⟨w, d, handle', o', hw, hold, hm', rfl, rfl⟩
        rw [if_neg fun heq => hw (hs.object_inj hold hhas heq).1]
        exact (hmirror _ _).mpr ⟨w, d, handle', o', hold, hm', rfl, rfl⟩
  · have hnone : ∀ handle, (data.instances.get handle).isSome → handle.manager.id ≠ m := by
      intro handle hhandle hm
      obtain ⟨o, ho⟩ := isSome_iff_exists.mp hhandle
      exact hmine ⟨handle, o, ho, hm⟩
    refine ⟨v, ?_, ?_⟩
    · rw [stream_sendEach_none ord hnone, append_nil]
      exact hthrough
    · intro h hv
      rw [hmirror h hv, shows_closeToplevel]
      constructor
      · rintro ⟨w, d, handle', o', hhas', hm', rfl, rfl⟩
        refine ⟨w, d, handle', o', ?_, hhas', hm', rfl, rfl⟩
        rintro rfl
        obtain rfl := some.inj (hhas'.1.symm.trans hdata)
        exact hmine ⟨handle', o', hhas'.2, hm'⟩
      · rintro ⟨w, d, handle', o', -, hold, hm', rfl, rfl⟩
        exact ⟨w, d, handle', o', hold, hm', rfl, rfl⟩

theorem Inv.closeToplevel (hs : Inv s) : Inv (s.closeToplevel ord surface) := by
  cases hdata : s.toplevels.get surface with
  | none =>
    unfold State.closeToplevel
    rw [hdata]
    exact hs
  | some data =>
    constructor
    case lt =>
      intro w d h o hhas
      rw [next_closeToplevel]
      exact hs.lt (has_closeToplevel.mp hhas).2
    case object_inj =>
      intro w d h o w' d' h' o' hhas hhas'
      exact hs.object_inj (has_closeToplevel.mp hhas).2 (has_closeToplevel.mp hhas').2
    case one =>
      intro w d h o h' o' hhas hhas'
      exact hs.one (has_closeToplevel.mp hhas).2 (has_closeToplevel.mp hhas').2
    case alive =>
      intro w d h o hhas
      unfold State.isAlive
      rw [wlOutputs_closeToplevel]
      exact hs.alive (has_closeToplevel.mp hhas).2
    case outputs_nodup =>
      rw [wlOutputs_closeToplevel]
      exact hs.outputs_nodup
    case activated =>
      intro w w' d d' hd hd'
      rw [get_closeToplevel] at hd hd'
      exact hs.activated (ite_none_left_eq_some.mp hd).2 (ite_none_left_eq_some.mp hd').2
    case view => exact hs.view_closeToplevel hdata

end Macniri.ForeignToplevel
