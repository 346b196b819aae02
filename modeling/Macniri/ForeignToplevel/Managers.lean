import Macniri.ForeignToplevel.Tracks

/-! Managers that bind and stop, and `wl_output`s that are bound. -/
namespace Macniri.ForeignToplevel

open Option List HashMap

variable {s t : State} {ord : IterOrder} {surface : ℕ} {manager : Manager} {snapshot : Snapshot}

theorem Good.of_grows_all (hs : Good s) (hgrows : Grows s t) (hinv : Inv t) : Good t where
  toInv := hinv
  managers_nodup := by
    rw [hgrows.instances]
    exact hs.managers_nodup
  manager_lt := by
    rw [hgrows.instances]
    exact fun m hm => Nat.lt_of_lt_of_le (hs.manager_lt m hm) hgrows.next
  live := by
    rw [hgrows.instances]
    intro m hm w d hd
    obtain ⟨d₀, hd₀, -⟩ := isSome_of_core (hgrows.core w) hd
    obtain ⟨h, o, ho, hmanager⟩ := hs.live m hm w d₀ hd₀
    obtain ⟨d', hkept⟩ := hgrows.kept ⟨hd₀, ho⟩
    obtain rfl := some.inj (hkept.1.symm.trans hd)
    exact ⟨h, o, hkept.2, hmanager⟩
  entered := by
    intro w d h o hhas
    rw [hgrows.entered_eq]
    rcases hgrows.entered hhas with ⟨d', hold⟩ | rfl
    · rw [output_of_core (State.Has.core hgrows.core hold.1 hhas.1)]
      exact hs.entered hold
    · rfl
  output_lt := by
    rw [hgrows.wlOutputs]
    exact fun wl hwl => Nat.lt_of_lt_of_le (hs.output_lt wl hwl) hgrows.next

/-- A number is given away. -/
theorem Good.bump (hs : Good s) : Good { s with next := s.next + 1 } where
  lt := fun h => ⟨Nat.lt_succ_of_lt (hs.lt h).1, Nat.lt_succ_of_lt (hs.lt h).2⟩
  object_inj := hs.object_inj
  one := hs.one
  alive := hs.alive
  outputs_nodup := hs.outputs_nodup
  activated := hs.activated
  view := hs.view
  managers_nodup := hs.managers_nodup
  manager_lt := fun m hm => Nat.lt_succ_of_lt (hs.manager_lt m hm)
  live := hs.live
  entered := hs.entered
  output_lt := fun wl hwl => Nat.lt_succ_of_lt (hs.output_lt wl hwl)

variable (manager) in
/-- All the toplevels are sent to a new manager. -/
theorem Inv.bindSurfaces (surfaces : List ℕ) (hs : Inv s) (hnodup : surfaces.Nodup)
    (hlt : manager.id < s.next)
    (hnone : ∀ w ∈ surfaces, ∀ d h o, s.Has w d h o → h.manager.id ≠ manager.id) :
    Inv (surfaces.foldl (State.bindToplevel manager) s) ∧
      Grows s (surfaces.foldl (State.bindToplevel manager) s) ∧
      ∀ w ∈ surfaces, ∀ d, s.toplevels.get w = some d → ∃ d' h o,
        (surfaces.foldl (State.bindToplevel manager) s).Has w d' h o ∧ h.manager = manager := by
  induction surfaces generalizing s with
  | nil => exact ⟨hs, .refl s, fun w hw => nomatch hw⟩
  | cons surface surfaces ih =>
    obtain ⟨hnot, hnodup⟩ := nodup_cons.mp hnodup
    have hinv := hs.bindToplevel hlt (hnone surface (mem_cons_self ..))
    have hgrows := hs.grows_bindToplevel manager surface
    have hnone' : ∀ w ∈ surfaces, ∀ d h o, (s.bindToplevel manager surface).Has w d h o →
        h.manager.id ≠ manager.id := by
      intro w hw d h o hhas
      rcases State.new_bindToplevel hhas with ⟨rfl, -⟩ | ⟨d', hold⟩
      · exact absurd hw hnot
      · exact hnone w (mem_cons_of_mem surface hw) d' h o hold
    obtain ⟨hinv', hgrows', hall⟩ := ih hinv hnodup (Nat.lt_of_lt_of_le hlt hgrows.next) hnone'
    refine ⟨hinv', hgrows.trans hgrows', fun w hw d hd => ?_⟩
    rcases mem_cons.mp hw with rfl | hw
    · obtain ⟨d', h, o, hhas, hm⟩ := State.has_new_bindToplevel hd manager
      obtain ⟨d'', hkept⟩ := hgrows'.kept hhas
      exact ⟨d'', h, o, hkept, hm⟩
    · obtain ⟨d', hd', -⟩ := isSome_of_core (hgrows.core w).symm hd
      exact hall w hw d' hd'

theorem Good.bind (hs : Good s) (client : ℕ) :
    Good (s.bind ord client) ∧ ∀ w, ((s.bind ord client).toplevels.get w).map ToplevelData.core =
      (s.toplevels.get w).map ToplevelData.core := by
  have hnone : ∀ w ∈ (ord.iter s.toplevels).map Sigma.fst, ∀ d h o,
      State.Has { s with next := s.next + 1 } w d h o → h.manager.id ≠ s.next :=
    fun w _ d h o hhas => Nat.ne_of_lt (hs.lt hhas).2
  obtain ⟨hinv, hgrows, hall⟩ := hs.bump.toInv.bindSurfaces ⟨s.next, client⟩
    ((ord.iter s.toplevels).map Sigma.fst) (nodup_keys_iter ord s.toplevels)
    (Nat.lt_succ_self _) hnone
  have hgood := hs.bump.of_grows_all hgrows hinv
  have hinstances := hgrows.instances
  unfold State.bind
  refine ⟨?_, hgrows.core⟩
  dsimp only
  constructor
  case toInv => exact ⟨hgood.lt, hgood.object_inj, hgood.one, hgood.alive, hgood.outputs_nodup,
    hgood.activated, hgood.view⟩
  case managers_nodup =>
    rw [map_append, map_singleton, nodup_append']
    refine ⟨hgood.managers_nodup, nodup_singleton _, ?_⟩
    intro id hid hnew
    obtain ⟨m, hm, rfl⟩ := List.mem_map.mp hid
    rw [hinstances] at hm
    exact absurd (mem_singleton.mp hnew) (Nat.ne_of_lt (hs.manager_lt m hm))
  case manager_lt =>
    intro m hm
    rcases mem_append.mp hm with hm | hm
    · exact hgood.manager_lt m hm
    · obtain rfl := mem_singleton.mp hm
      exact Nat.lt_of_lt_of_le (Nat.lt_succ_self _) hgrows.next
  case live =>
    intro m hm w d hd
    rcases mem_append.mp hm with hm | hm
    · exact hgood.live m hm w d hd
    · obtain rfl := mem_singleton.mp hm
      obtain ⟨d₀, hd₀, -⟩ := isSome_of_core (hgrows.core w) hd
      have hw : w ∈ (ord.iter s.toplevels).map Sigma.fst :=
        List.mem_map.mpr ⟨⟨w, d₀⟩, (mem_iter ord).mpr hd₀, rfl⟩
      obtain ⟨d', h, o, hhas, hmanager⟩ := hall w hw d₀ hd₀
      obtain rfl := some.inj (hhas.1.symm.trans hd)
      exact ⟨h, o, hhas.2, hmanager⟩
  case entered => exact hgood.entered
  case output_lt => exact hgood.output_lt

theorem Tracks.of_core (htracks : Tracks s snapshot) (hcore : ∀ w,
    (t.toplevels.get w).map ToplevelData.core = (s.toplevels.get w).map ToplevelData.core) :
    Tracks t snapshot where
  windows := fun window hw => (hcore _).trans (htracks.windows window hw)
  only := by
    intro w d hd
    obtain ⟨d', hd', -⟩ := isSome_of_core (hcore w) hd
    exact htracks.only w d' hd'

theorem Good.stop (hs : Good s) (m : Manager) : Good (s.stop m) where
  lt := hs.lt
  object_inj := hs.object_inj
  one := hs.one
  alive := hs.alive
  outputs_nodup := hs.outputs_nodup
  activated := hs.activated
  view := by
    intro m'
    obtain ⟨v, hthrough, hmirror⟩ := hs.view m'
    refine ⟨v, ?_, hmirror⟩
    have hsent : stream m' (s.stop m).sent = stream m' s.sent ++ stream m' [(m.id, .finished)] :=
      stream_append
    rw [hsent]
    refine hthrough.append ?_
    by_cases hm : m.id = m'
    · have hfinished : stream m' [(m.id, Event.finished)] = [.finished] := by simp [stream, hm]
      rw [hfinished]
      exact ⟨v, rfl, hs.toInv.atMostOne hmirror, rfl⟩
    · have hfinished : stream m' [(m.id, Event.finished)] = [] := by simp [stream, hm]
      rw [hfinished]
      rfl
  managers_nodup := hs.managers_nodup.sublist (filter_sublist.map _)
  manager_lt := fun m' hm' => hs.manager_lt m' (mem_filter.mp hm').1
  live := fun m' hm' => hs.live m' (mem_filter.mp hm').1
  entered := hs.entered
  output_lt := hs.output_lt

/-- The data of a toplevel after a `wl_output` was bound. -/
def ToplevelData.bound (wl : WlOutput) (data : ToplevelData) : ToplevelData :=
  if data.output = some wl.output then
    { data with instances := data.instances.mapEntries fun handle outputs =>
        if handle.manager.client = wl.client then outputs ++ [wl.id] else outputs }
  else data

theorem get_outputBoundToplevel {wl : WlOutput} {w : ℕ} :
    (s.outputBoundToplevel ord wl surface).toplevels.get w =
      if w = surface then (s.toplevels.get w).map (·.bound wl) else s.toplevels.get w := by
  unfold State.outputBoundToplevel
  split
  case h_2 hnone =>
    by_cases hw : w = surface
    · rw [if_pos hw, hw, hnone]
      rfl
    · rw [if_neg hw]
  case h_1 data hdata =>
    split
    case isTrue houtput =>
      refine get_insert.trans ?_
      by_cases hw : w = surface
      · rw [if_pos hw, if_pos hw, hw, hdata, map_some, ToplevelData.bound, if_pos houtput]
      · rw [if_neg hw, if_neg hw]
    case isFalse houtput =>
      by_cases hw : w = surface
      · rw [if_pos hw, hw, hdata, map_some, ToplevelData.bound, if_neg houtput]
      · rw [if_neg hw]

theorem outputBoundToplevel_frame (ord : IterOrder) (wl : WlOutput) (s : State) (surface : ℕ) :
    (s.outputBoundToplevel ord wl surface).instances = s.instances ∧
      (s.outputBoundToplevel ord wl surface).wlOutputs = s.wlOutputs ∧
      (s.outputBoundToplevel ord wl surface).next = s.next := by
  unfold State.outputBoundToplevel
  split
  · split
    · exact ⟨rfl, rfl, rfl⟩
    · exact ⟨rfl, rfl, rfl⟩
  · exact ⟨rfl, rfl, rfl⟩

/-- The handles of one toplevel after the other enter the `wl_output`. -/
theorem Inv.outputBoundAll (wl : WlOutput) (surfaces : List ℕ) (hs : Inv s) (hnodup : surfaces.Nodup)
    (halive : s.isAlive wl.id = true)
    (hnew : ∀ w ∈ surfaces, ∀ d h o, s.Has w d h o → wl.id ∉ o)
    (ht : surfaces.foldl (State.outputBoundToplevel ord wl) s = t) :
    Inv t ∧ t.instances = s.instances ∧ t.wlOutputs = s.wlOutputs ∧ t.next = s.next ∧
      ∀ w, t.toplevels.get w =
        if w ∈ surfaces then (s.toplevels.get w).map (·.bound wl) else s.toplevels.get w := by
  induction surfaces generalizing s with
  | nil =>
    obtain rfl := ht
    exact ⟨hs, rfl, rfl, rfl, fun w => rfl⟩
  | cons surface surfaces ih =>
    obtain ⟨hnot, hnodup⟩ := nodup_cons.mp hnodup
    have hinv : Inv (s.outputBoundToplevel ord wl surface) :=
      hs.outputBoundToplevel halive (hnew surface (mem_cons_self ..))
    obtain ⟨hinstances, hwl, hnext⟩ := outputBoundToplevel_frame ord wl s surface
    have halive' : (s.outputBoundToplevel ord wl surface).isAlive wl.id = true := by
      unfold State.isAlive
      rw [hwl]
      exact halive
    have hnew' : ∀ w ∈ surfaces, ∀ d h o, (s.outputBoundToplevel ord wl surface).Has w d h o →
        wl.id ∉ o := by
      rintro w hw d h o ⟨hd, ho⟩
      rw [get_outputBoundToplevel, if_neg (ne_of_mem_of_not_mem hw hnot)] at hd
      exact hnew w (mem_cons_of_mem surface hw) d h o ⟨hd, ho⟩
    obtain ⟨hinv', hinstances', hwl', hnext', hget⟩ := ih hinv hnodup halive' hnew' ht
    refine ⟨hinv', hinstances'.trans hinstances, hwl'.trans hwl, hnext'.trans hnext, fun w => ?_⟩
    rw [hget, get_outputBoundToplevel]
    by_cases hw : w = surface
    · subst hw
      rw [if_neg hnot, if_pos rfl, if_pos (mem_cons_self ..)]
    · rw [if_neg hw]
      simp only [mem_cons, hw, false_or]

theorem entered_bound (s : State) (wl : WlOutput) (output : Option ℕ) (handle : Handle) :
    clientOutputs (s.wlOutputs ++ [wl]) output handle.manager.client =
      s.entered output handle ++
        if output = some wl.output ∧ handle.manager.client = wl.client then [wl.id] else [] := by
  unfold State.entered clientOutputs
  rw [filter_append, map_append]
  congr 1
  by_cases h : output = some wl.output ∧ handle.manager.client = wl.client
  · rw [if_pos h]
    simp [h.1, h.2]
  · rw [if_neg h, filter_cons_of_neg]
    · rfl
    · rintro hmem
      rw [decide_eq_true_iff] at hmem
      exact h ⟨hmem.1.symm, hmem.2.symm⟩

theorem bound_core (wl : WlOutput) (d : ToplevelData) : (d.bound wl).core = d.core := by
  unfold ToplevelData.bound
  split <;> rfl

theorem bound_instances {wl : WlOutput} {d : ToplevelData} {h : Handle} :
    (d.bound wl).instances.get h = (d.instances.get h).map fun o => o ++
      if d.output = some wl.output ∧ h.manager.client = wl.client then [wl.id] else [] := by
  unfold ToplevelData.bound
  split
  · rename_i houtput
    rw [get_mapEntries]
    congr 1
    funext o
    by_cases hclient : h.manager.client = wl.client
    · simp [houtput, hclient]
    · simp [hclient]
  · rename_i houtput
    simp [houtput]

/-- The new `wl_output`, which no handle has entered yet. -/
theorem Good.inv_bound (hs : Good s) (wl : WlOutput) (hid : wl.id = s.next) :
    Inv { s with wlOutputs := s.wlOutputs ++ [wl], next := s.next + 1 } where
  lt := fun h => ⟨Nat.lt_succ_of_lt (hs.lt h).1, Nat.lt_succ_of_lt (hs.lt h).2⟩
  object_inj := hs.object_inj
  one := hs.one
  alive := by
    intro w d h o hhas x hx
    have := hs.alive hhas x hx
    unfold State.isAlive at this ⊢
    rw [any_append, this, Bool.true_or]
  outputs_nodup := by
    rw [map_append, map_singleton, nodup_append']
    refine ⟨hs.outputs_nodup, nodup_singleton _, ?_⟩
    intro id hmem hnew
    obtain ⟨wl', hwl', rfl⟩ := List.mem_map.mp hmem
    exact absurd (mem_singleton.mp hnew) (Nat.ne_of_lt (hid ▸ hs.output_lt wl' hwl'))
  activated := hs.activated
  view := hs.view

/-- Every handle has entered only `wl_output`s that exist. -/
theorem Good.lt_of_mem (hs : Good s) {w : ℕ} {d : ToplevelData} {h : Handle} {o : List ℕ}
    (hhas : s.Has w d h o) {x : ℕ} (hx : x ∈ o) : x < s.next := by
  rw [hs.entered hhas] at hx
  obtain ⟨wl, hwl, rfl⟩ := List.mem_map.mp hx
  exact hs.output_lt wl (mem_filter.mp hwl).1

theorem Good.bindOutput (hs : Good s) (client output : ℕ) :
    Good (s.bindOutput ord client output) ∧ ∀ w,
      ((s.bindOutput ord client output).toplevels.get w).map ToplevelData.core =
        (s.toplevels.get w).map ToplevelData.core := by
  have hnew : ∀ w ∈ (ord.iter s.toplevels).map Sigma.fst, ∀ d h o, s.Has w d h o → s.next ∉ o :=
    fun w _ d h o hhas hmem => Nat.lt_irrefl _ (hs.lt_of_mem hhas hmem)
  have hbound := hs.inv_bound ⟨s.next, client, output⟩ rfl
  obtain ⟨hinv, hinstances, hwl, hnext, hget⟩ := hbound.outputBoundAll ⟨s.next, client, output⟩
    ((ord.iter s.toplevels).map Sigma.fst) (nodup_keys_iter ord s.toplevels)
    (by simp [State.isAlive]) hnew (rfl : _ = s.bindOutput ord client output)
  have hget' : ∀ w, (s.bindOutput ord client output).toplevels.get w =
      (s.toplevels.get w).map (·.bound ⟨s.next, client, output⟩) := by
    intro w
    rw [hget]
    split
    · rfl
    · rename_i hw
      cases hd : s.toplevels.get w with
      | none => rfl
      | some d =>
        exact absurd (List.mem_map.mpr ⟨⟨w, d⟩, (mem_iter ord).mpr hd, rfl⟩) hw
  refine ⟨⟨hinv, ?_, ?_, ?_, ?_, ?_⟩, fun w => ?_⟩
  · rw [hinstances]
    exact hs.managers_nodup
  · rw [hinstances, hnext]
    exact fun m hm => Nat.lt_succ_of_lt (hs.manager_lt m hm)
  · rw [hinstances]
    intro m hm w d hd
    rw [hget'] at hd
    obtain ⟨d₀, hd₀, rfl⟩ := of_map hd
    obtain ⟨h, o, ho, hmanager⟩ := hs.live m hm w d₀ hd₀
    exact ⟨h, _, by rw [bound_instances, ho]; rfl, hmanager⟩
  · rintro w d h o ⟨hd, ho⟩
    rw [hget'] at hd
    obtain ⟨d₀, hd₀, rfl⟩ := of_map hd
    rw [bound_instances] at ho
    obtain ⟨o₀, ho₀, rfl⟩ := of_map ho
    rw [State.entered, hwl, output_of_core (bound_core _ d₀), entered_bound, ← hs.entered ⟨hd₀, ho₀⟩]
  · rw [hwl, hnext]
    intro wl hmem
    rcases mem_append.mp hmem with hmem | hmem
    · exact Nat.lt_succ_of_lt (hs.output_lt wl hmem)
    · obtain rfl := mem_singleton.mp hmem
      exact Nat.lt_succ_self _
  · rw [hget', Option.map_map]
    congr 1
    funext d
    exact bound_core _ d

end Macniri.ForeignToplevel
