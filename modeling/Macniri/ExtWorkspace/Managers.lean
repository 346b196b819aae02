import Macniri.ExtWorkspace.Refresh

/-! Managers that come and go. -/
namespace Macniri.ExtWorkspace

open Option List HashMap

/-- What matters of a workspace to one manager. -/
def WorkspaceData.restrict (m : ℕ) (d : WorkspaceData) : WorkspaceData :=
  { d with instances := d.instances.filter (·.manager = m) }

def GroupData.restrict (m : ℕ) (d : GroupData) : GroupData := ⟨d.instances.filter (·.manager = m)⟩

variable {s s' : State} {m k : ℕ} {v : View}

theorem objectOf_congr {l l' : List Handle}
    (h : l'.filter (·.manager = m) = l.filter (·.manager = m)) : objectOf m l' = objectOf m l := by
  rw [objectOf, objectOf, h]

theorem groupOf_restrict {groups groups' : HashMap ℕ GroupData} {output : Option ℕ}
    (h : ∀ o, (groups'.get o).map (·.restrict m) = (groups.get o).map (·.restrict m)) :
    groupOf groups' m output = groupOf groups m output := by
  unfold groupOf
  cases output with
  | none => rfl
  | some o =>
    have ho := h o
    rw [bind_some, bind_some]
    cases hd : groups.get o with
    | none =>
      rw [hd, map_none, map_eq_none_iff] at ho
      rw [ho]
    | some d =>
      rw [hd, map_some] at ho
      obtain ⟨d', hd', heq⟩ := of_map ho
      rw [hd', bind_some, bind_some]
      exact objectOf_congr (congrArg GroupData.instances heq)

/-- A manager only sees its own objects. -/
theorem Mirrors.congr (hm : Mirrors s m v)
    (hW : ∀ k, (s'.workspaces.get k).map (·.restrict m) = (s.workspaces.get k).map (·.restrict m))
    (hG : ∀ o, (s'.workspaceGroups.get o).map (·.restrict m) =
      (s.workspaceGroups.get o).map (·.restrict m))
    (hnext : s.next ≤ s'.next) : Mirrors s' m v := by
  have hworkspace : ∀ k d', s'.workspaces.get k = some d' →
      ∃ d, s.workspaces.get k = some d ∧ d'.restrict m = d.restrict m := by
    intro k d' hd'
    have hk := hW k
    rw [hd', map_some] at hk
    obtain ⟨d, hd, heq⟩ := of_map hk.symm
    exact ⟨d, hd, heq.symm⟩
  have hgroup : ∀ o d', s'.workspaceGroups.get o = some d' →
      ∃ d, s.workspaceGroups.get o = some d ∧ d'.restrict m = d.restrict m := by
    intro o d' hd'
    have ho := hG o
    rw [hd', map_some] at ho
    obtain ⟨d, hd, heq⟩ := of_map ho.symm
    exact ⟨d, hd, heq.symm⟩
  have hworkspace' : ∀ k d, s.workspaces.get k = some d →
      ∃ d', s'.workspaces.get k = some d' ∧ d'.restrict m = d.restrict m := by
    intro k d hd
    have hk := hW k
    rw [hd, map_some] at hk
    exact of_map hk
  have hgroup' : ∀ o d, s.workspaceGroups.get o = some d →
      ∃ d', s'.workspaceGroups.get o = some d' ∧ d'.restrict m = d.restrict m := by
    intro o d hd
    have ho := hG o
    rw [hd, map_some] at ho
    exact of_map ho
  have hobj : ∀ d d' : WorkspaceData, d'.restrict m = d.restrict m →
      objectOf m d'.instances = objectOf m d.instances := fun d d' h =>
    objectOf_congr (congrArg WorkspaceData.instances h)
  have hobj' : ∀ d d' : GroupData, d'.restrict m = d.restrict m →
      objectOf m d'.instances = objectOf m d.instances := fun d d' h =>
    objectOf_congr (congrArg GroupData.instances h)
  have hshown : ∀ (d d' : WorkspaceData) g, d'.restrict m = d.restrict m → d'.shown g = d.shown g := by
    intro d d' g h
    have hid := congrArg WorkspaceData.id h
    have hname := congrArg WorkspaceData.name h
    have hcoordinates := congrArg WorkspaceData.coordinates h
    have hstate := congrArg WorkspaceData.state h
    simp only [WorkspaceData.restrict] at hid hname hcoordinates hstate
    simp only [WorkspaceData.shown, hid, hname, hcoordinates, hstate]
  constructor
  · intro k d' hd'
    obtain ⟨d, hd, heq⟩ := hworkspace k d' hd'
    obtain ⟨h, hone⟩ := hm.one k d hd
    exact ⟨h, (congrArg WorkspaceData.instances heq).trans hone⟩
  · intro o d' hd'
    obtain ⟨d, hd, heq⟩ := hgroup o d' hd'
    obtain ⟨h, hone⟩ := hm.oneGroup o d hd
    exact ⟨h, (congrArg GroupData.instances heq).trans hone⟩
  · intro k d' h hd' hh
    obtain ⟨d, hd, heq⟩ := hworkspace k d' hd'
    have hout : (d'.restrict m).output = (d.restrict m).output := congrArg WorkspaceData.output heq
    change d'.output = d.output at hout
    rw [groupOf_restrict hG, hout, hshown d d' _ heq]
    exact hm.shows k d h hd ((hobj d d' heq).symm.trans hh)
  · intro h hlive
    obtain ⟨k, d, hd, hh⟩ := hm.live h hlive
    obtain ⟨d', hd', heq⟩ := hworkspace' k d hd
    exact ⟨k, d', hd', (hobj d d' heq).trans hh⟩
  · intro k₁ k₂ d₁ d₂ h hd₁ hd₂ hh₁ hh₂
    obtain ⟨e₁, he₁, heq₁⟩ := hworkspace k₁ d₁ hd₁
    obtain ⟨e₂, he₂, heq₂⟩ := hworkspace k₂ d₂ hd₂
    exact hm.distinct k₁ k₂ e₁ e₂ h he₁ he₂ ((hobj e₁ d₁ heq₁).symm.trans hh₁)
      ((hobj e₂ d₂ heq₂).symm.trans hh₂)
  · intro g
    rw [hm.groups g]
    constructor
    · rintro ⟨o, d, hd, hg⟩
      obtain ⟨d', hd', heq⟩ := hgroup' o d hd
      exact ⟨o, d', hd', (hobj' d d' heq).trans hg⟩
    · rintro ⟨o, d', hd', hg⟩
      obtain ⟨d, hd, heq⟩ := hgroup o d' hd'
      exact ⟨o, d, hd, (hobj' d d' heq).symm.trans hg⟩
  · intro o₁ o₂ d₁ d₂ g hd₁ hd₂ hg₁ hg₂
    obtain ⟨e₁, he₁, heq₁⟩ := hgroup o₁ d₁ hd₁
    obtain ⟨e₂, he₂, heq₂⟩ := hgroup o₂ d₂ hd₂
    exact hm.distinctGroups o₁ o₂ e₁ e₂ g he₁ he₂ ((hobj' e₁ d₁ heq₁).symm.trans hg₁)
      ((hobj' e₂ d₂ heq₂).symm.trans hg₂)
  · exact fun h hlive => Nat.lt_of_lt_of_le (hm.fresh h hlive) hnext
  · exact fun g hg => Nat.lt_of_lt_of_le (hm.freshGroups g hg) hnext

/-- Every manager that is bound has a view that mirrors the workspaces and groups. -/
structure State.Inv (s : State) : Prop where
  nodup : s.instances.Nodup
  known : s.Known
  mirror : ∀ m ∈ s.instances, ∃ v, viewOf m s.sent = some v ∧ Mirrors s m v
  bound : ∀ m ∈ s.instances, m ∈ s.sent.map Prod.fst

theorem State.Inv.sends (h : s.Inv) (hs : Sends s s') : s'.Inv := by
  obtain ⟨events, hsent, -, hrun⟩ := hs.sent
  refine ⟨hs.instances ▸ h.nodup, hs.known h.known, fun m hm => ?_, fun m hm => ?_⟩
  · rw [hs.instances] at hm
    obtain ⟨v, hv, hmirrors⟩ := h.mirror m hm
    obtain ⟨v', hv', hmirrors'⟩ := hrun h.nodup m hm v hmirrors
    refine ⟨v', ?_, hmirrors'⟩
    rw [hsent, viewOf_append, hv]
    exact hv'
  · rw [hs.instances] at hm
    rw [hsent, map_append]
    exact mem_append_left _ (h.bound m hm)

/-! Stop. -/

theorem restrict_filter_ne {m' : ℕ} (h : m' ≠ m) (l : List Handle) :
    (l.filter (·.manager ≠ m)).filter (·.manager = m') = l.filter (·.manager = m') := by
  rw [List.filter_filter]
  refine filter_congr fun x _ => ?_
  by_cases hx : x.manager = m'
  · simp [hx, h]
  · simp [hx]

theorem State.Inv.forget (h : s.Inv) (m : ℕ) : (s.forget m).Inv := by
  have hmem : ∀ m' ∈ (s.forget m).instances, m' ∈ s.instances ∧ m' ≠ m := by
    intro m' hm'
    simpa [State.forget] using hm'
  refine ⟨h.nodup.filter _, ⟨fun k d hd x hx => ?_, fun o d hd x hx => ?_⟩, fun m' hm' => ?_,
    fun m' hm' => h.bound m' (hmem m' hm').1⟩
  · change (s.workspaces.mapValues _).get k = some d at hd
    rw [get_mapValues] at hd
    obtain ⟨d', hd', rfl⟩ := of_map hd
    obtain ⟨hx, hne⟩ := mem_filter.mp hx
    exact mem_filter.mpr ⟨h.known.workspaces k d' hd' x hx, hne⟩
  · change (s.workspaceGroups.mapValues _).get o = some d at hd
    rw [get_mapValues] at hd
    obtain ⟨d', hd', rfl⟩ := of_map hd
    obtain ⟨hx, hne⟩ := mem_filter.mp hx
    exact mem_filter.mpr ⟨h.known.groups o d' hd' x hx, hne⟩
  · obtain ⟨hm, hne⟩ := hmem m' hm'
    obtain ⟨v, hv, hmirrors⟩ := h.mirror m' hm
    refine ⟨v, hv, hmirrors.congr (fun k => ?_) (fun o => ?_) (Nat.le_refl _)⟩
    · change ((s.workspaces.mapValues _).get k).map _ = _
      rw [get_mapValues, Option.map_map]
      congr 1
      funext d
      simp only [Function.comp_apply, WorkspaceData.restrict, restrict_filter_ne hne]
    · change ((s.workspaceGroups.mapValues _).get o).map _ = _
      rw [get_mapValues, Option.map_map]
      congr 1
      funext d
      simp only [Function.comp_apply, GroupData.restrict, restrict_filter_ne hne]

theorem State.Inv.stop (h : s.Inv) (m : ℕ) : (s.stop m).Inv := by
  have hforget := h.forget m
  refine ⟨hforget.nodup, ⟨hforget.known.workspaces, hforget.known.groups⟩, fun m' hm' => ?_,
    fun m' hm' => ?_⟩
  · have hne : m' ≠ m := by
      have hm'' : m' ∈ s.instances.filter (· ≠ m) := hm'
      simpa using (mem_filter.mp hm'').2
    obtain ⟨v, hv, hmirrors⟩ := hforget.mirror m' hm'
    refine ⟨v, ?_, hmirrors.congr (fun _ => rfl) (fun _ => rfl) (Nat.le_refl _)⟩
    change viewOf m' (s.sent ++ [(m, .finished)]) = some v
    rw [viewOf_append]
    change viewOf m' s.sent = some v at hv
    rw [hv]
    simp [stream, Ne.symm hne]
  · change m' ∈ (s.sent ++ [(m, Event.finished)]).map Prod.fst
    rw [map_append]
    exact mem_append_left _ (hforget.bound m' hm')

/-! Bind. -/

/-- A manager has no objects. -/
def Absent (m : ℕ) (s : State) : Prop :=
  (∀ k d, s.workspaces.get k = some d → d.instances.filter (·.manager = m) = []) ∧
    ∀ o d, s.workspaceGroups.get o = some d → d.instances.filter (·.manager = m) = []

theorem State.Known.absent (h : s.Known) (hm : m ∉ s.instances) : Absent m s := by
  constructor
  · intro k d hd
    rw [filter_eq_nil_iff]
    intro x hx hxm
    have hxm : x.manager = m := by simpa using hxm
    exact hm (hxm ▸ h.workspaces k d hd x hx)
  · intro o d hd
    rw [filter_eq_nil_iff]
    intro x hx hxm
    have hxm : x.manager = m := by simpa using hxm
    exact hm (hxm ▸ h.groups o d hd x hx)

/-- The workspaces of the list were sent to the new manager. -/
structure Binding (m : ℕ) (s s' : State) (done : List ℕ) (v : View) : Prop where
  instances : s'.instances = s.instances
  groups : s'.workspaceGroups = s.workspaceGroups
  next : s.next ≤ s'.next
  sent : ∃ events, s'.sent = s.sent ++ events.map (m, ·) ∧ Event.done ∉ events ∧
    run View.apply .empty events = some v
  todo : ∀ k, k ∉ done → s'.workspaces.get k = s.workspaces.get k
  others : ∀ m' ≠ m, ∀ k, (s'.workspaces.get k).map (·.restrict m') =
    (s.workspaces.get k).map (·.restrict m')
  managers : ∀ k d', s'.workspaces.get k = some d' → ∃ d, s.workspaces.get k = some d ∧
    ∀ x ∈ d'.instances, x ∈ d.instances ∨ x.manager = m
  mirrors : ∃ sub : HashMap ℕ WorkspaceData,
    (∀ k, sub.get k = if k ∈ done then s'.workspaces.get k else none) ∧
    Mirrors { s' with workspaces := sub, workspaceGroups := ∅ } m v

theorem mirrors_empty (s : State) (m : ℕ) :
    Mirrors { s with workspaces := ∅, workspaceGroups := ∅ } m .empty := by
  constructor <;> simp [View.empty]

theorem groupOf_empty {output : Option ℕ} : groupOf ∅ m output = none := by
  cases output <;> rfl

theorem filter_append_new {l : List Handle} {h : ℕ} (hl : l.filter (·.manager = m) = []) :
    (l ++ [Handle.mk m h]).filter (·.manager = m) = [⟨m, h⟩] := by
  rw [filter_append, hl]
  simp

theorem filter_append_other {l : List Handle} {h m' : ℕ} (hm : m' ≠ m) :
    (l ++ [Handle.mk m h]).filter (·.manager = m') = l.filter (·.manager = m') := by
  rw [filter_append]
  simp [Ne.symm hm]

theorem Binding.bindWorkspace {done : List ℕ} (h : Binding m s s' done v) (hk : k ∉ done)
    (habsent : Absent m s) : ∃ v', Binding m s (s'.bindWorkspace m k) (done ++ [k]) v' := by
  obtain ⟨sub, hsub, hmirrors⟩ := h.mirrors
  have hsubk : sub.get k = none := by rw [hsub, if_neg hk]
  unfold State.bindWorkspace
  cases hd : s'.workspaces.get k with
  | none =>
    refine ⟨v, h.instances, h.groups, h.next, h.sent, fun k' hk' => h.todo k' (by simp_all), h.others,
      h.managers, sub, fun k' => ?_, hmirrors⟩
    rw [hsub]
    by_cases heq : k' = k
    · simp [heq, hk, hd]
    · simp [heq]
  | some data =>
    obtain ⟨events, hsent, hdone, hrun⟩ := h.sent
    have hdata : s.workspaces.get k = some data := (h.todo k hk).symm.trans hd
    have hnone := habsent.1 k data hdata
    have hfresh : v.workspaces s'.next = none := by
      by_contra hsome
      exact Nat.lt_irrefl _ (hmirrors.fresh s'.next (isSome_iff_ne_none.mpr hsome))
    refine ⟨v.set s'.next (some (data.shown none)), h.instances, h.groups, Nat.le_succ_of_le h.next,
      ⟨events ++ data.announce s'.next, ?_, ?_, ?_⟩, fun k' hk' => ?_, fun m' hm' k' => ?_,
      fun k' d' hd' => ?_, sub.insert k { data with instances := data.instances ++ [⟨m, s'.next⟩] },
      fun k' => ?_, ?_⟩
    · simp [State.send, hsent, sendEach]
    · simp [hdone, announce_ne_done]
    · rw [run_append, hrun]
      exact run_announce hfresh
    · simp only [mem_append, mem_singleton, not_or] at hk'
      change (s'.workspaces.insert k _).get k' = _
      rw [get_insert, if_neg hk'.2, h.todo k' hk'.1]
    · change ((s'.workspaces.insert k _).get k').map _ = _
      rw [get_insert, ← h.others m' hm' k']
      split_ifs with heq
      · rw [heq, hd, map_some, map_some]
        simp only [WorkspaceData.restrict, filter_append_other hm']
      · rfl
    · change (s'.workspaces.insert k _).get k' = some d' at hd'
      rw [get_insert] at hd'
      split_ifs at hd' with heq
      · obtain rfl := some.inj hd'
        refine ⟨data, heq ▸ hdata, fun x hx => ?_⟩
        rcases mem_append.mp hx with hx | hx
        · exact .inl hx
        · rw [mem_singleton.mp hx]
          exact .inr rfl
      · exact h.managers k' d' hd'
    · change _ = if k' ∈ done ++ [k] then (s'.workspaces.insert k _).get k' else none
      rw [get_insert, get_insert, hsub]
      by_cases heq : k' = k
      · simp [heq]
      · simp [heq]
    · refine hmirrors.insert s'.next rfl rfl (Nat.le_succ _) (filter_append_new hnone)
        (Nat.lt_succ_self _) (fun k' d _ hd' hobj => ?_) rfl ?_ (fun d x hd' => ?_) fun x hx _ => ?_
      · have := hmirrors.fresh s'.next (by rw [hmirrors.shows k' d _ hd' hobj]; rfl)
        exact Nat.lt_irrefl _ this
      · rw [View.set_workspaces_self]
        rw [groupOf_empty]
        rfl
      · change sub.get k = some d at hd'
        rw [hsubk] at hd'
        cases hd'
      · rw [View.set_workspaces, if_neg hx]

theorem binding_workspaces (ks : List ℕ) {done : List ℕ} (h : Binding m s s' done v) (hn : (done ++ ks).Nodup)
    (habsent : Absent m s) :
    ∃ v', Binding m s (ks.foldl (State.bindWorkspace m) s') (done ++ ks) v' := by
  induction ks generalizing s' done v with
  | nil =>
    rw [append_nil]
    exact ⟨v, h⟩
  | cons k ks ih =>
    have hk : k ∉ done := fun hk => (nodup_append.mp hn).2.2 k hk k (mem_cons_self ..) rfl
    obtain ⟨v', hv'⟩ := h.bindWorkspace hk habsent
    rw [append_cons] at hn ⊢
    exact ih hv' hn

/-- The groups of the list were sent to the new manager. -/
structure BindingGroups (m : ℕ) (s s' : State) (done : List ℕ) (v v' : View) : Prop where
  instances : s'.instances = s.instances
  workspaces : s'.workspaces = s.workspaces
  next : s.next ≤ s'.next
  sent : ∃ events, s'.sent = s.sent ++ events.map (m, ·) ∧ Event.done ∉ events ∧
    run View.apply v events = some v'
  todo : ∀ o, o ∉ done → s'.workspaceGroups.get o = s.workspaceGroups.get o
  others : ∀ m' ≠ m, ∀ o, (s'.workspaceGroups.get o).map (·.restrict m') =
    (s.workspaceGroups.get o).map (·.restrict m')
  managers : ∀ o d', s'.workspaceGroups.get o = some d' → ∃ d, s.workspaceGroups.get o = some d ∧
    ∀ x ∈ d'.instances, x ∈ d.instances ∨ x.manager = m
  mirrors : ∃ sub : HashMap ℕ GroupData,
    (∀ o, sub.get o = if o ∈ done then s'.workspaceGroups.get o else none) ∧
    Mirrors { s' with workspaceGroups := sub } m v'

theorem BindingGroups.bindGroup {ord : IterOrder} {o : ℕ} {done : List ℕ} {v' : View}
    (h : BindingGroups m s s' done v v') (ho : o ∉ done)
    (habsent : ∀ o d, s.workspaceGroups.get o = some d → d.instances.filter (·.manager = m) = []) :
    ∃ v'', BindingGroups m s (s'.bindGroup ord m o) (done ++ [o]) v v'' := by
  obtain ⟨sub, hsub, hmirrors⟩ := h.mirrors
  have hsubo : sub.get o = none := by rw [hsub, if_neg ho]
  unfold State.bindGroup
  cases hd : s'.workspaceGroups.get o with
  | none =>
    refine ⟨v', h.instances, h.workspaces, h.next, h.sent, fun o' ho' => h.todo o' (by simp_all),
      h.others, h.managers, sub, fun o' => ?_, hmirrors⟩
    rw [hsub]
    by_cases heq : o' = o
    · simp [heq, ho, hd]
    · simp [heq]
  | some data =>
    obtain ⟨events, hsent, hdone, hrun⟩ := h.sent
    have hdata : s.workspaceGroups.get o = some data := (h.todo o ho).symm.trans hd
    have hnone := habsent o data hdata
    have hfresh : v'.groups s'.next = false := by
      by_contra hg
      exact Nat.lt_irrefl _ (hmirrors.freshGroups s'.next (by simpa using hg))
    obtain ⟨v'', hregroup, hgroups, hworkspaces⟩ := run_regroup (.workspaceEnter s'.next)
      (a := none) (b := some s'.next)
      (v := { v' with groups := Function.update v'.groups s'.next true })
      (hmirrors.nodup_objectsOn ord o) (fun _ _ _ hg hx ha => run_enter hg hx ha) (by simp)
      fun x hx => by
        obtain ⟨k, d, hd', hout, hobj⟩ := mem_objectsOn.mp hx
        refine ⟨_, hmirrors.shows k d x hd' hobj, ?_⟩
        change groupOf sub m d.output = none
        rw [hout, groupOf, bind_some, hsubo, bind_none]
    have henter : State.enterEvents ord s' o ⟨m, s'.next⟩ =
        (objectsOn ord { s' with workspaceGroups := sub } m o).map (.workspaceEnter s'.next) :=
      hmirrors.flatMap_matching ord o s'.next _
    refine ⟨v'', h.instances, h.workspaces, Nat.le_succ_of_le h.next,
      ⟨events ++ (GroupData.announce s'.next ++ State.enterEvents ord s' o ⟨m, s'.next⟩), ?_, ?_, ?_⟩,
      fun o' ho' => ?_, fun m' hm' o' => ?_, fun o' d' hd' => ?_,
      sub.insert o ⟨data.instances ++ [⟨m, s'.next⟩]⟩, fun o' => ?_, ?_⟩
    · simp [State.send, hsent, sendEach, State.enterEvents]
    · rw [henter]
      simp [hdone, GroupData.announce]
    · rw [run_append, hrun, bind_some, run_append, run_announceGroup hfresh, bind_some,
        henter]
      exact hregroup
    · simp only [mem_append, mem_singleton, not_or] at ho'
      change (s'.workspaceGroups.insert o _).get o' = _
      rw [get_insert, if_neg ho'.2, h.todo o' ho'.1]
    · change ((s'.workspaceGroups.insert o _).get o').map _ = _
      rw [get_insert, ← h.others m' hm' o']
      split_ifs with heq
      · rw [heq, hd, map_some, map_some]
        simp only [GroupData.restrict, filter_append_other hm']
      · rfl
    · change (s'.workspaceGroups.insert o _).get o' = some d' at hd'
      rw [get_insert] at hd'
      split_ifs at hd' with heq
      · obtain rfl := some.inj hd'
        refine ⟨data, heq ▸ hdata, fun x hx => ?_⟩
        rcases mem_append.mp hx with hx | hx
        · exact .inl hx
        · rw [mem_singleton.mp hx]
          exact .inr rfl
      · exact h.managers o' d' hd'
    · change _ = if o' ∈ done ++ [o] then (s'.workspaceGroups.insert o _).get o' else none
      rw [get_insert, get_insert, hsub]
      by_cases heq : o' = o
      · simp [heq]
      · simp [heq]
    · exact hmirrors.insertGroup ord rfl rfl (Nat.le_succ _) hsubo (filter_append_new hnone)
        ⟨Nat.le_refl _, Nat.lt_succ_self _⟩ hgroups hworkspaces

theorem binding_groups (ord : IterOrder) (os : List ℕ) {done : List ℕ} {v' : View}
    (h : BindingGroups m s s' done v v') (hn : (done ++ os).Nodup)
    (habsent : ∀ o d, s.workspaceGroups.get o = some d → d.instances.filter (·.manager = m) = []) :
    ∃ v'', BindingGroups m s (os.foldl (State.bindGroup ord m) s') (done ++ os) v v'' := by
  induction os generalizing s' done v' with
  | nil =>
    rw [append_nil]
    exact ⟨v', h⟩
  | cons o os ih =>
    have ho : o ∉ done := fun ho => (nodup_append.mp hn).2.2 o ho o (mem_cons_self ..) rfl
    obtain ⟨v'', hv''⟩ := h.bindGroup ho habsent
    rw [append_cons] at hn ⊢
    exact ih hv'' hn

/-- A new manager is sent the workspaces and groups, and nothing changes for the others. -/
theorem bind_spec (ord : IterOrder) (habsent : Absent m s) :
    ∃ s' events v', s.bind ord m = { s'.send [(m, .done)] with instances := s.instances ++ [m] } ∧
      s'.sent = s.sent ++ events.map (m, ·) ∧ Event.done ∉ events ∧
      run View.apply .empty events = some v' ∧ Mirrors s' m v' ∧ s.next ≤ s'.next ∧
      (∀ m' ≠ m, ∀ k, (s'.workspaces.get k).map (·.restrict m') =
        (s.workspaces.get k).map (·.restrict m')) ∧
      (∀ m' ≠ m, ∀ o, (s'.workspaceGroups.get o).map (·.restrict m') =
        (s.workspaceGroups.get o).map (·.restrict m')) ∧
      (∀ k d', s'.workspaces.get k = some d' → ∃ d, s.workspaces.get k = some d ∧
        ∀ x ∈ d'.instances, x ∈ d.instances ∨ x.manager = m) ∧
      ∀ o d', s'.workspaceGroups.get o = some d' → ∃ d, s.workspaceGroups.get o = some d ∧
        ∀ x ∈ d'.instances, x ∈ d.instances ∨ x.manager = m := by
  have hstart : Binding m s s [] .empty :=
    ⟨rfl, rfl, Nat.le_refl _, ⟨[], by simp, by simp, rfl⟩, fun _ _ => rfl, fun _ _ _ => rfl,
      fun k d hd => ⟨d, hd, fun x hx => .inl hx⟩, ∅, by simp, mirrors_empty s m⟩
  obtain ⟨v₁, h₁⟩ := binding_workspaces ((ord.iter s.workspaces).map Sigma.fst) hstart
    (by simpa using nodup_keys_iter ord s.workspaces) habsent
  have hfold : ∃ s₁, ((ord.iter s.workspaces).map Sigma.fst).foldl (State.bindWorkspace m) s = s₁ :=
    ⟨_, rfl⟩
  obtain ⟨s₁, hs₁⟩ := hfold
  rw [hs₁, nil_append] at h₁
  obtain ⟨sub, hsub, hmirrors⟩ := h₁.mirrors
  -- Every workspace was sent.
  obtain rfl : sub = s₁.workspaces := by
    apply HashMap.ext_get
    intro k
    rw [hsub]
    split_ifs with hk
    · rfl
    · rw [h₁.todo k hk]
      cases hd : s.workspaces.get k with
      | none => rfl
      | some d => exact absurd (List.mem_map.mpr ⟨⟨k, d⟩, (mem_iter ord).mpr hd, rfl⟩) hk
  have hstart' : BindingGroups m s₁ s₁ [] v₁ v₁ :=
    ⟨rfl, rfl, Nat.le_refl _, ⟨[], by simp, by simp, rfl⟩, fun _ _ => rfl, fun _ _ _ => rfl,
      fun o d hd => ⟨d, hd, fun x hx => .inl hx⟩, ∅, by simp, hmirrors⟩
  obtain ⟨v₂, h₂⟩ := binding_groups ord ((ord.iter s₁.workspaceGroups).map Sigma.fst)
    hstart' (by simpa using nodup_keys_iter ord s₁.workspaceGroups)
    (by rw [h₁.groups]; exact habsent.2)
  have hfold' : ∃ s₂, ((ord.iter s₁.workspaceGroups).map Sigma.fst).foldl (State.bindGroup ord m) s₁ =
      s₂ := ⟨_, rfl⟩
  obtain ⟨s₂, hs₂⟩ := hfold'
  rw [hs₂, nil_append] at h₂
  obtain ⟨sub, hsub', hmirrors'⟩ := h₂.mirrors
  obtain rfl : sub = s₂.workspaceGroups := by
    apply HashMap.ext_get
    intro o
    rw [hsub']
    split_ifs with ho
    · rfl
    · rw [h₂.todo o ho]
      cases hd : s₁.workspaceGroups.get o with
      | none => rfl
      | some d => exact absurd (List.mem_map.mpr ⟨⟨o, d⟩, (mem_iter ord).mpr hd, rfl⟩) ho
  obtain ⟨events₁, hsent₁, hdone₁, hrun₁⟩ := h₁.sent
  obtain ⟨events₂, hsent₂, hdone₂, hrun₂⟩ := h₂.sent
  refine ⟨s₂, events₁ ++ events₂, v₂, ?_, ?_, ?_, ?_, hmirrors', h₁.next.trans h₂.next, ?_, ?_, ?_, ?_⟩
  · unfold State.bind
    simp only [hs₁, hs₂, h₂.instances, h₁.instances]
  · rw [hsent₂, hsent₁, map_append, append_assoc]
  · simp [hdone₁, hdone₂]
  · rw [run_append, hrun₁]
    exact hrun₂
  · rw [h₂.workspaces]
    exact h₁.others
  · rw [← h₁.groups]
    exact h₂.others
  · rw [h₂.workspaces]
    exact h₁.managers
  · rw [← h₁.groups]
    exact h₂.managers

theorem State.Inv.bind (h : s.Inv) (ord : IterOrder) (hm : m ∉ s.sent.map Prod.fst) :
    (s.bind ord m).Inv := by
  have hnot : m ∉ s.instances := fun hmem => hm (h.bound m hmem)
  obtain ⟨s', events, v', hs', hsent, -, hrun, hmirrors, hnext, hW, hG, hknown, hknownG⟩ :=
    bind_spec ord (h.known.absent hnot)
  have hempty : stream m s.sent = [] := by
    unfold stream
    rw [filterMap_eq_nil_iff]
    intro x hx
    rw [if_neg]
    rintro rfl
    exact hm (List.mem_map_of_mem hx)
  rw [hs']
  refine ⟨?_, ⟨fun k d hd x hx => ?_, fun o d hd x hx => ?_⟩, fun m' hm' => ?_, fun m' hm' => ?_⟩
  · rw [nodup_append]
    refine ⟨h.nodup, by simp, fun m' hm' m'' hm'' => ?_⟩
    rw [mem_singleton.mp hm'']
    rintro rfl
    exact hnot hm'
  · obtain ⟨d', hd', hfrom⟩ := hknown k d hd
    rcases hfrom x hx with hx | hx
    · exact mem_append_left _ (h.known.workspaces k d' hd' x hx)
    · exact mem_append_right _ (mem_singleton.mpr hx)
  · obtain ⟨d', hd', hfrom⟩ := hknownG o d hd
    rcases hfrom x hx with hx | hx
    · exact mem_append_left _ (h.known.groups o d' hd' x hx)
    · exact mem_append_right _ (mem_singleton.mpr hx)
  · change m' ∈ s.instances ++ [m] at hm'
    change ∃ v, viewOf m' (s'.sent ++ [(m, Event.done)]) = some v ∧ _
    rw [hsent]
    by_cases heq : m' = m
    · subst heq
      refine ⟨v', ?_, hmirrors.congr (fun _ => rfl) (fun _ => rfl) (Nat.le_refl _)⟩
      rw [viewOf, stream_append, stream_append, hempty, stream_map_self, nil_append, run_append,
        hrun]
      simp [stream, View.apply]
    · have hmem : m' ∈ s.instances := by simpa [heq] using hm'
      obtain ⟨v, hv, hmirrors'⟩ := h.mirror m' hmem
      refine ⟨v, ?_, hmirrors'.congr (hW m' heq) (hG m' heq) hnext⟩
      rw [viewOf, stream_append, stream_append, stream_map_other (Ne.symm heq), append_nil,
        run_append]
      change (viewOf m' s.sent).bind _ = _
      rw [hv]
      simp [stream, Ne.symm heq]
  · change m' ∈ s.instances ++ [m] at hm'
    change m' ∈ (s'.sent ++ [(m, Event.done)]).map Prod.fst
    rw [map_append]
    rcases mem_append.mp hm' with hm' | hm'
    · refine mem_append_left _ ?_
      rw [hsent, map_append]
      exact mem_append_left _ (h.bound m' hm')
    · exact mem_append_right _ (by simpa using hm')

end Macniri.ExtWorkspace
