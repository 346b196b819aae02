import Macniri.ExtWorkspace.View

/-! A manager has one handle for each workspace and for each group, in the group of its output. -/
namespace Macniri.ExtWorkspace

open Option List HashMap

/-- The object of a manager among the instances. -/
def objectOf (m : ℕ) (instances : List Handle) : Option ℕ :=
  (instances.filter (·.manager = m)).head?.map (·.object)

/-- The manager has one object among the instances. -/
def One (m : ℕ) (instances : List Handle) : Prop :=
  ∃ h, instances.filter (·.manager = m) = [⟨m, h⟩]

/-- The group object of a manager for an output, if it has a group. -/
def groupOf (groups : HashMap ℕ GroupData) (m : ℕ) (output : Option ℕ) : Option ℕ :=
  (output.bind groups.get).bind fun data => objectOf m data.instances

/-- The view of a manager mirrors the workspaces and groups. -/
structure Mirrors (s : State) (m : ℕ) (v : View) : Prop where
  one : ∀ k d, s.workspaces.get k = some d → One m d.instances
  oneGroup : ∀ o d, s.workspaceGroups.get o = some d → One m d.instances
  shows : ∀ k d h, s.workspaces.get k = some d → objectOf m d.instances = some h →
    v.workspaces h = some (d.shown (groupOf s.workspaceGroups m d.output))
  live : ∀ h, (v.workspaces h).isSome →
    ∃ k d, s.workspaces.get k = some d ∧ objectOf m d.instances = some h
  distinct : ∀ k k' d d' h, s.workspaces.get k = some d → s.workspaces.get k' = some d' →
    objectOf m d.instances = some h → objectOf m d'.instances = some h → k = k'
  groups : ∀ g, v.groups g = true ↔
    ∃ o d, s.workspaceGroups.get o = some d ∧ objectOf m d.instances = some g
  distinctGroups : ∀ o o' d d' g, s.workspaceGroups.get o = some d →
    s.workspaceGroups.get o' = some d' → objectOf m d.instances = some g →
    objectOf m d'.instances = some g → o = o'
  fresh : ∀ h, (v.workspaces h).isSome → h < s.next
  freshGroups : ∀ g, v.groups g = true → g < s.next

section One

variable {m h : ℕ} {l : List Handle}

theorem objectOf_of_filter (hl : l.filter (·.manager = m) = [⟨m, h⟩]) : objectOf m l = some h := by
  simp [objectOf, hl]

theorem One.exists_objectOf (ho : One m l) : ∃ h, objectOf m l = some h := by
  obtain ⟨h, hl⟩ := ho
  exact ⟨h, objectOf_of_filter hl⟩

theorem newHandles_of_notMem {next : ℕ} {managers : List ℕ} (hm : m ∉ managers) :
    (newHandles next managers).filter (·.manager = m) = [] := by
  induction managers generalizing next with
  | nil => rfl
  | cons manager managers ih =>
    simp only [mem_cons, not_or] at hm
    rw [newHandles, filter_cons_of_neg (by simpa using Ne.symm hm.1), ih hm.2]

/-- New objects: one for each manager. -/
theorem one_newHandles (next : ℕ) {managers : List ℕ} (hn : managers.Nodup) (hm : m ∈ managers) :
    ∃ h, (newHandles next managers).filter (·.manager = m) = [⟨m, h⟩] ∧ next ≤ h ∧
      h < next + managers.length := by
  induction managers generalizing next with
  | nil => cases hm
  | cons manager managers ih =>
    obtain ⟨hnot, hn⟩ := nodup_cons.mp hn
    by_cases heq : manager = m
    · subst heq
      refine ⟨next, ?_, Nat.le_refl _, by simp⟩
      rw [newHandles, filter_cons_of_pos (by simp), newHandles_of_notMem hnot]
    · have hm := (mem_cons.mp hm).resolve_left (Ne.symm heq)
      obtain ⟨h, hfilter, hle, hlt⟩ := ih (next + 1) hn hm
      refine ⟨h, ?_, by omega, by simp only [length_cons]; omega⟩
      rw [newHandles, filter_cons_of_neg (by simpa using heq), hfilter]

theorem manager_newHandles {next : ℕ} {managers : List ℕ} {x : Handle}
    (hx : x ∈ newHandles next managers) : x.manager ∈ managers := by
  induction managers generalizing next with
  | nil => cases hx
  | cons manager managers ih =>
    rcases mem_cons.mp hx with rfl | hx
    · exact mem_cons_self ..
    · exact mem_cons_of_mem _ (ih hx)

end One

theorem groupOf_congr {groups groups' : HashMap ℕ GroupData} {m : ℕ} {output : Option ℕ}
    (h : ∀ o, output = some o → groups'.get o = groups.get o) :
    groupOf groups' m output = groupOf groups m output := by
  cases output with
  | none => rfl
  | some o => rw [groupOf, groupOf, bind_some, bind_some, h o rfl]

/-! Entering and leaving groups. -/

section Groups

variable {groups : HashMap ℕ GroupData} {data : WorkspaceData} {m h : ℕ} {v : View} {hv : HandleView}

/-- A manager is told about its own handle and its own group. -/
theorem stream_enterLeave (hone : ∀ o d, groups.get o = some d → One m d.instances)
    (hh : data.instances.filter (·.manager = m) = [⟨m, h⟩]) (enter : Bool) :
    stream m (sendWorkspaceEnterLeave groups data enter) =
      (groupOf groups m data.output).toList.map fun g =>
        if enter then .workspaceEnter g h else .workspaceLeave g h := by
  unfold sendWorkspaceEnterLeave groupOf
  cases hd : data.output.bind groups.get with
  | none => rfl
  | some groupData =>
    obtain ⟨o, -, ho⟩ := of_bind hd
    obtain ⟨g, hg⟩ := hone o groupData ho
    rw [bind_some, objectOf_of_filter hg]
    simp only [toList_some, map_cons, map_nil]
    rw [stream_sendEach_one hg, WorkspaceData.matching, hh]
    rfl

variable (hone : ∀ o d, groups.get o = some d → One m d.instances)
variable (hh : data.instances.filter (·.manager = m) = [⟨m, h⟩])
variable (hlive : ∀ g, groupOf groups m data.output = some g → v.groups g = true)

include hone hh hlive

theorem run_leaveGroup (hv' : v.workspaces h = some hv)
    (hgroup : hv.group = groupOf groups m data.output) :
    run View.apply v (stream m (sendWorkspaceEnterLeave groups data false)) =
      some (v.set h (some { hv with group := none })) := by
  rw [stream_enterLeave hone hh]
  cases hg : groupOf groups m data.output with
  | none =>
    have : ({ hv with group := none } : HandleView) = hv := by rw [← hg, ← hgroup]
    rw [this, View.set_self hv']
    rfl
  | some g => exact run_leave (hlive g hg) hv' (hgroup.trans hg)

theorem run_enterGroup (hv' : v.workspaces h = some hv) (hnone : hv.group = none) :
    run View.apply v (stream m (sendWorkspaceEnterLeave groups data true)) =
      some (v.set h (some { hv with group := groupOf groups m data.output })) := by
  rw [stream_enterLeave hone hh]
  cases hg : groupOf groups m data.output with
  | none =>
    have : ({ hv with group := none } : HandleView) = hv := by rw [← hnone]
    rw [this, View.set_self hv']
    rfl
  | some g => exact run_enter (hlive g hg) hv' hnone

end Groups

section Mirrors

variable {s s' : State} {m k : ℕ} {v v' : View} {d d' : WorkspaceData} {h h' : ℕ}

theorem Mirrors.groups_of_groupOf (hm : Mirrors s m v) {output : Option ℕ} {g : ℕ}
    (hg : groupOf s.workspaceGroups m output = some g) : v.groups g = true := by
  obtain ⟨gd, hgd, hobj⟩ := of_bind hg
  obtain ⟨o, -, ho⟩ := of_bind hgd
  exact (hm.groups g).mpr ⟨o, gd, ho, hobj⟩

/-- One workspace changes, or is new. -/
theorem Mirrors.insert (h' : ℕ) (hm : Mirrors s m v)
    (hW : s'.workspaces = s.workspaces.insert k d')
    (hG : s'.workspaceGroups = s.workspaceGroups) (hnext : s.next ≤ s'.next)
    (hone : d'.instances.filter (·.manager = m) = [⟨m, h'⟩]) (hlt : h' < s'.next)
    (hnew : ∀ k' d, k' ≠ k → s.workspaces.get k' = some d → objectOf m d.instances ≠ some h')
    (hgroups : v'.groups = v.groups)
    (hself : v'.workspaces h' = some (d'.shown (groupOf s.workspaceGroups m d'.output)))
    (hold : ∀ d x, s.workspaces.get k = some d → objectOf m d.instances = some x → x ≠ h' →
      v'.workspaces x = none)
    (hother : ∀ x, x ≠ h' → (∀ d, s.workspaces.get k = some d → objectOf m d.instances ≠ some x) →
      v'.workspaces x = v.workspaces x) : Mirrors s' m v' := by
  have hobj := objectOf_of_filter hone
  have hget : ∀ k' e, s'.workspaces.get k' = some e → k' = k ∧ e = d' ∨
      k' ≠ k ∧ s.workspaces.get k' = some e := by
    intro k' e he
    rw [hW, get_insert] at he
    split_ifs at he with hk
    · exact .inl ⟨hk, (some.inj he).symm⟩
    · exact .inr ⟨hk, he⟩
  -- The handle of another workspace is neither the new one nor the one before.
  have hkept : ∀ k' e x, k' ≠ k → s.workspaces.get k' = some e → objectOf m e.instances = some x →
      v'.workspaces x = v.workspaces x := by
    intro k' e x hk he hx
    refine hother x (fun hxh => hnew k' e hk he (hxh ▸ hx)) fun d hd hdx => hk ?_
    exact hm.distinct k' k e d x he hd hx hdx
  constructor
  · intro k' e he
    rcases hget k' e he with ⟨-, rfl⟩ | ⟨-, he⟩
    · exact ⟨h', hone⟩
    · exact hm.one k' e he
  · rw [hG]
    exact hm.oneGroup
  · intro k' e x he hx
    rw [hG]
    rcases hget k' e he with ⟨-, rfl⟩ | ⟨hk, he⟩
    · obtain rfl := some.inj (hobj.symm.trans hx)
      exact hself
    · rw [hkept k' e x hk he hx]
      exact hm.shows k' e x he hx
  · intro x hx
    by_cases hxh : x = h'
    · exact ⟨k, d', by rw [hW, get_insert, if_pos rfl], hxh ▸ hobj⟩
    · by_cases hex : ∃ d, s.workspaces.get k = some d ∧ objectOf m d.instances = some x
      · obtain ⟨d, hd, hdx⟩ := hex
        rw [hold d x hd hdx hxh] at hx
        cases hx
      · rw [hother x hxh fun d hd hdx => hex ⟨d, hd, hdx⟩] at hx
        obtain ⟨k', e, he, hex'⟩ := hm.live x hx
        have hk : k' ≠ k := by
          rintro rfl
          exact hex ⟨e, he, hex'⟩
        exact ⟨k', e, by rw [hW, get_insert, if_neg hk, he], hex'⟩
  · intro k₁ k₂ e₁ e₂ x he₁ he₂ hx₁ hx₂
    rcases hget k₁ e₁ he₁ with ⟨rfl, rfl⟩ | ⟨hk₁, he₁⟩
    · rcases hget k₂ e₂ he₂ with ⟨rfl, -⟩ | ⟨hk₂, he₂⟩
      · rfl
      · obtain rfl := some.inj (hobj.symm.trans hx₁)
        exact absurd hx₂ (hnew k₂ e₂ hk₂ he₂)
    · rcases hget k₂ e₂ he₂ with ⟨rfl, rfl⟩ | ⟨hk₂, he₂⟩
      · obtain rfl := some.inj (hobj.symm.trans hx₂)
        exact absurd hx₁ (hnew k₁ e₁ hk₁ he₁)
      · exact hm.distinct k₁ k₂ e₁ e₂ x he₁ he₂ hx₁ hx₂
  · rw [hG, hgroups]
    exact hm.groups
  · rw [hG]
    exact hm.distinctGroups
  · intro x hx
    by_cases hxh : x = h'
    · rwa [hxh]
    · by_cases hex : ∃ d, s.workspaces.get k = some d ∧ objectOf m d.instances = some x
      · obtain ⟨d, hd, hdx⟩ := hex
        rw [hold d x hd hdx hxh] at hx
        cases hx
      · rw [hother x hxh fun d hd hdx => hex ⟨d, hd, hdx⟩] at hx
        exact Nat.lt_of_lt_of_le (hm.fresh x hx) hnext
  · intro g hg
    rw [hgroups] at hg
    exact Nat.lt_of_lt_of_le (hm.freshGroups g hg) hnext

/-- One workspace is gone. -/
theorem Mirrors.remove (hm : Mirrors s m v) (hW : s'.workspaces = s.workspaces.remove k)
    (hG : s'.workspaceGroups = s.workspaceGroups) (hnext : s.next ≤ s'.next)
    (hd : s.workspaces.get k = some d) (hh : objectOf m d.instances = some h) :
    Mirrors s' m (v.set h none) := by
  have hget : ∀ k' e, s'.workspaces.get k' = some e → k' ≠ k ∧ s.workspaces.get k' = some e := by
    intro k' e he
    rw [hW, get_remove] at he
    split_ifs at he with hk
    exact ⟨hk, he⟩
  have hne : ∀ k' e x, s'.workspaces.get k' = some e → objectOf m e.instances = some x → x ≠ h := by
    rintro k' e x he hx rfl
    obtain ⟨hk, he⟩ := hget k' e he
    exact hk (hm.distinct k' k e d x he hd hx hh)
  constructor
  · exact fun k' e he => hm.one k' e (hget k' e he).2
  · rw [hG]
    exact hm.oneGroup
  · intro k' e x he hx
    rw [hG, View.set_workspaces, if_neg (hne k' e x he hx)]
    exact hm.shows k' e x (hget k' e he).2 hx
  · intro x hx
    rw [View.set_workspaces] at hx
    split_ifs at hx with hxh
    · cases hx
    · obtain ⟨k', e, he, hex⟩ := hm.live x hx
      refine ⟨k', e, ?_, hex⟩
      rw [hW, get_remove, if_neg, he]
      rintro rfl
      obtain rfl := some.inj (hd.symm.trans he)
      exact hxh (some.inj (hex.symm.trans hh))
  · exact fun k₁ k₂ e₁ e₂ x he₁ he₂ => hm.distinct k₁ k₂ e₁ e₂ x (hget k₁ e₁ he₁).2 (hget k₂ e₂ he₂).2
  · rw [hG]
    exact hm.groups
  · rw [hG]
    exact hm.distinctGroups
  · intro x hx
    rw [View.set_workspaces] at hx
    split_ifs at hx
    · cases hx
    · exact Nat.lt_of_lt_of_le (hm.fresh x hx) hnext
  · exact fun g hg => Nat.lt_of_lt_of_le (hm.freshGroups g hg) hnext

/-! Groups. -/

/-- Workspaces enter or leave a group one after the other. -/
theorem run_regroup (ev : ℕ → Event) {a b : Option ℕ} {g : ℕ} {objs : List ℕ} (hn : objs.Nodup)
    (hev : ∀ (u : View) x hv, u.groups g = true → u.workspaces x = some hv → hv.group = a →
      run View.apply u [ev x] = some (u.set x (some { hv with group := b })))
    (hg : v.groups g = true) (hobjs : ∀ x ∈ objs, ∃ hv, v.workspaces x = some hv ∧ hv.group = a) :
    ∃ v', run View.apply v (objs.map ev) = some v' ∧ v'.groups = v.groups ∧
      ∀ x, v'.workspaces x =
        if x ∈ objs then (v.workspaces x).map fun hv => { hv with group := b } else v.workspaces x := by
  induction objs generalizing v with
  | nil => exact ⟨v, rfl, rfl, by simp⟩
  | cons x objs ih =>
    obtain ⟨hx, hn⟩ := nodup_cons.mp hn
    obtain ⟨hv, hxv, ha⟩ := hobjs x (mem_cons_self ..)
    have hrun := hev v x hv hg hxv ha
    obtain ⟨v', hrun', hgroups, hworkspaces⟩ :=
      ih (v := v.set x (some { hv with group := b })) hn hg fun y hy => by
        obtain ⟨hv', hy', ha'⟩ := hobjs y (mem_cons_of_mem _ hy)
        refine ⟨hv', ?_, ha'⟩
        rw [View.set_workspaces, if_neg, hy']
        rintro rfl
        exact hx hy
    refine ⟨v', ?_, hgroups, fun y => ?_⟩
    · have hcons : (x :: objs).map ev = [ev x] ++ objs.map ev := rfl
      rw [hcons, run_append, hrun]
      exact hrun'
    · rw [hworkspaces, View.set_workspaces]
      by_cases hy : y = x
      · subst hy
        simp [hx, hxv]
      · simp [hy]

/-- The handles of a manager for the workspaces on an output. -/
def objectsOn (ord : IterOrder) (s : State) (m o : ℕ) : List ℕ :=
  ((ord.iter s.workspaces).filter (·.2.output = some o)).filterMap fun ws => objectOf m ws.2.instances

theorem mem_objectsOn {ord : IterOrder} {o : ℕ} : h ∈ objectsOn ord s m o ↔
    ∃ k d, s.workspaces.get k = some d ∧ d.output = some o ∧ objectOf m d.instances = some h := by
  unfold objectsOn
  rw [mem_filterMap]
  constructor
  · rintro ⟨e, he, hobj⟩
    obtain ⟨hmem, hout⟩ := mem_filter.mp he
    exact ⟨e.1, e.2, (mem_iter ord).mp hmem, by simpa using hout, hobj⟩
  · rintro ⟨k, d, hd, hout, hobj⟩
    exact ⟨⟨k, d⟩, mem_filter.mpr ⟨(mem_iter ord).mpr hd, by simpa using hout⟩, hobj⟩

theorem Mirrors.nodup_objectsOn (hm : Mirrors s m v) (ord : IterOrder) (o : ℕ) :
    (objectsOn ord s m o).Nodup := by
  unfold objectsOn
  have hkeys : ((ord.iter s.workspaces).filter (·.2.output = some o)).Pairwise (·.1 ≠ ·.1) := by
    have hall := nodup_keys_iter ord s.workspaces
    rw [Nodup, pairwise_map] at hall
    exact hall.filter _
  rw [Nodup, pairwise_filterMap]
  refine hkeys.imp_of_mem fun {e e'} he he' hne x hx x' hx' heq => hne ?_
  have hget := (mem_iter ord).mp (mem_filter.mp he).1
  have hget' := (mem_iter ord).mp (mem_filter.mp he').1
  subst heq
  exact hm.distinct e.1 e'.1 e.2 e'.2 x hget hget' hx hx'

theorem Mirrors.notMem_objectsOn {ord : IterOrder} {o : ℕ} (hm : Mirrors s m v)
    (hd : s.workspaces.get k = some d) (hh : objectOf m d.instances = some h) (ho : d.output ≠ some o) :
    h ∉ objectsOn ord s m o := by
  rw [mem_objectsOn]
  rintro ⟨k', d', hd', ho', hh'⟩
  obtain rfl := hm.distinct k k' d d' h hd hd' hh hh'
  obtain rfl := some.inj (hd.symm.trans hd')
  exact ho ho'

/-- What a manager is sent about its handles for the workspaces on an output. -/
theorem Mirrors.flatMap_matching (hm : Mirrors s m v) (ord : IterOrder) (o g : ℕ) (ev : ℕ → Event) :
    ((ord.iter s.workspaces).filter (·.2.output = some o)).flatMap (fun ws =>
        (ws.2.matching ⟨m, g⟩).map fun workspace => ev workspace.object) =
      (objectsOn ord s m o).map ev := by
  unfold objectsOn
  have hone : ∀ e ∈ (ord.iter s.workspaces).filter (·.2.output = some o), One m e.2.instances :=
    fun e he => hm.one e.1 e.2 ((mem_iter ord).mp (mem_filter.mp he).1)
  generalize (ord.iter s.workspaces).filter (·.2.output = some o) = l at hone
  induction l with
  | nil => rfl
  | cons e l ih =>
    obtain ⟨x, hx⟩ := hone e (mem_cons_self ..)
    have hl := ih fun e' he' => hone e' (mem_cons_of_mem _ he')
    rw [flatMap_cons, hl]
    simp only [filterMap_cons, objectOf_of_filter hx, map_cons, WorkspaceData.matching, hx]
    rfl

/-- The workspaces of a group that is gone are in no group. -/
theorem Mirrors.removeGroup (ord : IterOrder) {o g : ℕ} {gd : GroupData} (hm : Mirrors s m v)
    (hW : s'.workspaces = s.workspaces) (hG : s'.workspaceGroups = s.workspaceGroups.remove o)
    (hnext : s'.next = s.next) (hgd : s.workspaceGroups.get o = some gd)
    (hg : objectOf m gd.instances = some g) (hgroups : v'.groups = Function.update v.groups g false)
    (hworkspaces : ∀ x, v'.workspaces x = if x ∈ objectsOn ord s m o then
      (v.workspaces x).map fun hv => { hv with group := none } else v.workspaces x) :
    Mirrors s' m v' := by
  have hget : ∀ o' e, s'.workspaceGroups.get o' = some e ↔
      o' ≠ o ∧ s.workspaceGroups.get o' = some e := by
    intro o' e
    rw [hG, get_remove]
    split_ifs with ho <;> simp [ho]
  have hsome : ∀ x, (v'.workspaces x).isSome = (v.workspaces x).isSome := by
    intro x
    rw [hworkspaces]
    split_ifs <;> simp
  constructor
  · rw [hW]
    exact hm.one
  · exact fun o' e he => hm.oneGroup o' e ((hget o' e).mp he).2
  · intro k e x he hx
    rw [hW] at he
    have hshows := hm.shows k e x he hx
    rw [hworkspaces]
    by_cases hout : e.output = some o
    · rw [if_pos (mem_objectsOn.mpr ⟨k, e, he, hout, hx⟩), hshows, map_some, hout]
      have hnone : groupOf s'.workspaceGroups m (some o) = none := by
        rw [groupOf, hG, bind_some, get_remove, if_pos rfl, bind_none]
      rw [hnone]
      rfl
    · rw [if_neg, hshows]
      · rw [groupOf_congr fun o' ho' => ?_]
        rw [hG, get_remove, if_neg]
        rintro rfl
        exact hout ho'
      · exact hm.notMem_objectsOn he hx hout
  · intro x hx
    rw [hsome] at hx
    rw [hW]
    exact hm.live x hx
  · rw [hW]
    exact hm.distinct
  · intro g'
    rw [hgroups, Function.update_apply]
    constructor
    · split_ifs with heq
      · simp
      · intro hg'
        obtain ⟨o', e, he, hobj⟩ := (hm.groups g').mp hg'
        refine ⟨o', e, (hget o' e).mpr ⟨?_, he⟩, hobj⟩
        rintro rfl
        obtain rfl := some.inj (hgd.symm.trans he)
        exact heq (some.inj (hobj.symm.trans hg))
    · rintro ⟨o', e, he, hobj⟩
      obtain ⟨hne, he⟩ := (hget o' e).mp he
      rw [if_neg]
      · exact (hm.groups g').mpr ⟨o', e, he, hobj⟩
      · rintro rfl
        exact hne (hm.distinctGroups o' o e gd g' he hgd hobj hg)
  · exact fun o₁ o₂ e₁ e₂ g' he₁ he₂ =>
      hm.distinctGroups o₁ o₂ e₁ e₂ g' ((hget o₁ e₁).mp he₁).2 ((hget o₂ e₂).mp he₂).2
  · intro x hx
    rw [hsome] at hx
    rw [hnext]
    exact hm.fresh x hx
  · intro g' hg'
    rw [hgroups, Function.update_apply] at hg'
    split_ifs at hg'
    rw [hnext]
    exact hm.freshGroups g' hg'

/-- The workspaces on an output enter its new group. -/
theorem Mirrors.insertGroup (ord : IterOrder) {o g : ℕ} {gd : GroupData} (hm : Mirrors s m v)
    (hW : s'.workspaces = s.workspaces) (hG : s'.workspaceGroups = s.workspaceGroups.insert o gd)
    (hnext : s.next ≤ s'.next) (hgd : s.workspaceGroups.get o = none)
    (hone : gd.instances.filter (·.manager = m) = [⟨m, g⟩]) (hlt : s.next ≤ g ∧ g < s'.next)
    (hgroups : v'.groups = Function.update v.groups g true)
    (hworkspaces : ∀ x, v'.workspaces x = if x ∈ objectsOn ord s m o then
      (v.workspaces x).map fun hv => { hv with group := some g } else v.workspaces x) :
    Mirrors s' m v' := by
  have hobj := objectOf_of_filter hone
  have hget : ∀ o' e, s'.workspaceGroups.get o' = some e → o' = o ∧ e = gd ∨
      o' ≠ o ∧ s.workspaceGroups.get o' = some e := by
    intro o' e he
    rw [hG, get_insert] at he
    split_ifs at he with ho
    · exact .inl ⟨ho, (some.inj he).symm⟩
    · exact .inr ⟨ho, he⟩
  have hsome : ∀ x, (v'.workspaces x).isSome = (v.workspaces x).isSome := by
    intro x
    rw [hworkspaces]
    split_ifs <;> simp
  have hnew : ∀ o' e, s.workspaceGroups.get o' = some e → objectOf m e.instances ≠ some g := by
    intro o' e he hobj'
    have := hm.freshGroups g ((hm.groups g).mpr ⟨o', e, he, hobj'⟩)
    omega
  constructor
  · rw [hW]
    exact hm.one
  · intro o' e he
    rcases hget o' e he with ⟨-, rfl⟩ | ⟨-, he⟩
    · exact ⟨g, hone⟩
    · exact hm.oneGroup o' e he
  · intro k e x he hx
    rw [hW] at he
    have hshows := hm.shows k e x he hx
    rw [hworkspaces]
    by_cases hout : e.output = some o
    · rw [if_pos (mem_objectsOn.mpr ⟨k, e, he, hout, hx⟩), hshows, map_some, hout]
      have hsome : groupOf s'.workspaceGroups m (some o) = some g := by
        rw [groupOf, hG, bind_some, get_insert, if_pos rfl, bind_some, hobj]
      rw [hsome]
      rfl
    · rw [if_neg, hshows]
      · rw [groupOf_congr fun o' ho' => ?_]
        rw [hG, get_insert, if_neg]
        rintro rfl
        exact hout ho'
      · exact hm.notMem_objectsOn he hx hout
  · intro x hx
    rw [hsome] at hx
    rw [hW]
    exact hm.live x hx
  · rw [hW]
    exact hm.distinct
  · intro g'
    rw [hgroups, Function.update_apply]
    constructor
    · split_ifs with heq
      · exact fun _ => ⟨o, gd, by rw [hG, get_insert, if_pos rfl], heq ▸ hobj⟩
      · intro hg'
        obtain ⟨o', e, he, hobj'⟩ := (hm.groups g').mp hg'
        refine ⟨o', e, ?_, hobj'⟩
        rw [hG, get_insert, if_neg, he]
        rintro rfl
        rw [hgd] at he
        cases he
    · rintro ⟨o', e, he, hobj'⟩
      split_ifs with heq
      · rfl
      · rcases hget o' e he with ⟨-, rfl⟩ | ⟨-, he⟩
        · exact absurd (some.inj (hobj'.symm.trans hobj)) heq
        · exact (hm.groups g').mpr ⟨o', e, he, hobj'⟩
  · intro o₁ o₂ e₁ e₂ g' he₁ he₂ hg₁ hg₂
    rcases hget o₁ e₁ he₁ with ⟨rfl, rfl⟩ | ⟨-, he₁⟩
    · rcases hget o₂ e₂ he₂ with ⟨rfl, -⟩ | ⟨-, he₂⟩
      · rfl
      · obtain rfl := some.inj (hobj.symm.trans hg₁)
        exact absurd hg₂ (hnew o₂ e₂ he₂)
    · rcases hget o₂ e₂ he₂ with ⟨rfl, rfl⟩ | ⟨-, he₂⟩
      · obtain rfl := some.inj (hobj.symm.trans hg₂)
        exact absurd hg₁ (hnew o₁ e₁ he₁)
      · exact hm.distinctGroups o₁ o₂ e₁ e₂ g' he₁ he₂ hg₁ hg₂
  · intro x hx
    rw [hsome] at hx
    exact Nat.lt_of_lt_of_le (hm.fresh x hx) hnext
  · intro g' hg'
    rw [hgroups, Function.update_apply] at hg'
    split_ifs at hg' with heq
    · exact heq ▸ hlt.2
    · exact Nat.lt_of_lt_of_le (hm.freshGroups g' hg') hnext

end Mirrors

end Macniri.ExtWorkspace
