import Macniri.ExtWorkspace.Mirror

/-! What the parts of a refresh send to the managers. -/
namespace Macniri.ExtWorkspace

open Option List HashMap

/-- Objects belong to managers that are bound. -/
structure State.Known (s : State) : Prop where
  workspaces : ∀ k d, s.workspaces.get k = some d → ∀ x ∈ d.instances, x.manager ∈ s.instances
  groups : ∀ o d, s.workspaceGroups.get o = some d → ∀ x ∈ d.instances, x.manager ∈ s.instances

/-- Events are sent, none of them `done`, that keep the view of each manager a mirror. -/
structure Sends (s s' : State) : Prop where
  instances : s'.instances = s.instances
  known : s.Known → s'.Known
  sent : ∃ events, s'.sent = s.sent ++ events ∧ (∀ x ∈ events, x.2 ≠ .done) ∧
    (s.instances.Nodup → ∀ m ∈ s.instances, ∀ v, Mirrors s m v →
      ∃ v', run View.apply v (stream m events) = some v' ∧ Mirrors s' m v')

section Sends

variable {s s' s'' : State} {m : ℕ} {v : View}

theorem Sends.refl (s : State) : Sends s s :=
  ⟨rfl, id, [], by simp, by simp, fun _ m _ v hm => ⟨v, rfl, hm⟩⟩

theorem Sends.trans (h : Sends s s') (h' : Sends s' s'') : Sends s s'' := by
  obtain ⟨events, hsent, hdone, hrun⟩ := h.sent
  obtain ⟨events', hsent', hdone', hrun'⟩ := h'.sent
  refine ⟨h'.instances.trans h.instances, h'.known ∘ h.known, events ++ events', ?_, ?_, ?_⟩
  · rw [hsent', hsent, append_assoc]
  · intro x hx
    rcases mem_append.mp hx with hx | hx
    · exact hdone x hx
    · exact hdone' x hx
  · intro hn m hm v hv
    obtain ⟨v', hv', hmirrors⟩ := hrun hn m hm v hv
    obtain ⟨v'', hv'', hmirrors'⟩ := hrun' (h.instances ▸ hn) m (h.instances ▸ hm) v' hmirrors
    refine ⟨v'', ?_, hmirrors'⟩
    rw [stream_append, run_append, hv']
    exact hv''

/-- What every step keeps, of the state, the flag and the items left, holds at the end. -/
theorem each_rule {α : Type} {f : State → α → State × Bool} {I : State → Bool → List α → Prop}
    (hf : ∀ s b x xs, I s b (x :: xs) → I (f s x).1 (b || (f s x).2) xs) {l : List α}
    (h : I s false l) : I (s.each f l).1 (s.each f l).2 [] := by
  unfold State.each
  generalize false = b at h ⊢
  induction l generalizing s b with
  | nil => exact h
  | cons x l ih => exact ih _ (hf s b x l h)

theorem sends_each {α : Type} {f : State → α → State × Bool} {P : State → List α → Prop}
    (hf : ∀ s x xs, P s (x :: xs) → Sends s (f s x).1 ∧ P (f s x).1 xs) {l : List α}
    (hP : P s l) : Sends s (s.each f l).1 ∧ P (s.each f l).1 [] := by
  refine each_rule (I := fun s' _ xs => Sends s s' ∧ P s' xs) ?_ ⟨.refl s, hP⟩
  rintro s' - x xs ⟨hsends, hP⟩
  obtain ⟨hstep, hP⟩ := hf s' x xs hP
  exact ⟨hsends.trans hstep, hP⟩

theorem sendEach_ne_done {l : List Handle} {f : Handle → List Event} (h : ∀ x, .done ∉ f x) :
    ∀ x ∈ sendEach l f, x.2 ≠ .done := by
  intro x hx heq
  obtain ⟨handle, -, hx⟩ := mem_flatMap.mp hx
  obtain ⟨e, he, rfl⟩ := List.mem_map.mp hx
  exact h handle (heq ▸ he)

theorem enterLeave_ne_done {groups : HashMap ℕ GroupData} {data : WorkspaceData} {enter : Bool} :
    ∀ x ∈ sendWorkspaceEnterLeave groups data enter, x.2 ≠ .done := by
  unfold sendWorkspaceEnterLeave
  split
  · apply sendEach_ne_done
    intro group hdone
    obtain ⟨workspace, -, heq⟩ := List.mem_map.mp hdone
    cases enter <;> cases heq
  · simp

theorem removeInstances_ne_done {groups : HashMap ℕ GroupData} {data : WorkspaceData} :
    ∀ x ∈ removeWorkspaceInstances groups data, x.2 ≠ .done := by
  intro x hx
  rcases mem_append.mp hx with hx | hx
  · exact enterLeave_ne_done x hx
  · exact sendEach_ne_done (by simp) x hx

/-- A handle leaves its group and is removed. -/
theorem run_removeInstances {groups : HashMap ℕ GroupData} {data : WorkspaceData} {h : ℕ}
    {hv : HandleView} (hone : ∀ o d, groups.get o = some d → One m d.instances)
    (hh : data.instances.filter (·.manager = m) = [⟨m, h⟩])
    (hlive : ∀ g, groupOf groups m data.output = some g → v.groups g = true)
    (hv' : v.workspaces h = some hv) (hgroup : hv.group = groupOf groups m data.output) :
    run View.apply v (stream m (removeWorkspaceInstances groups data)) = some (v.set h none) := by
  unfold removeWorkspaceInstances
  rw [stream_append, run_append, run_leaveGroup hone hh hlive hv' hgroup, bind_some,
    stream_sendEach_one hh, run_removed View.set_workspaces_self, View.set_set]

theorem sends_removeWorkspace (k : ℕ) : Sends s (s.removeWorkspace k) := by
  unfold State.removeWorkspace
  cases hd : s.workspaces.get k with
  | none => exact .refl s
  | some d =>
    refine ⟨rfl, fun hknown => ⟨fun k' d' hd' => ?_, hknown.groups⟩, _, rfl,
      removeInstances_ne_done, fun _ m _ v hm => ?_⟩
    · change (s.workspaces.remove k).get k' = some d' at hd'
      rw [get_remove] at hd'
      split_ifs at hd'
      exact hknown.workspaces k' d' hd'
    · obtain ⟨h, hone⟩ := hm.one k d hd
      have hh := objectOf_of_filter hone
      refine ⟨v.set h none, ?_, hm.remove rfl rfl (Nat.le_refl _) hd hh⟩
      exact run_removeInstances hm.oneGroup hone (fun g hg => hm.groups_of_groupOf hg)
        (hm.shows k d h hd hh) rfl

theorem sends_removeGroup (ord : IterOrder) (o : ℕ) : Sends s (s.removeGroup ord o) := by
  unfold State.removeGroup
  cases hgd : s.workspaceGroups.get o with
  | none => exact .refl s
  | some gd =>
    refine ⟨rfl, fun hknown => ⟨hknown.workspaces, fun o' d' hd' => ?_⟩, _, rfl, ?_,
      fun _ m _ v hm => ?_⟩
    · change (s.workspaceGroups.remove o).get o' = some d' at hd'
      rw [get_remove] at hd'
      split_ifs at hd'
      exact hknown.groups o' d' hd'
    · apply sendEach_ne_done
      intro group hdone
      rcases mem_append.mp hdone with hdone | hdone
      · obtain ⟨ws, -, hdone⟩ := mem_flatMap.mp hdone
        obtain ⟨workspace, -, heq⟩ := List.mem_map.mp hdone
        cases heq
      · simp at hdone
    · obtain ⟨g, hone⟩ := hm.oneGroup o gd hgd
      have hg := objectOf_of_filter hone
      have hlive := (hm.groups g).mpr ⟨o, gd, hgd, hg⟩
      obtain ⟨v', hrun, hgroups, hworkspaces⟩ := run_regroup (.workspaceLeave g) (a := some g)
        (b := none) (hm.nodup_objectsOn ord o) (fun _ _ _ hg hx ha => run_leave hg hx ha) hlive
        fun x hx => by
          obtain ⟨k, d, hd, hout, hobj⟩ := mem_objectsOn.mp hx
          refine ⟨_, hm.shows k d x hd hobj, ?_⟩
          change groupOf s.workspaceGroups m d.output = some g
          rw [hout, groupOf, bind_some, hgd, bind_some, hg]
      have hlive' : v'.groups g = true := by rw [hgroups, hlive]
      refine ⟨{ v' with groups := Function.update v'.groups g false }, ?_,
        hm.removeGroup ord rfl rfl rfl hgd hg ?_ hworkspaces⟩
      · rw [stream_sendEach_one hone, State.removeGroupEvents, hm.flatMap_matching, run_append, hrun]
        simp [View.apply, hlive']
      · rw [hgroups]

theorem announce_ne_done {d : WorkspaceData} {h : ℕ} : Event.done ∉ d.announce h := by
  unfold WorkspaceData.announce
  cases d.id <;> simp

theorem sends_refreshWorkspaceGroup (ord : IterOrder) (o : ℕ) :
    Sends s (s.refreshWorkspaceGroup ord o).1 := by
  unfold State.refreshWorkspaceGroup
  split_ifs with hsome
  · exact .refl s
  · have hgd : s.workspaceGroups.get o = none := by simpa using hsome
    refine ⟨rfl, fun hknown => ⟨hknown.workspaces, fun o' d' hd' x hx => ?_⟩, _,
      append_assoc .., ?_, fun hn m hmem v hm => ?_⟩
    · change (s.workspaceGroups.insert o _).get o' = some d' at hd'
      rw [get_insert] at hd'
      split_ifs at hd'
      · obtain rfl := some.inj hd'
        exact manager_newHandles hx
      · exact hknown.groups o' d' hd' x hx
    · intro x hx
      rcases mem_append.mp hx with hx | hx
      · exact sendEach_ne_done (by simp [GroupData.announce]) x hx
      · refine sendEach_ne_done (fun group hdone => ?_) x hx
        obtain ⟨ws, -, hdone⟩ := mem_flatMap.mp hdone
        obtain ⟨workspace, -, heq⟩ := List.mem_map.mp hdone
        cases heq
    · obtain ⟨g, hone, hle, hlt⟩ := one_newHandles s.next hn hmem
      have hnot : v.groups g = false := by
        by_contra hg
        have := hm.freshGroups g (by simpa using hg)
        omega
      obtain ⟨v', hrun, hgroups, hworkspaces⟩ := run_regroup (.workspaceEnter g) (a := none)
        (b := some g) (v := { v with groups := Function.update v.groups g true })
        (hm.nodup_objectsOn ord o) (fun _ _ _ hg hx ha => run_enter hg hx ha) (by simp)
        fun x hx => by
          obtain ⟨k, d, hd, hout, hobj⟩ := mem_objectsOn.mp hx
          refine ⟨_, hm.shows k d x hd hobj, ?_⟩
          change groupOf s.workspaceGroups m d.output = none
          rw [hout, groupOf, bind_some, hgd, bind_none]
      refine ⟨v', ?_, hm.insertGroup ord rfl rfl (Nat.le_add_right ..) hgd hone ⟨hle, hlt⟩
        hgroups hworkspaces⟩
      rw [stream_append, run_append, stream_sendEach_one hone, run_announceGroup hnot, bind_some,
        stream_sendEach_one hone]
      exact (congrArg _ (hm.flatMap_matching ord o g _)).trans hrun

theorem known_insert {k : ℕ} {d : WorkspaceData} (hknown : s.Known) (hi : s'.instances = s.instances)
    (hW : s'.workspaces = s.workspaces.insert k d) (hG : s'.workspaceGroups = s.workspaceGroups)
    (hd : ∀ x ∈ d.instances, x.manager ∈ s.instances) : s'.Known := by
  constructor
  · intro k' d' hd' x hx
    rw [hi]
    rw [hW, get_insert] at hd'
    split_ifs at hd'
    · obtain rfl := some.inj hd'
      exact hd x hx
    · exact hknown.workspaces k' d' hd' x hx
  · rw [hG, hi]
    exact hknown.groups

/-- A new handle is announced and enters the group of its output. -/
theorem run_announceEnter {groups : HashMap ℕ GroupData} {d : WorkspaceData} {l : List Handle} {h : ℕ}
    (hone : ∀ o d, groups.get o = some d → One m d.instances)
    (hh : l.filter (·.manager = m) = [⟨m, h⟩])
    (hlive : ∀ g, groupOf groups m d.output = some g → v.groups g = true)
    (hv : v.workspaces h = none) :
    run View.apply v (stream m (sendEach l fun handle => d.announce handle.object) ++
        stream m (sendWorkspaceEnterLeave groups { d with instances := l } true)) =
      some (v.set h (some (d.shown (groupOf groups m d.output)))) := by
  have henter : run View.apply (v.set h (some (d.shown none)))
      (stream m (sendWorkspaceEnterLeave groups { d with instances := l } true)) = _ :=
    run_enterGroup hone hh hlive View.set_workspaces_self rfl
  rw [run_append, stream_sendEach_one hh, run_announce hv, bind_some, henter, View.set_set]
  rfl

theorem sends_refreshNew {state : WorkspaceState} {output : Option ℕ} {wsIdx : ℕ} {ws : Workspace}
    (hnone : s.workspaces.get ws.id = none) : Sends s (s.refreshNew state output wsIdx ws) := by
  refine ⟨rfl, fun hknown => known_insert hknown rfl rfl rfl fun x hx => manager_newHandles hx, _,
    append_assoc .., fun x hx => ?_, fun hn m hmem v hm => ?_⟩
  · rcases mem_append.mp hx with hx | hx
    · exact sendEach_ne_done (fun _ => announce_ne_done) x hx
    · exact enterLeave_ne_done x hx
  · obtain ⟨h, hone, hle, hlt⟩ := one_newHandles s.next hn hmem
    have hfresh : v.workspaces h = none := by
      by_contra hsome
      have := hm.fresh h (isSome_iff_ne_none.mpr hsome)
      omega
    let d : WorkspaceData := ⟨ws.name, buildName ws wsIdx, (0, asU32 wsIdx), state, [], output⟩
    refine ⟨v.set h (some (d.shown (groupOf s.workspaceGroups m output))), ?_, ?_⟩
    · rw [stream_append]
      exact run_announceEnter (d := d) hm.oneGroup hone (fun g hg => hm.groups_of_groupOf hg) hfresh
    · refine hm.insert h rfl rfl (Nat.le_add_right ..) hone hlt ?_ rfl
        View.set_workspaces_self ?_ ?_
      · intro k' d _ hd hobj
        have := hm.fresh h (by rw [hm.shows k' d h hd hobj]; rfl)
        omega
      · intro d x hd
        rw [hnone] at hd
        cases hd
      · intro x hx _
        rw [View.set_workspaces, if_neg hx]

/-- A workspace that gets another name does not move to a group that exists, at the same time. -/
def State.Moves (s : State) (mon : Option Monitor) (ws : Workspace) : Prop :=
  ∀ d, s.workspaces.get ws.id = some d → d.id.isSome → d.id ≠ ws.name →
    d.output ≠ mon.map (·.output) → ∀ o, mon.map (·.output) = some o → s.workspaceGroups.get o = none

section Existing

variable {data : WorkspaceData} {state : WorkspaceState} {output : Option ℕ} {wsIdx : ℕ} {ws : Workspace}

/-- The leave events of a workspace that moves. -/
def State.moveEvents (s : State) (data : WorkspaceData) (moves : Bool) : List (ℕ × Event) :=
  if moves then sendWorkspaceEnterLeave s.workspaceGroups data false else []

theorem refreshExisting_recreate (hr : (State.update data state output wsIdx ws).2.recreate = true) :
    (s.refreshExisting data state output wsIdx ws).1 =
      { s with
        next := s.next + s.instances.length
        workspaces := s.workspaces.insert ws.id { (State.update data state output wsIdx ws).1 with
          instances := newHandles s.next s.instances }
        sent := s.sent ++
          (s.moveEvents data (State.update data state output wsIdx ws).2.output ++
            (removeWorkspaceInstances s.workspaceGroups (State.update data state output wsIdx ws).1 ++
              (sendEach (newHandles s.next s.instances) (fun handle =>
                (State.update data state output wsIdx ws).1.announce handle.object) ++
                sendWorkspaceEnterLeave s.workspaceGroups
                  { (State.update data state output wsIdx ws).1 with
                    instances := newHandles s.next s.instances } true))) } := by
  cases hm : (State.update data state output wsIdx ws).2.output <;>
    simp [State.refreshExisting, hr, hm, State.send, State.addInstances, State.moveEvents,
      WorkspaceData.announce]

theorem refreshExisting_keep (hr : (State.update data state output wsIdx ws).2.recreate = false) :
    (s.refreshExisting data state output wsIdx ws).1 =
      { s with
        workspaces := s.workspaces.insert ws.id (State.update data state output wsIdx ws).1
        sent := s.sent ++
          (s.moveEvents data (State.update data state output wsIdx ws).2.output ++
            ((if (State.update data state output wsIdx ws).2.output then
                sendWorkspaceEnterLeave s.workspaceGroups (State.update data state output wsIdx ws).1 true
              else []) ++
              sendEach (State.update data state output wsIdx ws).1.instances fun handle =>
                State.changeEvents (State.update data state output wsIdx ws).1
                  (State.update data state output wsIdx ws).2 handle.object)) } := by
  cases hm : (State.update data state output wsIdx ws).2.output <;>
    simp [State.refreshExisting, hr, hm, State.send, State.moveEvents]

theorem changeEvents_ne_done {changes : State.Changes} {h : ℕ} :
    Event.done ∉ State.changeEvents data changes h := by
  unfold State.changeEvents
  cases data.id <;> cases changes.idSet <;> cases changes.name <;> cases changes.coordinates <;>
    cases changes.state <;> simp

theorem moveEvents_ne_done {moves : Bool} : ∀ x ∈ s.moveEvents data moves, x.2 ≠ .done := by
  unfold State.moveEvents
  split_ifs
  · exact enterLeave_ne_done
  · simp

/-- A workspace that moves leaves its group. -/
theorem Mirrors.run_move {k h : ℕ} {moves : Bool} (hm : Mirrors s m v)
    (hd : s.workspaces.get k = some data) (hh : data.instances.filter (·.manager = m) = [⟨m, h⟩]) :
    run View.apply v (stream m (s.moveEvents data moves)) =
      some (v.set h (some (data.shown
        (if moves then none else groupOf s.workspaceGroups m data.output)))) := by
  have hshows := hm.shows k data h hd (objectOf_of_filter hh)
  cases moves with
  | true => exact run_leaveGroup hm.oneGroup hh (fun g hg => hm.groups_of_groupOf hg) hshows rfl
  | false =>
    rw [if_neg (by simp), View.set_self hshows]
    rfl

theorem instances_update : (State.update data state output wsIdx ws).1.instances = data.instances := rfl

theorem moves_iff : (State.update data state output wsIdx ws).2.output = false ↔ data.output = output := by
  simp [State.update]

theorem recreate_iff : (State.update data state output wsIdx ws).2.recreate = true ↔
    data.id.isSome ∧ data.id ≠ ws.name := by
  simp [State.update, and_comm]

theorem sends_recreate (hr : (State.update data state output wsIdx ws).2.recreate = true)
    (hd : s.workspaces.get ws.id = some data)
    (hmoves : data.output ≠ output → ∀ o, output = some o → s.workspaceGroups.get o = none) :
    Sends s (s.refreshExisting data state output wsIdx ws).1 := by
  rw [refreshExisting_recreate hr]
  refine ⟨rfl, fun hknown => known_insert hknown rfl rfl rfl fun x hx => manager_newHandles hx, _, rfl,
    fun x hx => ?_, fun hn m hmem v hm => ?_⟩
  · rcases mem_append.mp hx with hx | hx
    · exact moveEvents_ne_done x hx
    · rcases mem_append.mp hx with hx | hx
      · exact removeInstances_ne_done x hx
      · rcases mem_append.mp hx with hx | hx
        · exact sendEach_ne_done (fun _ => announce_ne_done) x hx
        · exact enterLeave_ne_done x hx
  · obtain ⟨h, hone⟩ := hm.one ws.id data hd
    obtain ⟨h', hone', hle, hlt⟩ := one_newHandles s.next hn hmem
    have hfresh : v.workspaces h' = none := by
      by_contra hsome
      have := hm.fresh h' (isSome_iff_ne_none.mpr hsome)
      omega
    have hlive : (v.workspaces h).isSome := by
      rw [hm.shows ws.id data h hd (objectOf_of_filter hone)]
      rfl
    have hne : h' ≠ h := by
      rintro rfl
      rw [hfresh] at hlive
      cases hlive
    -- After the move, the handle is in the group that the new data says it is in.
    have hgroup : (if (State.update data state output wsIdx ws).2.output then none
        else groupOf s.workspaceGroups m data.output) = groupOf s.workspaceGroups m output := by
      cases hout : (State.update data state output wsIdx ws).2.output with
      | false => rw [if_neg (by simp), moves_iff.mp hout]
      | true =>
        have hdiffers : data.output ≠ output := fun heq => by simp [moves_iff.mpr heq] at hout
        rw [if_pos rfl]
        cases output with
        | none => rfl
        | some o => rw [groupOf, bind_some, hmoves hdiffers o rfl, bind_none]
    let newData := (State.update data state output wsIdx ws).1
    refine ⟨(v.set h none).set h' (some (newData.shown (groupOf s.workspaceGroups m output))), ?_, ?_⟩
    · have hremove : run View.apply
          (v.set h (some (data.shown (if (State.update data state output wsIdx ws).2.output then none
            else groupOf s.workspaceGroups m data.output))))
          (stream m (removeWorkspaceInstances s.workspaceGroups newData)) =
          some (v.set h none) := by
        refine Eq.trans (run_removeInstances hm.oneGroup hone (fun g hg => hm.groups_of_groupOf hg)
          View.set_workspaces_self hgroup) ?_
        rw [View.set_set]
      rw [stream_append, run_append, hm.run_move hd hone, bind_some, stream_append, run_append,
        hremove, bind_some, stream_append]
      refine run_announceEnter (d := newData) hm.oneGroup hone' (fun g hg => hm.groups_of_groupOf hg) ?_
      rw [View.set_workspaces, if_neg hne, hfresh]
    · refine hm.insert h' rfl rfl (Nat.le_add_right ..) hone' hlt ?_ rfl
        View.set_workspaces_self ?_ ?_
      · intro k' d _ hd' hobj
        rw [hm.shows k' d h' hd' hobj] at hfresh
        cases hfresh
      · intro d x hd' hobj hx
        obtain rfl := some.inj (hd.symm.trans hd')
        obtain rfl := some.inj ((objectOf_of_filter hone).symm.trans hobj)
        rw [View.set_workspaces, if_neg hx, View.set_workspaces_self]
      · intro x hx hnot
        have hxh : x ≠ h := by
          rintro rfl
          exact hnot data hd (objectOf_of_filter hone)
        rw [View.set_workspaces, if_neg hx, View.set_workspaces, if_neg hxh]

theorem sends_keep (hr : (State.update data state output wsIdx ws).2.recreate = false)
    (hd : s.workspaces.get ws.id = some data) :
    Sends s (s.refreshExisting data state output wsIdx ws).1 := by
  rw [refreshExisting_keep hr]
  refine ⟨rfl, fun hknown => known_insert hknown rfl rfl rfl (hknown.workspaces ws.id data hd), _, rfl,
    fun x hx => ?_, fun hn m hmem v hm => ?_⟩
  · rcases mem_append.mp hx with hx | hx
    · exact moveEvents_ne_done x hx
    · rcases mem_append.mp hx with hx | hx
      · split_ifs at hx
        · exact enterLeave_ne_done x hx
        · cases hx
      · exact sendEach_ne_done (fun _ => changeEvents_ne_done) x hx
  · obtain ⟨h, hone⟩ := hm.one ws.id data hd
    let newData := (State.update data state output wsIdx ws).1
    have henter : run View.apply
        (v.set h (some (data.shown (if (State.update data state output wsIdx ws).2.output then none
          else groupOf s.workspaceGroups m data.output))))
        (stream m (if (State.update data state output wsIdx ws).2.output then
          sendWorkspaceEnterLeave s.workspaceGroups newData true else [])) =
        some (v.set h (some (data.shown (groupOf s.workspaceGroups m output)))) := by
      cases hout : (State.update data state output wsIdx ws).2.output with
      | false =>
        rw [if_neg (by simp), if_neg (by simp), moves_iff.mp hout]
        rfl
      | true =>
        rw [if_pos rfl, if_pos rfl]
        refine Eq.trans (run_enterGroup hm.oneGroup hone (fun g hg => hm.groups_of_groupOf hg)
          View.set_workspaces_self rfl) ?_
        rw [View.set_set]
        rfl
    refine ⟨v.set h (some (newData.shown (groupOf s.workspaceGroups m output))), ?_, ?_⟩
    · rw [stream_append, run_append, hm.run_move hd hone, bind_some, stream_append, run_append,
        henter, bind_some, instances_update, stream_sendEach_one hone,
        run_changeEvents View.set_workspaces_self (tells_update hr), View.set_set]
    · refine hm.insert h rfl rfl (Nat.le_refl _) hone ?_ ?_ rfl View.set_workspaces_self ?_ ?_
      · exact hm.fresh h (by rw [hm.shows ws.id data h hd (objectOf_of_filter hone)]; rfl)
      · intro k' d hk hd' hobj
        exact hk (hm.distinct k' ws.id d data h hd' hd hobj (objectOf_of_filter hone))
      · intro d x hd' hobj hx
        obtain rfl := some.inj (hd.symm.trans hd')
        exact absurd (some.inj (hobj.symm.trans (objectOf_of_filter hone))) hx
      · intro x hx _
        rw [View.set_workspaces, if_neg hx]

theorem sends_refreshWorkspace {mon : Option Monitor} (h : s.Moves mon ws) :
    Sends s (s.refreshWorkspace mon wsIdx ws).1 := by
  unfold State.refreshWorkspace
  dsimp only
  cases hd : s.workspaces.get ws.id with
  | none => exact sends_refreshNew hd
  | some data =>
    cases hr : (State.update data (State.workspaceState mon wsIdx ws) (mon.map (·.output)) wsIdx
        ws).2.recreate with
    | true =>
      obtain ⟨hsome, hne⟩ := recreate_iff.mp hr
      exact sends_recreate hr hd (h data hd hsome hne)
    | false => exact sends_keep hr hd

end Existing

end Sends

end Macniri.ExtWorkspace
