import Macniri.ExtWorkspace.Managers

/-! Whole runs: managers mirror the last snapshot that was refreshed. -/
namespace Macniri.ExtWorkspace

open Option List HashMap

/-- Ids are unique, and workspaces are on connected outputs; there are not 2³² workspaces on one. -/
structure Snapshot.WellFormed (snapshot : Snapshot) : Prop where
  ids : (snapshot.workspaces.map (·.2.2.id)).Nodup
  connected : ∀ e ∈ snapshot.workspaces, ∀ mon, e.1 = some mon → mon.output ∈ snapshot.sortedOutputs
  indices : ∀ e ∈ snapshot.workspaces, e.2.1 < 2 ^ 32

/-- The data of a workspace is up to date. -/
structure UpToDate (e : Option Monitor × ℕ × Workspace) (d : WorkspaceData) : Prop where
  id : d.id = e.2.2.name
  name : d.name = buildName e.2.2 e.2.1
  coordinates : d.coordinates = (0, e.2.1)
  state : d.state = State.workspaceState e.1 e.2.1 e.2.2
  output : d.output = e.1.map (·.output)

/-- The workspaces and groups are those of a snapshot. -/
structure Current (s : State) (snapshot : Snapshot) : Prop where
  workspaces : ∀ k d, s.workspaces.get k = some d →
    ∃ e ∈ snapshot.workspaces, e.2.2.id = k ∧ UpToDate e d
  complete : ∀ e ∈ snapshot.workspaces, ∃ d, s.workspaces.get e.2.2.id = some d
  groups : ∀ o, (s.workspaceGroups.get o).isSome ↔ o ∈ snapshot.sortedOutputs

/-- The name of an unnamed workspace is its index. -/
def WorkspaceData.Named (d : WorkspaceData) : Prop :=
  d.coordinates.1 = 0 ∧ d.name = d.id.getD (toString (d.coordinates.2 + 1))

variable {s s' : State} {k : ℕ} {snapshot : Snapshot}

theorem UpToDate.named {e : Option Monitor × ℕ × Workspace} {d : WorkspaceData} (h : UpToDate e d) :
    d.Named := by
  refine ⟨by rw [h.coordinates], ?_⟩
  rw [h.name, h.id, h.coordinates]
  rfl

section Update

variable {state : WorkspaceState} {output : Option ℕ} {wsIdx : ℕ} {ws : Workspace} {d : WorkspaceData}

theorem name_update : (State.update d state output wsIdx ws).1.name =
    if (State.update d state output wsIdx ws).2.name then buildName ws wsIdx else d.name := rfl

/-- Without a new name, the one before is right. -/
theorem name_of_unchanged (hn : d.Named) (hidx : asU32 wsIdx = wsIdx)
    (hname : (State.update d state output wsIdx ws).2.name = false) : d.name = buildName ws wsIdx := by
  simp only [State.update, Bool.and_eq_false_iff, Bool.or_eq_false_iff, decide_eq_false_iff_not,
    not_not, hidx] at hname
  rcases hname with ⟨hrecreate, hcheck⟩ | hname
  case inr => exact hname
  case inl =>
    rw [hn.2]
    unfold buildName
    cases hws : ws.name with
    | some name =>
      simp only [hws, isSome_some, if_true, Bool.and_eq_false_iff, decide_eq_false_iff_not,
        not_not] at hcheck hrecreate
      have hid : d.id = some name := by
        rcases hcheck with hcheck | hcheck
        · exact hcheck
        · rcases hrecreate with hrecreate | hrecreate
          · exact hrecreate
          · simp_all
      rw [hid]
      rfl
    | none =>
      simp only [hws, isSome_none, Bool.false_eq_true, if_false, decide_eq_false_iff_not,
        not_not] at hcheck hrecreate
      have hid : d.id = none := by
        rcases hrecreate with hrecreate | hrecreate
        · exact hrecreate
        · simpa using hrecreate
      rw [hid, hcheck]

end Update

theorem upToDate_update (mon : Option Monitor) {wsIdx : ℕ} (ws : Workspace) {d : WorkspaceData}
    (hn : d.Named) (hlt : wsIdx < 2 ^ 32) :
    UpToDate (mon, wsIdx, ws)
      (State.update d (State.workspaceState mon wsIdx ws) (mon.map (·.output)) wsIdx ws).1 := by
  have hidx : asU32 wsIdx = wsIdx := Nat.mod_eq_of_lt hlt
  refine ⟨rfl, ?_, ?_, rfl, rfl⟩
  · rw [name_update]
    split_ifs with hname
    · rfl
    · exact name_of_unchanged hn hidx (by simpa using hname)
  · simp only [State.update, hidx, hn.1]

/-! What the parts of a refresh do to the workspaces and groups. -/

theorem get_removeWorkspace (k k' : ℕ) : (s.removeWorkspace k).workspaces.get k' =
    if k' = k then none else s.workspaces.get k' := by
  unfold State.removeWorkspace
  cases hd : s.workspaces.get k with
  | none =>
    split_ifs with heq
    · rw [heq, hd]
    · rfl
  | some d => exact get_remove

theorem groups_removeWorkspace : (s.removeWorkspace k).workspaceGroups = s.workspaceGroups := by
  unfold State.removeWorkspace
  split <;> rfl

theorem get_removeGroup (ord : IterOrder) (o o' : ℕ) : (s.removeGroup ord o).workspaceGroups.get o' =
    if o' = o then none else s.workspaceGroups.get o' := by
  unfold State.removeGroup
  cases hd : s.workspaceGroups.get o with
  | none =>
    split_ifs with heq
    · rw [heq, hd]
    · rfl
  | some d => exact get_remove

theorem workspaces_removeGroup (ord : IterOrder) (o : ℕ) :
    (s.removeGroup ord o).workspaces = s.workspaces := by
  unfold State.removeGroup
  split <;> rfl

theorem get_refreshWorkspace (mon : Option Monitor) (wsIdx : ℕ) (ws : Workspace)
    (hn : ∀ d, s.workspaces.get ws.id = some d → d.Named) (hlt : wsIdx < 2 ^ 32) :
    (s.refreshWorkspace mon wsIdx ws).1.workspaceGroups = s.workspaceGroups ∧
      ∃ d, UpToDate (mon, wsIdx, ws) d ∧
        (s.refreshWorkspace mon wsIdx ws).1.workspaces = s.workspaces.insert ws.id d := by
  unfold State.refreshWorkspace
  dsimp only
  cases hd : s.workspaces.get ws.id with
  | none =>
    refine ⟨rfl, ⟨ws.name, buildName ws wsIdx, (0, asU32 wsIdx), State.workspaceState mon wsIdx ws,
      newHandles s.next s.instances, mon.map (·.output)⟩, ⟨rfl, rfl, ?_, rfl, rfl⟩, rfl⟩
    rw [asU32, Nat.mod_eq_of_lt hlt]
  | some data =>
    have hupdate := upToDate_update mon ws (hn data hd) hlt
    cases hr : (State.update data (State.workspaceState mon wsIdx ws) (mon.map (·.output)) wsIdx
        ws).2.recreate with
    | true =>
      simp only [refreshExisting_recreate hr]
      refine ⟨trivial, _, ?_, rfl⟩
      exact ⟨hupdate.id, hupdate.name, hupdate.coordinates, hupdate.state, hupdate.output⟩
    | false =>
      simp only [refreshExisting_keep hr]
      exact ⟨trivial, _, hupdate, rfl⟩

theorem get_refreshWorkspaceGroup (ord : IterOrder) (o o' : ℕ) :
    (s.refreshWorkspaceGroup ord o).1.workspaces = s.workspaces ∧
      (((s.refreshWorkspaceGroup ord o).1.workspaceGroups.get o').isSome ↔
        o' = o ∨ (s.workspaceGroups.get o').isSome) := by
  unfold State.refreshWorkspaceGroup
  split_ifs with hsome
  · refine ⟨rfl, ?_⟩
    simp only [iff_or_self]
    rintro rfl
    exact hsome
  · refine ⟨rfl, ?_⟩
    change ((s.workspaceGroups.insert o _).get o').isSome ↔ _
    rw [get_insert]
    split_ifs with heq <;> simp [heq]

/-! When nothing changed, nothing was sent. -/

theorem sent_of_unchanged {α : Type} {f : State → α → State × Bool} {xs : List α}
    (hf : ∀ s x, (f s x).2 = false → (f s x).1.sent = s.sent) (h : (s.each f xs).2 = false) :
    (s.each f xs).1.sent = s.sent := by
  refine each_rule (I := fun s' b _ => b = false → s'.sent = s.sent) ?_ (fun _ => rfl) h
  intro s' b x _ hs hb
  obtain ⟨hb, hx⟩ := Bool.or_eq_false_iff.mp hb
  exact (hf s' x hx).trans (hs hb)

theorem sent_refreshWorkspace {mon : Option Monitor} {wsIdx : ℕ} {ws : Workspace}
    (h : (s.refreshWorkspace mon wsIdx ws).2 = false) :
    (s.refreshWorkspace mon wsIdx ws).1.sent = s.sent := by
  unfold State.refreshWorkspace at h ⊢
  dsimp only at h ⊢
  cases hd : s.workspaces.get ws.id with
  | none =>
    rw [hd] at h
    cases h
  | some data =>
    rw [hd] at h
    simp only at h ⊢
    cases hr : (State.update data (State.workspaceState mon wsIdx ws) (mon.map (·.output)) wsIdx
        ws).2.recreate with
    | true => simp [State.refreshExisting, hr] at h
    | false =>
      rw [refreshExisting_keep hr]
      simp only [State.refreshExisting, hr, Bool.false_eq_true, if_false, Bool.or_eq_false_iff] at h
      obtain ⟨⟨⟨⟨houtput, hid⟩, hname⟩, hcoordinates⟩, hstate⟩ := h
      simp [State.moveEvents, State.changeEvents, houtput, hid, hname, hcoordinates, hstate, sendEach]

theorem sent_refreshWorkspaceGroup (ord : IterOrder) {o : ℕ}
    (h : (s.refreshWorkspaceGroup ord o).2 = false) :
    (s.refreshWorkspaceGroup ord o).1.sent = s.sent := by
  unfold State.refreshWorkspaceGroup at h ⊢
  split_ifs at h ⊢
  rfl

/-! A refresh. -/

/-- No workspace that is renamed moves to another output that has a group, in the same refresh. -/
def State.MovesAll (s : State) (snapshot : Snapshot) : Prop :=
  ∀ e ∈ snapshot.workspaces, s.Moves e.1 e.2.2

theorem removeWorkspaces_spec (s : State) (gone : List ℕ) :
    Sends s (s.each (fun s id => (s.removeWorkspace id, true)) gone).1 ∧
      (s.each (fun s id => (s.removeWorkspace id, true)) gone).1.workspaceGroups = s.workspaceGroups ∧
      ∀ k, (s.each (fun s id => (s.removeWorkspace id, true)) gone).1.workspaces.get k =
        if k ∈ gone then none else s.workspaces.get k := by
  obtain ⟨hsends, pre, hpre, hgroups, hget⟩ := sends_each
    (P := fun s' rest => ∃ pre, pre ++ rest = gone ∧ s'.workspaceGroups = s.workspaceGroups ∧
      ∀ k, s'.workspaces.get k = if k ∈ pre then none else s.workspaces.get k)
    (f := fun s id => (s.removeWorkspace id, true)) (l := gone) (s := s)
    (fun s' k rest ⟨pre, hpre, hgroups, hget⟩ => by
      refine ⟨sends_removeWorkspace k, pre ++ [k], by simpa using hpre,
        groups_removeWorkspace.trans hgroups, fun k' => ?_⟩
      rw [get_removeWorkspace, hget]
      by_cases heq : k' = k
      · simp [heq]
      · simp [heq])
    ⟨[], rfl, rfl, by simp⟩
  rw [append_nil] at hpre
  exact ⟨hsends, hgroups, hpre ▸ hget⟩

theorem removeGroups_spec (ord : IterOrder) (s : State) (gone : List ℕ) :
    Sends s (s.each (fun s o => (s.removeGroup ord o, true)) gone).1 ∧
      (s.each (fun s o => (s.removeGroup ord o, true)) gone).1.workspaces = s.workspaces ∧
      ∀ o, (s.each (fun s o => (s.removeGroup ord o, true)) gone).1.workspaceGroups.get o =
        if o ∈ gone then none else s.workspaceGroups.get o := by
  obtain ⟨hsends, pre, hpre, hworkspaces, hget⟩ := sends_each
    (P := fun s' rest => ∃ pre, pre ++ rest = gone ∧ s'.workspaces = s.workspaces ∧
      ∀ o, s'.workspaceGroups.get o = if o ∈ pre then none else s.workspaceGroups.get o)
    (f := fun s o => (s.removeGroup ord o, true)) (l := gone) (s := s)
    (fun s' o rest ⟨pre, hpre, hworkspaces, hget⟩ => by
      refine ⟨sends_removeGroup ord o, pre ++ [o], by simpa using hpre,
        (workspaces_removeGroup ord o).trans hworkspaces, fun o' => ?_⟩
      rw [get_removeGroup, hget]
      by_cases heq : o' = o
      · simp [heq]
      · simp [heq])
    ⟨[], rfl, rfl, by simp⟩
  rw [append_nil] at hpre
  exact ⟨hsends, hworkspaces, hpre ▸ hget⟩

theorem refreshWorkspaces_spec (hwf : snapshot.WellFormed) (hmoves : s.MovesAll snapshot)
    (hnamed : ∀ k d, s.workspaces.get k = some d → d.Named) :
    let s' := (s.each (fun s (mon, wsIdx, ws) => s.refreshWorkspace mon wsIdx ws)
      snapshot.workspaces).1
    Sends s s' ∧ s'.workspaceGroups = s.workspaceGroups ∧
      (∀ e ∈ snapshot.workspaces, ∃ d, s'.workspaces.get e.2.2.id = some d ∧ UpToDate e d) ∧
      ∀ k, k ∉ snapshot.workspaces.map (·.2.2.id) → s'.workspaces.get k = s.workspaces.get k := by
  obtain ⟨hsends, pre, hpre, hgroups, hdone, htodo⟩ := sends_each
    (P := fun s' rest => ∃ pre, pre ++ rest = snapshot.workspaces ∧
      s'.workspaceGroups = s.workspaceGroups ∧
      (∀ e ∈ pre, ∃ d, s'.workspaces.get e.2.2.id = some d ∧ UpToDate e d) ∧
      ∀ k, k ∉ pre.map (·.2.2.id) → s'.workspaces.get k = s.workspaces.get k)
    (f := fun s (mon, wsIdx, ws) => s.refreshWorkspace mon wsIdx ws) (l := snapshot.workspaces) (s := s)
    (fun s' e rest ⟨pre, hpre, hgroups, hdone, htodo⟩ => by
      obtain ⟨mon, wsIdx, ws⟩ := e
      have hmem : (mon, wsIdx, ws) ∈ snapshot.workspaces := by simp [← hpre]
      have hfirst : ∀ e ∈ pre, e.2.2.id ≠ ws.id := by
        intro e he heq
        have hn := hwf.ids
        rw [← hpre, map_append, nodup_append] at hn
        exact hn.2.2 _ (List.mem_map_of_mem he) _ (List.mem_map_of_mem (mem_cons_self ..)) heq
      have hbefore : s'.workspaces.get ws.id = s.workspaces.get ws.id := by
        refine htodo ws.id fun hid => ?_
        obtain ⟨e, he, heq⟩ := List.mem_map.mp hid
        exact hfirst e he heq
      have hmoves' : s'.Moves mon ws := by
        intro d hd hsome hne hout o ho
        rw [hgroups]
        exact hmoves _ hmem d (hbefore ▸ hd) hsome hne hout o ho
      obtain ⟨hgroups', d, hd, hinsert⟩ := get_refreshWorkspace (s := s') mon
        wsIdx ws (fun d hd => hnamed _ d (hbefore ▸ hd)) (hwf.indices _ hmem)
      refine ⟨sends_refreshWorkspace hmoves', pre ++ [(mon, wsIdx, ws)], by simpa using hpre,
        hgroups'.trans hgroups, fun e he => ?_, fun k hk => ?_⟩
      · rw [hinsert, get_insert]
        rcases mem_append.mp he with he | he
        · rw [if_neg (hfirst e he)]
          exact hdone e he
        · rw [mem_singleton.mp he, if_pos rfl]
          exact ⟨d, rfl, hd⟩
      · simp only [map_append, mem_append, map_cons, map_nil, mem_singleton,
          not_or] at hk
        rw [hinsert, get_insert, if_neg hk.2]
        exact htodo k hk.1)
    ⟨[], rfl, rfl, by simp, fun _ _ => rfl⟩
  rw [append_nil] at hpre
  exact ⟨hsends, hgroups, hpre ▸ hdone, hpre ▸ htodo⟩

theorem refreshGroups_spec (ord : IterOrder) (s : State) (outputs : List ℕ) :
    Sends s (s.each (fun s o => s.refreshWorkspaceGroup ord o) outputs).1 ∧
      (s.each (fun s o => s.refreshWorkspaceGroup ord o) outputs).1.workspaces = s.workspaces ∧
      ∀ o, ((s.each (fun s o => s.refreshWorkspaceGroup ord o) outputs).1.workspaceGroups.get o).isSome ↔
        o ∈ outputs ∨ (s.workspaceGroups.get o).isSome := by
  obtain ⟨hsends, pre, hpre, hworkspaces, hget⟩ := sends_each
    (P := fun s' rest => ∃ pre, pre ++ rest = outputs ∧ s'.workspaces = s.workspaces ∧
      ∀ o, (s'.workspaceGroups.get o).isSome ↔ o ∈ pre ∨ (s.workspaceGroups.get o).isSome)
    (f := fun s o => s.refreshWorkspaceGroup ord o) (l := outputs) (s := s)
    (fun s' o rest ⟨pre, hpre, hworkspaces, hget⟩ => by
      refine ⟨sends_refreshWorkspaceGroup ord o, pre ++ [o], by simpa using hpre,
        (get_refreshWorkspaceGroup ord o o).1.trans hworkspaces, fun o' => ?_⟩
      rw [(get_refreshWorkspaceGroup ord o o').2, hget]
      simp only [mem_append, mem_singleton]
      tauto)
    ⟨[], rfl, rfl, by simp⟩
  rw [append_nil] at hpre
  exact ⟨hsends, hworkspaces, hpre ▸ hget⟩

/-- A refresh sends what changed, ends with `done` if anything did, and is up to date afterwards. -/
theorem refresh_spec (ord : IterOrder) (hwf : snapshot.WellFormed) (hmoves : s.MovesAll snapshot)
    (hnamed : ∀ k d, s.workspaces.get k = some d → d.Named) :
    ∃ s' changed, s.refresh ord snapshot =
        (if changed then s'.send (s'.instances.map (·, .done)) else s') ∧
      Sends s s' ∧ (changed = false → s'.sent = s.sent) ∧ Current s' snapshot := by
  let gone := ((ord.iter s.workspaces).map Sigma.fst).filter (· ∉ snapshot.workspaces.map (·.2.2.id))
  obtain ⟨hsends₁, hgroups₁, hget₁⟩ := removeWorkspaces_spec s gone
  let r₁ := s.each (fun s id => (s.removeWorkspace id, true)) gone
  let goneOutputs := ((ord.iter r₁.1.workspaceGroups).map Sigma.fst).filter
    (· ∉ snapshot.sortedOutputs)
  obtain ⟨hsends₂, hworkspaces₂, hget₂⟩ := removeGroups_spec ord r₁.1 goneOutputs
  let r₂ := r₁.1.each (fun s o => (s.removeGroup ord o, true)) goneOutputs
  -- A workspace that is still there is as before, and so is the group of an output that is.
  have hkept : ∀ k, k ∈ snapshot.workspaces.map (·.2.2.id) →
      r₂.1.workspaces.get k = s.workspaces.get k := by
    intro k hk
    rw [hworkspaces₂, hget₁, if_neg]
    intro hmem
    simpa [hk] using (mem_filter.mp hmem).2
  have hfrom : ∀ k d, r₂.1.workspaces.get k = some d → s.workspaces.get k = some d := by
    intro k d hd
    rw [hworkspaces₂, hget₁] at hd
    split_ifs at hd
    exact hd
  have hgroupsFrom : ∀ o, s.workspaceGroups.get o = none → r₂.1.workspaceGroups.get o = none := by
    intro o ho
    rw [hget₂, hgroups₁, ho]
    simp
  have hmoves₂ : r₂.1.MovesAll snapshot := by
    intro e he d hd hsome hne hout o ho
    exact hgroupsFrom o (hmoves e he d (hfrom _ d hd) hsome hne hout o ho)
  obtain ⟨hsends₃, hgroups₃, hdone₃, htodo₃⟩ := refreshWorkspaces_spec hwf hmoves₂
    fun k d hd => hnamed k d (hfrom k d hd)
  let r₃ := r₂.1.each (fun s (mon, wsIdx, ws) => s.refreshWorkspace mon wsIdx ws) snapshot.workspaces
  obtain ⟨hsends₄, hworkspaces₄, hget₄⟩ := refreshGroups_spec ord r₃.1 snapshot.sortedOutputs
  let r₄ := r₃.1.each (fun s o => s.refreshWorkspaceGroup ord o) snapshot.sortedOutputs
  refine ⟨r₄.1, r₁.2 || r₂.2 || r₃.2 || r₄.2, rfl,
    hsends₁.trans (hsends₂.trans (hsends₃.trans hsends₄)), fun hchanged => ?_, ?_⟩
  · simp only [Bool.or_eq_false_iff] at hchanged
    obtain ⟨⟨⟨h₁, h₂⟩, h₃⟩, h₄⟩ := hchanged
    have hsent₁ : r₁.1.sent = s.sent := sent_of_unchanged (by simp) h₁
    have hsent₂ : r₂.1.sent = r₁.1.sent := sent_of_unchanged (by simp) h₂
    have hsent₃ : r₃.1.sent = r₂.1.sent :=
      sent_of_unchanged (fun _ _ h => sent_refreshWorkspace h) h₃
    have hsent₄ : r₄.1.sent = r₃.1.sent :=
      sent_of_unchanged (fun _ _ h => sent_refreshWorkspaceGroup ord h) h₄
    rw [hsent₄, hsent₃, hsent₂, hsent₁]
  · constructor
    · intro k d hd
      rw [hworkspaces₄] at hd
      by_cases hk : k ∈ snapshot.workspaces.map (·.2.2.id)
      · obtain ⟨e, he, rfl⟩ := List.mem_map.mp hk
        obtain ⟨d', hd', hup⟩ := hdone₃ e he
        obtain rfl := some.inj (hd.symm.trans hd')
        exact ⟨e, he, rfl, hup⟩
      · rw [htodo₃ k hk] at hd
        have hold := hfrom k d hd
        rw [hworkspaces₂, hget₁, if_pos] at hd
        · cases hd
        · refine mem_filter.mpr ⟨?_, by simpa using hk⟩
          exact List.mem_map.mpr ⟨⟨k, d⟩, (mem_iter ord).mpr hold, rfl⟩
    · intro e he
      obtain ⟨d, hd, -⟩ := hdone₃ e he
      exact ⟨d, by rw [hworkspaces₄, hd]⟩
    · intro o
      rw [hget₄, hgroups₃, hget₂]
      constructor
      · rintro (ho | ho)
        · exact ho
        · by_contra hnot
          split_ifs at ho with hmem
          · cases ho
          · refine hmem (mem_filter.mpr ⟨?_, by simpa using hnot⟩)
            obtain ⟨d, hd⟩ := isSome_iff_exists.mp ho
            exact List.mem_map.mpr ⟨⟨o, d⟩, (mem_iter ord).mpr hd, rfl⟩
      · exact .inl

/-! Runs. -/

/-- The last snapshot that was refreshed. -/
def lastSnapshot (xs : List Step) : Snapshot :=
  xs.foldl (fun last x => match x with
    | .refresh _ snapshot => snapshot
    | _ => last) ⟨[], []⟩

theorem lastSnapshot_concat (xs : List Step) (x : Step) : lastSnapshot (xs ++ [x]) =
    match x with
    | .refresh _ snapshot => snapshot
    | _ => lastSnapshot xs := by
  unfold lastSnapshot
  rw [foldl_append, foldl_cons, foldl_nil]

/-- There is one live handle for each workspace and one live group for each output, and each handle shows
its workspace as it is and is in the group of its output. -/
def View.Shows (v : View) (snapshot : Snapshot) : Prop :=
  ∃ handle group : ℕ → ℕ,
    (∀ e ∈ snapshot.workspaces, ∀ e' ∈ snapshot.workspaces,
      handle e.2.2.id = handle e'.2.2.id → e.2.2.id = e'.2.2.id) ∧
    (∀ o ∈ snapshot.sortedOutputs, ∀ o' ∈ snapshot.sortedOutputs, group o = group o' → o = o') ∧
    (∀ h, (v.workspaces h).isSome ↔ ∃ e ∈ snapshot.workspaces, handle e.2.2.id = h) ∧
    (∀ g, v.groups g = true ↔ ∃ o ∈ snapshot.sortedOutputs, group o = g) ∧
    ∀ e ∈ snapshot.workspaces, v.workspaces (handle e.2.2.id) =
      some ⟨e.2.2.name, some (buildName e.2.2 e.2.1), some (0, e.2.1),
        some (State.workspaceState e.1 e.2.1 e.2.2), (e.1.map (·.output)).map group⟩

/-- The condition on a refresh. -/
def State.Follows (s : State) : Step → Prop
  | .refresh _ snapshot => s.MovesAll snapshot
  | _ => True

/-- Nothing, or events that end with the only `done` among them. -/
def EndsDone (events : List Event) : Prop :=
  events = [] ∨ ∃ body, Event.done ∉ body ∧ events = body ++ [.done]

theorem Current.congr (m : ℕ) (h : Current s snapshot)
    (hW : ∀ k, (s'.workspaces.get k).map (·.restrict m) = (s.workspaces.get k).map (·.restrict m))
    (hG : ∀ o, (s'.workspaceGroups.get o).map (·.restrict m) =
      (s.workspaceGroups.get o).map (·.restrict m)) : Current s' snapshot := by
  constructor
  · intro k d' hd'
    have hk := hW k
    rw [hd', map_some] at hk
    obtain ⟨d, hd, heq⟩ := of_map hk.symm
    obtain ⟨e, he, hid, hup⟩ := h.workspaces k d hd
    have hup' : UpToDate e (d.restrict m) := ⟨hup.id, hup.name, hup.coordinates, hup.state, hup.output⟩
    rw [heq] at hup'
    exact ⟨e, he, hid, hup'.id, hup'.name, hup'.coordinates, hup'.state, hup'.output⟩
  · intro e he
    obtain ⟨d, hd⟩ := h.complete e he
    have hk := hW e.2.2.id
    rw [hd, map_some] at hk
    obtain ⟨d', hd', -⟩ := of_map hk
    exact ⟨d', hd'⟩
  · intro o
    rw [← h.groups o, ← isSome_map, hG o, isSome_map]

theorem Mirrors.shows_current {m : ℕ} {v : View} (hm : Mirrors s m v) (h : Current s snapshot)
    (hwf : snapshot.WellFormed) : v.Shows snapshot := by
  let handle := fun k => ((s.workspaces.get k).bind fun d => objectOf m d.instances).getD 0
  let group := fun o => ((s.workspaceGroups.get o).bind fun d => objectOf m d.instances).getD 0
  have hhandle : ∀ k d, s.workspaces.get k = some d → objectOf m d.instances = some (handle k) := by
    intro k d hd
    obtain ⟨x, hx⟩ := (hm.one k d hd).exists_objectOf
    simp [handle, hd, hx]
  have hgroup : ∀ o d, s.workspaceGroups.get o = some d → objectOf m d.instances = some (group o) := by
    intro o d hd
    obtain ⟨x, hx⟩ := (hm.oneGroup o d hd).exists_objectOf
    simp [group, hd, hx]
  refine ⟨handle, group, fun e he e' he' heq => ?_, fun o ho o' ho' heq => ?_, fun x => ⟨fun hx => ?_,
    ?_⟩, fun g => ⟨fun hg => ?_, ?_⟩, fun e he => ?_⟩
  · obtain ⟨d, hd⟩ := h.complete e he
    obtain ⟨d', hd'⟩ := h.complete e' he'
    exact hm.distinct _ _ d d' _ hd hd' (hhandle _ d hd) (heq ▸ hhandle _ d' hd')
  · obtain ⟨d, hd⟩ := isSome_iff_exists.mp ((h.groups o).mpr ho)
    obtain ⟨d', hd'⟩ := isSome_iff_exists.mp ((h.groups o').mpr ho')
    exact hm.distinctGroups _ _ d d' _ hd hd' (hgroup _ d hd) (heq ▸ hgroup _ d' hd')
  · obtain ⟨k, d, hd, hobj⟩ := hm.live x hx
    obtain ⟨e, he, rfl, -⟩ := h.workspaces k d hd
    exact ⟨e, he, some.inj ((hhandle _ d hd).symm.trans hobj)⟩
  · rintro ⟨e, he, rfl⟩
    obtain ⟨d, hd⟩ := h.complete e he
    rw [hm.shows _ d _ hd (hhandle _ d hd)]
    rfl
  · obtain ⟨o, d, hd, hobj⟩ := (hm.groups g).mp hg
    refine ⟨o, (h.groups o).mp (by rw [hd]; rfl), ?_⟩
    exact some.inj ((hgroup o d hd).symm.trans hobj)
  · rintro ⟨o, ho, rfl⟩
    obtain ⟨d, hd⟩ := isSome_iff_exists.mp ((h.groups o).mpr ho)
    exact (hm.groups _).mpr ⟨o, d, hd, hgroup o d hd⟩
  · obtain ⟨d, hd⟩ := h.complete e he
    obtain ⟨e', he', hid, hup⟩ := h.workspaces _ d hd
    obtain rfl : e' = e := inj_on_of_nodup_map hwf.ids he' he hid
    have hout : groupOf s.workspaceGroups m (e'.1.map (·.output)) = (e'.1.map (·.output)).map group := by
      cases hmon : e'.1 with
      | none => rfl
      | some mon =>
        obtain ⟨gd, hgd⟩ := isSome_iff_exists.mp
          ((h.groups mon.output).mpr (hwf.connected e' he' mon hmon))
        simp only [map_some, groupOf, bind_some, hgd]
        exact hgroup mon.output gd hgd
    rw [hm.shows _ d _ hd (hhandle _ d hd), WorkspaceData.shown, hup.id, hup.name, hup.coordinates,
      hup.state, hup.output, hout]

theorem stream_done {m : ℕ} {managers : List ℕ} (hn : managers.Nodup) (hm : m ∈ managers) :
    stream m (managers.map (·, Event.done)) = [.done] := by
  induction managers with
  | nil => cases hm
  | cons m' managers ih =>
    obtain ⟨hnot, hn⟩ := nodup_cons.mp hn
    have hcons : (m' :: managers).map (·, Event.done) =
        [Event.done].map (m', ·) ++ managers.map (·, Event.done) := rfl
    rw [hcons, stream_append]
    by_cases heq : m' = m
    · subst heq
      have hnone : stream m' (managers.map (·, Event.done)) = [] := by
        unfold stream
        rw [filterMap_eq_nil_iff]
        intro x hx
        obtain ⟨m'', hm'', rfl⟩ := List.mem_map.mp hx
        rw [if_neg]
        rintro rfl
        exact hnot hm''
      rw [stream_map_self, hnone, append_nil]
    · rw [stream_map_other heq, nil_append]
      exact ih hn ((mem_cons.mp hm).resolve_left (Ne.symm heq))

theorem State.Inv.sendDone (h : s.Inv) : (s.send (s.instances.map (·, .done))).Inv := by
  refine ⟨h.nodup, ⟨h.known.workspaces, h.known.groups⟩, fun m hm => ?_, fun m hm => ?_⟩
  · obtain ⟨v, hv, hmirrors⟩ := h.mirror m hm
    refine ⟨v, ?_, hmirrors.congr (fun _ => rfl) (fun _ => rfl) (Nat.le_refl _)⟩
    change viewOf m (s.sent ++ s.instances.map (·, Event.done)) = some v
    rw [viewOf_append, hv, stream_done h.nodup hm]
    rfl
  · change m ∈ (s.sent ++ s.instances.map (·, Event.done)).map Prod.fst
    rw [map_append]
    exact mem_append_left _ (h.bound m hm)

/-- What a step sends to a manager that is bound after it. -/
def Tidy (s s' : State) : Prop :=
  ∀ m ∈ s'.instances, ∃ events, stream m s'.sent = stream m s.sent ++ events ∧ EndsDone events

theorem done_notMem_stream {m : ℕ} {events : List (ℕ × Event)} (h : ∀ x ∈ events, x.2 ≠ .done) :
    Event.done ∉ stream m events := by
  unfold stream
  rw [mem_filterMap]
  rintro ⟨x, hx, heq⟩
  split_ifs at heq
  exact h x hx (some.inj heq)

theorem step_refresh (h : s.Inv) (hnamed : ∀ k d, s.workspaces.get k = some d → d.Named)
    (hwf : snapshot.WellFormed) (hmoves : s.MovesAll snapshot) (ord : IterOrder) :
    (s.refresh ord snapshot).Inv ∧ Current (s.refresh ord snapshot) snapshot ∧
      Tidy s (s.refresh ord snapshot) := by
  obtain ⟨s', changed, heq, hsends, hsame, hcurrent⟩ := refresh_spec ord hwf hmoves hnamed
  have hinv := h.sends hsends
  rw [heq]
  cases changed with
  | false =>
    refine ⟨hinv, hcurrent, fun m _ => ⟨[], ?_, .inl rfl⟩⟩
    rw [if_neg (by simp), hsame rfl, append_nil]
  | true =>
    obtain ⟨events, hsent, hdone, -⟩ := hsends.sent
    refine ⟨hinv.sendDone, ⟨hcurrent.workspaces, hcurrent.complete, hcurrent.groups⟩,
      fun m hm => ⟨stream m events ++ [.done], ?_, .inr ⟨_, done_notMem_stream hdone, rfl⟩⟩⟩
    change stream m (s'.sent ++ s'.instances.map (·, Event.done)) = _
    rw [stream_append, stream_done hinv.nodup hm, hsent, stream_append, append_assoc]

theorem step_bind {m : ℕ} (h : s.Inv) (hcurrent : Current s snapshot) (ord : IterOrder)
    (hm : m ∉ s.sent.map Prod.fst) : Current (s.bind ord m) snapshot ∧ Tidy s (s.bind ord m) := by
  have hnot : m ∉ s.instances := fun hmem => hm (h.bound m hmem)
  obtain ⟨s', events, v', hs', hsent, hdone, -, -, -, hW, hG, -, -⟩ :=
    bind_spec ord (h.known.absent hnot)
  rw [hs']
  refine ⟨hcurrent.congr (m + 1) (hW _ (by simp)) (hG _ (by simp)), fun m' hm' => ?_⟩
  change ∃ es, stream m' (s'.sent ++ [Event.done].map (m, ·)) = _ ∧ EndsDone es
  rw [hsent, stream_append, stream_append]
  by_cases heq : m' = m
  · subst heq
    refine ⟨events ++ [.done], ?_, .inr ⟨events, hdone, rfl⟩⟩
    rw [stream_map_self, stream_map_self, append_assoc]
  · refine ⟨[], ?_, .inl rfl⟩
    rw [stream_map_other (Ne.symm heq), stream_map_other (Ne.symm heq), append_nil]

theorem current_forget {m : ℕ} (hcurrent : Current s snapshot) : Current (s.forget m) snapshot := by
  refine hcurrent.congr (m + 1) (fun k => ?_) fun o => ?_
  · change ((s.workspaces.mapValues _).get k).map _ = _
    rw [get_mapValues, Option.map_map]
    congr 1
    funext d
    simp only [Function.comp_apply, WorkspaceData.restrict, restrict_filter_ne (Nat.succ_ne_self m)]
  · change ((s.workspaceGroups.mapValues _).get o).map _ = _
    rw [get_mapValues, Option.map_map]
    congr 1
    funext d
    simp only [Function.comp_apply, GroupData.restrict, restrict_filter_ne (Nat.succ_ne_self m)]

/-- After the steps taken so far, the managers mirror the last snapshot. -/
structure RunInv (xs : List Step) (s : State) : Prop where
  inv : s.Inv
  current : Current s (lastSnapshot xs)

theorem runInv_init : RunInv [] State.init := by
  refine ⟨⟨nodup_nil, ⟨?_, ?_⟩, ?_, ?_⟩, ?_, ?_, ?_⟩ <;> simp [State.init, lastSnapshot]

theorem runInv_step {xs : List Step} {x : Step} (h : RunInv xs s) (hf : s.Follows x)
    (hwf : ∀ ord snapshot, x = .refresh ord snapshot → snapshot.WellFormed)
    (hs : s.step x = some s') : RunInv (xs ++ [x]) s' ∧ Tidy s s' := by
  have hlast := lastSnapshot_concat xs x
  cases x with
  | refresh ord snapshot =>
    obtain rfl := some.inj hs
    have hnamed : ∀ k d, s.workspaces.get k = some d → d.Named := by
      intro k d hd
      obtain ⟨e, -, -, hup⟩ := h.current.workspaces k d hd
      exact hup.named
    obtain ⟨hinv, hcurrent, htidy⟩ := step_refresh h.inv hnamed (hwf ord snapshot rfl) hf ord
    exact ⟨⟨hinv, hlast ▸ hcurrent⟩, htidy⟩
  | bind ord m =>
    simp only [State.step, ite_none_right_eq_some] at hs
    obtain ⟨hm, hs⟩ := hs
    obtain rfl := some.inj hs
    obtain ⟨hcurrent, htidy⟩ := step_bind h.inv h.current ord hm
    exact ⟨⟨h.inv.bind ord hm, hlast ▸ hcurrent⟩, htidy⟩
  | stop m =>
    simp only [State.step, ite_none_right_eq_some] at hs
    obtain ⟨hm, hs⟩ := hs
    obtain rfl := some.inj hs
    have hcurrent := current_forget (m := m) h.current
    refine ⟨⟨h.inv.stop m, hlast ▸ ⟨hcurrent.workspaces, hcurrent.complete, hcurrent.groups⟩⟩,
      fun m' hm' => ⟨[], ?_, .inl rfl⟩⟩
    have hne : m ≠ m' := by
      have hm'' : m' ∈ s.instances.filter (· ≠ m) := hm'
      rintro rfl
      simpa using (mem_filter.mp hm'').2
    change stream m' (s.sent ++ [Event.finished].map (m, ·)) = _
    rw [stream_append, stream_map_other hne]
  | disconnect m =>
    simp only [State.step, ite_none_right_eq_some] at hs
    obtain ⟨hm, hs⟩ := hs
    obtain rfl := some.inj hs
    refine ⟨⟨h.inv.forget m, hlast ▸ current_forget h.current⟩, fun m' _ => ⟨[], ?_, .inl rfl⟩⟩
    rw [append_nil]
    rfl

theorem runInv_run {xs : List Step} (hwf : ∀ ord snapshot, Step.refresh ord snapshot ∈ xs →
      snapshot.WellFormed) (hf : AllAlong State.step State.Follows State.init xs)
    (hs : run State.step State.init xs = some s) : RunInv xs s := by
  induction xs using List.reverseRecOn generalizing s with
  | nil =>
    obtain rfl := some.inj hs
    exact runInv_init
  | append_singleton xs x ih =>
    obtain ⟨u, hu, hstep⟩ := run_concat.mp hs
    obtain ⟨hf, hx⟩ := (allAlong_concat hu).mp hf
    have hprev := ih (fun ord snapshot hmem => hwf ord snapshot (mem_append_left _ hmem)) hf hu
    refine (runInv_step hprev hx (fun ord snapshot heq => hwf ord snapshot ?_) hstep).1
    exact mem_append_right _ (mem_singleton.mpr heq.symm)

theorem wellFormed_lastSnapshot {xs : List Step} (hwf : ∀ ord snapshot,
    Step.refresh ord snapshot ∈ xs → snapshot.WellFormed) : (lastSnapshot xs).WellFormed := by
  induction xs using List.reverseRecOn with
  | nil => exact ⟨nodup_nil, by simp [lastSnapshot], by simp [lastSnapshot]⟩
  | append_singleton xs x ih =>
    rw [lastSnapshot_concat]
    cases x with
    | refresh ord snapshot => exact hwf ord snapshot (mem_append_right _ (mem_singleton.mpr rfl))
    | bind | stop | disconnect =>
      exact ih fun ord snapshot hmem => hwf ord snapshot (mem_append_left _ hmem)

/-- If no renamed workspace moves to a group that exists, the events to each manager are in order, and
after each `done` they show the last snapshot. -/
theorem managers_mirror (xs : List Step) (x : Step) (s s' : State)
    (hwf : ∀ ord snapshot, Step.refresh ord snapshot ∈ xs ++ [x] → snapshot.WellFormed)
    (hf : AllAlong State.step State.Follows State.init (xs ++ [x]))
    (hs : run State.step State.init xs = some s) (hs' : s.step x = some s') :
    ∀ m ∈ s'.instances, ∃ events v, stream m s'.sent = stream m s.sent ++ events ∧ EndsDone events ∧
      run View.apply .empty (stream m s'.sent) = some v ∧ v.Shows (lastSnapshot (xs ++ [x])) := by
  intro m hm
  obtain ⟨hf, hx⟩ := (allAlong_concat hs).mp hf
  have hprev := runInv_run (fun ord snapshot hmem => hwf ord snapshot (mem_append_left _ hmem)) hf hs
  obtain ⟨hinv, htidy⟩ := runInv_step hprev hx
    (fun ord snapshot heq => hwf ord snapshot (mem_append_right _ (mem_singleton.mpr heq.symm)))
    hs'
  obtain ⟨events, hevents, hends⟩ := htidy m hm
  obtain ⟨v, hv, hmirrors⟩ := hinv.inv.mirror m hm
  exact ⟨events, v, hevents, hends, hv,
    hmirrors.shows_current hinv.current (wellFormed_lastSnapshot hwf)⟩

/-- One workspace, on one of two outputs. -/
def oneWorkspace (output : ℕ) (name : String) : Snapshot :=
  ⟨[(some ⟨output, 0⟩, 0, ⟨7, some name, false⟩)], [0, 1]⟩

theorem filter_iter_eq_nil {V : Type} (ord : IterOrder) {m : HashMap ℕ V} {l : List ℕ}
    (h : ∀ k, (m.get k).isSome → k ∈ l) : ((ord.iter m).map Sigma.fst).filter (· ∉ l) = [] := by
  rw [filter_eq_nil_iff]
  intro k hk
  obtain ⟨e, he, rfl⟩ := List.mem_map.mp hk
  have hget := (mem_iter ord).mp he
  have := h e.1 (by rw [hget]; rfl)
  simpa using this

/-- The state with the workspace on the first of two outputs, shown to manager 3. -/
def shownFirst : State :=
  ⟨[3], ((∅ : HashMap ℕ GroupData).insert 0 ⟨[⟨3, 1⟩]⟩).insert 1 ⟨[⟨3, 2⟩]⟩,
    (∅ : HashMap ℕ WorkspaceData).insert 7 ⟨some "a", "a", (0, 0), ⟨true, false⟩, [⟨3, 0⟩], some 0⟩, 3,
    [(3, .done), (3, .workspace 0), (3, .id 0 "a"), (3, .name 0 "a"), (3, .coordinates 0 (0, 0)),
      (3, .state 0 ⟨true, false⟩), (3, .capabilities 0), (3, .workspaceGroup 1),
      (3, .groupCapabilities 1), (3, .workspaceEnter 1 0), (3, .workspaceGroup 2),
      (3, .groupCapabilities 2), (3, .done)]⟩

theorem run_shownFirst (ord : IterOrder) :
    run State.step State.init [.bind ord 3, .refresh ord (oneWorkspace 0 "a")] = some shownFirst := by
  simp [run, State.step, State.bind, State.init, State.refresh, State.each, oneWorkspace, State.send,
    State.refreshWorkspace, State.refreshNew, State.addInstances, newHandles, sendEach,
    WorkspaceData.announce, sendWorkspaceEnterLeave, State.workspaceState, buildName, asU32,
    State.refreshWorkspaceGroup, GroupData.announce, State.enterEvents, iter_singleton,
    WorkspaceData.matching, shownFirst, get_insert]

theorem keys_shownFirst : (∀ k, (shownFirst.workspaces.get k).isSome → k ∈ [7]) ∧
    ∀ o, (shownFirst.workspaceGroups.get o).isSome → o ∈ [0, 1] := by
  constructor <;> intro k hk <;> simp only [shownFirst, get_insert] at hk <;>
    split_ifs at hk <;> simp_all

/-- Refreshing the workspace as renamed and moved sends `workspace_leave` to both groups. -/
theorem sent_refreshWorkspace_shownFirst : ∃ rest,
    (shownFirst.refreshWorkspace (some ⟨1, 0⟩) 0 ⟨7, some "b", false⟩).1.sent =
      shownFirst.sent ++ [(3, .workspaceLeave 1 0), (3, .workspaceLeave 2 0)] ++ rest ∧
    (shownFirst.refreshWorkspace (some ⟨1, 0⟩) 0 ⟨7, some "b", false⟩).1.instances = [3] := by
  have hget : shownFirst.workspaces.get 7 =
      some ⟨some "a", "a", (0, 0), ⟨true, false⟩, [⟨3, 0⟩], some 0⟩ := rfl
  have hmove : shownFirst.moveEvents ⟨some "a", "a", (0, 0), ⟨true, false⟩, [⟨3, 0⟩], some 0⟩ true =
      [(3, .workspaceLeave 1 0)] := rfl
  have hremove : ∀ id name coordinates state, removeWorkspaceInstances shownFirst.workspaceGroups
      ⟨id, name, coordinates, state, [⟨3, 0⟩], some 1⟩ =
      [(3, .workspaceLeave 2 0), (3, .removed 0)] := fun _ _ _ _ => rfl
  simp only [State.refreshWorkspace, hget]
  rw [refreshExisting_recreate (by simp [State.update])]
  have houtput : ∀ state ws, (State.update ⟨some "a", "a", (0, 0), ⟨true, false⟩, [⟨3, 0⟩], some 0⟩
    state (some 1) 0 ws).2.output = true := fun _ _ => rfl
  simp only [map_some, houtput, hmove]
  simp only [State.update, hremove, append_assoc]
  exact ⟨_, rfl, rfl⟩

theorem viewOf_leaves : viewOf 3 (shownFirst.sent ++
    [(3, .workspaceLeave 1 0), (3, .workspaceLeave 2 0)]) = none := by
  simp [viewOf, stream, shownFirst, View.apply, View.empty, View.set]

/-- A refresh of one workspace with nothing gone. -/
theorem sent_refresh_one {s : State} (ord : IterOrder) (mon : Option Monitor) (wsIdx : ℕ)
    (ws : Workspace) (outputs : List ℕ) (hW : ∀ k, (s.workspaces.get k).isSome → k ∈ [ws.id])
    (hG : ∀ o, (s.workspaceGroups.get o).isSome → o ∈ outputs) :
    ∃ rest, (s.refresh ord ⟨[(mon, wsIdx, ws)], outputs⟩).sent =
      (s.refreshWorkspace mon wsIdx ws).1.sent ++ rest ∧
      (s.refresh ord ⟨[(mon, wsIdx, ws)], outputs⟩).instances =
        (s.refreshWorkspace mon wsIdx ws).1.instances := by
  let gone := ((ord.iter s.workspaces).map Sigma.fst).filter (· ∉ [ws.id])
  have hgone : gone = [] := filter_iter_eq_nil ord hW
  let r₁ := s.each (fun s id => (s.removeWorkspace id, true)) gone
  have hr₁ : r₁.1 = s := by
    simp only [r₁, hgone]
    rfl
  let goneOutputs := ((ord.iter r₁.1.workspaceGroups).map Sigma.fst).filter (· ∉ outputs)
  have hgoneOutputs : goneOutputs = [] := filter_iter_eq_nil ord (hr₁ ▸ hG)
  let r₂ := r₁.1.each (fun s o => (s.removeGroup ord o, true)) goneOutputs
  have hr₂ : r₂.1 = s := by
    simp only [r₂, hgoneOutputs]
    exact hr₁
  let r₃ := r₂.1.each (fun s (mon, wsIdx, ws) => s.refreshWorkspace mon wsIdx ws) [(mon, wsIdx, ws)]
  have hr₃ : r₃.1 = (s.refreshWorkspace mon wsIdx ws).1 := by
    rw [← hr₂]
    rfl
  let r₄ := r₃.1.each (fun s o => s.refreshWorkspaceGroup ord o) outputs
  obtain ⟨hsends, -⟩ := refreshGroups_spec ord r₃.1 outputs
  obtain ⟨events, hsent, -⟩ := hsends.sent
  have heq : s.refresh ord ⟨[(mon, wsIdx, ws)], outputs⟩ =
      if r₁.2 || r₂.2 || r₃.2 || r₄.2 then r₄.1.send (r₄.1.instances.map (·, .done)) else r₄.1 := rfl
  rw [heq, ← hr₃]
  split_ifs
  · refine ⟨events ++ r₄.1.instances.map (·, .done), ?_, hsends.instances⟩
    change r₄.1.sent ++ _ = _
    rw [hsent, append_assoc]
  · exact ⟨events, hsent, hsends.instances⟩

theorem wellFormed_oneWorkspace {output : ℕ} {name : String} (h : output ∈ [0, 1]) :
    (oneWorkspace output name).WellFormed := by
  refine ⟨by simp [oneWorkspace], ?_, by simp [oneWorkspace]⟩
  simpa [oneWorkspace] using h

/-- A manager is sent `workspace_leave` for a workspace that is not in that group, when the workspace is
renamed and moves to another output in one refresh. -/
theorem leaves_wrong_group : ∃ s s', (oneWorkspace 0 "a").WellFormed ∧ (oneWorkspace 1 "b").WellFormed ∧
    run State.step State.init [.bind .arbitrary 3, .refresh .arbitrary (oneWorkspace 0 "a")] = some s ∧
    s.step (.refresh .arbitrary (oneWorkspace 1 "b")) = some s' ∧ 3 ∈ s'.instances ∧
    run View.apply .empty (stream 3 s'.sent) = none := by
  obtain ⟨rest, hrest, hinstances⟩ := sent_refresh_one (s := shownFirst) .arbitrary (some ⟨1, 0⟩) 0
    ⟨7, some "b", false⟩ [0, 1] keys_shownFirst.1 keys_shownFirst.2
  obtain ⟨rest', hrest', hinstances'⟩ := sent_refreshWorkspace_shownFirst
  refine ⟨shownFirst, shownFirst.refresh .arbitrary (oneWorkspace 1 "b"),
    wellFormed_oneWorkspace (by simp), wellFormed_oneWorkspace (by simp), run_shownFirst _, rfl, ?_, ?_⟩
  · change 3 ∈ (shownFirst.refresh .arbitrary ⟨_, _⟩).instances
    rw [hinstances, hinstances']
    exact mem_singleton.mpr rfl
  · change viewOf 3 (shownFirst.refresh .arbitrary ⟨_, _⟩).sent = none
    rw [hrest, hrest', append_assoc, viewOf_append, viewOf_leaves]
    rfl

/-- The workspace moves under its name. -/
theorem managers_mirror_move : ∃ s', shownFirst.step (.refresh .arbitrary (oneWorkspace 1 "a")) = some s' ∧
    3 ∈ s'.instances ∧ ∃ events v, stream 3 s'.sent = stream 3 shownFirst.sent ++ events ∧
      EndsDone events ∧ run View.apply .empty (stream 3 s'.sent) = some v ∧
      v.Shows (oneWorkspace 1 "a") := by
  have hbound : run State.step State.init [.bind .arbitrary 3] =
      some ⟨[3], ∅, ∅, 0, [(3, .done)]⟩ := by simp [State.step, State.bind, State.init, State.send]
  have hfirst : AllAlong State.step State.Follows State.init
      [.bind .arbitrary 3, .refresh .arbitrary (oneWorkspace 0 "a")] :=
    (allAlong_concat hbound).mpr ⟨⟨trivial, fun _ _ => trivial⟩, by simp [State.Follows, State.MovesAll,
      State.Moves]⟩
  have hmoves : shownFirst.MovesAll (oneWorkspace 1 "a") := by
    intro e he d hd _ hne
    obtain rfl := mem_singleton.mp he
    obtain rfl : _ = d := some.inj hd
    exact absurd rfl hne
  have hmem : 3 ∈ (shownFirst.refresh .arbitrary (oneWorkspace 1 "a")).instances := by
    obtain ⟨-, -, hinstances⟩ := sent_refresh_one (s := shownFirst) .arbitrary (some ⟨1, 0⟩) 0
      ⟨7, some "a", false⟩ [0, 1] keys_shownFirst.1 keys_shownFirst.2
    change 3 ∈ (shownFirst.refresh .arbitrary ⟨_, _⟩).instances
    rw [hinstances, (sends_refreshWorkspace (hmoves _ (mem_singleton.mpr rfl))).instances]
    exact mem_singleton.mpr rfl
  refine ⟨_, rfl, hmem, ?_⟩
  refine managers_mirror [.bind .arbitrary 3, .refresh .arbitrary (oneWorkspace 0 "a")]
    (.refresh .arbitrary (oneWorkspace 1 "a")) shownFirst _ (fun ord snapshot hsnapshot => ?_)
    ((allAlong_concat (run_shownFirst _)).mpr ⟨hfirst, hmoves⟩) (run_shownFirst _) rfl 3 hmem
  simp only [cons_append, nil_append, mem_cons, Step.refresh.injEq, not_mem_nil,
    or_false, reduceCtorEq, false_or] at hsnapshot
  rcases hsnapshot with ⟨-, rfl⟩ | ⟨-, rfl⟩
  · exact wellFormed_oneWorkspace (by simp)
  · exact wellFormed_oneWorkspace (by simp)

end Macniri.ExtWorkspace
