import Macniri.Lib.Cursor
import Macniri.Lib.Run
import Mathlib.Data.List.Sort

/-! The recent windows switcher: a selection in the list of windows in most recently used order, under a
scope and an app id filter. -/
namespace Macniri.Mru

open Option List

inductive MruScope
  | all
  | output
  | workspace
  deriving DecidableEq, Repr

inductive MruFilter
  | all
  | appId
  deriving DecidableEq, Repr

structure Thumbnail where
  id : ℕ
  timestamp : Option ℕ
  onCurrentOutput : Bool
  onCurrentWorkspace : Bool
  appId : Option String
  deriving DecidableEq, Repr

structure WindowMru where
  /-- Windows in MRU order. -/
  thumbnails : List Thumbnail
  currentId : Option ℕ
  scope : MruScope
  appIdFilter : Option String
  deriving DecidableEq, Repr

def matchFilter (scope : MruScope) (appIdFilter : Option String) (thumbnail : Thumbnail) : Bool :=
  let x := match scope with
    | .all => true
    | .output => thumbnail.onCurrentOutput
    | .workspace => thumbnail.onCurrentWorkspace
  if !x then false
  else
    match appIdFilter with
    | some appId => thumbnail.appId == some appId
    | none => true

/-- What the layout tells about a window. -/
structure Mapped where
  id : ℕ
  focusTimestamp : Option ℕ
  appId : Option String

structure Monitor where
  output : ℕ
  activeWorkspaceIdx : ℕ

/-- The layout: its active output, and the workspaces with their monitors, indices and windows. -/
structure Layout where
  activeOutput : Option ℕ
  workspaces : List (Option Monitor × ℕ × List Mapped)

namespace WindowMru

variable (m : WindowMru)

/-- The selection at the opening is the first window. -/
def ofThumbnails (thumbnails : List Thumbnail) : WindowMru :=
  ⟨thumbnails, thumbnails.head?.map Thumbnail.id, .all, none⟩

/-- The thumbnails of one workspace; `none` where it has no monitor. -/
def thumbnailsOf (output : ℕ) (ws : Option Monitor × ℕ × List Mapped) : Option (List Thumbnail) :=
  ws.1.map fun mon =>
    let onCurrentOutput := mon.output == output
    let onCurrentWorkspace := onCurrentOutput && mon.activeWorkspaceIdx == ws.2.1
    ws.2.2.map fun mapped =>
      ⟨mapped.id, mapped.focusTimestamp, onCurrentOutput, onCurrentWorkspace, mapped.appId⟩

/-- Later first; `None` is the least timestamp. -/
def newer (t₁ t₂ : Thumbnail) : Prop :=
  match t₁.timestamp, t₂.timestamp with
  | _, none => True
  | none, some _ => False
  | some a, some b => b ≤ a

instance : Std.Total newer := ⟨fun t₁ t₂ => by
  unfold newer
  cases t₁.timestamp <;> cases t₂.timestamp <;> simp [Nat.le_total]⟩

instance : IsTrans Thumbnail newer := ⟨fun t₁ t₂ t₃ => by
  unfold newer
  cases t₁.timestamp <;> cases t₂.timestamp <;> cases t₃.timestamp <;> simp
  exact fun h h' => Nat.le_trans h' h⟩

instance : DecidableRel newer := fun t₁ t₂ =>
  match h₁ : t₁.timestamp, h₂ : t₂.timestamp with
  | _, none => isTrue (by simp [newer, h₂])
  | none, some _ => isFalse (by simp [newer, h₁, h₂])
  | some a, some b => decidable_of_iff (b ≤ a) (by simp [newer, h₁, h₂])

/-- `none` is the failure of an `expect`, here and below. -/
def new (layout : Layout) : Option WindowMru :=
  match layout.activeOutput with
  | none => some ⟨[], none, .all, none⟩
  | some output =>
    (layout.workspaces.mapM (thumbnailsOf output)).map fun thumbnails =>
      ofThumbnails (thumbnails.flatten.insertionSort newer)

/-- The iterator `thumbnails()`. -/
def visible : List Thumbnail :=
  m.thumbnails.filter (matchFilter m.scope m.appIdFilter)

def thumbnailsWithIdx : List (Thumbnail × ℕ) :=
  m.thumbnails.zipIdx.filter fun e => matchFilter m.scope m.appIdFilter e.1

def forward : Option WindowMru :=
  match m.currentId with
  | none => some m
  | some id =>
    match (m.visible.dropWhile fun t => t.id != id)[1]? with
    | some next => some { m with currentId := some next.id }
    -- we wrapped around
    | none => m.visible.head?.map fun next => { m with currentId := some next.id }

def backward : Option WindowMru :=
  match m.currentId with
  | none => some m
  | some id =>
    match (m.visible.reverse.dropWhile fun t => t.id != id)[1]? with
    | some next => some { m with currentId := some next.id }
    -- we wrapped around
    | none => m.visible.getLast?.map fun next => { m with currentId := some next.id }

def setCurrent (id : ℕ) : WindowMru :=
  if m.visible.any fun thumbnail => thumbnail.id == id then { m with currentId := some id } else m

def firstId : Option ℕ := m.visible.head?.map Thumbnail.id

def first : WindowMru := { m with currentId := m.firstId }

def last : WindowMru :=
  { m with currentId := m.visible.getLast?.map Thumbnail.id }

/-- The same thumbnail or the first to the left of `currentIdx`; failing that the first one. -/
def selectFrom (currentIdx : ℕ) : WindowMru :=
  { m with
    currentId := (m.thumbnailsWithIdx.takeWhile fun e => e.2 ≤ currentIdx).foldl
      (fun _ e => some e.1.id) m.firstId }

def setScope (scope : MruScope) : Option (WindowMru × Option MruScope) :=
  if m.scope = scope then some (m, none)
  else
    match m.currentId with
    | some id =>
      (m.thumbnailsWithIdx.find? fun e => e.1.id == id).map fun e =>
        (({ m with scope := scope }).selectFrom e.2, some m.scope)
    | none => some (({ m with scope := scope }).first, some m.scope)

/-- The second value is the filter that was replaced, if one was. -/
def setFilter (filter : MruFilter) :
    Option (WindowMru × Option (Option String)) :=
  -- filter unchanged
  if m.appIdFilter.isSome = (filter == MruFilter.appId) then some (m, none)
  else
    match m.currentId with
    | some id =>
      (m.thumbnailsWithIdx.find? fun e => e.1.id == id).bind fun e =>
        match filter with
        | .all =>
          m.appIdFilter.map fun old =>
            (({ m with appIdFilter := none }).selectFrom e.2, some (some old))
        | .appId =>
          match e.1.appId with
          -- if the current thumbnail is missing an app id, we can't set the filter
          | none => some (m, none)
          | some current =>
            if m.appIdFilter.isSome then none
            else some (({ m with appIdFilter := some current }).selectFrom e.2, some none)
    | none =>
      match filter with
      | .all =>
        m.appIdFilter.map fun old => (({ m with appIdFilter := none }).first, some (some old))
      | .appId => some (m, none)

def removeByIdx (idx : ℕ) : Option (WindowMru × Thumbnail) :=
  m.thumbnails[idx]?.bind fun thumbnail =>
    -- try to pick a different window when removing the current one
    (if m.currentId = some thumbnail.id then m.forward else some m).map fun m =>
      -- if we're still on the same window, that means it's the last visible one
      let currentId := if m.currentId = some thumbnail.id then none else m.currentId
      ({ m with currentId := currentId, thumbnails := m.thumbnails.eraseIdx idx }, thumbnail)

/-- What every method keeps: the ids differ, and a thumbnail is selected exactly where one is visible, a
visible one. -/
structure Inv (m : WindowMru) : Prop where
  distinct : (m.thumbnails.map Thumbnail.id).Nodup
  current : ∀ id, m.currentId = some id → id ∈ m.visible.map Thumbnail.id
  unset : m.currentId = none → m.visible = []

def select (id : ℕ) : WindowMru := { m with currentId := some id }

section Inv

variable {m m' : WindowMru}

@[simp] theorem select_visible (id : ℕ) : (m.select id).visible = m.visible := rfl

@[simp] theorem select_currentId (id : ℕ) : (m.select id).currentId = some id := rfl

@[simp] theorem select_select (id id' : ℕ) : (m.select id).select id' = m.select id' := rfl

theorem select_self {id : ℕ} (h : m.currentId = some id) : m.select id = m := by
  cases m
  subst h
  rfl

theorem inv_ofThumbnails {l : List Thumbnail} (h : (l.map Thumbnail.id).Nodup) :
    (ofThumbnails l).Inv := by
  have hv : (ofThumbnails l).visible = l := by simp [visible, ofThumbnails, matchFilter]
  refine ⟨h, fun id hid => ?_, fun hnone => ?_⟩
  · rw [hv]
    obtain ⟨t, ht, rfl⟩ := of_map hid
    exact List.mem_map_of_mem (mem_of_mem_head? ht)
  · rw [hv]
    simpa [ofThumbnails] using hnone

theorem map_id_thumbnailsOf {output : ℕ} {ws : List (Option Monitor × ℕ × List Mapped)}
    {l : List (List Thumbnail)} (h : ws.mapM (thumbnailsOf output) = some l) :
    l.flatten.map Thumbnail.id = (ws.flatMap fun w => w.2.2).map Mapped.id := by
  induction ws generalizing l with
  | nil =>
    obtain rfl := some.inj h
    rfl
  | cons w ws ih =>
    rw [mapM_cons] at h
    obtain ⟨ts, hts, h⟩ := of_bind h
    obtain ⟨l', hl', rfl⟩ := of_bind_some h
    obtain ⟨mon, -, rfl⟩ := of_map hts
    simp [ih hl', Function.comp_def]

/-- An opened switcher shows the windows of the layout, from the last to the first focused. -/
theorem new_eq {layout : Layout} (h : new layout = some m) :
    ∃ l, m = ofThumbnails l ∧ l.Pairwise newer ∧
      (layout.activeOutput.isSome → (l.map Thumbnail.id).Perm
        ((layout.workspaces.flatMap fun w => w.2.2).map Mapped.id)) := by
  unfold new at h
  split at h
  · obtain rfl := some.inj h
    exact ⟨[], rfl, .nil, fun h => by simp_all⟩
  · obtain ⟨l, hl, rfl⟩ := of_map h
    refine ⟨_, rfl, pairwise_insertionSort newer _, fun _ => ?_⟩
    rw [← map_id_thumbnailsOf hl]
    exact (perm_insertionSort newer _).map _

theorem Inv.nodup_visible (hm : m.Inv) : (m.visible.map Thumbnail.id).Nodup :=
  hm.distinct.sublist (filter_sublist.map _)

theorem Inv.visible_ne_nil_iff (hm : m.Inv) :
    m.visible ≠ [] ↔ ∃ t ∈ m.visible, m.currentId = some t.id := by
  constructor
  · intro hne
    cases hc : m.currentId with
    | none => exact absurd (hm.unset hc) hne
    | some id =>
      obtain ⟨t, ht, rfl⟩ := List.mem_map.mp (hm.current id hc)
      exact ⟨t, ht, rfl⟩
  · rintro ⟨t, ht, -⟩ hnil
    simp [hnil] at ht

theorem inv_select (hm : m.Inv) {id : ℕ} (hid : id ∈ m.visible.map Thumbnail.id) :
    (m.select id).Inv := by
  refine ⟨hm.distinct, fun id' h => ?_, fun h => by simp at h⟩
  obtain rfl := some.inj h
  exact hid

theorem forward_select (hm : m.Inv) {id : ℕ} (hid : id ∈ m.visible.map Thumbnail.id) :
    (m.select id).forward = some (m.select ((m.visible.map Thumbnail.id).next id hid)) := by
  have h := map_nextAfter hm.nodup_visible hid
  unfold nextAfter at h
  simp only [forward, select_currentId, select_visible]
  split at h <;> rename_i hnext <;> simp only [hnext]
  · have h := some.inj h
    simp only [select, h]
  · obtain ⟨t, ht, h⟩ := of_map h
    simp only [ht, map_some, select, h]

theorem backward_select (hm : m.Inv) {id : ℕ} (hid : id ∈ m.visible.map Thumbnail.id) :
    (m.select id).backward = some (m.select ((m.visible.map Thumbnail.id).prev id hid)) := by
  have h := map_nextAfter_reverse hm.nodup_visible hid
  unfold nextAfter at h
  simp only [backward, select_currentId, select_visible]
  split at h <;> rename_i hnext <;> simp only [hnext]
  · have h := some.inj h
    simp only [select, h]
  · obtain ⟨t, ht, h⟩ := of_map h
    rw [head?_reverse] at ht
    simp only [ht, map_some, select, h]

/-- Either nothing is selected, or a visible thumbnail is. -/
theorem Inv.cases (hm : m.Inv) :
    m.currentId = none ∨ ∃ id, id ∈ m.visible.map Thumbnail.id ∧ m = m.select id := by
  cases hc : m.currentId with
  | none => exact .inl rfl
  | some id => exact .inr ⟨id, hm.current id hc, (select_self hc).symm⟩

theorem forward_none (h : m.currentId = none) : m.forward = some m := by simp [forward, h]

theorem backward_none (h : m.currentId = none) : m.backward = some m := by simp [backward, h]

theorem forward_backward (hm : m.Inv) : m.forward.bind backward = some m := by
  rcases hm.cases with hnone | ⟨id, hid, hsel⟩
  · simp [forward_none hnone, backward_none hnone]
  · rw [hsel, forward_select hm hid, bind_some, backward_select hm (next_mem ..),
      prev_next _ hm.nodup_visible]

theorem backward_forward (hm : m.Inv) : m.backward.bind forward = some m := by
  rcases hm.cases with hnone | ⟨id, hid, hsel⟩
  · simp [forward_none hnone, backward_none hnone]
  · rw [hsel, backward_select hm hid, bind_some, forward_select hm (prev_mem ..),
      next_prev _ hm.nodup_visible]

theorem forward_cycle (hm : m.Inv) :
    (fun r => r.bind forward)^[m.visible.length] (some m) = some m := by
  rcases hm.cases with hnone | ⟨id, hid, hsel⟩
  · simp [hm.unset hnone]
  · have h := next_cycle hm.nodup_visible (F := fun id => some (m.select id))
      (g := fun r => r.bind forward) (fun id hid => forward_select hm hid) hid
    rw [length_map, ← hsel] at h
    exact h

theorem inv_forward (hm : m.Inv) : ∃ m', m.forward = some m' ∧ m'.Inv := by
  rcases hm.cases with hnone | ⟨id, hid, hsel⟩
  · exact ⟨m, forward_none hnone, hm⟩
  · rw [hsel, forward_select hm hid]
    exact ⟨_, rfl, inv_select hm (next_mem ..)⟩

theorem inv_backward (hm : m.Inv) : ∃ m', m.backward = some m' ∧ m'.Inv := by
  rcases hm.cases with hnone | ⟨id, hid, hsel⟩
  · exact ⟨m, backward_none hnone, hm⟩
  · rw [hsel, backward_select hm hid]
    exact ⟨_, rfl, inv_select hm (prev_mem ..)⟩

theorem inv_setCurrent (hm : m.Inv) (id : ℕ) : (m.setCurrent id).Inv := by
  unfold setCurrent
  split
  · rename_i h
    refine inv_select hm ?_
    simpa using h
  · exact hm

theorem inv_first (h : (m.thumbnails.map Thumbnail.id).Nodup) : m.first.Inv := by
  have hv : m.first.visible = m.visible := rfl
  refine ⟨h, fun id hid => ?_, fun hnone => ?_⟩
  · obtain ⟨t, ht, rfl⟩ := of_map hid
    exact List.mem_map_of_mem (mem_of_mem_head? ht)
  · rw [hv]
    simpa [first, firstId] using hnone

theorem inv_last (hm : m.Inv) : m.last.Inv := by
  have hv : m.last.visible = m.visible := rfl
  refine ⟨hm.distinct, fun id hid => ?_, fun hnone => ?_⟩
  · obtain ⟨t, ht, rfl⟩ := of_map hid
    exact List.mem_map_of_mem (mem_of_getLast? ht)
  · rw [hv]
    simpa [last] using hnone

/-- The loop over the visible thumbnails ends at the nearest one. -/
theorem selectFrom_nearest (i : ℕ) :
    ∃ r, Nearest (matchFilter m.scope m.appIdFilter) m.thumbnails i r ∧
      m.selectFrom i = { m with currentId := r.map Thumbnail.id } := by
  refine ⟨_, nearest_lastUpTo i, ?_⟩
  have h := foldl_takeWhile_zipIdx (l := m.thumbnails) (p := matchFilter m.scope m.appIdFilter)
    Thumbnail.id m.firstId i 0
  rw [Nat.zero_add] at h
  have hfirst : m.firstId =
      (m.thumbnails.find? (matchFilter m.scope m.appIdFilter)).map Thumbnail.id := by
    rw [firstId, visible, head?_filter]
  rw [selectFrom, thumbnailsWithIdx, h, hfirst, map_or]

theorem inv_nearest {i : ℕ} {r : Option Thumbnail} (h : (m.thumbnails.map Thumbnail.id).Nodup)
    (hr : Nearest (matchFilter m.scope m.appIdFilter) m.thumbnails i r) :
    ({ m with currentId := r.map Thumbnail.id } : WindowMru).Inv := by
  have hmem : ∀ t ∈ r, t ∈ m.visible := by
    intro t ht
    cases hr with
    | same hi hp =>
      obtain rfl := some.inj ht
      exact mem_filter.mpr ⟨mem_of_getElem? hi, hp⟩
    | left _ _ hj hp _ =>
      obtain rfl := some.inj ht
      exact mem_filter.mpr ⟨mem_of_getElem? hj, hp⟩
    | first _ => exact mem_filter.mpr ⟨mem_of_find?_eq_some ht, find?_some ht⟩
  refine ⟨h, fun id hid => ?_, fun hnone => ?_⟩
  · obtain ⟨t, ht, rfl⟩ := of_map hid
    exact List.mem_map_of_mem (hmem t ht)
  · have hnone : r = none := by simpa using hnone
    subst hnone
    generalize hr' : (none : Option Thumbnail) = r at hr
    cases hr with
    | same => simp at hr'
    | left => simp at hr'
    | first _ => exact filter_eq_nil_iff.mpr (find?_eq_none.mp hr'.symm)

/-- A change of the scope or the filter selects the same thumbnail if it is still visible, otherwise the
nearest visible one to its left, otherwise the first visible one. -/
structure Reselects (m m' : WindowMru) : Prop where
  thumbnails : m'.thumbnails = m.thumbnails
  nearest : ∀ i t, m.thumbnails[i]? = some t → m.currentId = some t.id →
    ∃ r, Nearest (matchFilter m'.scope m'.appIdFilter) m.thumbnails i r ∧
      m'.currentId = r.map Thumbnail.id
  unset : m.currentId = none → m'.currentId = m'.visible.head?.map Thumbnail.id

/-- The current thumbnail is found, at its only index. -/
theorem find_current (hm : m.Inv) {id : ℕ} (hid : m.currentId = some id) :
    ∃ i t, (m.thumbnailsWithIdx.find? fun e => e.1.id == id) = some (t, i) ∧
      m.thumbnails[i]? = some t ∧ t.id = id ∧ matchFilter m.scope m.appIdFilter t = true := by
  obtain ⟨t, ht, rfl⟩ := List.mem_map.mp (hm.current id hid)
  obtain ⟨hmem, hp⟩ := mem_filter.mp ht
  obtain ⟨j, hj⟩ := mem_iff_getElem?.mp hmem
  have hsome : (m.thumbnailsWithIdx.find? fun e => e.1.id == t.id).isSome := by
    rw [find?_isSome]
    exact ⟨(t, j), mem_filter.mpr ⟨mem_zipIdx_iff_getElem?.mpr hj, hp⟩, by simp⟩
  obtain ⟨⟨u, i⟩, he⟩ := isSome_iff_exists.mp hsome
  have hu := mem_filter.mp (mem_of_find?_eq_some he)
  refine ⟨i, u, he, mem_zipIdx_iff_getElem?.mp hu.1, ?_, hu.2⟩
  simpa using find?_some he

theorem getElem?_inj_of_id (h : (m.thumbnails.map Thumbnail.id).Nodup) {i j : ℕ} {t u : Thumbnail}
    (hi : m.thumbnails[i]? = some t) (hj : m.thumbnails[j]? = some u) (hid : t.id = u.id) : i = j := by
  have hi' : (m.thumbnails.map Thumbnail.id)[i]? = some t.id := by simp [hi]
  have hj' : (m.thumbnails.map Thumbnail.id)[j]? = some t.id := by simp [hj, hid]
  have hlt : i < (m.thumbnails.map Thumbnail.id).length := (List.getElem?_eq_some_iff.mp hi').1
  exact (getElem?_inj hlt h).mp (hi'.trans hj'.symm)

/-- Selecting from the index of the current thumbnail, whatever the new scope and filter. -/
theorem reselects_selectFrom (hm : m.Inv) (scope : MruScope) (filter : Option String) {i : ℕ}
    {t : Thumbnail} (hi : m.thumbnails[i]? = some t) (hid : m.currentId = some t.id) :
    (({ m with scope := scope, appIdFilter := filter } : WindowMru).selectFrom i).Inv ∧
      Reselects m (({ m with scope := scope, appIdFilter := filter } : WindowMru).selectFrom i) := by
  obtain ⟨r, hr, heq⟩ :=
    selectFrom_nearest (m := { m with scope := scope, appIdFilter := filter }) i
  rw [heq]
  refine ⟨inv_nearest hm.distinct hr, rfl, fun j u hj hu => ?_, fun hnone => ?_⟩
  · have htu : t.id = u.id := some.inj (hid.symm.trans hu)
    obtain rfl := getElem?_inj_of_id hm.distinct hi hj htu
    exact ⟨r, hr, rfl⟩
  · rw [hid] at hnone
    simp at hnone

theorem reselects_first (hnone : m.currentId = none) (scope : MruScope) (filter : Option String) :
    Reselects m ({ m with scope := scope, appIdFilter := filter } : WindowMru).first := by
  refine ⟨rfl, fun i t _ hid => ?_, fun _ => rfl⟩
  rw [hnone] at hid
  simp at hid

/-- Nothing changes. -/
theorem reselects_refl (hm : m.Inv) : Reselects m m := by
  refine ⟨rfl, fun i t hi hid => ⟨some t, .same hi ?_, hid⟩, fun hnone => ?_⟩
  · obtain ⟨u, hu, heq⟩ := List.mem_map.mp (hm.current _ hid)
    obtain ⟨humem, hp⟩ := mem_filter.mp hu
    obtain ⟨j, hj⟩ := mem_iff_getElem?.mp humem
    obtain rfl := getElem?_inj_of_id hm.distinct hj hi heq
    obtain rfl := some.inj (hi.symm.trans hj)
    exact hp
  · rw [hnone, hm.unset hnone]
    rfl

theorem setScope_spec (hm : m.Inv) (scope : MruScope) :
    ∃ m' old, m.setScope scope = some (m', old) ∧ m'.Inv ∧ Reselects m m' ∧ m'.scope = scope ∧
      m'.appIdFilter = m.appIdFilter := by
  unfold setScope
  split
  · rename_i heq
    exact ⟨m, none, rfl, hm, reselects_refl hm, heq, rfl⟩
  · cases hc : m.currentId with
    | none =>
      exact ⟨_, _, rfl, inv_first (m := { m with scope := scope }) hm.distinct,
        reselects_first hc scope m.appIdFilter, rfl, rfl⟩
    | some id =>
      obtain ⟨i, t, hfind, hi, rfl, -⟩ := find_current hm hc
      obtain ⟨hinv, hre⟩ := reselects_selectFrom hm scope m.appIdFilter hi hc
      refine ⟨_, some m.scope, ?_, hinv, hre, rfl, rfl⟩
      simp only [hfind]
      rfl

/-- What becomes of the filter: the app id of the current thumbnail, if it has one. -/
def nextFilter (m : WindowMru) (filter : MruFilter) : Option String :=
  match filter with
  | .all => none
  | .appId => m.appIdFilter.or
      ((m.thumbnails.find? fun t => some t.id == m.currentId).bind Thumbnail.appId)

theorem find?_current (hm : m.Inv) {i : ℕ} {t : Thumbnail} (hi : m.thumbnails[i]? = some t)
    (hid : m.currentId = some t.id) :
    (m.thumbnails.find? fun t => some t.id == m.currentId) = some t := by
  have hsome : (m.thumbnails.find? fun t => some t.id == m.currentId).isSome := by
    rw [find?_isSome]
    exact ⟨t, mem_of_getElem? hi, by simp [hid]⟩
  obtain ⟨u, hu⟩ := isSome_iff_exists.mp hsome
  obtain ⟨j, hj⟩ := mem_iff_getElem?.mp (mem_of_find?_eq_some hu)
  have huid : some u.id = m.currentId := by simpa using find?_some hu
  have hut : u.id = t.id := some.inj (huid.trans hid)
  obtain rfl := getElem?_inj_of_id hm.distinct hj hi hut
  rw [hu, ← hj, hi]

theorem setFilter_spec (hm : m.Inv) (filter : MruFilter) :
    ∃ m' old, m.setFilter filter = some (m', old) ∧ m'.Inv ∧ Reselects m m' ∧ m'.scope = m.scope ∧
      m'.appIdFilter = m.nextFilter filter := by
  unfold setFilter
  split
  · rename_i heq
    refine ⟨m, none, rfl, hm, reselects_refl hm, rfl, ?_⟩
    cases filter <;> cases hf : m.appIdFilter <;> simp_all [nextFilter]
  · rename_i hne
    cases hc : m.currentId with
    | none =>
      cases filter with
      | all =>
        cases hf : m.appIdFilter with
        | none => simp [hf] at hne
        | some old =>
          exact ⟨_, _, rfl, inv_first (m := { m with appIdFilter := none }) hm.distinct,
            reselects_first hc m.scope none, rfl, rfl⟩
      | appId =>
        refine ⟨m, none, rfl, hm, reselects_refl hm, rfl, ?_⟩
        have hfind : (m.thumbnails.find? fun t => some t.id == m.currentId) = none := by simp [hc]
        simp [nextFilter, hfind]
    | some id =>
      obtain ⟨i, t, hfind, hi, rfl, -⟩ := find_current hm hc
      simp only [hfind, bind_some]
      cases filter with
      | all =>
        cases hf : m.appIdFilter with
        | none => simp [hf] at hne
        | some old =>
          obtain ⟨hinv, hre⟩ := reselects_selectFrom hm m.scope none hi hc
          exact ⟨_, _, rfl, hinv, hre, rfl, rfl⟩
      | appId =>
        have hf : m.appIdFilter = none := by
          cases hf : m.appIdFilter with
          | none => rfl
          | some old => simp [hf] at hne
        have hnext : m.nextFilter .appId = t.appId := by
          simp [nextFilter, hf, find?_current hm hi hc]
        rw [hnext]
        cases happ : t.appId with
        | none => exact ⟨m, none, rfl, hm, reselects_refl hm, rfl, hf⟩
        | some current =>
          obtain ⟨hinv, hre⟩ := reselects_selectFrom hm m.scope (some current) hi hc
          refine ⟨_, some none, ?_, hinv, hre, rfl, rfl⟩
          simp only [hf]
          rfl

theorem inv_eraseIdx (hm : m.Inv) {idx : ℕ} {t : Thumbnail} (ht : m.thumbnails[idx]? = some t)
    (hstay : m.currentId = some t.id → ∀ id ∈ m.visible.map Thumbnail.id, id = t.id) :
    ({ m with
      currentId := if m.currentId = some t.id then none else m.currentId
      thumbnails := m.thumbnails.eraseIdx idx } : WindowMru).Inv := by
  have hgone : ∀ u ∈ m.thumbnails.eraseIdx idx, u.id ≠ t.id := by
    intro u hu heq
    obtain ⟨j, hne, hj⟩ := mem_eraseIdx_iff_getElem?.mp hu
    exact hne (getElem?_inj_of_id hm.distinct hj ht heq)
  refine ⟨hm.distinct.sublist ((eraseIdx_sublist ..).map _), fun id hid => ?_, fun hnone => ?_⟩
  · by_cases hc : m.currentId = some t.id
    · simp [hc] at hid
    · have hcur : m.currentId = some id := by simpa [hc] using hid
      obtain ⟨u, hu, rfl⟩ := List.mem_map.mp (hm.current id hcur)
      obtain ⟨humem, hp⟩ := mem_filter.mp hu
      obtain ⟨j, hj⟩ := mem_iff_getElem?.mp humem
      refine List.mem_map_of_mem (mem_filter.mpr ⟨?_, hp⟩)
      refine mem_eraseIdx_iff_getElem?.mpr ⟨j, ?_, hj⟩
      rintro rfl
      obtain rfl := some.inj (hj.symm.trans ht)
      exact hc hcur
  · refine filter_eq_nil_iff.mpr fun u hu hp => ?_
    have humem : u ∈ m.visible :=
      mem_filter.mpr ⟨(eraseIdx_sublist ..).subset hu, hp⟩
    by_cases hc : m.currentId = some t.id
    · exact hgone u hu (hstay hc _ (List.mem_map_of_mem humem))
    · have hnone : m.currentId = none := by simpa [hc] using hnone
      rw [hm.unset hnone] at humem
      simp at humem

theorem removeByIdx_spec (hm : m.Inv) {idx : ℕ} (h : idx < m.thumbnails.length) :
    ∃ m' t, m.removeByIdx idx = some (m', t) ∧ m'.Inv := by
  obtain ⟨t, ht⟩ : ∃ t, m.thumbnails[idx]? = some t := ⟨_, getElem?_eq_getElem h⟩
  unfold removeByIdx
  rw [ht, bind_some]
  by_cases hc : m.currentId = some t.id
  · -- `forward` stays on the removed thumbnail only if it is the last visible one
    have hid := hm.current _ hc
    have hfwd := forward_select hm hid
    rw [select_self hc] at hfwd
    rw [if_pos hc, hfwd]
    refine ⟨_, t, rfl, inv_eraseIdx (inv_select hm (next_mem ..)) ht fun hsame => ?_⟩
    exact eq_of_next_eq_self hm.nodup_visible hid (some.inj hsame)
  · rw [if_neg hc]
    exact ⟨_, t, rfl, inv_eraseIdx hm ht fun hsame => absurd hsame hc⟩

end Inv

end WindowMru

inductive Op
  | forward
  | backward
  | setCurrent (id : ℕ)
  | first
  | last
  | setScope (scope : MruScope)
  | setFilter (filter : MruFilter)
  | remove (idx : ℕ)
  deriving DecidableEq, Repr

def step (m : WindowMru) : Op → Option WindowMru
  | .forward => m.forward
  | .backward => m.backward
  | .setCurrent id => some (m.setCurrent id)
  | .first => some m.first
  | .last => some m.last
  | .setScope scope => (m.setScope scope).map Prod.fst
  | .setFilter filter => (m.setFilter filter).map Prod.fst
  | .remove idx => (m.removeByIdx idx).map Prod.fst

open WindowMru

section Run

variable {m m' : WindowMru} {ops : List Op}

/-- A step fails on an index behind the list and nowhere else. -/
theorem step_spec (hm : m.Inv) (op : Op) :
    (∃ idx, op = .remove idx ∧ m.thumbnails.length ≤ idx ∧ step m op = none) ∨
      (∀ idx, op = .remove idx → idx < m.thumbnails.length) ∧ ∃ m', step m op = some m' ∧ m'.Inv := by
  cases op with
  | forward => exact .inr ⟨by simp, inv_forward hm⟩
  | backward => exact .inr ⟨by simp, inv_backward hm⟩
  | setCurrent id => exact .inr ⟨by simp, _, rfl, inv_setCurrent hm id⟩
  | first => exact .inr ⟨by simp, _, rfl, inv_first hm.distinct⟩
  | last => exact .inr ⟨by simp, _, rfl, inv_last hm⟩
  | setScope scope =>
    obtain ⟨m', old, h, hinv, -⟩ := setScope_spec hm scope
    exact .inr ⟨by simp, m', by simp [step, h], hinv⟩
  | setFilter filter =>
    obtain ⟨m', old, h, hinv, -⟩ := setFilter_spec hm filter
    exact .inr ⟨by simp, m', by simp [step, h], hinv⟩
  | remove idx =>
    rcases Nat.lt_or_ge idx m.thumbnails.length with hlt | hge
    · obtain ⟨m', t, h, hinv⟩ := removeByIdx_spec hm hlt
      refine .inr ⟨fun i hi => ?_, m', by simp [step, h], hinv⟩
      obtain rfl := Op.remove.inj hi
      exact hlt
    · exact .inl ⟨idx, rfl, hge, by simp [step, removeByIdx, getElem?_eq_none hge]⟩

theorem step_inv (hm : m.Inv) {op : Op} (h : step m op = some m') : m'.Inv := by
  rcases step_spec hm op with ⟨_, -, -, hnone⟩ | ⟨-, m₁, hm₁, hinv⟩
  · simp [hnone] at h
  · obtain rfl := some.inj (hm₁.symm.trans h)
    exact hinv

theorem run_inv {l : List Thumbnail} (hl : (l.map Thumbnail.id).Nodup)
    (h : run step (ofThumbnails l) ops = some m) : m.Inv :=
  run_invariant (fun _ _ _ hm hs => step_inv hm hs) (inv_ofThumbnails hl) h

/-- In every state that a switcher reaches, a visible thumbnail is selected iff one is visible, no method
fails, stepping forward and backward goes round the visible thumbnails, and a change of the scope or the
filter stays as near as it can. -/
theorem mru_selection {l : List Thumbnail} (hl : (l.map Thumbnail.id).Nodup)
    (h : run step (ofThumbnails l) ops = some m) :
    (m.visible ≠ [] ↔ ∃ t ∈ m.visible, m.currentId = some t.id) ∧
      (m.visible = [] ↔ m.currentId = none) ∧
      (∀ op, step m op = none ↔ ∃ idx, op = .remove idx ∧ m.thumbnails.length ≤ idx) ∧
      m.forward.bind backward = some m ∧ m.backward.bind forward = some m ∧
      (fun r => r.bind forward)^[m.visible.length] (some m) = some m ∧
      (∀ scope, ∃ m' old, m.setScope scope = some (m', old) ∧ Reselects m m' ∧ m'.scope = scope ∧
        m'.appIdFilter = m.appIdFilter) ∧
      ∀ filter, ∃ m' old, m.setFilter filter = some (m', old) ∧ Reselects m m' ∧
        m'.scope = m.scope ∧ m'.appIdFilter = m.nextFilter filter := by
  have hm := run_inv hl h
  refine ⟨hm.visible_ne_nil_iff, ⟨fun hnil => ?_, hm.unset⟩, fun op => ?_, forward_backward hm,
    backward_forward hm, forward_cycle hm, fun scope => ?_, fun filter => ?_⟩
  · cases hc : m.currentId with
    | none => rfl
    | some id => simpa [hnil] using hm.current id hc
  · rcases step_spec hm op with ⟨idx, rfl, hge, hnone⟩ | ⟨hlt, m', hm', -⟩
    · exact ⟨fun _ => ⟨idx, rfl, hge⟩, fun _ => hnone⟩
    · constructor
      · intro hnone
        simp [hnone] at hm'
      · rintro ⟨idx, rfl, hge⟩
        exact absurd (hlt idx rfl) (by omega)
  · obtain ⟨m', old, h, -, hre⟩ := setScope_spec hm scope
    exact ⟨m', old, h, hre⟩
  · obtain ⟨m', old, h, -, hre⟩ := setFilter_spec hm filter
    exact ⟨m', old, h, hre⟩

/-- Three windows, of which the scope hides the selected one. -/
def testThumbnails : List Thumbnail :=
  [⟨1, some 9, true, true, some "a"⟩, ⟨2, some 8, false, false, some "b"⟩, ⟨3, none, true, false, none⟩]

theorem mru_selection_scope :
    run step (ofThumbnails testThumbnails) [.forward, .setScope .output] =
        some ⟨testThumbnails, some 1, .output, none⟩ ∧
      (⟨testThumbnails, some 1, .output, none⟩ : WindowMru).forward.bind backward =
        some ⟨testThumbnails, some 1, .output, none⟩ :=
  have h : run step (ofThumbnails testThumbnails) [.forward, .setScope .output] =
    some ⟨testThumbnails, some 1, .output, none⟩ := by decide
  ⟨h, (mru_selection (by decide) h).2.2.2.1⟩

end Run

end Macniri.Mru
