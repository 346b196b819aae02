import Macniri.ExtWorkspace.State
import Mathlib.Logic.Function.Basic

/-! What a manager knows: the fold of the events it was sent, which fails if they are not in order. -/
namespace Macniri.ExtWorkspace

open Option List

/-- A live workspace handle; `group` is the group that it entered. -/
structure HandleView where
  id : Option String
  name : Option String
  coordinates : Option (ℕ × ℕ)
  state : Option WorkspaceState
  group : Option ℕ
  deriving DecidableEq, Repr

structure View where
  workspaces : ℕ → Option HandleView
  groups : ℕ → Bool

namespace View

def empty : View := ⟨fun _ => none, fun _ => false⟩

def set (v : View) (h : ℕ) (hv : Option HandleView) : View :=
  { v with workspaces := Function.update v.workspaces h hv }

/-- An event; `none` if it is about an object that is not live, or about one that is created again, or if
a workspace enters a group while it is in one, or leaves one that it is not in. -/
def apply (v : View) : Event → Option View
  | .workspaceGroup g =>
    if v.groups g then none else some { v with groups := Function.update v.groups g true }
  | .groupCapabilities g => if v.groups g then some v else none
  | .groupRemoved g =>
    if v.groups g then some { v with groups := Function.update v.groups g false } else none
  | .workspaceEnter g h => (v.workspaces h).bind fun hv =>
    if v.groups g ∧ hv.group = none then some (v.set h (some { hv with group := some g })) else none
  | .workspaceLeave g h => (v.workspaces h).bind fun hv =>
    if v.groups g ∧ hv.group = some g then some (v.set h (some { hv with group := none })) else none
  | .workspace h =>
    if (v.workspaces h).isSome then none else some (v.set h (some ⟨none, none, none, none, none⟩))
  | .id h id => (v.workspaces h).map fun hv => v.set h (some { hv with id := some id })
  | .name h name => (v.workspaces h).map fun hv => v.set h (some { hv with name := some name })
  | .coordinates h coordinates =>
    (v.workspaces h).map fun hv => v.set h (some { hv with coordinates := some coordinates })
  | .state h state => (v.workspaces h).map fun hv => v.set h (some { hv with state := some state })
  | .capabilities h => (v.workspaces h).map fun _ => v
  | .removed h => (v.workspaces h).map fun _ => v.set h none
  | .done => some v
  | .finished => some v

variable {v : View} {h g : ℕ} {hv : HandleView}

@[simp] theorem set_workspaces_self {o : Option HandleView} : (v.set h o).workspaces h = o := by
  simp [set]

@[simp] theorem set_set {o o' : Option HandleView} : (v.set h o).set h o' = v.set h o' := by
  simp [set]

theorem set_workspaces {o : Option HandleView} {h' : ℕ} :
    (v.set h o).workspaces h' = if h' = h then o else v.workspaces h' := by
  simp [set, Function.update_apply]

theorem set_self {o : Option HandleView} (hv : v.workspaces h = o) : v.set h o = v := by
  simp [set, ← hv]

end View

/-- The events that were sent to a manager. -/
def stream (m : ℕ) (sent : List (ℕ × Event)) : List Event :=
  sent.filterMap fun x => if x.1 = m then some x.2 else none

def viewOf (m : ℕ) (sent : List (ℕ × Event)) : Option View := run View.apply .empty (stream m sent)

section Stream

variable {m : ℕ} {xs ys : List (ℕ × Event)} {l : List Handle} {f : Handle → List Event}

@[simp] theorem stream_append : stream m (xs ++ ys) = stream m xs ++ stream m ys :=
  filterMap_append

theorem viewOf_append : viewOf m (xs ++ ys) =
    (viewOf m xs).bind fun v => run View.apply v (stream m ys) := by
  rw [viewOf, stream_append, run_append]
  rfl

theorem stream_map_self (es : List Event) : stream m (es.map (m, ·)) = es := by
  induction es with
  | nil => rfl
  | cons e es ih => simp [stream] at ih ⊢

theorem stream_map_other {m' : ℕ} (h : m' ≠ m) (es : List Event) : stream m (es.map (m', ·)) = [] := by
  induction es with
  | nil => rfl
  | cons e es ih => simp [stream, h]

/-- A manager is sent the events about its own objects. -/
theorem stream_sendEach : stream m (sendEach l f) = (l.filter (·.manager = m)).flatMap f := by
  induction l with
  | nil => rfl
  | cons x l ih =>
    have hcons : sendEach (x :: l) f = (f x).map (x.manager, ·) ++ sendEach l f := rfl
    rw [hcons, stream_append, ih]
    by_cases hx : x.manager = m
    · rw [filter_cons_of_pos (by simpa using hx), flatMap_cons, ← hx, stream_map_self]
    · rw [filter_cons_of_neg (by simpa using hx), stream_map_other hx, nil_append]

theorem stream_sendEach_one {x : Handle} (h : l.filter (·.manager = m) = [x]) :
    stream m (sendEach l f) = f x := by
  rw [stream_sendEach, h, flatMap_singleton]

end Stream

/-- What a handle shows of a workspace. -/
def WorkspaceData.shown (data : WorkspaceData) (group : Option ℕ) : HandleView :=
  ⟨data.id, some data.name, some data.coordinates, some data.state, group⟩

section Events

attribute [local simp] View.apply

variable {v : View} {h g : ℕ} {data : WorkspaceData}

theorem run_announce (hv : v.workspaces h = none) :
    run View.apply v (data.announce h) = some (v.set h (some (data.shown none))) := by
  unfold WorkspaceData.announce WorkspaceData.shown
  cases data.id <;> simp [hv]

theorem run_announceGroup (hg : v.groups g = false) :
    run View.apply v (GroupData.announce g) =
      some { v with groups := Function.update v.groups g true } := by
  simp [GroupData.announce, hg]

theorem run_removed {hv : HandleView} (hh : v.workspaces h = some hv) :
    run View.apply v [.removed h] = some (v.set h none) := by
  simp [hh]

theorem run_enter {hv : HandleView} (hg : v.groups g = true) (hh : v.workspaces h = some hv)
    (hnone : hv.group = none) :
    run View.apply v [.workspaceEnter g h] = some (v.set h (some { hv with group := some g })) := by
  simp [hh, hg, hnone]

theorem run_leave {hv : HandleView} (hg : v.groups g = true) (hh : v.workspaces h = some hv)
    (hsome : hv.group = some g) :
    run View.apply v [.workspaceLeave g h] = some (v.set h (some { hv with group := none })) := by
  simp [hh, hg, hsome]

/-- The flags say what changed. -/
structure Tells (data newData : WorkspaceData) (changes : State.Changes) : Prop where
  idSet : changes.idSet = true → newData.id.isSome
  id : changes.idSet = false → newData.id = data.id
  name : changes.name = false → newData.name = data.name
  coordinates : changes.coordinates = false → newData.coordinates = data.coordinates
  state : changes.state = false → newData.state = data.state

/-- The events about what changed bring a handle up to date. -/
theorem run_changeEvents {newData : WorkspaceData} {changes : State.Changes} {group : Option ℕ}
    (hv : v.workspaces h = some (data.shown group)) (ht : Tells data newData changes) :
    run View.apply v (State.changeEvents newData changes h) =
      some (v.set h (some (newData.shown group))) := by
  obtain ⟨idSet, recreate, coordinates, state, name, output⟩ := changes
  obtain ⟨hset, hid, hname, hcoordinates, hstate⟩ := ht
  unfold State.changeEvents
  have hidEvents : run View.apply v (if idSet then newData.id.toList.map (.id h) else []) =
      some (v.set h (some { data.shown group with id := newData.id })) := by
    cases idSet with
    | true =>
      obtain ⟨id, hsome⟩ := isSome_iff_exists.mp (hset rfl)
      simp [hsome, hv]
    | false =>
      rw [hid rfl]
      simp only [Bool.false_eq_true, if_false, run_nil, some.injEq]
      exact (View.set_self hv).symm
  have hrest : ∀ (hv' : HandleView) (u : View), u.workspaces h = some hv' →
      hv'.name = some data.name → hv'.coordinates = some data.coordinates →
      hv'.state = some data.state →
      run View.apply u ((if name then [.name h newData.name] else []) ++
        (if coordinates then [.coordinates h newData.coordinates] else []) ++
        if state then [.state h newData.state] else []) =
      some (u.set h (some ⟨hv'.id, some newData.name, some newData.coordinates,
        some newData.state, hv'.group⟩)) := by
    intro hv' u hu hn hc hs
    cases name <;> cases coordinates <;> cases state <;> simp_all
    rw [← hn, ← hc, ← hs]
    exact (View.set_self hu).symm
  rw [append_assoc, append_assoc, run_append, hidEvents, bind_some,
    ← append_assoc, hrest _ _ View.set_workspaces_self rfl rfl rfl, View.set_set]
  rfl

theorem tells_update {state : WorkspaceState} {output : Option ℕ} {wsIdx : ℕ} {ws : Workspace}
    (hr : (State.update data state output wsIdx ws).2.recreate = false) :
    Tells data (State.update data state output wsIdx ws).1
      (State.update data state output wsIdx ws).2 := by
  simp only [State.update, Bool.and_eq_false_iff, decide_eq_false_iff_not, not_not,
    isSome_eq_false_iff, isNone_iff_eq_none] at hr
  constructor
  · intro hset
    simp only [State.update, Bool.and_eq_true, decide_eq_true_eq, isNone_iff_eq_none] at hset ⊢
    obtain ⟨hne, hnone⟩ := hset
    rw [hnone] at hne
    exact isSome_iff_ne_none.mpr (Ne.symm hne)
  · intro hset
    simp only [State.update, Bool.and_eq_false_iff, decide_eq_false_iff_not, not_not] at hset ⊢
    rcases hr with hr | hr
    · exact hr.symm
    · rcases hset with hset | hset
      · exact hset.symm
      · simp [hr] at hset
  · intro hname
    simp only [State.update] at hname ⊢
    rw [hname]
    rfl
  · intro hcoordinates
    simp only [State.update, decide_eq_false_iff_not, not_not] at hcoordinates ⊢
    rw [← hcoordinates]
  · intro hstate
    simp only [State.update, decide_eq_false_iff_not, not_not] at hstate ⊢
    exact hstate.symm

end Events

end Macniri.ExtWorkspace
