import Macniri.ForeignToplevel.Managers

/-! What the managers see along a run. -/
namespace Macniri.ForeignToplevel

open Option List HashMap

open View (AtMostOneActivated)

variable {s t : State} {snapshot : Snapshot}

def Snapshot.empty : Snapshot := ⟨[], none, nodup_nil⟩

/-- The windows as the last refresh found them. -/
def lastSnapshot (steps : List Step) : Snapshot :=
  steps.foldl (fun last step => match step with
    | .refresh _ snapshot => snapshot
    | _ => last) .empty

theorem lastSnapshot_concat (steps : List Step) (step : Step) :
    lastSnapshot (steps ++ [step]) = match step with
      | .refresh _ snapshot => snapshot
      | _ => lastSnapshot steps := by
  rw [lastSnapshot, foldl_append]
  rfl

/-- A refresh finds no window that stays without the title or app id it had. -/
def KeepsAllNames (s : State) : Step → Prop
  | .refresh _ snapshot => NamesKept s snapshot
  | _ => True

theorem good_step {steps : List Step} {step : Step} (hs : Good s ∧ Tracks s (lastSnapshot steps))
    (hnames : KeepsAllNames s step) (hstep : s.step step = some t) :
    Good t ∧ Tracks t (lastSnapshot (steps ++ [step])) := by
  obtain ⟨hgood, htracks⟩ := hs
  rw [lastSnapshot_concat]
  cases step with
  | refresh ord snapshot =>
    obtain rfl := some.inj hstep
    exact hgood.refresh hnames
  | bind ord client =>
    obtain rfl := some.inj hstep
    obtain ⟨hgood', hcore⟩ := hgood.bind client
    exact ⟨hgood', htracks.of_core hcore⟩
  | stop manager =>
    obtain ⟨-, rfl⟩ := of_guard hstep
    exact ⟨hgood.stop manager, htracks.of_core fun w => rfl⟩
  | bindOutput ord client output =>
    obtain rfl := some.inj hstep
    obtain ⟨hgood', hcore⟩ := hgood.bindOutput client output
    exact ⟨hgood', htracks.of_core hcore⟩

theorem good_run {steps : List Step} (hnames : AllAlong State.step KeepsAllNames .init steps)
    (hrun : run State.step .init steps = some s) : Good s ∧ Tracks s (lastSnapshot steps) := by
  have hinit : Good .init ∧ Tracks .init (lastSnapshot []) :=
    ⟨good_init, ⟨(fun _ hw => nomatch hw), fun _ _ hd => nomatch hd⟩⟩
  exact run_invariant_allAlong (I := fun steps s => Good s ∧ Tracks s (lastSnapshot steps))
    (fun _ _ _ _ => good_step) hinit hnames hrun

/-- What a client should see of a window. -/
def Snapshot.shown (snapshot : Snapshot) (wlOutputs : List WlOutput) (client : ℕ) (window : Window) :
    HandleView :=
  ⟨window.title, window.appId,
    toStateVec window.maximized window.fullscreen (snapshot.keyboardFocus = some window.surface),
    clientOutputs wlOutputs window.output client⟩

/-- Each window has a handle of its own that shows it, and there are no others. -/
structure Faithful (v : View) (snapshot : Snapshot) (wlOutputs : List WlOutput) (client : ℕ)
    (handle : Window → ℕ) : Prop where
  shown : ∀ window ∈ snapshot.windows,
    v.handles (handle window) = some (snapshot.shown wlOutputs client window)
  inj : ∀ a ∈ snapshot.windows, ∀ b ∈ snapshot.windows, handle a = handle b → a = b
  only : ∀ h hv, v.handles h = some hv → ∃ window ∈ snapshot.windows, handle window = h
  activated : ∀ window ∈ snapshot.windows,
    v.Activated (handle window) ↔ snapshot.keyboardFocus = some window.surface

theorem Good.faithful (hs : Good s) (htracks : Tracks s snapshot) {m : Manager} (hm : m ∈ s.instances)
    {v : View} (hv : Mirrors s m.id v) : ∃ handle, Faithful v snapshot s.wlOutputs m.client handle := by
  have hhandle : ∀ window ∈ snapshot.windows, ∃ object d h o, s.Has window.surface d h o ∧
      h.manager = m ∧ h.object = object ∧ d.shown o = snapshot.shown s.wlOutputs m.client window := by
    intro window hw
    obtain ⟨d, hd, hcore⟩ := of_map (htracks.windows window hw)
    obtain ⟨h, o, ho, rfl⟩ := hs.live m hm _ d hd
    refine ⟨h.object, d, h, o, ⟨hd, ho⟩, rfl, rfl, ?_⟩
    have hshown : d.shown o = d.core.shown (s.entered d.core.output h) := by
      rw [hs.entered ⟨hd, ho⟩]
      rfl
    rw [hshown, hcore]
    rfl
  choose! handle hhandle using hhandle
  have hshown : ∀ window ∈ snapshot.windows,
      v.handles (handle window) = some (snapshot.shown s.wlOutputs m.client window) := by
    intro window hw
    obtain ⟨d, h, o, hhas, rfl, hobject, hshown⟩ := hhandle window hw
    exact (hv _ _).mpr ⟨_, d, h, o, hhas, rfl, hobject, hshown⟩
  refine ⟨handle, ⟨hshown, ?_, ?_, ?_⟩⟩
  · intro a ha b hb heq
    obtain ⟨d, h, o, hhas, -, hobject, -⟩ := hhandle a ha
    obtain ⟨d', h', o', hhas', -, hobject', -⟩ := hhandle b hb
    have hsame : h.object = h'.object := hobject.trans (heq.trans hobject'.symm)
    exact Snapshot.eq_of_surface ha hb (hs.object_inj hhas hhas' hsame).1
  · intro x hx hget
    obtain ⟨w, d', h', o', hhas', hm', rfl, -⟩ := (hv _ _).mp hget
    obtain ⟨window, hw, rfl⟩ := List.mem_map.mp (htracks.only w d' hhas'.1)
    obtain ⟨d, h, o, hhas, rfl, hobject, -⟩ := hhandle window hw
    obtain rfl := some.inj (hhas.1.symm.trans hhas'.1)
    exact ⟨window, hw, by rw [← hobject, hs.one hhas hhas' hm'.symm]⟩
  · intro window hw
    constructor
    · rintro ⟨x, hx, hact⟩
      obtain rfl := some.inj ((hshown window hw).symm.trans hx)
      exact of_decide_eq_true (mem_toStateVec.mp hact)
    · exact fun hfocus => ⟨_, hshown window hw, mem_toStateVec.mpr (decide_eq_true hfocus)⟩

/-- As long as no window that stays loses its title or app id, the view of every manager that was not stopped
is that of the windows at the last refresh, and at no moment does any manager see two activated handles. -/
theorem toplevels_mirrored (steps : List Step)
    (hnames : AllAlong State.step KeepsAllNames .init steps)
    (hrun : run State.step .init steps = some s) :
    (∀ m ∈ s.instances, ∃ v handle, run View.apply .empty (stream m.id s.sent) = some v ∧
      Faithful v (lastSnapshot steps) s.wlOutputs m.client handle) ∧
    ∀ m seen rest, stream m s.sent = seen ++ rest →
      ∃ v, run View.apply .empty seen = some v ∧ v.AtMostOneActivated := by
  obtain ⟨hgood, htracks⟩ := good_run hnames hrun
  constructor
  · intro m hm
    obtain ⟨v, hthrough, hmirror⟩ := hgood.view m.id
    obtain ⟨handle, hfaithful⟩ := hgood.faithful htracks hm hmirror
    exact ⟨v, handle, hthrough.run_eq, hfaithful⟩
  · intro m seen rest hsent
    obtain ⟨v, hthrough, -⟩ := hgood.view m
    rw [hsent] at hthrough
    refine hthrough.of_prefix ?_
    rintro a b ⟨hv, hget, -⟩
    exact nomatch hget

/-- Two windows on no output, one of which has the focus. -/
def twoWindows (title : String) (focus : ℕ) : Snapshot where
  windows := [⟨1, some title, some "app", false, false, none⟩, ⟨2, some "c", some "app", false, false, none⟩]
  keyboardFocus := some focus
  nodup := (by decide : [1, 2].Nodup)

theorem namesKept_twoWindows (title : String) (focus : ℕ) : NamesKept s (twoWindows title focus) := by
  rintro window (_ | ⟨_, hw⟩) d hd
  · exact ⟨(fun hn => nomatch hn), fun hn => nomatch hn⟩
  · obtain rfl := mem_singleton.mp hw
    exact ⟨(fun hn => nomatch hn), fun hn => nomatch hn⟩

/-- A window is retitled while the focus moves from it to another. -/
theorem toplevels_mirrored_retitled : ∃ s,
    run State.step .init [.bind .arbitrary 0, .refresh .arbitrary (twoWindows "a" 1),
      .refresh .arbitrary (twoWindows "b" 2)] = some s ∧
    (∀ m ∈ s.instances, ∃ v handle, run View.apply .empty (stream m.id s.sent) = some v ∧
      Faithful v (twoWindows "b" 2) s.wlOutputs m.client handle) ∧
    ∀ m seen rest, stream m s.sent = seen ++ rest →
      ∃ v, run View.apply .empty seen = some v ∧ v.AtMostOneActivated := by
  refine ⟨_, rfl, toplevels_mirrored [.bind .arbitrary 0, .refresh .arbitrary (twoWindows "a" 1),
    .refresh .arbitrary (twoWindows "b" 2)] ?_ rfl⟩
  exact ⟨trivial, fun _ _ => ⟨namesKept_twoWindows "a" 1, fun _ _ =>
    ⟨namesKept_twoWindows "b" 2, fun _ _ => trivial⟩⟩⟩

/-- A single window, on no output and without the focus. -/
def oneWindow (title : Option String) : Snapshot where
  windows := [⟨1, title, some "app", false, false, none⟩]
  keyboardFocus := none
  nodup := nodup_singleton _

theorem bind_init (ord : IterOrder) :
    State.init.bind ord 0 = ⟨[⟨0, 0⟩], ∅, [], 1, []⟩ := by
  unfold State.bind
  have hiter : ord.iter State.init.toplevels = [] := iter_empty ord
  rw [hiter]
  rfl

/-- The state with the one window. -/
def oneWindowState : State where
  instances := [⟨0, 0⟩]
  toplevels := HashMap.insert ∅ 1 ⟨some "a", some "app", [], none, HashMap.insert ∅ ⟨⟨0, 0⟩, 1⟩ []⟩
  wlOutputs := []
  next := 2
  sent := [(0, .toplevel 1), (0, .title 1 "a"), (0, .appId 1 "app"), (0, .state 1 []), (0, .done 1)]

theorem refresh_oneWindow (ord : IterOrder) :
    State.refresh ord ⟨[⟨0, 0⟩], ∅, [], 1, []⟩ (oneWindow (some "a")) = oneWindowState := by
  unfold State.refresh
  rw [iter_empty]
  rfl

theorem sent_untitled (ord : IterOrder) :
    (oneWindowState.refresh ord (oneWindow none)).sent = oneWindowState.sent ∧
      (oneWindowState.refresh ord (oneWindow none)).instances = [⟨0, 0⟩] := by
  have hiter : ord.iter oneWindowState.toplevels = [⟨1, _⟩] := iter_singleton ord
  unfold State.refresh
  rw [hiter]
  exact ⟨rfl, rfl⟩

/-- A title that is unset stays as it was for the managers. -/
theorem unset_title_not_mirrored :
    ¬∀ s, run State.step .init [.bind .arbitrary 0, .refresh .arbitrary (oneWindow (some "a")),
        .refresh .arbitrary (oneWindow none)] = some s →
      ∀ m ∈ s.instances, ∃ v handle, run View.apply .empty (stream m.id s.sent) = some v ∧
        Faithful v (oneWindow none) s.wlOutputs m.client handle := by
  intro h
  have hrun : run State.step .init [.bind .arbitrary 0, .refresh .arbitrary (oneWindow (some "a")),
      .refresh .arbitrary (oneWindow none)] =
        some (oneWindowState.refresh .arbitrary (oneWindow none)) := by
    simp only [run_cons, State.step, bind_init, bind_some, refresh_oneWindow, run_nil]
  obtain ⟨hsent, hinstances⟩ := sent_untitled .arbitrary
  obtain ⟨v, handle, hv, hfaithful⟩ := h _ hrun ⟨0, 0⟩ (by rw [hinstances]; exact mem_singleton_self _)
  rw [hsent] at hv
  have hopen : v.handles 1 = some ⟨some "a", some "app", [], []⟩ := by
    obtain rfl := some.inj hv
    rfl
  obtain ⟨window, hw, hhandle⟩ := hfaithful.only 1 _ hopen
  have hshown := hfaithful.shown window hw
  obtain rfl := mem_singleton.mp hw
  rw [hhandle, hopen] at hshown
  exact nomatch congrArg HandleView.title (some.inj hshown)

end Macniri.ForeignToplevel
