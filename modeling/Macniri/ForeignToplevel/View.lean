import Macniri.ForeignToplevel.State
import Mathlib.Logic.Function.Basic

/-! What a manager knows: the fold of the events it was sent, which fails if they are not in order. -/
namespace Macniri.ForeignToplevel

open Option List HashMap

/-- An open handle. -/
structure HandleView where
  title : Option String
  appId : Option String
  states : List ToplevelState
  outputs : List ℕ
  deriving DecidableEq, Repr

structure View where
  handles : ℕ → Option HandleView

namespace View

def empty : View := ⟨fun _ => none⟩

def set (v : View) (h : ℕ) (hv : Option HandleView) : View := ⟨Function.update v.handles h hv⟩

/-- Change an open handle. -/
def modify (v : View) (h : ℕ) (f : HandleView → HandleView) : Option View :=
  (v.handles h).map fun hv => v.set h (some (f hv))

/-- An event; `none` if it is about a handle that is not open, or opens one again, or if a handle enters an
output that it is on, or leaves one that it is not on. -/
def apply (v : View) : Event → Option View
  | .toplevel h => if (v.handles h).isSome then none else some (v.set h (some ⟨none, none, [], []⟩))
  | .title h title => v.modify h fun hv => { hv with title := some title }
  | .appId h appId => v.modify h fun hv => { hv with appId := some appId }
  | .state h states => v.modify h fun hv => { hv with states }
  | .outputEnter h output =>
    if (v.handles h).any (output ∈ ·.outputs) then none
    else v.modify h fun hv => { hv with outputs := hv.outputs ++ [output] }
  | .outputLeave h output =>
    if (v.handles h).any (output ∈ ·.outputs) then
      v.modify h fun hv => { hv with outputs := hv.outputs.erase output }
    else none
  | .done h => v.modify h id
  | .closed h => (v.handles h).map fun _ => v.set h none
  | .finished => some v

variable {v u : View} {h h' : ℕ} {hv : HandleView} {e : Event} {es : List Event}

@[simp] theorem handles_set {o : Option HandleView} :
    (v.set h o).handles h' = if h' = h then o else v.handles h' := by
  simp [set, Function.update_apply]

@[simp] theorem set_set {o o' : Option HandleView} : (v.set h o).set h o' = v.set h o' := by
  simp [set]

theorem set_self {o : Option HandleView} (hv : v.handles h = o) : v.set h o = v := by
  simp [set, ← hv]

/-- The handle is activated. -/
def Activated (v : View) (h : ℕ) : Prop := ∃ hv, v.handles h = some hv ∧ .activated ∈ hv.states

def AtMostOneActivated (v : View) : Prop := ∀ h h', v.Activated h → v.Activated h' → h = h'

end View

/-- The event turns a handle activated. -/
def Event.Activates : Event → Prop
  | .state _ states => .activated ∈ states
  | _ => False

/-- The event is about the handle, or about none. -/
def Event.On (h : ℕ) : Event → Prop
  | .toplevel h' | .title h' _ | .appId h' _ | .state h' _ | .outputEnter h' _ | .outputLeave h' _
  | .done h' | .closed h' => h' = h
  | .finished => True

namespace View

variable {v u : View} {h h' : ℕ} {hv : HandleView} {e : Event} {es : List Event}

/-- What one event does to the handles. -/
theorem apply_cases (ha : v.apply e = some u) (hon : e.On h) :
    u = v ∨ ∃ o, u = v.set h o ∧ ∀ hv', o = some hv' → .activated ∈ hv'.states →
      e.Activates ∨ v.Activated h := by
  have hmodify : ∀ (f : HandleView → HandleView), v.modify h f = some u →
      (∀ hv, v.handles h = some hv → .activated ∈ (f hv).states → e.Activates ∨ v.Activated h) →
      ∃ o, u = v.set h o ∧ ∀ hv', o = some hv' → .activated ∈ hv'.states →
        e.Activates ∨ v.Activated h := by
    intro f hf hstates
    obtain ⟨hv, hhv, rfl⟩ := of_map hf
    refine ⟨_, rfl, ?_⟩
    rintro hv' hhv'
    obtain rfl := some.inj hhv'
    exact hstates hv hhv
  cases e with
  | finished => exact .inl (some.inj ha).symm
  | toplevel h' =>
    obtain rfl : h' = h := hon
    obtain ⟨-, hset⟩ := ite_none_left_eq_some.mp ha
    refine .inr ⟨_, (some.inj hset).symm, ?_⟩
    rintro hv' hhv' hact
    obtain rfl := some.inj hhv'
    exact nomatch hact
  | closed h' =>
    obtain rfl : h' = h := hon
    obtain ⟨hv, -, rfl⟩ := of_map ha
    exact .inr ⟨none, rfl, fun hv' hhv' => nomatch hhv'⟩
  | title h' title =>
    obtain rfl : h' = h := hon
    exact .inr (hmodify _ ha fun hv hhv hact => .inr ⟨hv, hhv, hact⟩)
  | appId h' appId =>
    obtain rfl : h' = h := hon
    exact .inr (hmodify _ ha fun hv hhv hact => .inr ⟨hv, hhv, hact⟩)
  | state h' states =>
    obtain rfl : h' = h := hon
    exact .inr (hmodify _ ha fun hv hhv hact => .inl hact)
  | outputEnter h' output =>
    obtain rfl : h' = h := hon
    obtain ⟨-, hset⟩ := ite_none_left_eq_some.mp ha
    exact .inr (hmodify _ hset fun hv hhv hact => .inr ⟨hv, hhv, hact⟩)
  | outputLeave h' output =>
    obtain rfl : h' = h := hon
    obtain ⟨-, hset⟩ := ite_none_right_eq_some.mp ha
    exact .inr (hmodify _ hset fun hv hhv hact => .inr ⟨hv, hhv, hact⟩)
  | done h' =>
    obtain rfl : h' = h := hon
    exact .inr (hmodify _ ha fun hv hhv hact => .inr ⟨hv, hhv, hact⟩)

/-- An event about one handle leaves the others as they were, and that one is activated only if it was or if
the event says so. -/
theorem activated_apply (ha : v.apply e = some u) (hon : e.On h) (hact : u.Activated h') :
    v.Activated h' ∨ (h' = h ∧ e.Activates) := by
  rcases apply_cases ha hon with rfl | ⟨o, rfl, ho⟩
  · exact .inl hact
  · obtain ⟨hv, hhv, hstates⟩ := hact
    rw [handles_set] at hhv
    by_cases heq : h' = h
    · subst heq
      rw [if_pos rfl] at hhv
      rcases ho hv hhv hstates with he | hv
      · exact .inr ⟨rfl, he⟩
      · exact .inl hv
    · rw [if_neg heq] at hhv
      exact .inl ⟨hv, hhv, hstates⟩

/-- Events about one handle keep the activated handle unique if none of them activates it, or if no other
handle is activated. -/
theorem through_on (hrun : run View.apply v es = some u) (hon : ∀ e ∈ es, e.On h)
    (hv : v.AtMostOneActivated)
    (hact : (∀ e ∈ es, ¬e.Activates) ∨ ∀ h', v.Activated h' → h' = h) :
    Through View.apply AtMostOneActivated v es u := by
  rcases hact with hcalm | halone
  · refine through_of_invariant (fun s e t he hs ht => ?_) (fun s hs => hs) hv hrun
    intro a b ha hb
    rcases activated_apply ht (hon e he) ha with ha | ⟨-, ha⟩
    · rcases activated_apply ht (hon e he) hb with hb | ⟨-, hb⟩
      · exact hs a b ha hb
      · exact absurd hb (hcalm e he)
    · exact absurd ha (hcalm e he)
  · refine through_of_invariant (I := fun s => ∀ h', s.Activated h' → h' = h)
      (fun s e t he hs ht => ?_) (fun s hs => ?_) halone hrun
    · intro a ha
      rcases activated_apply ht (hon e he) ha with ha | ⟨ha, -⟩
      · exact hs a ha
      · exact ha
    · exact fun a b ha hb => (hs a ha).trans (hs b hb).symm

theorem run_outputEnter {outputs : List ℕ} (hv' : v.handles h = some hv) (hnodup : outputs.Nodup)
    (hnew : ∀ o ∈ outputs, o ∉ hv.outputs) :
    run View.apply v (outputs.map (.outputEnter h)) =
      some (v.set h (some { hv with outputs := hv.outputs ++ outputs })) := by
  induction outputs generalizing v hv with
  | nil => simp [set_self hv']
  | cons o outputs ih =>
    obtain ⟨ho, hnodup⟩ := nodup_cons.mp hnodup
    have hout : o ∉ hv.outputs := hnew o (mem_cons_self ..)
    have hfirst : v.apply (.outputEnter h o) =
        some (v.set h (some { hv with outputs := hv.outputs ++ [o] })) := by
      simp [apply, hv', hout, modify]
    rw [map_cons, run_cons, hfirst, bind_some,
      ih (by rw [handles_set, if_pos rfl]) hnodup, set_set]
    · simp
    · intro o' ho'
      have : o' ≠ o := fun heq => ho (heq ▸ ho')
      simp [this, hnew o' (mem_cons_of_mem o ho')]

theorem run_outputLeave (hv' : v.handles h = some hv) :
    run View.apply v (hv.outputs.map (.outputLeave h)) =
      some (v.set h (some { hv with outputs := [] })) := by
  obtain ⟨title, appId, states, outputs⟩ := hv
  induction outputs generalizing v with
  | nil => simp [set_self hv']
  | cons o outputs ih =>
    have hfirst : v.apply (.outputLeave h o) =
        some (v.set h (some ⟨title, appId, states, outputs⟩)) := by
      simp [apply, hv', modify]
    rw [map_cons, run_cons, hfirst, bind_some]
    have hrest := ih (v := v.set h (some ⟨title, appId, states, outputs⟩)) (by simp)
    rw [set_set] at hrest
    exact hrest

end View

/-- What a handle shows of a toplevel. -/
def ToplevelData.shown (data : ToplevelData) (outputs : List ℕ) : HandleView :=
  ⟨data.title, data.appId, data.states, outputs⟩

section Events

variable {v : View} {h : ℕ} {hv : HandleView} {data new : ToplevelData} {outputs left entered : List ℕ}

theorem run_title (hv' : v.handles h = some hv) (title : Option String) :
    run View.apply v (title.toList.map (.title h)) =
      some (v.set h (some { hv with title := title.or hv.title })) := by
  cases title with
  | none => simp [View.set_self hv']
  | some title => simp [View.apply, View.modify, hv']

theorem run_appId (hv' : v.handles h = some hv) (appId : Option String) :
    run View.apply v (appId.toList.map (.appId h)) =
      some (v.set h (some { hv with appId := appId.or hv.appId })) := by
  cases appId with
  | none => simp [View.set_self hv']
  | some appId => simp [View.apply, View.modify, hv']

theorem run_state (hv' : v.handles h = some hv) (changed : Bool) (states : List ToplevelState) :
    run View.apply v (if changed then [.state h states] else []) =
      some (v.set h (some { hv with states := if changed then states else hv.states })) := by
  cases changed with
  | false => simp [View.set_self hv']
  | true => simp [View.apply, View.modify, hv']

theorem run_done (hv' : v.handles h = some hv) : run View.apply v [.done h] = some v := by
  simp [View.apply, View.modify, hv', View.set_self hv']

theorem run_outputs (hv' : v.handles h = some hv) (changed : Bool) (hnodup : entered.Nodup) :
    run View.apply v (if changed then
        hv.outputs.map (.outputLeave h) ++ entered.map (.outputEnter h) else []) =
      some (v.set h (some { hv with outputs := if changed then entered else hv.outputs })) := by
  cases changed with
  | false => simp [View.set_self hv']
  | true =>
    rw [if_pos rfl, run_append, View.run_outputLeave hv', bind_some,
      View.run_outputEnter (by rw [View.handles_set, if_pos rfl]) hnodup (by simp)]
    simp

/-- The events about a new handle show the toplevel. -/
theorem run_announce (hv : v.handles h = none) (hnodup : outputs.Nodup) :
    run View.apply v (data.announce h outputs) = some (v.set h (some (data.shown outputs))) := by
  have hself : ∀ hv : HandleView, (v.set h (some hv)).handles h = some hv := fun hv => by simp
  have hopen : run View.apply v [.toplevel h] = some (v.set h (some ⟨none, none, [], []⟩)) := by
    simp [View.apply, hv]
  have hlist : data.announce h outputs = [.toplevel h] ++ (data.title.toList.map (.title h) ++
      (data.appId.toList.map (.appId h) ++ ((if true then [.state h data.states] else []) ++
        (outputs.map (.outputEnter h) ++ [.done h])))) := by
    simp [ToplevelData.announce]
  rw [hlist, run_append, hopen, bind_some, run_append, run_title (hself _), bind_some,
    View.set_set, run_append, run_appId (hself _), bind_some, View.set_set, run_append,
    run_state (hself _), bind_some, View.set_set, run_append,
    View.run_outputEnter (hself _) hnodup (by simp), bind_some, View.set_set, run_done (hself _)]
  simp [ToplevelData.shown]

/-- The title and the app id are not unset. -/
def KeepsNames (data new : ToplevelData) : Prop :=
  (new.title = none → data.title = none) ∧ (new.appId = none → data.appId = none)

theorem or_if_ne {old new : Option String} (h : new = none → old = none) :
    (if old ≠ new then new else none).or old = new := by
  by_cases heq : old = new
  · simp [heq]
  · cases new with
    | none => exact absurd (h rfl) heq
    | some new => simp [heq]

/-- The events about what changed bring a handle up to date. -/
theorem run_changes (hv : v.handles h = some (data.shown left)) (hnames : KeepsNames data new)
    (hnodup : entered.Nodup) :
    run View.apply v ((Changes.of data new).events new.states h left entered) =
      some (v.set h (some (new.shown (if data.output ≠ new.output then entered else left)))) := by
  have hself : ∀ hv : HandleView, (v.set h (some hv)).handles h = some hv := fun hv => by simp
  unfold Changes.events
  simp only [append_assoc]
  rw [run_append, run_title hv, bind_some, run_append, run_appId (hself _), bind_some,
    View.set_set, run_append, run_state (hself _), bind_some, View.set_set, run_append]
  have houtputs := run_outputs (hself ⟨(Changes.of data new).newTitle.or data.title,
    (Changes.of data new).newAppId.or data.appId,
    if (Changes.of data new).statesChanged then new.states else data.states, left⟩)
    (Changes.of data new).outputChanged hnodup
  refine (congrArg (Option.bind · _) houtputs).trans ?_
  rw [bind_some, View.set_set, run_done (hself _)]
  have hstates : (if (Changes.of data new).statesChanged then new.states else data.states) =
      new.states := by
    by_cases heq : data.states = new.states <;> simp [Changes.of, heq]
  rw [hstates]
  simp only [Changes.of, or_if_ne hnames.1, or_if_ne hnames.2, decide_eq_true_eq,
    ToplevelData.shown]

/-- Without any change there is nothing to bring up to date. -/
theorem shown_of_same (left : List ℕ) (hnames : KeepsNames data new)
    (hsame : (Changes.of data new).somethingChanged = false) :
    new.shown left = data.shown left ∧ data.output = new.output := by
  simp only [Changes.somethingChanged, Changes.of, Bool.or_eq_false_iff, decide_eq_false_iff_not,
    not_not] at hsame
  obtain ⟨⟨⟨htitle, happId⟩, hstates⟩, houtput⟩ := hsame
  have hsame : ∀ {old new : Option String}, (new = none → old = none) →
      (if old ≠ new then new else none).isSome = false → new = old := by
    intro old new h hnone
    have hor := or_if_ne h
    rw [isSome_eq_false_iff, isNone_iff_eq_none] at hnone
    rw [hnone, none_or] at hor
    exact hor.symm
  refine ⟨?_, houtput⟩
  rw [ToplevelData.shown, ToplevelData.shown, hsame hnames.1 htitle, hsame hnames.2 happId, hstates]

/-- The events about a handle activate it only if that is one of its states. -/
theorem announce_on : ∀ e ∈ data.announce h outputs,
    e.On h ∧ (e.Activates → .activated ∈ data.states) := by
  simp only [ToplevelData.announce, mem_append, mem_cons, List.mem_map]
  rintro e ((((rfl | ⟨t, -, rfl⟩) | ⟨t, -, rfl⟩) | rfl | ⟨o, -, rfl⟩) | rfl | he)
  all_goals first | exact ⟨rfl, False.elim⟩ | exact ⟨rfl, id⟩ | exact nomatch he

theorem changes_on {changes : Changes} {states : List ToplevelState} :
    ∀ e ∈ changes.events states h left entered, e.On h ∧ (e.Activates → .activated ∈ states) := by
  simp only [Changes.events, mem_append, mem_cons, List.mem_map]
  rintro e ((((⟨t, -, rfl⟩ | ⟨t, -, rfl⟩) | he) | he) | rfl | he)
  · exact ⟨rfl, False.elim⟩
  · exact ⟨rfl, False.elim⟩
  · split at he
    · obtain rfl := mem_singleton.mp he
      exact ⟨rfl, id⟩
    · exact nomatch he
  · split at he
    · rcases mem_append.mp he with he | he
      all_goals
        obtain ⟨o, -, rfl⟩ := List.mem_map.mp he
        exact ⟨rfl, False.elim⟩
    · exact nomatch he
  · exact ⟨rfl, False.elim⟩
  · exact nomatch he

end Events

/-! The streams of the managers. -/

/-- The events that were sent to a manager. -/
def stream (m : ℕ) (sent : List (ℕ × Event)) : List Event :=
  sent.filterMap fun x => if x.1 = m then some x.2 else none

section Stream

variable {m : ℕ} {xs ys : List (ℕ × Event)} {instances : HashMap Handle (List ℕ)}
  {f : Handle → List ℕ → List Event}

@[simp] theorem stream_nil : stream m [] = [] := rfl

@[simp] theorem stream_append : stream m (xs ++ ys) = stream m xs ++ stream m ys :=
  filterMap_append

theorem stream_map {m' : ℕ} (es : List Event) :
    stream m (es.map (m', ·)) = if m' = m then es else [] := by
  induction es with
  | nil => simp
  | cons e es ih =>
    by_cases h : m' = m
    · simp [stream, h]
    · simp [stream, h]

/-- A manager is sent the events about its own handles. -/
theorem stream_sendEach (ord : IterOrder) : stream m (sendEach ord instances f) =
    ((ord.iter instances).filter (·.1.manager.id = m)).flatMap fun e => f e.1 e.2 := by
  unfold sendEach
  induction ord.iter instances with
  | nil => rfl
  | cons x l ih =>
    rw [flatMap_cons, stream_append, ih, stream_map]
    by_cases hx : x.1.manager.id = m
    · rw [if_pos hx, filter_cons_of_pos (by simpa using hx), flatMap_cons]
    · rw [if_neg hx, filter_cons_of_neg (by simpa using hx), nil_append]

/-- The only handle of the manager. -/
theorem stream_sendEach_one (ord : IterOrder) {handle : Handle} {outputs : List ℕ}
    (hget : instances.get handle = some outputs) (hm : handle.manager.id = m)
    (hone : ∀ other, (instances.get other).isSome → other.manager.id = m → other = handle) :
    stream m (sendEach ord instances f) = f handle outputs := by
  have hfilter : (ord.iter instances).filter (·.1.manager.id = m) = [⟨handle, outputs⟩] := by
    have hnodup := (Nodup.of_map _ (nodup_keys_iter ord instances)).filter
      (fun e => decide (e.1.manager.id = m))
    refine perm_singleton.mp ((perm_ext_iff_of_nodup hnodup (nodup_singleton _)).mpr ?_)
    intro e
    rw [mem_filter, mem_iter, decide_eq_true_iff, mem_singleton]
    constructor
    · rintro ⟨he, hem⟩
      obtain ⟨other, outputs'⟩ := e
      obtain rfl := hone other (isSome_of_eq_some he) hem
      obtain rfl := some.inj (he.symm.trans hget)
      rfl
    · rintro rfl
      exact ⟨hget, hm⟩
  rw [stream_sendEach, hfilter, flatMap_singleton]

theorem stream_sendEach_none (ord : IterOrder)
    (hnone : ∀ handle, (instances.get handle).isSome → handle.manager.id ≠ m) :
    stream m (sendEach ord instances f) = [] := by
  have hfilter : (ord.iter instances).filter (·.1.manager.id = m) = [] := by
    rw [filter_eq_nil_iff]
    intro e he
    rw [mem_iter] at he
    simpa using hnone e.1 (isSome_of_eq_some he)
  rw [stream_sendEach, hfilter, flatMap_nil]

end Stream

end Macniri.ForeignToplevel
