import Macniri.NiriConfig.Binds
import Macniri.Lib.Run

/-! Which key presses and releases are kept from the clients. -/
namespace Macniri.Input

open Option List

open NiriConfig

/-- The actions that the filter tells apart. -/
inductive Action
  | quit (skipConfirmation : Bool)
  | changeVt (vt : ℕ)
  | suspend
  | powerOffMonitors
  | powerOnMonitors
  | moveColumnLeft
  | moveColumnLeftOrToMonitorLeft
  | moveColumnRight
  | moveColumnRightOrToMonitorRight
  | moveWindowUp
  | moveWindowUpOrToWorkspaceUp
  | moveWindowDown
  | moveWindowDownOrToWorkspaceDown
  | moveColumnToMonitorLeft
  | moveColumnToMonitorRight
  | moveColumnToMonitorUp
  | moveColumnToMonitorDown
  | moveColumnToMonitorPrevious
  | moveColumnToMonitorNext
  | moveColumnToMonitor (output : String)
  | moveWindowToMonitorLeft
  | moveWindowToMonitorRight
  | moveWindowToMonitorUp
  | moveWindowToMonitorDown
  | moveWindowToMonitorPrevious
  | moveWindowToMonitorNext
  | moveWindowToMonitor (output : String)
  | setWindowWidth (change : ℤ)
  | setWindowHeight (change : ℤ)
  | setColumnWidth (change : ℤ)
  | toggleOverview
  | focusColumnLeft
  | focusColumnRight
  | focusWindowOrWorkspaceUp
  | focusWindowOrWorkspaceDown
  | other (id : ℕ)
  deriving DecidableEq

def allowedDuringScreenshot : Action → Bool
  | .toggleOverview | .focusColumnLeft | .focusColumnRight | .focusWindowOrWorkspaceUp
  | .focusWindowOrWorkspaceDown | .other _ => false
  | _ => true

/-! Keysyms. -/

def RETURN : ℕ := 0xff0d

def ESCAPE : ℕ := 0xff1b

def LEFT : ℕ := 0xff51

def UP : ℕ := 0xff52

def RIGHT : ℕ := 0xff53

def DOWN : ℕ := 0xff54

def XF86_SWITCH_VT_1 : ℕ := 0x1008fe01

def XF86_SWITCH_VT_12 : ℕ := 0x1008fe0c

def XF86_POWER_OFF : ℕ := 0x1008ff2a

/-- A bind that is not in the config. -/
def hardcodedBind (keysym : ℕ) (action : Action) (repeats : Bool) : Bind Action where
  key := ⟨.keysym keysym, ∅⟩
  action
  repeats
  cooldown := none
  allowWhenLocked := false
  allowInhibiting := false

def hardcodedAction (modified : ℕ) (disablePowerKeyHandling : Bool) : Option Action :=
  if XF86_SWITCH_VT_1 ≤ modified ∧ modified ≤ XF86_SWITCH_VT_12 then
    some (.changeVt (modified - XF86_SWITCH_VT_1 + 1))
  else if modified = XF86_POWER_OFF ∧ disablePowerKeyHandling = false then some .suspend
  else none

def findBind (bindings : List (Bind Action)) (modKey : ModKey) (modified : ℕ) (raw : Option ℕ)
    (mods : ModifiersState) (disablePowerKeyHandling : Bool) : Option (Bind Action) :=
  match hardcodedAction modified disablePowerKeyHandling with
  | some action => some (hardcodedBind modified action true)
  | none => raw.bind fun raw => findConfiguredBind bindings modKey (.keysym raw) mods

def hardcodedOverviewBind (raw : ℕ) (mods : ModifiersState) : Option (Bind Action) :=
  if modifiersFromState mods ≠ ∅ then none
  else if raw = ESCAPE ∨ raw = RETURN then some (hardcodedBind raw .toggleOverview false)
  else if raw = LEFT then some (hardcodedBind raw .focusColumnLeft true)
  else if raw = RIGHT then some (hardcodedBind raw .focusColumnRight true)
  else if raw = UP then some (hardcodedBind raw .focusWindowOrWorkspaceUp true)
  else if raw = DOWN then some (hardcodedBind raw .focusWindowOrWorkspaceDown true)
  else none

/-- What the filter reads besides the key: the config, the UI, the keyboard focus and the keysyms. -/
structure Surroundings where
  modKey : ModKey
  binds : List (Bind Action)
  recentWindowsOn : Bool
  recentWindowsBinds : List (Bind Action)
  disablePowerKeyHandling : Bool
  exitConfirmDialogOpen : Bool
  /-- The binds of the MRU UI, if it is open. -/
  mruUi : Option (List (Bind Action))
  /-- A window or a color is being picked. -/
  picking : Bool
  /-- The actions of the screenshot UI, if it is open. -/
  screenshotUi : Option (ℕ → ModifiersState → Option Action)
  isInhibitingShortcuts : Bool
  overviewFocused : Bool
  /-- The bind that is found is on cooldown. -/
  onCooldown : Bool
  mods : ModifiersState
  modified : ℕ
  raw : Option ℕ

namespace Surroundings

def bindings (c : Surroundings) : List (Bind Action) :=
  (if c.mruUi.isSome then [] else c.binds) ++
    (if c.recentWindowsOn || c.mruUi.isSome then c.recentWindowsBinds else []) ++ c.mruUi.getD []

/-- Only a subset of the actions is allowed while the screenshot UI is open. -/
def finalBind (c : Surroundings) : Option (Bind Action) :=
  let bind := findBind c.bindings c.modKey c.modified c.raw c.mods c.disablePowerKeyHandling
  match c.screenshotUi with
  | none => bind
  | some action =>
    if bind.any fun bind => allowedDuringScreenshot bind.action then bind
    else
      match c.raw with
      | none => bind
      | some raw => (action raw c.mods).map fun action => hardcodedBind raw action true

end Surroundings

structure KeyEvent where
  keyCode : ℕ
  pressed : Bool
  surroundings : Surroundings

inductive FilterResult
  | forward
  | intercept (bind : Option (Bind Action))
  deriving DecidableEq

def FilterResult.isForward : FilterResult → Bool
  | forward => true
  | intercept _ => false

@[simp] theorem FilterResult.isForward_forward : forward.isForward = true := rfl

@[simp] theorem FilterResult.isForward_intercept (bind : Option (Bind Action)) :
    (intercept bind).isForward = false := rfl

/-- The set of key codes whose press was kept from the clients. -/
abbrev SuppressedKeys := Finset ℕ

def shouldInterceptKey (suppressed : SuppressedKeys) (e : KeyEvent) :
    SuppressedKeys × FilterResult :=
  if !e.pressed && e.keyCode ∉ suppressed then (suppressed, .forward)
  else
    match e.surroundings.finalBind, e.pressed with
    | some bind, true =>
      if e.surroundings.isInhibitingShortcuts && bind.allowInhibiting then (suppressed, .forward)
      else (insert e.keyCode suppressed, .intercept (some bind))
    | _, false => (suppressed.erase e.keyCode, .intercept none)
    | none, true => (suppressed, .forward)

/-- The filter of `on_keyboard`. -/
def filter (suppressed : SuppressedKeys) (e : KeyEvent) : SuppressedKeys × FilterResult :=
  let c := e.surroundings
  if c.exitConfirmDialogOpen && e.pressed then (insert e.keyCode suppressed, .intercept none)
  else if c.mruUi.isSome && !e.pressed && modifiersFromState c.mods = ∅ then
    if e.keyCode ∈ suppressed then (suppressed.erase e.keyCode, .intercept none)
    else (suppressed, .forward)
  else if e.pressed && c.raw = some ESCAPE && c.picking then
    (insert e.keyCode suppressed, .intercept none)
  else
    match shouldInterceptKey suppressed e with
    | (suppressed, .forward) =>
      if c.overviewFocused && e.pressed then
        match c.raw.bind fun raw => hardcodedOverviewBind raw c.mods with
        | some bind => (insert e.keyCode suppressed, .intercept (some bind))
        | none => (suppressed, .forward)
      else (suppressed, .forward)
    | r => r

/-- Changing VT or suspending may not deliver the key releases, so the state is cleared. -/
def doAction (suppressed : SuppressedKeys) : Action → SuppressedKeys
  | .changeVt _ | .suspend => ∅
  | _ => suppressed

def handleBind (suppressed : SuppressedKeys) (bind : Bind Action) (onCooldown : Bool) :
    SuppressedKeys :=
  if bind.cooldown.isSome && onCooldown then suppressed else doAction suppressed bind.action

def onKeyboard (suppressed : SuppressedKeys) (e : KeyEvent) : SuppressedKeys × FilterResult :=
  match filter suppressed e with
  | (suppressed, .intercept (some bind)) =>
    (if e.pressed then handleBind suppressed bind e.surroundings.onCooldown else suppressed,
      .intercept (some bind))
  | r => r

/-- The suppressed keys, and the events so far with what became of them. -/
structure State where
  suppressed : SuppressedKeys
  trace : List (KeyEvent × FilterResult)

namespace State

def new : State := ⟨∅, []⟩

def step (s : State) (e : KeyEvent) : Option State :=
  let r := onKeyboard s.suppressed e
  some ⟨r.1, s.trace ++ [(e, r.2)]⟩

end State

/-! What a press and a release do. -/

variable {suppressed : SuppressedKeys} {e : KeyEvent} {s t : State} {k : ℕ}

/-- Something in the compositor takes the key: the exit dialog, picking, a bind that is not inhibited, or the
overview. -/
def KeyEvent.Taken (e : KeyEvent) : Bool :=
  let c := e.surroundings
  c.exitConfirmDialogOpen || (c.raw = some ESCAPE && c.picking) ||
    (c.finalBind.any fun bind => !(c.isInhibitingShortcuts && bind.allowInhibiting)) ||
    (c.overviewFocused && (c.raw.bind fun raw => hardcodedOverviewBind raw c.mods).isSome)

/-- The bind that the press of a key sets off. -/
def KeyEvent.activeBind (e : KeyEvent) : Option (Bind Action) :=
  e.surroundings.finalBind.filter fun bind =>
    !(e.surroundings.isInhibitingShortcuts && bind.allowInhibiting)

def Action.LosesKeys : Action → Bool
  | .changeVt _ | .suspend => true
  | _ => false

def FilterResult.bind : FilterResult → Option (Bind Action)
  | forward => none
  | intercept bind => bind

/-- The event changes the VT or suspends. -/
def KeyEvent.LosesKeys (suppressed : SuppressedKeys) (e : KeyEvent) : Bool :=
  (filter suppressed e).2.bind.any fun bind => bind.action.LosesKeys

theorem doAction_eq {action : Action} (h : action.LosesKeys = false) :
    doAction suppressed action = suppressed := by
  cases action <;> first | rfl | simp [Action.LosesKeys] at h

/-- Without a VT change or a suspend the action of a bind leaves the keys alone. -/
theorem onKeyboard_eq (h : e.LosesKeys suppressed = false) :
    onKeyboard suppressed e = filter suppressed e := by
  unfold onKeyboard
  split
  · rename_i keys bind hfilter
    have hkeep : bind.action.LosesKeys = false := by
      rw [KeyEvent.LosesKeys, hfilter] at h
      exact h
    rw [hfilter, handleBind, doAction_eq hkeep, ite_self, ite_self]
  · rfl

theorem shouldInterceptKey_press (h : e.pressed = true) :
    shouldInterceptKey suppressed e =
      match e.activeBind with
      | some bind => (insert e.keyCode suppressed, .intercept (some bind))
      | none => (suppressed, .forward) := by
  unfold shouldInterceptKey KeyEvent.activeBind
  rw [h]
  cases hbind : e.surroundings.finalBind with
  | none => rfl
  | some bind =>
    rw [filter_some]
    cases hinhibits : e.surroundings.isInhibitingShortcuts && bind.allowInhibiting <;>
      simp [hinhibits]

theorem shouldInterceptKey_release (h : e.pressed = false) :
    shouldInterceptKey suppressed e =
      if e.keyCode ∈ suppressed then (suppressed.erase e.keyCode, .intercept none)
      else (suppressed, .forward) := by
  unfold shouldInterceptKey
  rw [h]
  by_cases hmem : e.keyCode ∈ suppressed
  · cases e.surroundings.finalBind <;> simp [hmem]
  · simp [hmem]

variable (suppressed) in
/-- A press is kept from the clients exactly if something takes it, and is then remembered. -/
theorem filter_press (h : e.pressed = true) :
    (filter suppressed e).2.isForward = !e.Taken ∧
      (filter suppressed e).1 = if e.Taken then insert e.keyCode suppressed else suppressed := by
  have hactive : (e.surroundings.finalBind.any fun bind =>
      !(e.surroundings.isInhibitingShortcuts && bind.allowInhibiting)) = e.activeBind.isSome := by
    unfold KeyEvent.activeBind
    rw [isSome_filter]
  unfold filter KeyEvent.Taken
  dsimp only
  rw [shouldInterceptKey_press h]
  simp only [h, hactive, Bool.and_true, Bool.not_true, Bool.and_false, Bool.false_and, Bool.false_eq_true,
    if_false, Bool.true_and]
  cases e.surroundings.exitConfirmDialogOpen with
  | true => simp
  | false =>
    cases decide (e.surroundings.raw = some ESCAPE) && e.surroundings.picking with
    | true => simp
    | false =>
      cases e.activeBind with
      | some bind => simp
      | none =>
        cases e.surroundings.overviewFocused with
        | false => simp
        | true =>
          cases e.surroundings.raw.bind fun raw => hardcodedOverviewBind raw e.surroundings.mods <;>
            simp

/-- A release is kept from the clients exactly if the key was remembered, and is then forgotten. -/
theorem filter_release (h : e.pressed = false) :
    filter suppressed e =
      if e.keyCode ∈ suppressed then (suppressed.erase e.keyCode, .intercept none)
      else (suppressed, .forward) := by
  unfold filter
  dsimp only
  rw [shouldInterceptKey_release h]
  simp only [h, Bool.and_false, Bool.false_eq_true, if_false, Bool.false_and]
  by_cases hmem : e.keyCode ∈ suppressed <;> simp [hmem]

/-! Pairs of a press and the release that follows it. -/

/-- The last event of a key. -/
def lastOf (k : ℕ) (trace : List (KeyEvent × FilterResult)) : Option (KeyEvent × FilterResult) :=
  trace.reverse.find? fun x => x.1.keyCode = k

/-- A press was forwarded exactly if the release that is the next event of its key was. -/
def Paired (trace : List (KeyEvent × FilterResult)) : Prop :=
  ∀ a p b q c, trace = a ++ p :: b ++ q :: c → p.1.pressed = true → q.1.pressed = false →
    q.1.keyCode = p.1.keyCode → (∀ x ∈ b, x.1.keyCode ≠ p.1.keyCode) →
    p.2.isForward = q.2.isForward

variable {trace : List (KeyEvent × FilterResult)} {x p : KeyEvent × FilterResult}

theorem lastOf_concat :
    lastOf k (trace ++ [x]) = if x.1.keyCode = k then some x else lastOf k trace := by
  simp only [lastOf, reverse_append, reverse_cons, reverse_nil, nil_append,
    cons_append, find?_cons]
  by_cases h : x.1.keyCode = k <;> simp [h]

theorem lastOf_split {a b : List (KeyEvent × FilterResult)}
    (h : ∀ x ∈ b, x.1.keyCode ≠ p.1.keyCode) : lastOf p.1.keyCode (a ++ p :: b) = some p := by
  induction b using List.reverseRecOn with
  | nil => simp [lastOf_concat]
  | append_singleton b x ih =>
    have hx : x.1.keyCode ≠ p.1.keyCode := h x (by simp)
    rw [← cons_append, ← append_assoc, lastOf_concat, if_neg hx]
    exact ih fun y hy => h y (by simp [hy])

/-- The keys remembered are those whose last event is a press kept from the clients. -/
def Remembers (s : State) : Prop :=
  ∀ k, k ∈ s.suppressed ↔
    ∃ x, lastOf k s.trace = some x ∧ x.1.pressed = true ∧ x.2.isForward = false

theorem State.step_eq (h : e.LosesKeys s.suppressed = false) (hstep : s.step e = some t) :
    t = ⟨(filter s.suppressed e).1, s.trace ++ [(e, (filter s.suppressed e).2)]⟩ := by
  obtain rfl := some.inj hstep
  rw [onKeyboard_eq h]

/-- A key that is still remembered is not pressed unless something takes the press. -/
def Fresh (s : State) (e : KeyEvent) : Prop :=
  e.pressed = true → e.keyCode ∈ s.suppressed → e.Taken = true

theorem Remembers.step (hs : Remembers s) (hkeys : e.LosesKeys s.suppressed = false) (hfresh : Fresh s e)
    (hstep : s.step e = some t) : Remembers t := by
  obtain rfl := State.step_eq hkeys hstep
  intro k
  simp only [lastOf_concat]
  cases hpressed : e.pressed with
  | true =>
    obtain ⟨hforward, hkept⟩ := filter_press s.suppressed hpressed
    rw [hkept]
    by_cases hk : e.keyCode = k
    · subst hk
      cases htaken : e.Taken with
      | true => simp [hpressed, hforward, htaken]
      | false =>
        -- a press that nothing takes is forwarded, so its key must not be remembered
        have hout : e.keyCode ∉ s.suppressed := by
          intro hmem
          rw [hfresh hpressed hmem] at htaken
          exact Bool.noConfusion htaken
        simp [hforward, htaken, hout]
    · rw [if_neg hk, ← hs k]
      cases e.Taken
      · simp
      · simp [Ne.symm hk]
  | false =>
    rw [filter_release hpressed]
    by_cases hk : e.keyCode = k
    · subst hk
      by_cases hmem : e.keyCode ∈ s.suppressed <;> simp [hmem, hpressed]
    · rw [if_neg hk, ← hs k]
      by_cases hmem : e.keyCode ∈ s.suppressed
      · simp [hmem, Ne.symm hk]
      · simp [hmem]

theorem Paired.step (hs : Remembers s) (hpairs : Paired s.trace)
    (hkeys : e.LosesKeys s.suppressed = false) (hstep : s.step e = some t) : Paired t.trace := by
  obtain rfl := State.step_eq hkeys hstep
  intro a p b q c htrace hp hq hcode hb
  obtain rfl | ⟨c, x, rfl⟩ := c.eq_nil_or_concat'
  · -- the release is the event of this step
    obtain ⟨hbefore, hlast⟩ := append_inj' htrace rfl
    obtain rfl := (List.cons.inj hlast).1
    have hlastOf : lastOf p.1.keyCode s.trace = some p := by
      rw [hbefore]
      exact lastOf_split hb
    have hmem : p.1.keyCode ∈ s.suppressed ↔ p.2.isForward = false := by
      rw [hs p.1.keyCode]
      simp [hlastOf, hp]
    dsimp only at hcode hq ⊢
    rw [filter_release hq, hcode]
    cases hforward : p.2.isForward <;> simp [hmem, hforward]
  · have hsplit : s.trace ++ [(e, (filter s.suppressed e).2)] = (a ++ p :: b ++ q :: c) ++ [x] := by
      refine htrace.trans ?_
      simp
    exact hpairs a p b q c (append_inj' hsplit rfl).1 hp hq hcode hb

/-- If no key that is still remembered is pressed without anything taking the press, presses and releases reach
the clients in pairs. -/
theorem releases_follow_presses (events : List KeyEvent)
    (hkeys : AllAlong State.step (fun s e => e.LosesKeys s.suppressed = false) .new events)
    (hfresh : AllAlong State.step Fresh .new events)
    (hrun : run State.step .new events = some t) : Paired t.trace := by
  have hinv : Remembers t ∧ Paired t.trace := by
    refine run_invariant_of_allAlong (I := fun s => Remembers s ∧ Paired s.trace)
      (fun s e u hs hok hstep => ?_) ?_ (hkeys.and hfresh) hrun
    · exact ⟨hs.1.step hok.1 hok.2 hstep, .step hs.1 hs.2 hok.1 hstep⟩
    · refine ⟨fun k => by simp [State.new, lastOf], ?_⟩
      intro a p b q c htrace
      simp [State.new] at htrace
  exact hinv.2

/-- `Mod+Q` toggles the overview, and nothing else takes keys. -/
def modQ (logo : Bool) : Surroundings where
  modKey := .super
  binds := [{ hardcodedBind 0x71 .toggleOverview true with key := ⟨.keysym 0x71, {.compositor}⟩ }]
  recentWindowsOn := false
  recentWindowsBinds := []
  disablePowerKeyHandling := false
  exitConfirmDialogOpen := false
  mruUi := none
  picking := false
  screenshotUi := none
  isInhibitingShortcuts := false
  overviewFocused := false
  onCooldown := false
  mods := ⟨false, false, false, logo, false, false⟩
  modified := 0x71
  raw := some 0x71

/-- `Mod+Q`, with `Mod` released first. -/
theorem releases_follow_presses_modQ :
    Paired [(⟨24, true, modQ true⟩, .intercept (modQ true).finalBind),
      (⟨24, false, modQ false⟩, .intercept none)] := by
  refine releases_follow_presses (t := ⟨∅, _⟩) [⟨24, true, modQ true⟩, ⟨24, false, modQ false⟩]
    ?_ ?_ rfl
  · refine ⟨by decide, fun u hu => ?_⟩
    obtain rfl := some.inj hu
    exact ⟨by decide, fun _ _ => trivial⟩
  · refine ⟨fun _ _ => by decide, fun u hu => ?_⟩
    exact ⟨(fun hpressed => nomatch hpressed), fun _ _ => trivial⟩

/-- The release of `Mod+Q` is lost, `Q` is pressed alone and forwarded, and its release is not. -/
theorem release_swallowed_after_lost_release :
    ¬∀ t, AllAlong State.step (fun s e => e.LosesKeys s.suppressed = false) .new
        [⟨24, true, modQ true⟩, ⟨24, true, modQ false⟩, ⟨24, false, modQ false⟩] →
      run State.step .new [⟨24, true, modQ true⟩, ⟨24, true, modQ false⟩, ⟨24, false, modQ false⟩] =
        some t → Paired t.trace := by
  intro h
  have hkeys : AllAlong State.step (fun s e => e.LosesKeys s.suppressed = false) .new
      [⟨24, true, modQ true⟩, ⟨24, true, modQ false⟩, ⟨24, false, modQ false⟩] := by
    refine ⟨by decide, fun u hu => ?_⟩
    obtain rfl := some.inj hu
    refine ⟨by decide, fun v hv => ?_⟩
    obtain rfl := some.inj hv
    exact ⟨by decide, fun _ _ => trivial⟩
  have hpaired := h _ hkeys rfl
  have := hpaired [_] (⟨24, true, modQ false⟩, .forward) [] (⟨24, false, modQ false⟩, .intercept none)
    [] rfl rfl rfl rfl (fun x hx => nomatch hx)
  exact Bool.noConfusion this

end Macniri.Input
