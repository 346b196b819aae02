import Macniri.Lib.HashMap
import Macniri.Lib.Held
import Macniri.NiriConfig.Binds

/-! The timers of the binds: the repeat of a held key, and cooldowns. Times are in nanoseconds. -/
namespace Macniri.Input.BindTimers

open List HashMap

open NiriConfig (Key)

/-- The actions that are told apart when the session is locked. -/
inductive Action
  | quit (skipConfirmation : Bool)
  | changeVt (vt : ℕ)
  | suspend
  | powerOffMonitors
  | powerOnMonitors
  | switchLayout (layout : ℕ)
  | toggleKeyboardShortcutsInhibit
  | other (id : ℕ)

def allowedWhenLocked : Action → Bool
  | .other _ => false
  | _ => true

abbrev Bind := NiriConfig.Bind Action

/-- What the event loop does when a timer is due. -/
inductive Callback
  | cooldown (key : Key)
  | keyRepeat (bind : Bind) (repeatDuration : ℕ)

/-- The timers that the event loop has, those that the compositor knows of, and the actions done. -/
structure State where
  now : ℕ
  isLocked : Bool
  repeatRate : ℕ
  repeatDelay : ℕ
  sources : HashMap ℕ (ℕ × Callback)
  nextToken : ℕ
  bindCooldownTimers : HashMap Key ℕ
  bindRepeatTimer : Option ℕ
  done : List (ℕ × Bind)

namespace State

/-- A timer that is due in a while, under the next token. -/
def insertSource (duration : ℕ) (callback : Callback) (s : State) : State :=
  { s with sources := s.sources.insert s.nextToken (s.now + duration, callback)
           nextToken := s.nextToken + 1 }

def allowed (bind : Bind) (isLocked : Bool) : Bool :=
  !isLocked || bind.allowWhenLocked || allowedWhenLocked bind.action

def doAction (bind : Bind) (s : State) : State :=
  if allowed bind s.isLocked then { s with done := s.done ++ [(s.now, bind)] } else s

def handleBind (bind : Bind) (s : State) : State :=
  match bind.cooldown with
  | none => s.doAction bind
  | some cooldown =>
    -- an action that is not allowed does not trigger the cooldown
    if !allowed bind s.isLocked then s
    else
      match s.bindCooldownTimers.get bind.key with
      | some _ => s
      | none =>
        { s.insertSource cooldown (.cooldown bind.key) with
          bindCooldownTimers := s.bindCooldownTimers.insert bind.key s.nextToken }.doAction bind

/-- Take the repeat timer and remove it from the event loop. -/
def stopRepeat (s : State) : State :=
  match s.bindRepeatTimer with
  | some token => { s with sources := s.sources.remove token, bindRepeatTimer := none }
  | none => s

/-- The timer of a new repeat; its rate is a second over the configured one, rounded. -/
def insertRepeat (bind : Bind) (s : State) : State :=
  let repeatDuration := (2000000000 + s.repeatRate) / (2 * s.repeatRate)
  { s.insertSource (s.repeatDelay * 1000000) (.keyRepeat bind repeatDuration) with
    bindRepeatTimer := some s.nextToken }

def startKeyRepeat (bind : Bind) (s : State) : State :=
  if !bind.repeats then s
  else if s.stopRepeat.repeatRate = 0 then s.stopRepeat
  else s.stopRepeat.insertRepeat bind

/-- The event loop calls a timer back if it is due. -/
def dispatch (token : ℕ) (s : State) : State :=
  match s.sources.get token with
  | some (deadline, callback) =>
    if s.now < deadline then s
    else
      match callback with
      | .cooldown key =>
        { s with sources := s.sources.remove token
                 bindCooldownTimers := s.bindCooldownTimers.remove key }
      | .keyRepeat bind duration =>
        let s := s.handleBind bind
        { s with sources := s.sources.insert token (s.now + duration, .keyRepeat bind duration) }
  | none => s

inductive Event
  /-- A key press that is a bind. -/
  | press (bind : Bind)
  /-- The release of any key. -/
  | release
  /-- A bind of another device. -/
  | handle (bind : Bind)
  | dispatch (token : ℕ)
  | elapse (duration : ℕ)
  | setLocked (isLocked : Bool)
  | setKeyboard (repeatRate repeatDelay : ℕ)

def step (s : State) : Event → State
  | .press bind => (s.handleBind bind).startKeyRepeat bind
  | .release => s.stopRepeat
  | .handle bind => s.handleBind bind
  | .dispatch token => s.dispatch token
  | .elapse duration => { s with now := s.now + duration }
  | .setLocked isLocked => { s with isLocked := isLocked }
  | .setKeyboard rate delay => { s with repeatRate := rate, repeatDelay := delay }

def new (repeatRate repeatDelay : ℕ) : State :=
  ⟨0, false, repeatRate, repeatDelay, ∅, 0, ∅, none, []⟩

variable {s : State} {bind : Bind} {token : ℕ}

/-- The event loop has this timer, whatever its deadline. -/
def Cools (s : State) (token : ℕ) (key : Key) : Prop :=
  ∃ deadline, s.sources.get token = some (deadline, .cooldown key)

def Repeats (s : State) (token : ℕ) (bind : Bind) : Prop :=
  ∃ deadline duration, s.sources.get token = some (deadline, .keyRepeat bind duration)

/-- The compositor knows every timer that the event loop has. -/
structure Tracked (s : State) : Prop where
  fresh : ∀ token, s.nextToken ≤ token → s.sources.get token = none
  cooldown : ∀ key token, s.bindCooldownTimers.get key = some token ↔ s.Cools token key
  keyRepeat : ∀ token, s.bindRepeatTimer = some token ↔ ∃ bind, s.Repeats token bind

/-- An action with a cooldown is not done again before it is over, and a timer runs until then. -/
structure Spaced (s : State) : Prop where
  done : s.done.Pairwise fun a b => ∀ cooldown, a.2.cooldown = some cooldown → a.2.key = b.2.key →
    b.2.cooldown.isSome → a.1 + cooldown ≤ b.1
  past : ∀ a ∈ s.done, ∀ cooldown, a.2.cooldown = some cooldown → a.1 + cooldown ≤ s.now ∨
    ∃ token deadline, s.sources.get token = some (deadline, .cooldown a.2.key) ∧
      a.1 + cooldown ≤ deadline

theorem Tracked.repeats_eq (h : s.Tracked) {other : ℕ} {b : Bind} (hb : s.Repeats token bind)
    (hother : s.Repeats other b) : other = token ∧ b = bind := by
  have htoken := (h.keyRepeat token).mpr ⟨bind, hb⟩
  obtain rfl := Option.some.inj (htoken.symm.trans ((h.keyRepeat other).mpr ⟨b, hother⟩))
  obtain ⟨_, _, hb⟩ := hb
  obtain ⟨_, _, hother⟩ := hother
  simp_all

theorem handleBind_cases (bind : Bind) (s : State) :
    s.handleBind bind = s ∨
    bind.cooldown = none ∧
      s.handleBind bind = { s with done := s.done ++ [(s.now, bind)] } ∨
    ∃ cooldown, bind.cooldown = some cooldown ∧ s.bindCooldownTimers.get bind.key = none ∧
      s.handleBind bind = { s.insertSource cooldown (.cooldown bind.key) with
        bindCooldownTimers := s.bindCooldownTimers.insert bind.key s.nextToken
        done := s.done ++ [(s.now, bind)] } := by
  unfold handleBind doAction
  cases hallowed : allowed bind s.isLocked with
  | false => cases hcooldown : bind.cooldown <;> simp
  | true =>
    cases hcooldown : bind.cooldown with
    | none => simp
    | some cooldown =>
      cases htimer : s.bindCooldownTimers.get bind.key with
      | some token => simp
      | none => simp [insertSource, hallowed]

theorem Tracked.handleBind (h : s.Tracked) : (s.handleBind bind).Tracked := by
  rcases handleBind_cases bind s with heq | ⟨-, heq⟩ | ⟨cooldown, -, hnone, heq⟩
  · rwa [heq]
  · rw [heq]
    exact ⟨h.fresh, h.cooldown, h.keyRepeat⟩
  · rw [heq]
    obtain ⟨hfresh, hcooldown, hrepeat⟩ := h
    have hnew := hfresh s.nextToken le_rfl
    constructor <;> simp only [insertSource, Cools, Repeats, get_insert] at * <;> grind

theorem repeats_handleBind (h : s.Tracked) (b : Bind) (token : ℕ) :
    (s.handleBind bind).Repeats token b ↔ s.Repeats token b := by
  rcases handleBind_cases bind s with heq | ⟨-, heq⟩ | ⟨cooldown, -, -, heq⟩
  · rw [heq]
  · rw [heq]
    rfl
  · rw [heq]
    have hnew := h.fresh s.nextToken le_rfl
    simp only [insertSource, Repeats, get_insert]
    grind

theorem Tracked.stopRepeat (h : s.Tracked) :
    s.stopRepeat.Tracked ∧ s.stopRepeat.bindRepeatTimer = none := by
  unfold State.stopRepeat
  cases htimer : s.bindRepeatTimer with
  | none => exact ⟨h, htimer⟩
  | some token =>
    obtain ⟨b, hb⟩ := (h.keyRepeat token).mp htimer
    have honly (other deadline d : ℕ) (c : Bind)
        (hc : s.sources.get other = some (deadline, .keyRepeat c d)) : other = token :=
      (h.repeats_eq hb ⟨deadline, d, hc⟩).1
    obtain ⟨hfresh, hcooldown, -⟩ := h
    refine ⟨?_, rfl⟩
    constructor <;> simp only [Cools, Repeats, get_remove] at * <;> grind

theorem Tracked.insertRepeat (h : s.Tracked) (hstop : s.bindRepeatTimer = none) :
    (s.insertRepeat bind).Tracked := by
  obtain ⟨hfresh, hcooldown, hrepeat⟩ := h
  have hnew := hfresh s.nextToken le_rfl
  unfold State.insertRepeat insertSource
  refine ⟨?_, ?_, fun token => ?_⟩ <;> simp only [Cools, Repeats, get_insert] at *
  · grind
  · grind
  · by_cases htoken : token = s.nextToken
    · simp [htoken]
    · simp [htoken, ← hrepeat, hstop, Ne.symm htoken]

theorem repeats_insertRepeat (h : s.Tracked) (hstop : s.bindRepeatTimer = none) (pressed : Bind) :
    (∃ token, (s.insertRepeat pressed).Repeats token bind) ↔ pressed = bind := by
  have hpressed : (s.insertRepeat pressed).Repeats s.nextToken pressed :=
    ⟨_, _, get_insert.trans (if_pos rfl)⟩
  constructor
  · exact fun ⟨token, hb⟩ => ((h.insertRepeat hstop).repeats_eq hpressed hb).2.symm
  · rintro rfl
    exact ⟨_, hpressed⟩

theorem Tracked.rearm (h : s.Tracked) (hb : s.Repeats token bind) (deadline d : ℕ) :
    ({ s with sources := s.sources.insert token (deadline, .keyRepeat bind d) } : State).Tracked := by
  have honly := (h.keyRepeat token).mpr ⟨bind, hb⟩
  obtain ⟨_, _, hb⟩ := hb
  obtain ⟨hfresh, hcooldown, hrepeat⟩ := h
  constructor <;> simp only [Cools, Repeats, get_insert] at * <;> grind

/-- What a timer does when it is due. -/
theorem dispatch_cases (token : ℕ) (s : State) :
    s.dispatch token = s ∨
    (∃ deadline key, s.sources.get token = some (deadline, .cooldown key) ∧ deadline ≤ s.now ∧
      s.dispatch token = { s with
        sources := s.sources.remove token
        bindCooldownTimers := s.bindCooldownTimers.remove key }) ∨
    ∃ bind d deadline, s.Repeats token bind ∧
      s.dispatch token = { s.handleBind bind with
        sources := (s.handleBind bind).sources.insert token (deadline, .keyRepeat bind d) } := by
  unfold dispatch
  cases hget : s.sources.get token with
  | none => exact Or.inl rfl
  | some source =>
    obtain ⟨deadline, callback⟩ := source
    dsimp only
    split
    · exact Or.inl rfl
    · next hdue =>
      cases callback with
      | cooldown key => exact Or.inr (Or.inl ⟨deadline, key, rfl, not_lt.mp hdue, rfl⟩)
      | keyRepeat bind d => exact Or.inr (Or.inr ⟨bind, d, _, ⟨deadline, d, hget⟩, rfl⟩)

theorem Tracked.dispatch (h : s.Tracked) : (s.dispatch token).Tracked := by
  rcases dispatch_cases token s with
    heq | ⟨deadline, key, hget, -, heq⟩ | ⟨bind, d, deadline, hb, heq⟩
  · rwa [heq]
  · rw [heq]
    have hkey := (h.cooldown key token).mpr ⟨deadline, hget⟩
    obtain ⟨hfresh, hcooldown, hrepeat⟩ := h
    constructor <;> simp only [Cools, Repeats, get_remove] at * <;> grind
  · rw [heq]
    exact h.handleBind.rearm ((repeats_handleBind h bind token).mpr hb) deadline d

theorem Tracked.startKeyRepeat (h : s.Tracked) : (s.startKeyRepeat bind).Tracked := by
  unfold State.startKeyRepeat
  split
  · exact h
  split
  · exact h.stopRepeat.1
  · exact h.stopRepeat.1.insertRepeat h.stopRepeat.2

theorem Tracked.step (h : s.Tracked) (e : Event) : (s.step e).Tracked := by
  cases e with
  | press bind => exact h.handleBind.startKeyRepeat
  | release => exact h.stopRepeat.1
  | handle bind => exact h.handleBind
  | dispatch token => exact h.dispatch
  | elapse | setLocked | setKeyboard => exact ⟨h.fresh, h.cooldown, h.keyRepeat⟩

/-- The event starts a repeat of the bind. -/
def Starts (s : State) (e : Event) (bind : Bind) : Prop :=
  e = .press bind ∧ bind.repeats = true ∧ s.repeatRate ≠ 0

/-- The event ends any repeat. -/
def Ends (_ : State) (e : Event) (_ : Bind) : Prop :=
  e = .release ∨ ∃ other, e = .press other ∧ other.repeats = true

theorem Tracked.not_repeats (h : s.Tracked) (hstop : s.bindRepeatTimer = none) :
    ¬ ∃ token, s.Repeats token bind := by
  rintro ⟨token, hb⟩
  have hsome := (h.keyRepeat token).mpr ⟨bind, hb⟩
  rw [hstop] at hsome
  cases hsome

theorem repeats_startKeyRepeat (h : s.Tracked) (pressed : Bind) :
    (∃ token, (s.startKeyRepeat pressed).Repeats token bind) ↔
      if pressed.repeats then s.repeatRate ≠ 0 ∧ pressed = bind else ∃ token, s.Repeats token bind := by
  have hrate : s.stopRepeat.repeatRate = s.repeatRate := by
    unfold stopRepeat
    split <;> rfl
  unfold startKeyRepeat
  cases hrepeats : pressed.repeats with
  | false => rfl
  | true =>
    simp only [hrate, Bool.not_true, Bool.false_eq_true, if_false, if_true]
    by_cases hzero : s.repeatRate = 0
    · simpa [hzero] using h.stopRepeat.1.not_repeats h.stopRepeat.2
    · simpa [hzero] using repeats_insertRepeat h.stopRepeat.1 h.stopRepeat.2 pressed

theorem repeats_step (h : s.Tracked) (e : Event) :
    (∃ token, (s.step e).Repeats token bind) ↔
      s.Starts e bind ∨ (∃ token, s.Repeats token bind) ∧ ¬ s.Ends e bind := by
  cases e with
  | press pressed =>
    have hrate : (s.handleBind pressed).repeatRate = s.repeatRate := by
      rcases handleBind_cases pressed s with heq | ⟨-, heq⟩ | ⟨_, -, -, heq⟩ <;>
        simp [heq, insertSource]
    unfold step
    rw [repeats_startKeyRepeat h.handleBind, hrate]
    simp only [repeats_handleBind h, Starts, Ends]
    grind
  | release =>
    have hnone : ¬ ∃ token, s.stopRepeat.Repeats token bind :=
      h.stopRepeat.1.not_repeats h.stopRepeat.2
    simpa [Starts, Ends, step] using hnone
  | handle bind => simp [step, repeats_handleBind h, Starts, Ends]
  | dispatch token =>
    have hsame : (∃ other, (s.dispatch token).Repeats other bind) ↔ ∃ other, s.Repeats other bind := by
      rcases dispatch_cases token s with
        heq | ⟨deadline, key, hget, -, heq⟩ | ⟨b, d, deadline, hb, heq⟩
      · rw [heq]
      · rw [heq]
        simp only [Repeats, get_remove]
        grind
      · have hnew : (s.dispatch token).Repeats token b := ⟨deadline, d, by rw [heq]; simp⟩
        constructor
        · rintro ⟨_, hother⟩
          exact ⟨token, (h.dispatch.repeats_eq hnew hother).2 ▸ hb⟩
        · rintro ⟨_, hother⟩
          exact ⟨token, (h.repeats_eq hb hother).2 ▸ hnew⟩
    simpa [step, Starts, Ends] using hsame
  | elapse | setLocked | setKeyboard => simp [step, Repeats, Starts, Ends]

/-- Steps that keep the cooldowns and do nothing. -/
theorem Spaced.mono {t : State} (h : s.Spaced) (hdone : t.done = s.done) (hnow : s.now ≤ t.now)
    (hkept : ∀ token deadline key, s.sources.get token = some (deadline, .cooldown key) →
      t.now < deadline → t.sources.get token = some (deadline, .cooldown key)) : t.Spaced where
  done := hdone ▸ h.done
  past a ha cooldown hcooldown := by
    rw [hdone] at ha
    rcases h.past a ha cooldown hcooldown with hover | ⟨token, deadline, hget, hle⟩
    · exact Or.inl (hover.trans hnow)
    · by_cases hdue : t.now < deadline
      · exact Or.inr ⟨token, deadline, hkept token deadline _ hget hdue, hle⟩
      · exact Or.inl (hle.trans (not_lt.mp hdue))

theorem Spaced.handleBind (h : s.Spaced) (ht : s.Tracked) : (s.handleBind bind).Spaced := by
  obtain ⟨hdone, hover⟩ := h
  have hnew := ht.fresh s.nextToken le_rfl
  have hcools := ht.cooldown bind.key
  rcases handleBind_cases bind s with heq | ⟨hnone, heq⟩ | ⟨cooldown, hsome, hvacant, heq⟩
  · rw [heq]
    exact ⟨hdone, hover⟩
  · rw [heq]
    constructor
    · simp only [pairwise_append, mem_singleton]
      grind
    · simp only [mem_append, mem_singleton]
      grind
  · rw [heq]
    -- the cooldown of what was done under the key is over, or its timer would be known
    have hready : ∀ a ∈ s.done, ∀ c, a.2.cooldown = some c → a.2.key = bind.key → a.1 + c ≤ s.now := by
      intro a ha c hc hkey
      rcases hover a ha c hc with hle | ⟨token, deadline, hget, -⟩
      · exact hle
      · have htimer := (hcools token).mpr ⟨deadline, hkey ▸ hget⟩
        rw [hvacant] at htimer
        cases htimer
    constructor
    · simp only [pairwise_append, mem_singleton]
      grind
    · simp only [insertSource, mem_append, mem_singleton, get_insert]
      grind

theorem Spaced.stopRepeat (h : s.Spaced) (ht : s.Tracked) : s.stopRepeat.Spaced := by
  unfold State.stopRepeat
  cases htimer : s.bindRepeatTimer with
  | none => exact h
  | some token =>
    obtain ⟨b, _, _, hb⟩ := (ht.keyRepeat token).mp htimer
    refine h.mono rfl le_rfl fun other deadline key hget _ => ?_
    rw [get_remove]
    grind

theorem Spaced.startKeyRepeat (h : s.Spaced) (ht : s.Tracked) : (s.startKeyRepeat bind).Spaced := by
  unfold State.startKeyRepeat
  split
  · exact h
  split
  · exact h.stopRepeat ht
  · have hnew := ht.stopRepeat.1.fresh _ le_rfl
    refine (h.stopRepeat ht).mono rfl le_rfl fun other deadline key hget _ => ?_
    unfold insertRepeat insertSource
    rw [get_insert]
    grind

theorem Spaced.dispatch (h : s.Spaced) (ht : s.Tracked) : (s.dispatch token).Spaced := by
  rcases dispatch_cases token s with
    heq | ⟨deadline, key, hget, hdue, heq⟩ | ⟨b, d, deadline, hb, heq⟩
  · rwa [heq]
  · rw [heq]
    refine h.mono rfl le_rfl fun other deadline key hget hlt => ?_
    dsimp only at hlt ⊢
    rw [get_remove]
    grind
  · rw [heq]
    obtain ⟨_, _, hrep⟩ : (s.handleBind b).Repeats token b := (repeats_handleBind ht b token).mpr hb
    refine (h.handleBind ht).mono rfl le_rfl fun other deadline key hget hlt => ?_
    rw [get_insert]
    grind

theorem Spaced.step (h : s.Spaced) (ht : s.Tracked) (e : Event) : (s.step e).Spaced := by
  cases e with
  | press bind => exact (h.handleBind ht).startKeyRepeat ht.handleBind
  | release => exact h.stopRepeat ht
  | handle bind => exact h.handleBind ht
  | dispatch token => exact h.dispatch ht
  | elapse duration => exact h.mono rfl (Nat.le_add_right ..) fun _ _ _ hget _ => hget
  | setLocked | setKeyboard => exact ⟨h.done, h.past⟩

variable (rate delay : ℕ) (events : List Event)

def run : State := events.foldl step (new rate delay)

theorem tracked_new : (new rate delay : State).Tracked := by
  constructor <;> simp [new, Cools, Repeats]

theorem tracked_spaced_run : (run rate delay events).Tracked ∧
    (run rate delay events).Spaced := by
  induction events using List.reverseRecOn with
  | nil => exact ⟨tracked_new rate delay, Pairwise.nil, by simp [run, new]⟩
  | append_singleton events e ih =>
    rw [run, foldl_append]
    exact ⟨ih.1.step e, ih.2.step ih.1 e⟩

/-- The event loop has a timer that repeats a bind exactly if its key press started a repeat and there
was neither a release nor a press that repeats since. It has at most one such timer. -/
theorem repeats_iff_held (bind : Bind) :
    ((∃ token, (run rate delay events).Repeats token bind) ↔
      Held step Starts Ends (new rate delay) events bind) ∧
    ∀ token other b, (run rate delay events).Repeats token bind →
      (run rate delay events).Repeats other b → other = token ∧ b = bind := by
  refine ⟨?_, fun token other b => (tracked_spaced_run ..).1.repeats_eq⟩
  exact holds_iff_held (fun (s : State) bind => ∃ token, s.Repeats token bind)
    (tracked_new rate delay) (fun s e h => h.step e) (by simp [new, Repeats])
    fun s e h => repeats_step h e

/-- What has a cooldown is not done again before it is over, and no key stays on cooldown without a
timer in the event loop that ends it. -/
theorem done_spaced :
    ((run rate delay events).done.Pairwise fun a b => ∀ cooldown, a.2.cooldown = some cooldown →
      a.2.key = b.2.key → b.2.cooldown.isSome → a.1 + cooldown ≤ b.1) ∧
    ∀ key, ((run rate delay events).bindCooldownTimers.get key).isSome ↔
      ∃ token, (run rate delay events).Cools token key := by
  obtain ⟨htracked, hspaced⟩ := tracked_spaced_run rate delay events
  refine ⟨hspaced.done, fun key => ?_⟩
  rw [Option.isSome_iff_exists]
  exact exists_congr (htracked.cooldown key)

end State

end Macniri.Input.BindTimers
