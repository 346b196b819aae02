import Macniri.Lib.HashMap
import Macniri.Lib.Toggle

/-! The key events that the Winit backend makes of the events of its window. -/
namespace Macniri.Input.Winit

/-- The key codes that the backend names, and the others. -/
inductive KeyCode
  | escape | digit1 | digit2 | digit3 | digit4 | digit5 | digit6 | digit7 | digit8 | digit9
  | digit0 | minus | equal | backspace | tab | keyQ | keyW | keyE | keyR | keyT | keyY | keyU
  | keyI | keyO | keyP | bracketLeft | bracketRight | enter | controlLeft | keyA | keyS | keyD
  | keyF | keyG | keyH | keyJ | keyK | keyL | semicolon | quote | backquote | shiftLeft
  | backslash | keyZ | keyX | keyC | keyV | keyB | keyN | keyM | comma | period | slash
  | shiftRight | altLeft | space | capsLock | f1 | f2 | f3 | f4 | f5 | f6 | f7 | f8 | f9 | f10
  | altRight | arrowUp | arrowLeft | arrowRight | arrowDown | superLeft | superRight
  | controlRight | other (id : ℕ)
  deriving DecidableEq

inductive PhysicalKey
  | code (code : KeyCode)
  | unidentified (native : ℕ)
  deriving DecidableEq

inductive Modifier
  | shift
  | control
  | alt
  | super
  deriving DecidableEq

abbrev ModifiersState := Finset Modifier

/-- The generic flags are mapped to the left keys. -/
def Modifier.evdev : Modifier → ℕ
  | shift => 42
  | control => 29
  | alt => 56
  | super => 125

inductive WindowEvent
  | modifiersChanged (state : ModifiersState)
  | keyboardInput (physicalKey : PhysicalKey) (pressed repeated : Bool) (now : ℕ)

/-- What the backend passes to `process_input_event`. -/
structure KeyboardInputEvent where
  key : ℕ
  pressed : Bool
  deriving DecidableEq

def KeyboardInputEvent.keyCode (e : KeyboardInputEvent) : ℕ := e.key + 8

/-- The numbers that winit has for a key: its key code as an integer, and the platform's scancode. -/
structure Platform where
  discriminant : KeyCode → ℕ
  toScancode : PhysicalKey → Option ℕ

structure Backend where
  lastModifiers : ModifiersState
  /-- The time in nanoseconds of the last press that was not skipped. -/
  lastKeyTime : HashMap ℕ ℕ

def Backend.new : Backend := ⟨∅, ∅⟩

def checkMod (old new : ModifiersState) (m : Modifier) : List KeyboardInputEvent :=
  if decide (m ∈ old) ≠ decide (m ∈ new) then [⟨m.evdev, decide (m ∈ new)⟩] else []

def Backend.modifiersChanged (w : Backend) (new : ModifiersState) :
    Backend × List KeyboardInputEvent :=
  if new ≠ w.lastModifiers then
    (⟨new, w.lastKeyTime⟩,
      [.shift, .control, .alt, .super].flatMap (checkMod w.lastModifiers new))
  else (w, [])

/-- Real modifier keys are suppressed: their events are synthesized. -/
def PhysicalKey.IsModifier : PhysicalKey → Bool
  | code .shiftLeft | code .shiftRight | code .controlLeft | code .controlRight
  | code .altLeft | code .altRight | code .superLeft | code .superRight => true
  | _ => false

def evdevCode : KeyCode → Option ℕ
  | .escape => some 1 | .digit1 => some 2 | .digit2 => some 3 | .digit3 => some 4
  | .digit4 => some 5 | .digit5 => some 6 | .digit6 => some 7 | .digit7 => some 8
  | .digit8 => some 9 | .digit9 => some 10 | .digit0 => some 11 | .minus => some 12
  | .equal => some 13 | .backspace => some 14 | .tab => some 15 | .keyQ => some 16
  | .keyW => some 17 | .keyE => some 18 | .keyR => some 19 | .keyT => some 20 | .keyY => some 21
  | .keyU => some 22 | .keyI => some 23 | .keyO => some 24 | .keyP => some 25
  | .bracketLeft => some 26 | .bracketRight => some 27 | .enter => some 28
  | .controlLeft => some 29 | .keyA => some 30 | .keyS => some 31 | .keyD => some 32
  | .keyF => some 33 | .keyG => some 34 | .keyH => some 35 | .keyJ => some 36 | .keyK => some 37
  | .keyL => some 38 | .semicolon => some 39 | .quote => some 40 | .backquote => some 41
  | .shiftLeft => some 42 | .backslash => some 43 | .keyZ => some 44 | .keyX => some 45
  | .keyC => some 46 | .keyV => some 47 | .keyB => some 48 | .keyN => some 49 | .keyM => some 50
  | .comma => some 51 | .period => some 52 | .slash => some 53 | .shiftRight => some 54
  | .altLeft => some 56 | .space => some 57 | .capsLock => some 58 | .f1 => some 59
  | .f2 => some 60 | .f3 => some 61 | .f4 => some 62 | .f5 => some 63 | .f6 => some 64
  | .f7 => some 65 | .f8 => some 66 | .f9 => some 67 | .f10 => some 68 | .altRight => some 100
  | .arrowUp => some 103 | .arrowLeft => some 105 | .arrowRight => some 106
  | .arrowDown => some 108 | .superLeft => some 125 | .superRight => some 126 | _ => none

namespace Platform

variable (platform : Platform)

def scancodeForDebounce : PhysicalKey → ℕ
  | .code code => platform.discriminant code
  | .unidentified _ => 0

def scancode (key : PhysicalKey) : ℕ :=
  let evdev := match key with
    | .code code => evdevCode code
    | .unidentified _ => none
  evdev.getD ((platform.toScancode key).getD 0)

end Platform

def DEBOUNCE : ℕ := 50000000

/-- The same key was pressed less than 50 ms ago. -/
def Backend.Debounces (w : Backend) (key now : ℕ) : Bool :=
  (w.lastKeyTime.get key).any fun last => now - last < DEBOUNCE

def Backend.keyboardInput (platform : Platform) (w : Backend) (key : PhysicalKey)
    (pressed repeated : Bool) (now : ℕ) : Backend × List KeyboardInputEvent :=
  if repeated then (w, [])
  else if pressed && w.Debounces (platform.scancodeForDebounce key) now then (w, [])
  else
    let w := if pressed then
        { w with lastKeyTime := w.lastKeyTime.insert (platform.scancodeForDebounce key) now }
      else w
    (w, if key.IsModifier then [] else [⟨platform.scancode key, pressed⟩])

/-- The backend, the keys that winit has reported pressed and not released, and the events passed on. -/
structure State where
  backend : Backend
  held : Finset PhysicalKey
  delivered : List KeyboardInputEvent

namespace State

def new : State := ⟨.new, ∅, []⟩

/-- Winit reports the presses and releases of each key in turn, apart from the repeats. -/
def step (platform : Platform) (s : State) : WindowEvent → Option State
  | .modifiersChanged new =>
    let r := s.backend.modifiersChanged new
    some ⟨r.1, s.held, s.delivered ++ r.2⟩
  | .keyboardInput key pressed repeated now =>
    let r := s.backend.keyboardInput platform key pressed repeated now
    if repeated then some ⟨r.1, s.held, s.delivered ++ r.2⟩
    else (toggle s.held (key, pressed)).map fun held => ⟨r.1, held, s.delivered ++ r.2⟩

end State

/-- The presses and releases of key codes, as their receiver sees them. -/
def keyStream (events : List KeyboardInputEvent) : List (ℕ × Bool) :=
  events.map fun e => (e.keyCode, e.pressed)

def Modifier.keyCode (m : Modifier) : ℕ := m.evdev + 8

def Platform.keyCode (platform : Platform) (key : PhysicalKey) : ℕ := platform.scancode key + 8

variable {platform : Platform} {s t : State} {w : Backend} {key : PhysicalKey} {new : ModifiersState}
  {down : Finset ℕ} {now k : ℕ} {pressed : Bool} {event : WindowEvent}

/-- A held key or a modifier accounts for the key code being down. -/
def State.Source (platform : Platform) (s : State) (k : ℕ) : Prop :=
  (∃ key ∈ s.held, key.IsModifier = false ∧ platform.keyCode key = k) ∨
    ∃ m ∈ s.backend.lastModifiers, m.keyCode = k

/-- No press is skipped, and no two of the held keys and the modifiers share a key code when it matters. -/
def Untangled (platform : Platform) (s : State) : WindowEvent → Prop
  | .modifiersChanged _ =>
    ∀ key ∈ s.held, key.IsModifier = false → ∀ m : Modifier, platform.keyCode key ≠ m.keyCode
  | .keyboardInput key pressed repeated now =>
    repeated = false → pressed = true → key.IsModifier = false →
      s.backend.Debounces (platform.scancodeForDebounce key) now = false ∧
        ¬s.Source platform (platform.keyCode key)

/-- The key codes that are down are those with a source, and each has only one. -/
structure Balanced (platform : Platform) (s : State) (down : Finset ℕ) : Prop where
  stream : run toggle ∅ (keyStream s.delivered) = some down
  mem_iff : ∀ k, k ∈ down ↔ s.Source platform k
  unique : ∀ key ∈ s.held, ∀ other ∈ s.held, key.IsModifier = false → other.IsModifier = false →
    platform.keyCode key = platform.keyCode other → key = other
  apart : ∀ key ∈ s.held, key.IsModifier = false → ∀ m ∈ s.backend.lastModifiers,
    platform.keyCode key ≠ m.keyCode

theorem balanced_new : Balanced platform .new ∅ where
  stream := rfl
  mem_iff := by simp [State.Source, State.new, Backend.new]
  unique := by simp [State.new]
  apart := by simp [State.new]

theorem Modifier.nodup_keyCode :
    ([shift, control, alt, super].map Modifier.keyCode).Nodup := by decide

theorem Modifier.mem_all (m : Modifier) : m ∈ [shift, control, alt, super] := by
  cases m <;> simp

theorem Modifier.keyCode_inj {m m' : Modifier} (h : m.keyCode = m'.keyCode) : m = m' :=
  List.inj_on_of_nodup_map nodup_keyCode m.mem_all m'.mem_all h

/-- The synthesized events set the modifiers. -/
theorem keyStream_modifiersChanged :
    keyStream (w.modifiersChanged new).2 =
      settings Modifier.keyCode (fun m => decide (m ∈ w.lastModifiers)) (fun m => decide (m ∈ new))
        [.shift, .control, .alt, .super] := by
  unfold Backend.modifiersChanged
  split
  · simp only [keyStream, settings, List.map_flatMap]
    congr 1
    funext m
    unfold checkMod
    split <;> rfl
  · rename_i h
    obtain rfl := not_not.mp h
    simp [keyStream, settings]

@[simp] theorem lastModifiers_modifiersChanged : (w.modifiersChanged new).1.lastModifiers = new := by
  unfold Backend.modifiersChanged
  split
  · rfl
  · rename_i h
    exact (not_not.mp h).symm

@[simp] theorem lastModifiers_keyboardInput {repeated : Bool} :
    (w.keyboardInput platform key pressed repeated now).1.lastModifiers = w.lastModifiers := by
  unfold Backend.keyboardInput
  dsimp only
  split_ifs <;> rfl

theorem keyStream_append (xs ys : List KeyboardInputEvent) :
    keyStream (xs ++ ys) = keyStream xs ++ keyStream ys := List.map_append

/-- As long as no held key has the key code of a modifier. -/
theorem State.source_modifier {m : Modifier} (h : ∀ key ∈ s.held, key.IsModifier = false →
    ∀ m : Modifier, platform.keyCode key ≠ m.keyCode) :
    s.Source platform m.keyCode ↔ m ∈ s.backend.lastModifiers := by
  constructor
  · rintro (⟨key, hheld, hkey, hcode⟩ | ⟨m', hm', hcode⟩)
    · exact absurd hcode (h key hheld hkey m)
    · exact Modifier.keyCode_inj hcode ▸ hm'
  · exact fun hm => .inr ⟨m, hm, rfl⟩

theorem State.source_other (h : ∀ m : Modifier, m.keyCode ≠ k) :
    s.Source platform k ↔ ∃ key ∈ s.held, key.IsModifier = false ∧ platform.keyCode key = k := by
  refine or_iff_left ?_
  rintro ⟨m, -, hcode⟩
  exact h m hcode

theorem Balanced.modifiersChanged (hs : Balanced platform s down)
    (hok : Untangled platform s (.modifiersChanged new))
    (hstep : s.step platform (.modifiersChanged new) = some t) :
    ∃ down', Balanced platform t down' ∧ ∀ m : Modifier, m.keyCode ∈ down' ↔ m ∈ new := by
  obtain rfl := Option.some.inj hstep
  have hold : ∀ m ∈ [Modifier.shift, .control, .alt, .super],
      m.keyCode ∈ down ↔ decide (m ∈ s.backend.lastModifiers) = true := by
    intro m _
    rw [hs.mem_iff, State.source_modifier hok, decide_eq_true_iff]
  obtain ⟨down', hrun, hset, hkept⟩ :=
    run_settings (fun m => decide (m ∈ new)) _ Modifier.nodup_keyCode hold
  have hmods : ∀ m : Modifier, m.keyCode ∈ down' ↔ m ∈ new := by
    intro m
    rw [hset m m.mem_all, decide_eq_true_iff]
  refine ⟨down', ?_, hmods⟩
  constructor
  case stream =>
    rw [keyStream_append, run_append, hs.stream, keyStream_modifiersChanged]
    exact hrun
  case mem_iff =>
    intro k
    by_cases hk : ∃ m : Modifier, m.keyCode = k
    · obtain ⟨m, rfl⟩ := hk
      rw [hmods m, State.source_modifier, lastModifiers_modifiersChanged]
      exact hok
    · have hother : ∀ m : Modifier, m.keyCode ≠ k := fun m hm => hk ⟨m, hm⟩
      have hnot : k ∉ [Modifier.shift, .control, .alt, .super].map Modifier.keyCode := by
        intro hmem
        obtain ⟨m, -, hm⟩ := List.mem_map.mp hmem
        exact hother m hm
      rw [hkept k hnot, hs.mem_iff, State.source_other hother, State.source_other hother]
  case unique => exact hs.unique
  case apart => exact fun key hheld hkey m _ => hok key hheld hkey m

/-- Events that are repeats or of real modifier keys are not passed on. -/
theorem Balanced.of_silent (hs : Balanced platform s down) (hdelivered : t.delivered = s.delivered)
    (hmods : t.backend.lastModifiers = s.backend.lastModifiers)
    (hheld : ∀ key, key.IsModifier = false → (key ∈ t.held ↔ key ∈ s.held)) :
    Balanced platform t down where
  stream := by rw [hdelivered, hs.stream]
  mem_iff := by
    intro k
    rw [hs.mem_iff]
    refine or_congr (exists_congr fun key => ?_) (by rw [hmods])
    constructor
    · exact fun h => ⟨(hheld key h.2.1).mpr h.1, h.2⟩
    · exact fun h => ⟨(hheld key h.2.1).mp h.1, h.2⟩
  unique := fun key hk other ho hkey hother =>
    hs.unique key ((hheld key hkey).mp hk) other ((hheld other hother).mp ho) hkey hother
  apart := by
    intro key hk hkey
    rw [hmods]
    exact hs.apart key ((hheld key hkey).mp hk) hkey

theorem run_keyStream_concat {delivered : List KeyboardInputEvent} {down' : Finset ℕ}
    {e : KeyboardInputEvent} (h : run toggle ∅ (keyStream delivered) = some down)
    (he : toggle down (e.keyCode, e.pressed) = some down') :
    run toggle ∅ (keyStream (delivered ++ [e])) = some down' := by
  rw [keyStream_append]
  exact run_concat.mpr ⟨down, h, he⟩

theorem Balanced.press (hs : Balanced platform s down) (hkey : key.IsModifier = false)
    (hfree : ¬s.Source platform (platform.keyCode key))
    (hdelivered : t.delivered = s.delivered ++ [⟨platform.scancode key, true⟩])
    (hmods : t.backend.lastModifiers = s.backend.lastModifiers) (hheld : t.held = insert key s.held) :
    Balanced platform t (insert (platform.keyCode key) down) where
  stream := by
    have hup : platform.keyCode key ∉ down := fun h => hfree ((hs.mem_iff _).mp h)
    rw [hdelivered]
    exact run_keyStream_concat hs.stream (toggle_on hup)
  mem_iff := by
    intro k
    rw [Finset.mem_insert, hs.mem_iff, State.Source, State.Source, hheld, hmods, ← or_assoc]
    refine or_congr_left ?_
    simp only [Finset.mem_insert, or_and_right, exists_or, exists_eq_left, hkey, true_and]
    rw [eq_comm]
  unique := by
    -- a held key with the same code would be a source of it
    have hnew : ∀ other ∈ s.held, other.IsModifier = false →
        platform.keyCode other ≠ platform.keyCode key :=
      fun other hmem hother hcode => hfree (.inl ⟨other, hmem, hother, hcode⟩)
    rw [hheld]
    intro a ha b hb hma hmb hcode
    rcases Finset.mem_insert.mp ha with rfl | hold
    · rcases Finset.mem_insert.mp hb with rfl | hold
      · rfl
      · exact absurd hcode.symm (hnew b hold hmb)
    · rcases Finset.mem_insert.mp hb with rfl | hold'
      · exact absurd hcode (hnew a hold hma)
      · exact hs.unique a hold b hold' hma hmb hcode
  apart := by
    rw [hheld, hmods]
    intro other hmem hother m hm
    rcases Finset.mem_insert.mp hmem with rfl | hmem
    · exact fun hcode => hfree (.inr ⟨m, hm, hcode.symm⟩)
    · exact hs.apart other hmem hother m hm

theorem Balanced.release (hs : Balanced platform s down) (hkey : key.IsModifier = false)
    (hmem : key ∈ s.held)
    (hdelivered : t.delivered = s.delivered ++ [⟨platform.scancode key, false⟩])
    (hmods : t.backend.lastModifiers = s.backend.lastModifiers) (hheld : t.held = s.held.erase key) :
    Balanced platform t (down.erase (platform.keyCode key)) where
  stream := by
    have hdown : platform.keyCode key ∈ down := (hs.mem_iff _).mpr (.inl ⟨key, hmem, hkey, rfl⟩)
    rw [hdelivered]
    exact run_keyStream_concat hs.stream (toggle_off hdown)
  mem_iff := by
    intro k
    rw [Finset.mem_erase, hs.mem_iff, State.Source, State.Source, hheld, hmods]
    constructor
    · rintro ⟨hne, ⟨other, hother, hmod, rfl⟩ | hm⟩
      · exact .inl ⟨other, Finset.mem_erase.mpr ⟨fun heq => hne (heq ▸ rfl), hother⟩, hmod, rfl⟩
      · exact .inr hm
    · rintro (⟨other, hother, hmod, rfl⟩ | ⟨m, hm, rfl⟩)
      · obtain ⟨hne, hother⟩ := Finset.mem_erase.mp hother
        exact ⟨fun hcode => hne (hs.unique other hother key hmem hmod hkey hcode),
          .inl ⟨other, hother, hmod, rfl⟩⟩
      · exact ⟨(hs.apart key hmem hkey m hm).symm, .inr ⟨m, hm, rfl⟩⟩
  unique := by
    rw [hheld]
    exact fun a ha b hb => hs.unique a (Finset.mem_of_mem_erase ha) b (Finset.mem_of_mem_erase hb)
  apart := by
    rw [hheld, hmods]
    exact fun other hother => hs.apart other (Finset.mem_of_mem_erase hother)

/-- A press or release that is not a repeat reaches the backend's key map unless it is skipped. -/
theorem Backend.delivered_keyboardInput
    (h : pressed = true → w.Debounces (platform.scancodeForDebounce key) now = false) :
    (w.keyboardInput platform key pressed false now).2 =
      if key.IsModifier then [] else [⟨platform.scancode key, pressed⟩] := by
  unfold Backend.keyboardInput
  cases pressed with
  | true => simp [h rfl]
  | false => simp

theorem Backend.delivered_modifierKey (h : key.IsModifier = true) {repeated : Bool} :
    (w.keyboardInput platform key pressed repeated now).2 = [] := by
  unfold Backend.keyboardInput
  dsimp only
  rw [if_pos h]
  split_ifs <;> rfl

theorem Balanced.keyboardInput {repeated : Bool} (hs : Balanced platform s down)
    (hok : Untangled platform s (.keyboardInput key pressed repeated now))
    (hstep : s.step platform (.keyboardInput key pressed repeated now) = some t) :
    ∃ down', Balanced platform t down' := by
  cases repeated with
  | true =>
    obtain rfl := Option.some.inj hstep
    exact ⟨down, hs.of_silent (List.append_nil _) rfl fun key _ => Iff.rfl⟩
  | false =>
    obtain ⟨held, htoggle, rfl⟩ := of_map hstep
    cases hkey : key.IsModifier with
    | true =>
      refine ⟨down, hs.of_silent ?_ lastModifiers_keyboardInput fun other hother => ?_⟩
      · dsimp only
        rw [Backend.delivered_modifierKey hkey, List.append_nil]
      · have hne : other ≠ key := by
          rintro rfl
          rw [hkey] at hother
          exact Bool.noConfusion hother
        rw [mem_toggle htoggle, if_neg hne]
    | false =>
      have hdelivered := Backend.delivered_keyboardInput fun hpressed => (hok rfl hpressed hkey).1
      rw [hkey] at hdelivered
      cases pressed with
      | true =>
        have hup : key ∉ s.held := by simp [of_toggle htoggle]
        obtain rfl := Option.some.inj ((toggle_on hup).symm.trans htoggle)
        exact ⟨_, hs.press hkey (hok rfl rfl hkey).2 (congrArg _ hdelivered)
          lastModifiers_keyboardInput rfl⟩
      | false =>
        have hdown : key ∈ s.held := by simp [of_toggle htoggle]
        obtain rfl := Option.some.inj ((toggle_off hdown).symm.trans htoggle)
        exact ⟨_, hs.release hkey hdown (congrArg _ hdelivered) lastModifiers_keyboardInput rfl⟩

/-- Balanced, and after a change of the modifiers they are as reported. -/
def Tracks (platform : Platform) (events : List WindowEvent) (s : State) : Prop :=
  ∃ down, Balanced platform s down ∧
    ∀ before flags, events = before ++ [.modifiersChanged flags] →
      ∀ m : Modifier, m.keyCode ∈ down ↔ m ∈ flags

theorem tracks_new : Tracks platform [] .new :=
  ⟨∅, balanced_new, fun before flags h => by simp at h⟩

theorem tracks_step (events : List WindowEvent) (hs : Tracks platform events s)
    (hok : Untangled platform s event) (hstep : s.step platform event = some t) :
    Tracks platform (events ++ [event]) t := by
  obtain ⟨down, hs, -⟩ := hs
  cases event with
  | modifiersChanged new =>
    obtain ⟨down', hbalanced, hmods⟩ := hs.modifiersChanged hok hstep
    refine ⟨down', hbalanced, fun before flags heq => ?_⟩
    obtain ⟨-, hlast⟩ := List.append_inj' heq rfl
    obtain rfl := WindowEvent.modifiersChanged.inj (List.cons.inj hlast).1
    exact hmods
  | keyboardInput key pressed repeated now =>
    obtain ⟨down', hbalanced⟩ := hs.keyboardInput hok hstep
    refine ⟨down', hbalanced, fun before flags heq => ?_⟩
    obtain ⟨-, hlast⟩ := List.append_inj' heq rfl
    exact nomatch (List.cons.inj hlast).1

/-- If no press is skipped and no key code has two sources at once, presses and releases alternate, a
key code is up once all its sources are gone, and the modifiers are as winit last reported them. -/
theorem key_stream_balanced (events : List WindowEvent)
    (hok : AllAlong (State.step platform) (Untangled platform) .new events)
    (hrun : run (State.step platform) .new events = some t) :
    ∃ down, run toggle ∅ (keyStream t.delivered) = some down ∧
      (∀ k ∈ down, (∃ key ∈ t.held, platform.keyCode key = k) ∨
        ∃ m ∈ t.backend.lastModifiers, m.keyCode = k) ∧
      ∀ before flags, events = before ++ [.modifiersChanged flags] →
        ∀ m : Modifier, m.keyCode ∈ down ↔ m ∈ flags := by
  have htracks : Tracks platform events t :=
    run_invariant_allAlong (fun events s event u => tracks_step events) tracks_new hok hrun
  obtain ⟨down, hbalanced, hmods⟩ := htracks
  refine ⟨down, hbalanced.stream, fun k hk => ?_, hmods⟩
  rcases (hbalanced.mem_iff k).mp hk with ⟨key, hheld, -, hcode⟩ | hm
  · exact .inl ⟨key, hheld, hcode⟩
  · exact .inr hm

/-- The numbers of the A key on macOS. -/
def keyAPlatform : Platform where
  discriminant
    | .keyA => 19
    | _ => 0
  toScancode _ := some 0

/-- Shift and A, held at once. -/
theorem key_stream_balanced_shift_a :
    ∃ down, run toggle ∅ [(50, true), (38, true), (38, false), (50, false)] = some down ∧
      (∀ k ∈ down, (∃ key ∈ (∅ : Finset PhysicalKey), keyAPlatform.keyCode key = k) ∨
        ∃ m ∈ (∅ : ModifiersState), m.keyCode = k) ∧
      ∀ before flags, [.modifiersChanged {.shift}, .keyboardInput (.code .keyA) true false 0,
          .keyboardInput (.code .keyA) false false 90000000, .modifiersChanged ∅] =
          before ++ [WindowEvent.modifiersChanged flags] →
        ∀ m : Modifier, m.keyCode ∈ down ↔ m ∈ flags := by
  refine key_stream_balanced (t := ⟨⟨∅, HashMap.insert ∅ 19 0⟩, ∅,
    [⟨42, true⟩, ⟨30, true⟩, ⟨30, false⟩, ⟨42, false⟩]⟩) _ ?_ ?_
  · refine ⟨(fun key hkey => nomatch hkey), fun u hu => ?_⟩
    obtain rfl := Option.some.inj hu
    refine ⟨fun _ _ _ => ⟨rfl, by unfold State.Source; decide⟩, fun u hu => ?_⟩
    obtain rfl := Option.some.inj hu
    refine ⟨(fun _ hpressed => nomatch hpressed), fun u hu => ?_⟩
    have hheld : u.held = ∅ := by
      rw [← Option.some.inj hu]
      decide
    exact ⟨fun key hkey => absurd (hheld ▸ hkey) (Finset.notMem_empty key), fun _ _ => trivial⟩
  · rfl

/-- A is pressed again within 50 ms: the press is skipped, and its release is not. -/
theorem release_of_skipped_press_delivered :
    ¬∀ t, run (State.step keyAPlatform) .new [.keyboardInput (.code .keyA) true false 0,
        .keyboardInput (.code .keyA) false false 10000000,
        .keyboardInput (.code .keyA) true false 20000000,
        .keyboardInput (.code .keyA) false false 30000000] = some t →
      ∃ down, run toggle ∅ (keyStream t.delivered) = some down := by
  intro h
  obtain ⟨down, hdown⟩ := h ⟨⟨∅, HashMap.insert ∅ 19 0⟩, ∅, [⟨30, true⟩, ⟨30, false⟩, ⟨30, false⟩]⟩ (by rfl)
  exact absurd hdown (by simp [keyStream, KeyboardInputEvent.keyCode, toggle])

end Macniri.Input.Winit
