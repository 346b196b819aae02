import Macniri.Layout.MonitorRun
import Macniri.Layout.Tiled
import Macniri.XdgShell.Step

/-! Fullscreen and maximize requests mean the same before and after a window is mapped, but for those
that get lost on the way. -/
namespace Macniri.XdgShell

open Option List

open Layout

variable {w : Wishes}

/-! What a window asks for, and what becomes of it. -/

def Request.apply (w : Wishes) : Request → Wishes
  | setMaximized => { w with maximized := true }
  | unsetMaximized => { w with maximized := false }
  | setFullscreen _ => { w with fullscreen := true }
  | unsetFullscreen => { w with fullscreen := false }

def Request.isUnset : Request → Bool
  | unsetMaximized | unsetFullscreen => true
  | setMaximized | setFullscreen _ => false

def Event.apply (w : Wishes) : Event → Wishes
  | request r _ => r.apply w
  | _ => w

/-- The last requests of both kinds. -/
def asked (events : List Event) : Wishes := events.foldl Event.apply ⟨false, false⟩

/-- The name of a workspace that is on no monitor. -/
def Surroundings.isMissing (s : Surroundings) (name : Option String) : Bool :=
  name.any fun name => (s.layout.monitorForWorkspace name).isNone

namespace State

/-- Whether the compositor does not go back from a mode: the workspace that it configured the window
for is gone. -/
def ignoresUnset (s : State) : Bool :=
  match s.unmapped with
  | some (.configured c) => s.isMissing c.workspaceName
  | _ => false

/-- Whether the initial configure does not take the wishes over: the workspace of the rules does not
exist. -/
def dropsWishes (s : State) (rules : WindowRules) : Bool :=
  match s.unmapped with
  | some (.notConfigured _ _) => s.isMissing rules.openOnWorkspace
  | _ => false

/-- What the compositor still knows of the requests after an event. A default height ends the
maximized state, but for a fullscreen window it is remembered elsewhere. -/
def heard (s : State) (w : Wishes) : Event → Wishes
  | .request r _ => if r.isUnset && s.ignoresUnset then w else r.apply w
  | .sendInitialConfigure rules => if s.dropsWishes rules then ⟨false, false⟩ else w
  | .map _ => if w.fullscreen then w else w.opened (s.unmapped.bind (·.opens.height))
  | .updateWindowRules _ | .other _ => w

/-- The same for a run. -/
def heardAlong (s : State) (w : Wishes) : List Event → Wishes
  | [] => w
  | e :: events =>
    match s.step e with
    | none => s.heard w e
    | some t => t.heardAlong (s.heard w e) events

end State

/-- The window is not in the layout yet, and there is an output. -/
structure Outside (window : ℕ) (l : Layout) : Prop where
  connected : l.activeMonitor.isSome = true
  unmoved : l.isMoving window = false
  absent : ∀ ws ∈ l.workspaces, ws.hasWindow window = false

/-- What happens to the rest of the layout leaves the window alone in its column. -/
def Spares (window : ℕ) (l l' : Layout) : Prop :=
  ∀ w : Wishes, l.Tiled window w → l'.Tiled window w

/-- The requests name no output, the window rules set no mode, the window opens tiled after it was
configured, and nothing else is done to it. -/
def Allowed (s : State) : Event → Prop
  | .request (.setFullscreen output) _ => output = none
  | .request _ _ => True
  | .sendInitialConfigure rules => rules.openFullscreen = none ∧ rules.openMaximizedToEdges = none
  | .updateWindowRules _ => True
  | .map _ => ∃ c, s.unmapped = some (.configured c) ∧ s.isFloating c.rules = false
  | .other t => if s.unmapped.isSome then Outside s.id t.layout else Spares s.id s.layout t.layout

/-! The monitors and workspaces that are picked. -/

namespace Surroundings

variable {s : Surroundings} {mon : Option (Monitor × Bool)} {o : Option Workspace}

theorem mem_monitorForOutput {l : Layout} {output : Output} {m : Monitor}
    (h : l.monitorForOutput output = some m) : m ∈ l.monitors :=
  mem_of_find?_eq_some h

theorem exists_parentOrActiveMonitor (h : s.layout.activeMonitor.isSome = true) :
    ∃ p, s.parentOrActiveMonitor = some p ∧ p.1 ∈ s.layout.monitors := by
  unfold parentOrActiveMonitor
  dsimp only
  cases hparent : (s.parent.bind s.layout.findOutputOfWindow).join.bind s.layout.monitorForOutput with
  | some m =>
    obtain ⟨output, -, hm⟩ := of_bind hparent
    exact ⟨(m, true), rfl, mem_monitorForOutput hm⟩
  | none =>
    obtain ⟨m, hm⟩ := isSome_iff_exists.mp h
    obtain ⟨idx, -, hidx⟩ := of_bind hm
    rw [hm]
    exact ⟨(m, false), rfl, mem_of_getElem? hidx⟩

theorem exists_or {a : Option Monitor} {rest : Option (Monitor × Bool)}
    (ha : ∀ m, a = some m → m ∈ s.layout.monitors)
    (hrest : ∃ p, rest = some p ∧ p.1 ∈ s.layout.monitors) :
    ∃ p, (a.map (·, false)).or rest = some p ∧ p.1 ∈ s.layout.monitors := by
  cases a with
  | none => simpa using hrest
  | some m => exact ⟨(m, false), rfl, ha m rfl⟩

theorem exists_monitorForRequest (h : s.layout.activeMonitor.isSome = true) (output : Option Output) :
    ∃ p, s.monitorForRequest output = some p ∧ p.1 ∈ s.layout.monitors := by
  refine exists_or (fun m hm => ?_) (exists_parentOrActiveMonitor h)
  obtain ⟨o, -, hm⟩ := of_bind hm
  exact mem_monitorForOutput hm

/-- With an output there is an active workspace. -/
theorem activeWorkspaceOf_isSome (hmon : ∃ p, mon = some p ∧ p.1 ∈ s.layout.monitors)
    (h : s.activeWorkspaceOf mon = some o) : ∃ ws, o = some ws := by
  obtain ⟨⟨m, b⟩, rfl, -⟩ := hmon
  obtain ⟨ws, -, rfl⟩ := of_map h
  exact ⟨ws, rfl⟩

/-- Only a name that is on no monitor leaves the window without a workspace: then the fallback monitor
is asked for it, and not for its active workspace. -/
theorem workspaceFor_isNone {name : Option String} {rest : Option (Monitor × Bool)}
    (hrest : ∃ p, rest = some p ∧ p.1 ∈ s.layout.monitors)
    (h : s.workspaceFor name (((name.bind s.layout.monitorForWorkspace).map (·, false)).or rest) =
      some o) : o.isNone = s.isMissing name := by
  unfold isMissing
  cases name with
  | none =>
    obtain ⟨ws, rfl⟩ := activeWorkspaceOf_isSome hrest h
    rfl
  | some name =>
    cases hmon : s.layout.monitorForWorkspace name with
    | some m =>
      have hfind : o = m.findNamedWorkspace name := by
        simpa [workspaceFor, hmon] using h.symm
      have hany : m.workspaces.any (·.isNamed name) = true := by
        simpa using find?_some hmon
      obtain ⟨ws, hws, hnamed⟩ := List.any_eq_true.mp hany
      have hsome : (m.findNamedWorkspace name).isSome = true :=
        find?_isSome.mpr ⟨ws, hws, hnamed⟩
      simp [hfind, hmon, isNone_eq_false_iff.mpr hsome]
    | none =>
      obtain ⟨⟨m, b⟩, rfl, hmem⟩ := hrest
      have hfind : o = m.findNamedWorkspace name := by
        simpa [workspaceFor, hmon] using h.symm
      have hnone : m.findNamedWorkspace name = none := by
        have hall := find?_eq_none.mp hmon m hmem
        refine find?_eq_none.mpr fun ws hws hnamed => hall ?_
        exact List.any_eq_true.mpr ⟨ws, hws, hnamed⟩
      simp [hfind, hmon, hnone]

end Surroundings

/-! Between the initial configure and mapping. -/

/-- The states of the toplevel are those that the window wants. They cannot be fullscreen and
maximized at once, so the latter is stored elsewhere too. -/
structure ConfiguredFor (w : Wishes) (c : Configured) (state : ToplevelState) : Prop where
  isPendingMaximized : c.isPendingMaximized = w.maximized
  fullscreen : state.fullscreen = w.fullscreen
  maximized : state.maximized = (!w.fullscreen && w.maximized)

theorem ConfiguredFor.mode {c : Configured} {state : ToplevelState} (h : ConfiguredFor w c state) :
    state.mode = w.mode := by
  unfold ToplevelState.mode Wishes.mode
  rw [h.fullscreen, h.maximized]
  cases w.fullscreen <;> rfl

namespace Surroundings

variable {s : Surroundings} {c c' : Configured} {state state' : ToplevelState}

theorem maximizeConfigured_spec (hconnected : s.layout.activeMonitor.isSome = true)
    (h : ConfiguredFor w c state) (hr : s.maximizeConfigured c state = some (c', state')) :
    ConfiguredFor { w with maximized := true } c' state' := by
  obtain ⟨o, ho, hr⟩ := of_bind hr
  obtain ⟨ws, rfl⟩ := activeWorkspaceOf_isSome (exists_monitorForRequest hconnected _) ho
  obtain ⟨rfl, rfl⟩ := pair_inj hr
  refine ⟨rfl, ?_, ?_⟩
  · show (if state.fullscreen then state else { state with maximized := true }).fullscreen = _
    split <;> exact h.fullscreen
  · show (if state.fullscreen then state else { state with maximized := true }).maximized = _
    have hf := h.fullscreen
    have hm := h.maximized
    split <;> simp_all

theorem fullscreenConfigured_spec (hconnected : s.layout.activeMonitor.isSome = true)
    {output : Option Output} (h : ConfiguredFor w c state)
    (hr : s.fullscreenConfigured output c state = some (c', state')) :
    ConfiguredFor { w with fullscreen := true } c' state' := by
  obtain ⟨o, ho, hr⟩ := of_bind hr
  obtain ⟨ws, rfl⟩ := activeWorkspaceOf_isSome (exists_monitorForRequest hconnected _) ho
  obtain ⟨rfl, rfl⟩ := pair_inj hr
  exact ⟨h.isPendingMaximized, rfl, rfl⟩

/-- Going back from a mode is ignored if the workspace is gone. -/
theorem unmaximizeConfigured_spec (hconnected : s.layout.activeMonitor.isSome = true)
    (h : ConfiguredFor w c state) (hr : s.unmaximizeConfigured c state = some (c', state')) :
    ConfiguredFor (if s.isMissing c.workspaceName then w else { w with maximized := false }) c'
      state' := by
  obtain ⟨o, ho, hr⟩ := of_bind hr
  rw [← workspaceFor_isNone (exists_monitorForRequest hconnected _) ho]
  cases o with
  | none =>
    obtain ⟨rfl, rfl⟩ := pair_inj hr
    exact ⟨h.isPendingMaximized, h.fullscreen, h.maximized⟩
  | some ws =>
    obtain ⟨rfl, rfl⟩ := pair_inj hr
    exact ⟨rfl, h.fullscreen, (Bool.and_false _).symm⟩

theorem unfullscreenConfigured_spec (hconnected : s.layout.activeMonitor.isSome = true)
    (h : ConfiguredFor w c state) (hr : s.unfullscreenConfigured c state = some (c', state')) :
    ConfiguredFor (if s.isMissing c.workspaceName then w else { w with fullscreen := false }) c'
      state' := by
  obtain ⟨o, ho, hr⟩ := of_bind hr
  rw [← workspaceFor_isNone (exists_monitorForRequest hconnected _) ho]
  cases o with
  | none =>
    obtain ⟨rfl, rfl⟩ := pair_inj hr
    exact ⟨h.isPendingMaximized, h.fullscreen, h.maximized⟩
  | some ws =>
    obtain ⟨rfl, rfl⟩ := pair_inj hr
    refine ⟨h.isPendingMaximized, rfl, ?_⟩
    show (state.maximized || c.isPendingMaximized) = _
    rw [h.maximized, h.isPendingMaximized]
    cases w.fullscreen <;> simp

/-- The workspace of the rules comes first. -/
theorem initialMonitor_spec (hconnected : s.layout.activeMonitor.isSome = true) (rules : WindowRules)
    (wantsFullscreen : Option (Option Output)) :
    ∃ rest, s.initialMonitor rules wantsFullscreen =
        ((rules.openOnWorkspace.bind s.layout.monitorForWorkspace).map (·, false)).or rest ∧
      ∃ p, rest = some p ∧ p.1 ∈ s.layout.monitors := by
  let ofOutput := (rules.openOnOutput.bind fun name => s.outputs.find? (·.name.matches name)).bind
    s.layout.monitorForOutput
  let requested := wantsFullscreen.join.bind s.layout.monitorForOutput
  have hmem : ∀ m, ofOutput.or requested = some m → m ∈ s.layout.monitors := by
    intro m hm
    obtain hm | ⟨-, hm⟩ := or_eq_some_iff.mp hm
    · obtain ⟨output, -, hm⟩ := of_bind hm
      exact mem_monitorForOutput hm
    · obtain ⟨output, -, hm⟩ := of_bind hm
      exact mem_monitorForOutput hm
  refine ⟨_, ?_, exists_or hmem (exists_parentOrActiveMonitor hconnected)⟩
  unfold initialMonitor
  dsimp only
  rw [Option.or_assoc, map_or, Option.or_assoc]

/-- The initial configure takes the wishes over, unless it finds no workspace. -/
theorem sendInitialConfigure_spec {rules : WindowRules} {wantsFullscreen : Option (Option Output)}
    {wantsMaximized : Bool} (hconnected : s.layout.activeMonitor.isSome = true)
    (hrules : rules.openFullscreen = none ∧ rules.openMaximizedToEdges = none)
    (hf : state.fullscreen = false) (hm : state.maximized = false)
    (hr : s.sendInitialConfigure rules wantsFullscreen wantsMaximized state = some (c', state')) :
    ConfiguredFor (if s.isMissing rules.openOnWorkspace then ⟨false, false⟩
      else ⟨wantsFullscreen.isSome, wantsMaximized⟩) c' state' := by
  obtain ⟨o, ho, hr⟩ := of_bind hr
  obtain ⟨rest, hmon, hrest⟩ := s.initialMonitor_spec hconnected rules wantsFullscreen
  rw [hmon] at ho
  rw [← workspaceFor_isNone hrest ho]
  cases o with
  | none =>
    obtain ⟨rfl, rfl⟩ := pair_inj hr
    exact ⟨rfl, hf, hm⟩
  | some ws =>
    obtain ⟨rfl, rfl⟩ := pair_inj hr
    have hpending : ((wantsMaximized && rules.openMaximizedToEdges.isNone) ||
        rules.openMaximizedToEdges == some true) = wantsMaximized := by
      simp [hrules.2]
    have hstate : initialState rules wantsFullscreen wantsMaximized state =
        if wantsFullscreen.isSome then { state with fullscreen := true }
        else if wantsMaximized then { state with maximized := true }
        else state := by
      simp [initialState, hrules.1]
    refine ⟨hpending, ?_, ?_⟩
    · show (initialState rules wantsFullscreen _ state).fullscreen = wantsFullscreen.isSome
      rw [hpending, hstate]
      cases wantsFullscreen <;> cases wantsMaximized <;> simp [hf]
    · show (initialState rules wantsFullscreen _ state).maximized =
        (!wantsFullscreen.isSome && wantsMaximized)
      rw [hpending, hstate]
      cases wantsFullscreen <;> cases wantsMaximized <;> simp [hm]

end Surroundings

/-! Runs. -/

namespace State

variable {s t : State} {renderPos : Point}

/-- What the window wants, wherever it is kept: in the wishes for the initial configure, in the
pending state of the toplevel and the flag beside it, or in the flags of its column. -/
def Wants (w : Wishes) (s : State) : Prop :=
  match s.unmapped with
  | some (.notConfigured wantsFullscreen wantsMaximized) =>
    w = ⟨wantsFullscreen.isSome, wantsMaximized⟩ ∧ s.pending.fullscreen = false ∧
      s.pending.maximized = false
  | some (.configured c) => ConfiguredFor w c s.pending
  | none => s.layout.Tiled s.id w

structure Holds (w : Wishes) (s : State) : Prop where
  outside : s.unmapped.isSome = true → Outside s.id s.layout
  wants : s.Wants w

theorem holds_mapped {l : Layout} (h : s.unmapped = none) (hl : l.Tiled s.id w) :
    (s.withLayout l).Holds w := by
  have hunmapped : (s.withLayout l).unmapped = none := h
  refine ⟨fun hsome => ?_, ?_⟩
  · rw [hunmapped] at hsome
    cases hsome
  · unfold Wants
    rw [hunmapped]
    exact hl

theorem holds_configured {r : Configured × ToplevelState} (houtside : Outside s.id s.layout)
    (hr : ConfiguredFor w r.1 r.2) : (s.withConfigured r).Holds w :=
  ⟨fun _ => houtside, hr⟩

theorem Holds.tiled (h : s.Holds w) (hu : s.unmapped = none) : s.layout.Tiled s.id w := by
  have hwants := h.wants
  unfold Wants at hwants
  rwa [hu] at hwants

theorem Holds.configured {c : Configured} (h : s.Holds w) (hu : s.unmapped = some (.configured c)) :
    Outside s.id s.layout ∧ ConfiguredFor w c s.pending := by
  have hwants := h.wants
  unfold Wants at hwants
  rw [hu] at hwants
  exact ⟨h.outside (by simp [hu]), hwants⟩

theorem Holds.notConfigured {wantsFullscreen : Option (Option Output)} {wantsMaximized : Bool}
    (h : s.Holds w) (hu : s.unmapped = some (.notConfigured wantsFullscreen wantsMaximized)) :
    Outside s.id s.layout ∧ w = ⟨wantsFullscreen.isSome, wantsMaximized⟩ ∧
      s.pending.fullscreen = false ∧ s.pending.maximized = false := by
  have hwants := h.wants
  unfold Wants at hwants
  rw [hu] at hwants
  exact ⟨h.outside (by simp [hu]), hwants⟩

theorem holds_maximizeRequest (h : s.Holds w) (ht : s.maximizeRequest renderPos = some t) :
    t.Holds { w with maximized := true } := by
  unfold maximizeRequest at ht
  split at ht
  · rename_i hu
    obtain ⟨l, hl, rfl⟩ := of_map ht
    exact holds_mapped hu ((h.tiled hu).setMaximized hl)
  · rename_i wantsFullscreen wantsMaximized hu
    obtain ⟨houtside, rfl, hpending⟩ := h.notConfigured hu
    obtain rfl := some.inj ht
    exact ⟨fun _ => houtside, rfl, hpending⟩
  · rename_i c hu
    obtain ⟨houtside, hc⟩ := h.configured hu
    obtain ⟨r, hr, rfl⟩ := of_map ht
    exact holds_configured houtside (Surroundings.maximizeConfigured_spec houtside.connected hc hr)

theorem holds_fullscreenRequest (h : s.Holds w) (ht : s.fullscreenRequest none renderPos = some t) :
    t.Holds { w with fullscreen := true } := by
  unfold fullscreenRequest at ht
  split at ht
  · rename_i hu
    obtain ⟨l, hl, ht⟩ := of_bind ht
    obtain rfl := some.inj hl
    obtain ⟨l', hl', rfl⟩ := of_bind_some ht
    exact holds_mapped hu ((h.tiled hu).setFullscreen hl')
  · rename_i wantsFullscreen wantsMaximized hu
    obtain ⟨houtside, rfl, hpending⟩ := h.notConfigured hu
    obtain rfl := some.inj ht
    exact ⟨fun _ => houtside, rfl, hpending⟩
  · rename_i c hu
    obtain ⟨houtside, hc⟩ := h.configured hu
    obtain ⟨r, hr, rfl⟩ := of_map ht
    exact holds_configured houtside (Surroundings.fullscreenConfigured_spec houtside.connected hc hr)

theorem holds_unmaximizeRequest (h : s.Holds w) (ht : s.unmaximizeRequest renderPos = some t) :
    t.Holds (if s.ignoresUnset then w else { w with maximized := false }) := by
  unfold unmaximizeRequest at ht
  unfold ignoresUnset
  split at ht
  · rename_i hu
    rw [hu]
    obtain ⟨l, hl, rfl⟩ := of_map ht
    exact holds_mapped hu ((h.tiled hu).setMaximized hl)
  · rename_i wantsFullscreen wantsMaximized hu
    rw [hu]
    obtain ⟨houtside, rfl, hpending⟩ := h.notConfigured hu
    obtain rfl := some.inj ht
    exact ⟨fun _ => houtside, rfl, hpending⟩
  · rename_i c hu
    rw [hu]
    obtain ⟨houtside, hc⟩ := h.configured hu
    obtain ⟨r, hr, rfl⟩ := of_map ht
    exact holds_configured houtside (Surroundings.unmaximizeConfigured_spec houtside.connected hc hr)

theorem holds_unfullscreenRequest (h : s.Holds w) (ht : s.unfullscreenRequest renderPos = some t) :
    t.Holds (if s.ignoresUnset then w else { w with fullscreen := false }) := by
  unfold unfullscreenRequest at ht
  unfold ignoresUnset
  split at ht
  · rename_i hu
    rw [hu]
    obtain ⟨l, hl, rfl⟩ := of_map ht
    exact holds_mapped hu ((h.tiled hu).setFullscreen hl)
  · rename_i wantsFullscreen wantsMaximized hu
    rw [hu]
    obtain ⟨houtside, rfl, hpending⟩ := h.notConfigured hu
    obtain rfl := some.inj ht
    exact ⟨fun _ => houtside, rfl, hpending⟩
  · rename_i c hu
    rw [hu]
    obtain ⟨houtside, hc⟩ := h.configured hu
    obtain ⟨r, hr, rfl⟩ := of_map ht
    exact holds_configured houtside
      (Surroundings.unfullscreenConfigured_spec houtside.connected hc hr)

theorem holds_handle (h : s.Holds w) {r : Request} (hr : Allowed s (.request r renderPos))
    (ht : s.handle renderPos r = some t) : t.Holds (s.heard w (.request r renderPos)) := by
  cases r with
  | setMaximized => exact holds_maximizeRequest h ht
  | unsetMaximized => exact holds_unmaximizeRequest h ht
  | setFullscreen output =>
    obtain rfl : output = none := hr
    exact holds_fullscreenRequest h ht
  | unsetFullscreen => exact holds_unfullscreenRequest h ht

theorem holds_configure (h : s.Holds w) {rules : WindowRules}
    (hrules : rules.openFullscreen = none ∧ rules.openMaximizedToEdges = none)
    (ht : s.configure rules = some t) :
    t.Holds (if s.dropsWishes rules then ⟨false, false⟩ else w) := by
  unfold configure at ht
  unfold dropsWishes
  cases hu : s.unmapped with
  | none =>
    rw [hu] at ht
    exact some.inj ht ▸ h
  | some state =>
    rw [hu] at ht
    cases state with
    | notConfigured wantsFullscreen wantsMaximized =>
      obtain ⟨houtside, rfl, hf, hm⟩ := h.notConfigured hu
      obtain ⟨r, hr, rfl⟩ := of_map ht
      exact holds_configured houtside
        (Surroundings.sendInitialConfigure_spec houtside.connected hrules hf hm hr)
    | configured c => exact some.inj ht ▸ h

theorem holds_updateWindowRules (h : s.Holds w) (rules : WindowRules) :
    (s.updateWindowRules rules).Holds w := by
  unfold updateWindowRules
  split
  · rename_i c hu
    obtain ⟨houtside, hc⟩ := h.configured hu
    exact ⟨fun _ => houtside, hc.isPendingMaximized, hc.fullscreen, hc.maximized⟩
  · exact h

theorem tiled_maximizeFullscreen {l l' : Layout} {window : ℕ} {height : Option PresetSize}
    (h : l.Tiled window ((Wishes.ofMode w.mode).opened height))
    (hl : maximizeFullscreen l window w.maximized renderPos = some l') :
    l'.Tiled window (if w.fullscreen then w else w.opened height) := by
  obtain ⟨x, hx, hmode, -⟩ := h.findWindow
  unfold maximizeFullscreen at hl
  rw [hx, any_some, hmode] at hl
  obtain ⟨f, m⟩ := w
  cases f with
  | true =>
    have hopened : (Wishes.ofMode .fullscreen).opened height = ⟨true, false⟩ := by
      cases height <;> rfl
    have hfull : Wishes.mode ⟨true, m⟩ = .fullscreen := Wishes.mode_fullscreen.mpr rfl
    rw [hfull, hopened] at h hl
    cases m with
    | true => exact h.setMaximized hl
    | false => exact some.inj hl ▸ h
  | false =>
    have hopened : (Wishes.ofMode (Wishes.mode ⟨false, m⟩)).opened height =
        Wishes.opened ⟨false, m⟩ height := by
      cases m <;> rfl
    have hmode' : (Wishes.opened ⟨false, m⟩ height).mode ≠ .fullscreen := by
      rw [Ne, Wishes.mode_fullscreen]
      cases height <;> simp [Wishes.opened]
    rw [hopened] at h hl
    rw [beq_false_of_ne hmode', Bool.false_and, if_neg Bool.false_ne_true] at hl
    exact some.inj hl ▸ h

/-- The mapped window gets a column in the pending mode of its toplevel; the maximized state of a
fullscreen window is added from the flag. -/
theorem holds_map (h : s.Holds w) {c : Configured} (hu : s.unmapped = some (.configured c))
    (htiled : s.isFloating c.rules = false) {commit : MappingCommit} (ht : s.map commit = some t) :
    t.Holds (if w.fullscreen then w else w.opened c.height) := by
  obtain ⟨houtside, hc⟩ := h.configured hu
  unfold map at ht
  rw [hu, some_bind] at ht
  obtain ⟨l, hl, ht⟩ := of_bind ht
  obtain ⟨l', hl', rfl⟩ := of_bind_some ht
  have hopened : l.Tiled s.id ((Wishes.ofMode s.pending.mode).opened c.height) :=
    tiled_addWindow houtside.connected houtside.unmoved houtside.absent rfl htiled hl
  rw [hc.mode] at hopened
  have hpending : (InitialConfigureState.configured c).opens.isPendingMaximized = w.maximized :=
    hc.isPendingMaximized
  rw [hpending] at hl'
  exact holds_mapped (s := { s with unmapped := none }) rfl (tiled_maximizeFullscreen hopened hl')

theorem holds_step (h : s.Holds w) {e : Event} (he : Allowed s e) (ht : s.step e = some t) :
    t.Holds (s.heard w e) := by
  cases e with
  | request r renderPos => exact holds_handle h he ht
  | sendInitialConfigure rules => exact holds_configure h he ht
  | updateWindowRules rules => exact some.inj ht ▸ holds_updateWindowRules h rules
  | map commit =>
    obtain ⟨c, hu, htiled⟩ := he
    have hmap := holds_map h hu htiled ht
    unfold heard
    rw [hu]
    exact hmap
  | other surroundings =>
    obtain rfl := some.inj ht
    have he : if s.unmapped.isSome then Outside s.id surroundings.layout
      else Spares s.id s.layout surroundings.layout := he
    split at he
    · rename_i hsome
      obtain ⟨state, hu⟩ := isSome_iff_exists.mp hsome
      refine ⟨fun _ => he, ?_⟩
      have hwants := h.wants
      unfold Wants at hwants ⊢
      dsimp only
      rw [hu] at hwants ⊢
      cases state with
      | notConfigured wantsFullscreen wantsMaximized => exact hwants
      | configured c => exact hwants
    · rename_i hnone
      have hu : s.unmapped = none := by simpa using hnone
      exact holds_mapped (s := { s with toSurroundings := surroundings }) hu (he w (h.tiled hu))

theorem holds_run {events : List Event} (h : s.Holds w) (hallowed : AllAlong step Allowed s events)
    (ht : run step s events = some t) : t.Holds (s.heardAlong w events) := by
  induction events generalizing s w with
  | nil => exact some.inj ht ▸ h
  | cons e events ih =>
    obtain ⟨u, hu, hrest⟩ := of_bind ht
    unfold heardAlong
    rw [hu]
    exact ih (holds_step h hallowed.1 hu) (hallowed.2 u hu) hrest

/-- A toplevel that was just created. -/
structure IsNew (s : State) : Prop where
  unmapped : s.unmapped = some (.notConfigured none false)
  fullscreen : s.pending.fullscreen = false
  maximized : s.pending.maximized = false
  outside : Outside s.id s.layout

theorem IsNew.holds (h : s.IsNew) : s.Holds ⟨false, false⟩ := by
  refine ⟨fun _ => h.outside, ?_⟩
  unfold Wants
  rw [h.unmapped]
  exact ⟨rfl, h.fullscreen, h.maximized⟩

/-- The mode that the mapped window is pending. -/
def pendingMode (s : State) : Option SizingMode :=
  (s.layout.findWindow s.id).map (·.pendingSizingMode)

/-- The mapped window is pending what the compositor heard of its requests. -/
theorem pendingMode_run {events : List Event} (hnew : s.IsNew)
    (hallowed : AllAlong step Allowed s events) (ht : run step s events = some t)
    (hmapped : t.unmapped = none) :
    t.pendingMode = some (s.heardAlong ⟨false, false⟩ events).mode := by
  obtain ⟨x, hx, hmode, -⟩ := ((holds_run hnew.holds hallowed ht).tiled hmapped).findWindow
  unfold pendingMode
  rw [hx, map_some, hmode]

/-- The requests mean the same before and after mapping exactly if those that were lost on the way
would have made no difference to the mode. -/
theorem pendingMode_eq_asked_iff {events : List Event} (hnew : s.IsNew)
    (hallowed : AllAlong step Allowed s events) (ht : run step s events = some t)
    (hmapped : t.unmapped = none) :
    t.pendingMode = some (asked events).mode ↔
      (s.heardAlong ⟨false, false⟩ events).mode = (asked events).mode := by
  rw [pendingMode_run hnew hallowed ht hmapped, some.injEq]

/-! Runs on one output. -/

/-- A new toplevel, with one output connected. -/
def testState : Option State :=
  ((withOptions 0 .default).addOutput Layout.Monitor.testOutput none).map fun l =>
    { layout := l
      outputs := [Layout.Monitor.testOutput]
      defaultColumnWidth := fun _ => none
      parent := none
      minSize := ⟨0, 0⟩
      maxSize := ⟨0, 0⟩
      id := 1
      pending := ⟨false, false, none⟩
      unmapped := some (.notConfigured none false) }

def mapsTiled (s : State) : Bool :=
  match s.unmapped with
  | some (.configured c) => !s.isFloating c.rules
  | _ => false

/-- Allowed, as long as nothing else happens. -/
def isAllowed (s : State) : Event → Bool
  | .request (.setFullscreen output) _ => output.isNone
  | .request _ _ | .updateWindowRules _ => true
  | .sendInitialConfigure rules => rules.openFullscreen.isNone && rules.openMaximizedToEdges.isNone
  | .map _ => s.mapsTiled
  | .other _ => false

theorem allowed_of_isAllowed (s : State) (e : Event) (h : s.isAllowed e = true) : Allowed s e := by
  cases e with
  | request r renderPos =>
    cases r with
    | setFullscreen output => exact isNone_iff_eq_none.mp h
    | _ => trivial
  | sendInitialConfigure rules =>
    obtain ⟨hf, hm⟩ := Bool.and_eq_true_iff.mp h
    exact ⟨isNone_iff_eq_none.mp hf, isNone_iff_eq_none.mp hm⟩
  | updateWindowRules rules => trivial
  | map commit =>
    have h : s.mapsTiled = true := h
    unfold mapsTiled at h
    split at h
    · rename_i c hu
      exact ⟨c, hu, by simpa using h⟩
    · cases h
  | other surroundings => cases h

theorem exists_testRun (events : List Event) (p : State → State → Bool)
    (h : testState.any (fun s => along step isAllowed s events &&
      (run step s events).any fun t => t.unmapped.isNone && p s t) = true) :
    ∃ s t, s.IsNew ∧ AllAlong step Allowed s events ∧ run step s events = some t ∧
      t.unmapped = none ∧ p s t = true := by
  obtain ⟨s, hs, h⟩ := (Option.any_eq_true ..).mp h
  obtain ⟨hallowed, h⟩ := Bool.and_eq_true_iff.mp h
  obtain ⟨t, ht, h⟩ := (Option.any_eq_true ..).mp h
  obtain ⟨hmapped, hp⟩ := Bool.and_eq_true_iff.mp h
  refine ⟨s, t, ?_, allAlong_of_along allowed_of_isAllowed hallowed, ht,
    isNone_iff_eq_none.mp hmapped, hp⟩
  have hnew : testState.all (fun s => s.unmapped == some (.notConfigured none false) &&
      s.pending == ⟨false, false, none⟩ && s.layout.activeMonitor.isSome &&
      !s.layout.isMoving s.id && s.layout.workspaces.all fun ws => !ws.hasWindow s.id) = true := by
    decide +kernel
  rw [hs] at hnew
  simp only [all_some, Bool.and_eq_true, beq_iff_eq, Bool.not_eq_true', List.all_eq_true]
    at hnew
  obtain ⟨⟨⟨⟨hunmapped, hpending⟩, hconnected⟩, hunmoved⟩, habsent⟩ := hnew
  exact ⟨hunmapped, by rw [hpending], by rw [hpending], hconnected, hunmoved, habsent⟩

def ask (r : Request) : Event := .request r ⟨0, 0⟩

def mapEvent : Event := .map ⟨⟨1000, 200⟩, .normal, false, false, ⟨0, 0⟩⟩

/-- Maximized while fullscreen before the initial configure, and fullscreen no more after mapping. -/
def maximizedFirst : List Event :=
  [ask (.setFullscreen none), ask .setMaximized, .sendInitialConfigure .default, mapEvent,
    ask .unsetFullscreen]

theorem pendingMode_eq_asked_iff_maximizedFirst : ∃ s t, run step s maximizedFirst = some t ∧
    t.pendingMode = some .maximized ∧ (asked maximizedFirst).mode = .maximized := by
  obtain ⟨s, t, hnew, hallowed, ht, hmapped, hheard⟩ := exists_testRun maximizedFirst
    (fun s _ => (s.heardAlong ⟨false, false⟩ maximizedFirst).mode == .maximized) (by decide +kernel)
  have hmode := (pendingMode_eq_asked_iff hnew hallowed ht hmapped).mpr (eq_of_beq hheard)
  exact ⟨s, t, ht, hmode, rfl⟩

/-- The window rules set a default height. -/
def heightRules : WindowRules :=
  { WindowRules.default with defaultHeight := some (some (.fixed 500)) }

/-- The window rules name a workspace that does not exist. -/
def workspaceRules : WindowRules := { WindowRules.default with openOnWorkspace := some "chat" }

def maximizedWithHeight : List Event :=
  [ask .setMaximized, .sendInitialConfigure heightRules, mapEvent]

def fullscreenOnMissing : List Event :=
  [ask (.setFullscreen none), .sendInitialConfigure workspaceRules, mapEvent]

/-- A maximize request before the initial configure is lost to a default height, and a fullscreen
request to a workspace that does not exist. -/
theorem requests_lost :
    (∃ s t, s.IsNew ∧ AllAlong step Allowed s maximizedWithHeight ∧
      run step s maximizedWithHeight = some t ∧ t.unmapped = none ∧
      (asked maximizedWithHeight).mode = .maximized ∧ t.pendingMode = some .normal) ∧
    ∃ s t, s.IsNew ∧ AllAlong step Allowed s fullscreenOnMissing ∧
      run step s fullscreenOnMissing = some t ∧ t.unmapped = none ∧
      (asked fullscreenOnMissing).mode = .fullscreen ∧ t.pendingMode = some .normal := by
  constructor
  · obtain ⟨s, t, hnew, hallowed, ht, hmapped, hmode⟩ := exists_testRun maximizedWithHeight
      (fun _ t => t.pendingMode == some .normal) (by decide +kernel)
    exact ⟨s, t, hnew, hallowed, ht, hmapped, rfl, eq_of_beq hmode⟩
  · obtain ⟨s, t, hnew, hallowed, ht, hmapped, hmode⟩ := exists_testRun fullscreenOnMissing
      (fun _ t => t.pendingMode == some .normal) (by decide +kernel)
    exact ⟨s, t, hnew, hallowed, ht, hmapped, rfl, eq_of_beq hmode⟩

end State

end Macniri.XdgShell
