import Macniri.Lib.Run
import Mathlib.Data.Finset.Basic

/-! Layer surfaces: created on an output, mapped and unmapped by their commits, destroyed. -/
namespace Macniri.LayerShell

open Option List

/-- A layer surface object, and the surface it was created for. -/
structure LayerSurface where
  shellSurface : ℕ
  wlSurface : ℕ
  deriving DecidableEq, Repr

structure Niri where
  /-- The outputs of the layout. -/
  outputs : List ℕ
  activeMonitorIdx : ℕ
  /-- The outputs that have a state. -/
  outputState : Finset ℕ
  /-- The layers of every output's layer map; an output keeps its map when it is removed. -/
  layerMaps : List (ℕ × LayerSurface)
  unmappedLayerSurfaces : Finset ℕ
  mappedLayerSurfaces : Finset LayerSurface
  layerShellOnDemandFocus : Option LayerSurface
  /-- The surfaces that carry the data of a layer surface. -/
  layerSurfaceData : Finset ℕ
  /-- Sent by the handlers: the initial configures, in order, and the closes. -/
  configured : List LayerSurface
  closed : Finset LayerSurface
  deriving DecidableEq

namespace Niri

def layers (niri : Niri) (output : ℕ) : List LayerSurface :=
  (niri.layerMaps.filter (·.1 = output)).map (·.2)

/-- A layer of another map cannot be mapped. -/
def mapLayer (niri : Niri) (output : ℕ) (layer : LayerSurface) : Option Niri :=
  if layer ∈ niri.layers output then some niri
  else if niri.layerMaps.any (·.2 = layer) then none
  else some { niri with layerMaps := niri.layerMaps ++ [(output, layer)] }

def unmapLayer (niri : Niri) (output : ℕ) (layer : LayerSurface) : Niri :=
  { niri with layerMaps := niri.layerMaps.filter (· ≠ (output, layer)) }

def layerForSurface (niri : Niri) (output surface : ℕ) : Option LayerSurface :=
  (niri.layers output).find? (·.wlSurface = surface)

/-- The outer `none` is the index out of range. -/
def activeOutput (niri : Niri) : Option (Option ℕ) :=
  match niri.outputs with
  | [] => some none
  | _ :: _ => niri.outputs[niri.activeMonitorIdx]?.map some

/-- `wlOutput` is `some none` when the client names an output that is gone. -/
def newLayerSurface (niri : Niri) (surface : LayerSurface) (wlOutput : Option (Option ℕ)) :
    Option Niri := do
  let output ← match wlOutput with
    | some fromResource => some fromResource
    | none => niri.activeOutput
  match output with
  | none => some { niri with closed := insert surface niri.closed }
  | some output =>
    if surface.wlSurface ∈ niri.unmappedLayerSurfaces then none
    else mapLayer { niri with
      unmappedLayerSurfaces := insert surface.wlSurface niri.unmappedLayerSurfaces } output surface

def layerDestroyed (niri : Niri) (surface : LayerSurface) : Niri :=
  let niri := { niri with
    unmappedLayerSurfaces := niri.unmappedLayerSurfaces.erase surface.wlSurface }
  match niri.outputs.find? fun o => surface ∈ niri.layers o with
  | some output =>
    { niri.unmapLayer output surface with
      mappedLayerSurfaces := niri.mappedLayerSurfaces.erase surface }
  | none => niri

/-- Returns whether the surface is of a layer surface. -/
def layerShellHandleCommit (niri : Niri) (surface rootSurface : ℕ)
    (isMapped onDemand initialConfigureSent : Bool) : Option (Niri × Bool) :=
  match niri.outputs.find? fun o => (niri.layerForSurface o rootSurface).isSome with
  | none => some (niri, false)
  | some output =>
    if surface ≠ rootSurface then some (niri, true)
    else do
      let layer ← niri.layerForSurface output surface
      if isMapped then
        let wasUnmapped := surface ∈ niri.unmappedLayerSurfaces
        let niri := { niri with
          unmappedLayerSurfaces := niri.unmappedLayerSurfaces.erase surface }
        let niri := if wasUnmapped then
            { niri with mappedLayerSurfaces := insert layer niri.mappedLayerSurfaces }
          else niri
        let niri := if wasUnmapped ∧ onDemand then
            { niri with layerShellOnDemandFocus := some layer }
          else niri
        some (niri, true)
      else if layer ∈ niri.mappedLayerSurfaces then
        some ({ niri with
          mappedLayerSurfaces := niri.mappedLayerSurfaces.erase layer
          unmappedLayerSurfaces := insert surface niri.unmappedLayerSurfaces }, true)
      else if surface ∈ niri.layerSurfaceData then
        if initialConfigureSent then some (niri, true)
        else some ({ niri with configured := niri.configured ++ [layer] }, true)
      else none

def addOutput (niri : Niri) (output : ℕ) : Option Niri :=
  let niri := { niri with
    activeMonitorIdx := if niri.outputs = [] then 0 else niri.activeMonitorIdx
    outputs := niri.outputs ++ [output] }
  if output ∈ niri.outputState then none
  else some { niri with outputState := insert output niri.outputState }

def removeOutput (niri : Niri) (output : ℕ) : Option Niri := do
  let niri := { niri with closed := niri.closed ∪ (niri.layers output).toFinset }
  let idx ← niri.outputs.idxOf? output
  let niri := { niri with
    outputs := niri.outputs.eraseIdx idx
    activeMonitorIdx :=
      if niri.activeMonitorIdx ≥ idx then niri.activeMonitorIdx - 1 else niri.activeMonitorIdx }
  if output ∈ niri.outputState then
    some { niri with outputState := niri.outputState.erase output }
  else none

end Niri

/-- The compositor and what its clients and the hardware did so far. -/
structure World where
  niri : Niri
  knownOutputs : Finset ℕ
  created : Finset ℕ
  live : Finset LayerSurface
  /-- The layer surfaces whose last commit had a buffer. -/
  buffered : Finset LayerSurface
  deriving DecidableEq

inductive Op
  | newLayerSurface (surface : LayerSurface) (wlOutput : Option (Option ℕ))
  | commit (surface rootSurface : ℕ) (buffer onDemand initialConfigureSent : Bool)
  | layerDestroyed (surface : LayerSurface)
  | addOutput (output : ℕ)
  | removeOutput (output : ℕ)
  | focusOutput (idx : ℕ)

/-- `none` is a failed assert or unwrap. -/
def step (s : World) : Op → Option World
  | .newLayerSurface surface wlOutput => do
    let niri := { s.niri with layerSurfaceData := insert surface.wlSurface s.niri.layerSurfaceData }
    let niri ← niri.newLayerSurface surface wlOutput
    some { s with
      niri := niri
      created := insert surface.shellSurface s.created
      live := insert surface s.live }
  | .commit surface rootSurface buffer onDemand initialConfigureSent => do
    let (niri, _) ←
      s.niri.layerShellHandleCommit surface rootSurface buffer onDemand initialConfigureSent
    let committed := s.live.filter (·.wlSurface = surface)
    some { s with
      niri := niri
      buffered := if buffer then s.buffered ∪ committed else s.buffered \ committed }
  | .layerDestroyed surface =>
    some { s with niri := s.niri.layerDestroyed surface, live := s.live.erase surface }
  | .addOutput output => do
    let niri ← s.niri.addOutput output
    some { s with niri := niri, knownOutputs := insert output s.knownOutputs }
  | .removeOutput output => do
    let niri ← s.niri.removeOutput output
    some { s with niri := niri }
  | .focusOutput idx => some { s with niri := { s.niri with activeMonitorIdx := idx } }

def init : World :=
  ⟨⟨[], 0, ∅, [], ∅, ∅, none, ∅, [], ∅⟩, ∅, ∅, ∅, ∅⟩

/-- What the protocol library and the backends promise: objects are new, a surface has one role object
at a time and a layer surface has no parent, an output is removed once. -/
def Possible (s : World) : Op → Prop
  | .newLayerSurface surface wlOutput =>
    surface.shellSurface ∉ s.created ∧ (∀ l ∈ s.live, l.wlSurface ≠ surface.wlSurface) ∧
      ∀ output, wlOutput = some (some output) → output ∈ s.knownOutputs
  | .commit surface rootSurface _ _ _ =>
    (∃ l ∈ s.live, l.wlSurface = surface) → rootSurface = surface
  | .layerDestroyed surface => surface ∈ s.live
  | .addOutput output => output ∉ s.knownOutputs
  | .removeOutput output => output ∈ s.niri.outputs
  | .focusOutput idx => idx < s.niri.outputs.length

def World.Connected (s : World) (l : LayerSurface) : Prop :=
  ∃ o ∈ s.niri.outputs, (o, l) ∈ s.niri.layerMaps

/-- No layer surface is created on an output that was removed, and no mapped one is destroyed after
its output was removed. -/
def Connecting (s : World) : Op → Prop
  | .newLayerSurface _ wlOutput => ∀ output, wlOutput = some (some output) → output ∈ s.niri.outputs
  | .layerDestroyed surface => surface ∈ s.niri.mappedLayerSurfaces → s.Connected surface
  | _ => True

/-- The bookkeeping of layer surfaces. -/
structure World.Correct (s : World) : Prop where
  unmapped : ∀ l ∈ s.live, s.Connected l →
    (l.wlSurface ∈ s.niri.unmappedLayerSurfaces ↔ l ∉ s.buffered)
  mapped : ∀ l ∈ s.live, s.Connected l → (l ∈ s.niri.mappedLayerSurfaces ↔ l ∈ s.buffered)
  live_unmapped : ∀ surface ∈ s.niri.unmappedLayerSurfaces, ∃ l ∈ s.live, l.wlSurface = surface
  live_mapped : s.niri.mappedLayerSurfaces ⊆ s.live
  closed : ∀ l ∈ s.live, ¬ s.Connected l → l ∈ s.niri.closed

/-- What every run keeps besides. -/
structure World.Inv (s : World) : Prop extends s.Correct where
  nodup : s.niri.outputs.Nodup
  active : s.niri.outputs ≠ [] → s.niri.activeMonitorIdx < s.niri.outputs.length
  state : ∀ o, o ∈ s.niri.outputState ↔ o ∈ s.niri.outputs
  known : ∀ o ∈ s.niri.outputs, o ∈ s.knownOutputs
  created : ∀ l ∈ s.live, l.shellSurface ∈ s.created
  buffered_created : ∀ l ∈ s.buffered, l.shellSurface ∈ s.created
  closed_created : ∀ l ∈ s.niri.closed, l.shellSurface ∈ s.created
  one : ∀ l ∈ s.live, ∀ l' ∈ s.live, l.wlSurface = l'.wlSurface → l = l'
  layer_known : ∀ e ∈ s.niri.layerMaps, e.1 ∈ s.knownOutputs ∧ e.2.shellSurface ∈ s.created
  layer_one : ∀ o o' l, (o, l) ∈ s.niri.layerMaps → (o', l) ∈ s.niri.layerMaps → o = o'
  layer_live : ∀ e ∈ s.niri.layerMaps, e.1 ∈ s.niri.outputs → e.2 ∈ s.live
  data : ∀ l ∈ s.live, l.wlSurface ∈ s.niri.layerSurfaceData

namespace Niri

variable {niri : Niri} {o : ℕ} {l surface : LayerSurface}

@[simp] theorem mem_layers : l ∈ niri.layers o ↔ (o, l) ∈ niri.layerMaps := by
  simp only [layers, List.mem_map, mem_filter, decide_eq_true_eq]
  constructor
  · rintro ⟨⟨o', l'⟩, ⟨he, rfl⟩, rfl⟩
    exact he
  · exact fun he => ⟨(o, l), ⟨he, rfl⟩, rfl⟩

theorem mapLayer_eq (h : ∀ e ∈ niri.layerMaps, e.2 ≠ l) :
    niri.mapLayer o l = some { niri with layerMaps := niri.layerMaps ++ [(o, l)] } := by
  have hne : l ∉ niri.layers o := fun hl => h _ (mem_layers.mp hl) rfl
  have hany : niri.layerMaps.any (·.2 = l) = false := by
    simpa [List.any_eq_false] using fun o' l' he => h (o', l') he
  rw [mapLayer, if_neg hne, hany]
  rfl

theorem activeOutput_eq (h : niri.outputs ≠ [] → niri.activeMonitorIdx < niri.outputs.length) :
    ∃ out, niri.activeOutput = some out ∧ ∀ o, out = some o → o ∈ niri.outputs := by
  unfold activeOutput
  split
  · exact ⟨none, rfl, nofun⟩
  · rename_i hout
    have hlt := h (by rw [hout]; nofun)
    rw [getElem?_eq_getElem hlt]
    refine ⟨_, rfl, fun o ho => ?_⟩
    obtain rfl := some.inj ho
    exact getElem_mem hlt

/-- What is left of a new surface: closed, or unmapped on an output. -/
def place (niri : Niri) (surface : LayerSurface) : Option ℕ → Niri
  | none => { niri with closed := insert surface niri.closed }
  | some output => { niri with
    unmappedLayerSurfaces := insert surface.wlSurface niri.unmappedLayerSurfaces
    layerMaps := niri.layerMaps ++ [(output, surface)] }

theorem newLayerSurface_eq (niri : Niri) (surface : LayerSurface) (wlOutput : Option (Option ℕ))
    (hactive : niri.outputs ≠ [] → niri.activeMonitorIdx < niri.outputs.length)
    (hunmapped : surface.wlSurface ∉ niri.unmappedLayerSurfaces)
    (hlayer : ∀ e ∈ niri.layerMaps, e.2 ≠ surface) :
    ∃ out, niri.newLayerSurface surface wlOutput = some (niri.place surface out) ∧
      ((∃ o, out = some o ∧ wlOutput = some (some o)) ∨
        (∀ o, wlOutput ≠ some (some o)) ∧ ∀ o, out = some o → o ∈ niri.outputs) := by
  have hplace : ∀ out, (match out with
      | none => some { niri with closed := insert surface niri.closed }
      | some output =>
        if surface.wlSurface ∈ niri.unmappedLayerSurfaces then none
        else mapLayer { niri with
          unmappedLayerSurfaces := insert surface.wlSurface niri.unmappedLayerSurfaces } output surface)
      = some (niri.place surface out) := by
    rintro (_ | o)
    · rfl
    · exact (if_neg hunmapped).trans (mapLayer_eq hlayer)
  cases wlOutput with
  | some fromResource =>
    refine ⟨fromResource, hplace _, ?_⟩
    cases fromResource with
    | none => exact .inr ⟨nofun, nofun⟩
    | some o => exact .inl ⟨o, rfl, rfl⟩
  | none =>
    obtain ⟨out, hout, hmem⟩ := activeOutput_eq hactive
    refine ⟨out, ?_, .inr ⟨nofun, hmem⟩⟩
    rw [newLayerSurface, hout]
    exact hplace out

/-- The layer found on a connected output is the one of the surface. -/
theorem layerForSurface_eq (h : ∀ l' ∈ niri.layers o, l'.wlSurface = l.wlSurface → l' = l)
    (hl : (o, l) ∈ niri.layerMaps) : niri.layerForSurface o l.wlSurface = some l := by
  cases hfind : niri.layerForSurface o l.wlSurface with
  | none =>
    have := find?_eq_none.mp hfind l (mem_layers.mpr hl)
    simp at this
  | some l' =>
    have hw : l'.wlSurface = l.wlSurface := by simpa using find?_some hfind
    rw [h l' (mem_of_find?_eq_some hfind) hw]

end Niri

namespace World

variable {s : World} {l l' surface : LayerSurface} {o : ℕ}

/-- The layers of the connected outputs are live surfaces, each on one output. -/
theorem Inv.layer_eq (h : s.Inv) (ho : o ∈ s.niri.outputs) (hl : (o, l) ∈ s.niri.layerMaps)
    (hl' : l' ∈ s.live) (hw : l.wlSurface = l'.wlSurface) : l = l' :=
  h.one l (h.layer_live _ hl ho) l' hl' hw

theorem Inv.connected_live (h : s.Inv) (hl : s.Connected l) : l ∈ s.live := by
  obtain ⟨o, ho, he⟩ := hl
  exact h.layer_live _ he ho

theorem Inv.layerForSurface_eq (h : s.Inv) (ho : o ∈ s.niri.outputs) (hl : (o, l) ∈ s.niri.layerMaps) :
    s.niri.layerForSurface o l.wlSurface = some l :=
  Niri.layerForSurface_eq
    (fun _ hl' hw => h.layer_eq ho (Niri.mem_layers.mp hl') (h.layer_live _ hl ho) hw) hl

/-- What a commit of `surface` makes of the two maps: a layer surface of a connected output goes where
its buffer says. -/
structure Moves (s : World) (surface : ℕ) (buffer : Bool) (unmapped : Finset ℕ)
    (mapped : Finset LayerSurface) : Prop where
  unmapped_iff : ∀ l, s.Connected l → (l.wlSurface ∈ unmapped ↔
    if l.wlSurface = surface then buffer = false else l.wlSurface ∈ s.niri.unmappedLayerSurfaces)
  mapped_iff : ∀ l, s.Connected l → (l ∈ mapped ↔
    if l.wlSurface = surface then buffer = true else l ∈ s.niri.mappedLayerSurfaces)
  live_unmapped : ∀ w ∈ unmapped, w ∈ s.niri.unmappedLayerSurfaces ∨ ∃ l ∈ s.live, l.wlSurface = w
  live_mapped : ∀ l ∈ mapped, l ∈ s.niri.mappedLayerSurfaces ∨ l ∈ s.live

theorem moves_skip {surface : ℕ} (buffer : Bool) (hne : ∀ l, s.Connected l → l.wlSurface ≠ surface) :
    s.Moves surface buffer s.niri.unmappedLayerSurfaces s.niri.mappedLayerSurfaces where
  unmapped_iff l hl := by rw [if_neg (hne l hl)]
  mapped_iff l hl := by rw [if_neg (hne l hl)]
  live_unmapped _ hw := .inl hw
  live_mapped _ hl := .inl hl

theorem Inv.moves_layer (h : s.Inv) {layer : LayerSurface} (hconn : s.Connected layer) {buffer : Bool}
    {unmapped : Finset ℕ} {mapped : Finset LayerSurface}
    (hu : ∀ w, w ∈ unmapped ↔
      if w = layer.wlSurface then buffer = false else w ∈ s.niri.unmappedLayerSurfaces)
    (hm : ∀ l, l ∈ mapped ↔ if l = layer then buffer = true else l ∈ s.niri.mappedLayerSurfaces) :
    s.Moves layer.wlSurface buffer unmapped mapped where
  unmapped_iff l _ := hu l.wlSurface
  mapped_iff l hl := by
    have heq : l.wlSurface = layer.wlSurface ↔ l = layer :=
      ⟨fun hw => h.one l (h.connected_live hl) layer (h.connected_live hconn) hw, fun e => by rw [e]⟩
    rw [hm l]
    simp only [heq]
  live_unmapped w hw := by
    have := (hu w).mp hw
    split at this
    · rename_i he
      exact .inr ⟨layer, h.connected_live hconn, he.symm⟩
    · exact .inl this
  live_mapped l hl := by
    have := (hm l).mp hl
    split at this
    · rename_i he
      exact .inr (he ▸ h.connected_live hconn)
    · exact .inl this

theorem Inv.commit_spec (h : s.Inv) {surface rootSurface : ℕ} (buffer onDemand sent : Bool)
    (hroot : (∃ l ∈ s.live, l.wlSurface = surface) → rootSurface = surface) :
    ∃ U M focus configured found,
      s.niri.layerShellHandleCommit surface rootSurface buffer onDemand sent = some ({ s.niri with
          unmappedLayerSurfaces := U
          mappedLayerSurfaces := M
          layerShellOnDemandFocus := focus
          configured := configured }, found) ∧
      s.Moves surface buffer U M := by
  unfold Niri.layerShellHandleCommit
  cases hfind : s.niri.outputs.find? fun o => (s.niri.layerForSurface o rootSurface).isSome with
  | none =>
    refine ⟨_, _, _, _, false, rfl, moves_skip buffer ?_⟩
    rintro l ⟨o, ho, hl⟩ rfl
    have hr := hroot ⟨l, h.layer_live _ hl ho, rfl⟩
    have := find?_eq_none.mp hfind o ho
    rw [hr, h.layerForSurface_eq ho hl] at this
    exact this rfl
  | some o =>
    by_cases hsub : surface ≠ rootSurface
    · refine ⟨_, _, _, _, true, if_pos hsub, moves_skip buffer ?_⟩
      rintro l hl rfl
      exact hsub (hroot ⟨l, h.connected_live hl, rfl⟩).symm
    obtain rfl : surface = rootSurface := not_not.mp hsub
    have ho := mem_of_find?_eq_some hfind
    obtain ⟨layer, hlayer⟩ := isSome_iff_exists.mp
      (find?_some (p := fun o => (s.niri.layerForSurface o surface).isSome) hfind)
    obtain rfl : layer.wlSurface = surface := by simpa using find?_some hlayer
    have hmem : (o, layer) ∈ s.niri.layerMaps :=
      Niri.mem_layers.mp (mem_of_find?_eq_some hlayer)
    have hlive := h.layer_live _ hmem ho
    have hconn : s.Connected layer := ⟨o, ho, hmem⟩
    have hu := h.unmapped layer hlive hconn
    have hm := h.mapped layer hlive hconn
    simp only [hlayer, ne_eq, not_true_eq_false, if_false, some_bind]
    cases buffer with
    | true =>
      by_cases hwas : layer.wlSurface ∈ s.niri.unmappedLayerSurfaces
      · simp only [hwas, if_true, true_and]
        refine ⟨_, _, if onDemand then _ else _, _, true, by split <;> rfl, h.moves_layer hconn ?_ ?_⟩
        · simp
        · intro l
          by_cases e : l = layer <;> simp [e]
      · simp only [hwas, if_true, if_false, false_and]
        refine ⟨_, _, _, _, true, rfl, h.moves_layer hconn ?_ ?_⟩
        · simp
        · intro l
          split
          · rename_i e
            rw [e, hm]
            simpa using not_not.mp (mt hu.mpr hwas)
          · rfl
    | false =>
      simp only [Bool.false_eq_true, if_false]
      by_cases hmap : layer ∈ s.niri.mappedLayerSurfaces
      · rw [if_pos hmap]
        refine ⟨_, _, _, _, true, rfl, h.moves_layer hconn ?_ ?_⟩
        · intro w
          by_cases e : w = layer.wlSurface <;> simp [e]
        · simp
      · have hun := hu.mpr (mt hm.mpr hmap)
        rw [if_neg hmap, if_pos (h.data layer hlive)]
        have hskip : s.Moves layer.wlSurface false s.niri.unmappedLayerSurfaces
            s.niri.mappedLayerSurfaces := by
          refine h.moves_layer hconn (fun w => ?_) fun l => ?_
          · split
            · rename_i e
              simpa [e] using hun
            · rfl
          · split
            · rename_i e
              simpa [e] using hmap
            · rfl
        split
        · exact ⟨_, _, _, _, true, rfl, hskip⟩
        · exact ⟨_, _, _, _, true, rfl, hskip⟩

/-- A surface that no object of the state refers to yet. -/
structure New (s : World) (surface : LayerSurface) : Prop where
  layer : ∀ e ∈ s.niri.layerMaps, e.2 ≠ surface
  wlSurface : ∀ l ∈ s.live, l.wlSurface ≠ surface.wlSurface
  unmapped : surface.wlSurface ∉ s.niri.unmappedLayerSurfaces
  mapped : surface ∉ s.niri.mappedLayerSurfaces
  buffered : surface ∉ s.buffered
  closed : surface ∉ s.niri.closed

theorem Inv.new (h : s.Inv) (hnew : surface.shellSurface ∉ s.created)
    (hwl : ∀ l ∈ s.live, l.wlSurface ≠ surface.wlSurface) : s.New surface where
  layer e he heq := hnew (heq ▸ (h.layer_known e he).2)
  wlSurface := hwl
  unmapped hw := by
    obtain ⟨l, hl, he⟩ := h.live_unmapped _ hw
    exact hwl l hl he
  mapped hl := hnew (h.created _ (h.live_mapped hl))
  buffered hl := hnew (h.buffered_created _ hl)
  closed hl := hnew (h.closed_created _ hl)

/-- The new surface, closed or put on an output. -/
def create (s : World) (surface : LayerSurface) (out : Option ℕ) : World :=
  { s with
    niri := { s.niri with
      layerSurfaceData := insert surface.wlSurface s.niri.layerSurfaceData }.place surface out
    created := insert surface.shellSurface s.created
    live := insert surface s.live }

theorem connected_create_some : (s.create surface (some o)).Connected l ↔
    s.Connected l ∨ l = surface ∧ o ∈ s.niri.outputs := by
  simp only [Connected, create, Niri.place, mem_append, mem_singleton, Prod.mk.injEq]
  constructor
  · rintro ⟨o', ho', he | ⟨rfl, rfl⟩⟩
    · exact .inl ⟨o', ho', he⟩
    · exact .inr ⟨rfl, ho'⟩
  · rintro (⟨o', ho', he⟩ | ⟨rfl, ho⟩)
    · exact ⟨o', ho', .inl he⟩
    · exact ⟨o, ho, .inr ⟨rfl, rfl⟩⟩

theorem New.not_connected (hnew : s.New surface) : ¬ s.Connected surface := by
  rintro ⟨o, -, he⟩
  exact hnew.layer _ he rfl

theorem Inv.create_none (h : s.Inv) (hnew : s.New surface) : (s.create surface none).Inv where
  nodup := h.nodup
  active := h.active
  state := h.state
  known := h.known
  unmapped l hl hc := by
    obtain rfl | hl := Finset.mem_insert.mp hl
    · exact absurd hc hnew.not_connected
    · exact h.unmapped l hl hc
  mapped l hl hc := by
    obtain rfl | hl := Finset.mem_insert.mp hl
    · exact absurd hc hnew.not_connected
    · exact h.mapped l hl hc
  live_unmapped w hw := by
    obtain ⟨l, hl, he⟩ := h.live_unmapped w hw
    exact ⟨l, Finset.mem_insert_of_mem hl, he⟩
  live_mapped l hl := Finset.mem_insert_of_mem (h.live_mapped hl)
  closed l hl hc := by
    obtain rfl | hl := Finset.mem_insert.mp hl
    · exact Finset.mem_insert_self ..
    · exact Finset.mem_insert_of_mem (h.closed l hl hc)
  created l hl := by
    obtain rfl | hl := Finset.mem_insert.mp hl
    · exact Finset.mem_insert_self ..
    · exact Finset.mem_insert_of_mem (h.created l hl)
  buffered_created l hl := Finset.mem_insert_of_mem (h.buffered_created l hl)
  closed_created l hl := by
    obtain rfl | hl := Finset.mem_insert.mp hl
    · exact Finset.mem_insert_self ..
    · exact Finset.mem_insert_of_mem (h.closed_created l hl)
  one := by
    intro l hl l' hl' hw
    obtain rfl | hold := Finset.mem_insert.mp hl
    · obtain rfl | hold' := Finset.mem_insert.mp hl'
      · rfl
      · exact absurd hw.symm (hnew.wlSurface l' hold')
    · obtain rfl | hold' := Finset.mem_insert.mp hl'
      · exact absurd hw (hnew.wlSurface l hold)
      · exact h.one l hold l' hold' hw
  layer_known e he := ⟨(h.layer_known e he).1, Finset.mem_insert_of_mem (h.layer_known e he).2⟩
  layer_one := h.layer_one
  layer_live e he ho := Finset.mem_insert_of_mem (h.layer_live e he ho)
  data l hl := by
    obtain rfl | hl := Finset.mem_insert.mp hl
    · exact Finset.mem_insert_self ..
    · exact Finset.mem_insert_of_mem (h.data l hl)

theorem Inv.create_some (h : s.Inv) (hnew : s.New surface) (ho : o ∈ s.niri.outputs) :
    (s.create surface (some o)).Inv := by
  have h' := h.create_none hnew
  refine { h' with
    unmapped := fun l hl hc => ?_, mapped := fun l hl hc => ?_, live_unmapped := fun w hw => ?_,
    closed := fun l hl hc => ?_, closed_created := fun l hl => ?_, layer_known := fun e he => ?_,
    layer_one := fun o₁ o₂ l he he' => ?_, layer_live := fun e he ho' => ?_ }
  · obtain rfl | hold := Finset.mem_insert.mp hl
    · exact iff_of_true (Finset.mem_insert_self ..) hnew.buffered
    · have hold' := (connected_create_some.mp hc).resolve_right fun e =>
        hnew.wlSurface l hold (by rw [e.1])
      exact (Finset.mem_insert.trans (or_iff_right (hnew.wlSurface l hold))).trans
        (h.unmapped l hold hold')
  · obtain rfl | hold := Finset.mem_insert.mp hl
    · exact iff_of_false hnew.mapped hnew.buffered
    · have hold' := (connected_create_some.mp hc).resolve_right fun e =>
        hnew.wlSurface l hold (by rw [e.1])
      exact h.mapped l hold hold'
  · obtain rfl | hw := Finset.mem_insert.mp hw
    · exact ⟨surface, Finset.mem_insert_self .., rfl⟩
    · exact h'.live_unmapped w hw
  · obtain rfl | hold := Finset.mem_insert.mp hl
    · exact absurd (connected_create_some.mpr (.inr ⟨rfl, ho⟩)) hc
    · exact h.closed l hold fun hc' => hc (connected_create_some.mpr (.inl hc'))
  · exact Finset.mem_insert_of_mem (h.closed_created l hl)
  · obtain he | he := mem_append.mp he
    · exact h'.layer_known e he
    · obtain rfl := mem_singleton.mp he
      exact ⟨h.known o ho, Finset.mem_insert_self ..⟩
  · obtain he | he := mem_append.mp he
    · obtain he' | he' := mem_append.mp he'
      · exact h.layer_one o₁ o₂ l he he'
      · exact absurd (congrArg Prod.snd (mem_singleton.mp he')) (hnew.layer (o₁, l) he)
    · obtain he' | he' := mem_append.mp he'
      · exact absurd (congrArg Prod.snd (mem_singleton.mp he)) (hnew.layer (o₂, l) he')
      · exact congrArg Prod.fst ((mem_singleton.mp he).trans (mem_singleton.mp he').symm)
  · obtain he | he := mem_append.mp he
    · exact h'.layer_live e he ho'
    · obtain rfl := mem_singleton.mp he
      exact Finset.mem_insert_self ..

/-- A new layer surface is closed, or put on its output. -/
theorem Inv.step_newLayerSurface (h : s.Inv) {wlOutput : Option (Option ℕ)}
    (hp : Possible s (.newLayerSurface surface wlOutput)) :
    ∃ t, step s (.newLayerSurface surface wlOutput) = some t ∧
      (Connecting s (.newLayerSurface surface wlOutput) → t.Inv) ∧
      (t.Correct → Connecting s (.newLayerSurface surface wlOutput)) := by
  have hnew := h.new hp.1 hp.2.1
  obtain ⟨out, heq, hout⟩ := Niri.newLayerSurface_eq { s.niri with
    layerSurfaceData := insert surface.wlSurface s.niri.layerSurfaceData } surface wlOutput
    h.active hnew.unmapped hnew.layer
  refine ⟨s.create surface out, by rw [step, heq]; rfl, fun hc => ?_, fun ht o ho => ?_⟩
  · have hmem : ∀ o, out = some o → o ∈ s.niri.outputs := by
      obtain ⟨o, rfl, hw⟩ | ⟨-, hmem⟩ := hout
      · intro o' ho'
        obtain rfl := some.inj ho'
        exact hc o hw
      · exact hmem
    cases out with
    | none => exact h.create_none hnew
    | some o => exact h.create_some hnew (hmem o rfl)
  · obtain ⟨o', rfl, hw⟩ | ⟨hne, -⟩ := hout
    · obtain rfl : o' = o := by simpa [hw] using ho
      by_contra hout
      have hclosed := ht.closed surface (Finset.mem_insert_self ..) fun hconn =>
        (connected_create_some.mp hconn).elim hnew.not_connected fun e => hout e.2
      exact hnew.closed hclosed
    · exact absurd ho (hne o)

/-- What is left of the layer maps and of the mapped surfaces when a surface is destroyed. -/
structure Leaves (s : World) (surface : LayerSurface) (maps : List (ℕ × LayerSurface))
    (mapped : Finset LayerSurface) : Prop where
  old : ∀ e ∈ maps, e ∈ s.niri.layerMaps
  other : ∀ e ∈ s.niri.layerMaps, e.2 ≠ surface → e ∈ maps
  gone : ∀ o ∈ s.niri.outputs, (o, surface) ∉ maps
  mapped_other : ∀ l, l ≠ surface → (l ∈ mapped ↔ l ∈ s.niri.mappedLayerSurfaces)
  mapped_self : surface ∈ mapped ↔ surface ∈ s.niri.mappedLayerSurfaces ∧ ¬ s.Connected surface

theorem Inv.destroy_spec (h : s.Inv) (surface : LayerSurface) :
    ∃ maps mapped, s.niri.layerDestroyed surface = { s.niri with
        unmappedLayerSurfaces := s.niri.unmappedLayerSurfaces.erase surface.wlSurface
        layerMaps := maps
        mappedLayerSurfaces := mapped } ∧
      s.Leaves surface maps mapped := by
  unfold Niri.layerDestroyed
  simp only [Niri.mem_layers]
  cases hfind : s.niri.outputs.find? fun o => (o, surface) ∈ s.niri.layerMaps with
  | none =>
    have hnot : ¬ s.Connected surface := by
      rintro ⟨o, ho, hl⟩
      simpa [hl] using find?_eq_none.mp hfind o ho
    exact ⟨_, _, rfl, fun _ he => he, fun _ he _ => he, fun _ ho he => hnot ⟨_, ho, he⟩,
      fun _ _ => Iff.rfl, (and_iff_left hnot).symm⟩
  | some o =>
    have ho := mem_of_find?_eq_some hfind
    have hmem : (o, surface) ∈ s.niri.layerMaps := by simpa using find?_some hfind
    refine ⟨_, _, rfl, fun e he => (mem_filter.mp he).1, fun e he hne => ?_, fun o' ho' he => ?_,
      fun l hne => ?_, ?_⟩
    · exact mem_filter.mpr ⟨he, by simpa using fun heq => hne (by rw [heq])⟩
    · obtain ⟨he, hne⟩ := mem_filter.mp he
      obtain rfl := h.layer_one o' o surface he hmem
      simp at hne
    · exact Finset.mem_erase.trans (and_iff_right hne)
    · exact iff_of_false (Finset.notMem_erase _ _) fun hc => hc.2 ⟨o, ho, hmem⟩

theorem Leaves.connected {maps : List (ℕ × LayerSurface)} {mapped : Finset LayerSurface}
    (hleaves : s.Leaves surface maps mapped) (hne : l ≠ surface) :
    (∃ o ∈ s.niri.outputs, (o, l) ∈ maps) ↔ s.Connected l :=
  exists_congr fun _ => and_congr_right fun _ => ⟨hleaves.old _, fun he => hleaves.other _ he hne⟩

theorem Inv.step_layerDestroyed (h : s.Inv) (hlive : surface ∈ s.live) :
    ∃ t, step s (.layerDestroyed surface) = some t ∧
      (Connecting s (.layerDestroyed surface) → t.Inv) ∧
      (t.Correct → Connecting s (.layerDestroyed surface)) := by
  obtain ⟨maps, mapped, heq, hleaves⟩ := h.destroy_spec surface
  refine ⟨_, by rw [step, heq], fun hc => ?_, fun ht hmem => ?_⟩
  · have hold : ∀ l ∈ s.live.erase surface, l ≠ surface ∧ l ∈ s.live := fun l => Finset.mem_erase.mp
    exact { h with
      unmapped := fun l hl hconn => by
        obtain ⟨hne, hl⟩ := hold l hl
        have hw : l.wlSurface ≠ surface.wlSurface := fun hw => hne (h.one l hl surface hlive hw)
        exact (Finset.mem_erase.trans (and_iff_right hw)).trans
          (h.unmapped l hl ((hleaves.connected hne).mp hconn))
      mapped := fun l hl hconn => by
        obtain ⟨hne, hl⟩ := hold l hl
        exact (hleaves.mapped_other l hne).trans (h.mapped l hl ((hleaves.connected hne).mp hconn))
      live_unmapped := fun w hw => by
        obtain ⟨hne, hw⟩ := Finset.mem_erase.mp hw
        obtain ⟨l, hl, rfl⟩ := h.live_unmapped w hw
        exact ⟨l, Finset.mem_erase.mpr ⟨fun e => hne (by rw [e]), hl⟩, rfl⟩
      live_mapped := fun l hl => by
        by_cases e : l = surface
        · subst e
          obtain ⟨hmem, hnot⟩ := hleaves.mapped_self.mp hl
          exact absurd (hc hmem) hnot
        · exact Finset.mem_erase.mpr ⟨e, h.live_mapped ((hleaves.mapped_other l e).mp hl)⟩
      closed := fun l hl hconn => by
        obtain ⟨hne, hl⟩ := hold l hl
        exact h.closed l hl fun hc => hconn ((hleaves.connected hne).mpr hc)
      created := fun l hl => h.created l (hold l hl).2
      one := fun l hl l' hl' => h.one l (hold l hl).2 l' (hold l' hl').2
      layer_known := fun e he => h.layer_known e (hleaves.old e he)
      layer_one := fun o o' l he he' => h.layer_one o o' l (hleaves.old _ he) (hleaves.old _ he')
      layer_live := fun e he ho => by
        refine Finset.mem_erase.mpr ⟨?_, h.layer_live e (hleaves.old e he) ho⟩
        rintro rfl
        exact hleaves.gone _ ho he
      data := fun l hl => h.data l (hold l hl).2 }
  · by_contra hnot
    have := ht.live_mapped (hleaves.mapped_self.mpr ⟨hmem, hnot⟩)
    exact Finset.notMem_erase _ _ this

/-- A commit keeps every layer surface where its last buffer says. -/
theorem Inv.step_commit (h : s.Inv) {root surf : ℕ} (buffer onDemand sent : Bool)
    (hroot : (∃ l ∈ s.live, l.wlSurface = surf) → root = surf) :
    ∃ t, step s (.commit surf root buffer onDemand sent) = some t ∧ t.Inv := by
  obtain ⟨U, M, focus, configured, found, heq, hmoves⟩ := h.commit_spec buffer onDemand sent hroot
  refine ⟨_, by rw [step, heq]; rfl, ?_⟩
  have hbuf : ∀ l ∈ s.live, (l ∈ (if buffer then s.buffered ∪ s.live.filter (·.wlSurface = surf)
      else s.buffered \ s.live.filter (·.wlSurface = surf)) ↔
        if l.wlSurface = surf then buffer = true else l ∈ s.buffered) := by
    intro l hl
    by_cases hw : l.wlSurface = surf <;> cases buffer <;> simp [hl, hw]
  exact { h with
    unmapped := fun l hl hconn => by
      rw [hmoves.unmapped_iff l hconn, hbuf l hl]
      split
      · simp
      · exact h.unmapped l hl hconn
    mapped := fun l hl hconn => by
      rw [hmoves.mapped_iff l hconn, hbuf l hl]
      split
      · rfl
      · exact h.mapped l hl hconn
    live_unmapped := fun w hw => (hmoves.live_unmapped w hw).elim (h.live_unmapped w) id
    live_mapped := fun l hl => (hmoves.live_mapped l hl).elim (fun hl => h.live_mapped hl) id
    buffered_created := fun l hl => by
      cases buffer with
      | true =>
        obtain hl | hl := Finset.mem_union.mp hl
        · exact h.buffered_created l hl
        · exact h.created l (Finset.mem_filter.mp hl).1
      | false => exact h.buffered_created l (Finset.mem_sdiff.mp hl).1 }

theorem Inv.step_addOutput (h : s.Inv) (ho : o ∉ s.knownOutputs) :
    ∃ t, step s (.addOutput o) = some t ∧ t.Inv := by
  have hout : o ∉ s.niri.outputs := fun hmem => ho (h.known o hmem)
  have hstate : o ∉ s.niri.outputState := mt (h.state o).mp hout
  refine ⟨_, by simp only [step, Niri.addOutput, if_neg hstate, some_bind];
                rfl, ?_⟩
  have hconn : ∀ l, (∃ o' ∈ s.niri.outputs ++ [o], (o', l) ∈ s.niri.layerMaps) ↔ s.Connected l := by
    intro l
    constructor
    · rintro ⟨o', ho', he⟩
      obtain ho' | ho' := mem_append.mp ho'
      · exact ⟨o', ho', he⟩
      · obtain rfl := mem_singleton.mp ho'
        exact absurd (h.layer_known _ he).1 ho
    · rintro ⟨o', ho', he⟩
      exact ⟨o', mem_append_left _ ho', he⟩
  exact { h with
    unmapped := fun l hl hc => h.unmapped l hl ((hconn l).mp hc)
    mapped := fun l hl hc => h.mapped l hl ((hconn l).mp hc)
    closed := fun l hl hc => h.closed l hl fun hc' => hc ((hconn l).mpr hc')
    nodup := nodup_append.mpr ⟨h.nodup, nodup_singleton o, by
      rintro a ha b hb rfl
      exact hout (mem_singleton.mp hb ▸ ha)⟩
    active := fun _ => by
      by_cases hnil : s.niri.outputs = []
      · simp [hnil]
      · have := h.active hnil
        simp only [if_neg hnil, length_append, length_singleton]
        omega
    state := fun o' => by simp [h.state o', or_comm]
    known := fun o' ho' => by
      obtain ho' | ho' := mem_append.mp ho'
      · exact Finset.mem_insert_of_mem (h.known o' ho')
      · exact mem_singleton.mp ho' ▸ Finset.mem_insert_self ..
    layer_known := fun e he => ⟨Finset.mem_insert_of_mem (h.layer_known e he).1, (h.layer_known e he).2⟩
    layer_live := fun e he ho' => by
      obtain ho' | ho' := mem_append.mp ho'
      · exact h.layer_live e he ho'
      · exact absurd (mem_singleton.mp ho' ▸ (h.layer_known e he).1) ho }

theorem Inv.step_removeOutput (h : s.Inv) (ho : o ∈ s.niri.outputs) :
    ∃ t, step s (.removeOutput o) = some t ∧ t.Inv := by
  obtain ⟨idx, hidx⟩ := isSome_iff_exists.mp (isSome_idxOf?.mpr ho)
  have hstate : o ∈ s.niri.outputState := (h.state o).mpr ho
  refine ⟨_, by simp only [step, Niri.removeOutput, hidx, if_pos hstate, bind_eq_bind,
                  bind_some]; rfl, ?_⟩
  have herase : s.niri.outputs.eraseIdx idx = s.niri.outputs.erase o := by
    rw [erase_eq_eraseIdx, hidx]
  have hmem : ∀ o', o' ∈ s.niri.outputs.eraseIdx idx ↔ o' ≠ o ∧ o' ∈ s.niri.outputs := by
    intro o'
    rw [herase]
    exact h.nodup.mem_erase_iff
  have hstill : ∀ l, (∃ o' ∈ s.niri.outputs.eraseIdx idx, (o', l) ∈ s.niri.layerMaps) →
      s.Connected l := by
    rintro l ⟨o', ho', he⟩
    exact ⟨o', ((hmem o').mp ho').2, he⟩
  exact { h with
    unmapped := fun l hl hc => h.unmapped l hl (hstill l hc)
    mapped := fun l hl hc => h.mapped l hl (hstill l hc)
    closed := fun l hl hc => by
      by_cases hl' : (o, l) ∈ s.niri.layerMaps
      · exact Finset.mem_union_right _ (List.mem_toFinset.mpr (Niri.mem_layers.mpr hl'))
      · refine Finset.mem_union_left _ (h.closed l hl fun ⟨o', ho', he⟩ => hc ⟨o', ?_, he⟩)
        exact (hmem o').mpr ⟨fun e => hl' (e ▸ he), ho'⟩
    closed_created := fun l hl => by
      obtain hl | hl := Finset.mem_union.mp hl
      · exact h.closed_created l hl
      · exact (h.layer_known _ (Niri.mem_layers.mp (List.mem_toFinset.mp hl))).2
    nodup := herase ▸ h.nodup.erase o
    active := fun hne => by
      have hlt := h.active (ne_nil_of_mem ho)
      obtain ⟨hidx, -⟩ := idxOf?_eq_some_iff.mp hidx
      have hlen := length_pos_of_ne_nil hne
      rw [length_eraseIdx_of_lt hidx] at hlen
      simp only [length_eraseIdx_of_lt hidx]
      split <;> omega
    state := fun o' => by simp [h.state o', hmem]
    known := fun o' ho' => h.known o' ((hmem o').mp ho').2
    layer_live := fun e he ho' => h.layer_live e he ((hmem _).mp ho').2 }

/-- One step from a good state: it never fails, and it leads to a good state exactly when it meets the
condition. -/
theorem Inv.step_spec (h : s.Inv) (op : Op) (hp : Possible s op) :
    ∃ t, step s op = some t ∧ (Connecting s op → t.Inv) ∧ (t.Correct → Connecting s op) := by
  cases op with
  | newLayerSurface surface wlOutput => exact h.step_newLayerSurface hp
  | commit surface root buffer onDemand sent =>
    obtain ⟨t, ht, hinv⟩ := h.step_commit buffer onDemand sent hp
    exact ⟨t, ht, fun _ => hinv, fun _ => trivial⟩
  | layerDestroyed surface => exact h.step_layerDestroyed hp
  | addOutput output =>
    obtain ⟨t, ht, hinv⟩ := h.step_addOutput hp
    exact ⟨t, ht, fun _ => hinv, fun _ => trivial⟩
  | removeOutput output =>
    obtain ⟨t, ht, hinv⟩ := h.step_removeOutput hp
    exact ⟨t, ht, fun _ => hinv, fun _ => trivial⟩
  | focusOutput idx =>
    exact ⟨_, rfl, fun _ => { h with active := fun _ => hp }, fun _ => trivial⟩

theorem inv_init : init.Inv where
  nodup := nodup_nil
  active := fun h => absurd rfl h
  state := fun o => by simp [init]
  known := fun o ho => by simp [init] at ho
  unmapped := fun l hl => by simp [init] at hl
  mapped := fun l hl => by simp [init] at hl
  live_unmapped := fun w hw => by simp [init] at hw
  live_mapped := fun l hl => by simp [init] at hl
  closed := fun l hl => by simp [init] at hl
  created := fun l hl => by simp [init] at hl
  buffered_created := fun l hl => by simp [init] at hl
  closed_created := fun l hl => by simp [init] at hl
  one := fun l hl => by simp [init] at hl
  layer_known := fun e he => by simp [init] at he
  layer_one := fun o o' l he => by simp [init] at he
  layer_live := fun e he => by simp [init] at he
  data := fun l hl => by simp [init] at hl

end World

instance (s : World) (op : Op) : Decidable (Possible s op) :=
  match op with
  | .newLayerSurface surface wlOutput =>
    match wlOutput with
    | some (some o) => decidable_of_iff (surface.shellSurface ∉ s.created ∧
        (∀ l ∈ s.live, l.wlSurface ≠ surface.wlSurface) ∧ o ∈ s.knownOutputs) (by simp [Possible])
    | some none => decidable_of_iff (surface.shellSurface ∉ s.created ∧
        ∀ l ∈ s.live, l.wlSurface ≠ surface.wlSurface) (by simp [Possible])
    | none => decidable_of_iff (surface.shellSurface ∉ s.created ∧
        ∀ l ∈ s.live, l.wlSurface ≠ surface.wlSurface) (by simp [Possible])
  | .commit surface rootSurface _ _ _ =>
    inferInstanceAs (Decidable ((∃ l ∈ s.live, l.wlSurface = surface) → rootSurface = surface))
  | .layerDestroyed surface => inferInstanceAs (Decidable (surface ∈ s.live))
  | .addOutput output => inferInstanceAs (Decidable (output ∉ s.knownOutputs))
  | .removeOutput output => inferInstanceAs (Decidable (output ∈ s.niri.outputs))
  | .focusOutput idx => inferInstanceAs (Decidable (idx < s.niri.outputs.length))

/-- In every order of events no handler panics and the bookkeeping is right all along, exactly when no
layer surface is created on a removed output or destroyed, mapped, after its output was removed. -/
theorem layer_surfaces_iff {ops : List Op} (hp : AllAlong step Possible init ops) :
    (∀ pre, pre <+: ops → ∃ s, run step init pre = some s ∧ s.Correct) ↔
      AllAlong step Connecting init ops :=
  forall_prefix_iff_allAlong (fun _ h => h.toCorrect) (fun _ op h hp => h.step_spec op hp)
    World.inv_init hp

/-- A surface is mapped on an output, which is then removed. -/
def testOps : List Op :=
  [.addOutput 1, .newLayerSurface ⟨10, 20⟩ (some (some 1)), .commit 20 20 false false false,
    .commit 20 20 true true true, .removeOutput 1]

theorem layer_surfaces_mapped :
    ∃ s, run step init (testOps.take 4) = some s ∧ s.Correct ∧
      s.niri.mappedLayerSurfaces = {⟨10, 20⟩} := by
  have hp : AllAlong step Possible init (testOps.take 4) := allAlong_of_decide (by decide)
  have hc : AllAlong step Connecting init (testOps.take 4) := by
    refine ⟨trivial, fun t ht => ?_⟩
    obtain rfl := some.inj ht
    refine ⟨fun o ho => ?_, fun _ _ => ⟨trivial, fun _ _ => ⟨trivial, fun _ _ => trivial⟩⟩⟩
    obtain rfl : 1 = o := by simpa using ho
    decide
  obtain ⟨s, hs, hcorrect⟩ := (layer_surfaces_iff hp).mpr hc _ prefix_rfl
  obtain ⟨t, ht, hmapped⟩ : ∃ t, run step init (testOps.take 4) = some t ∧
      t.niri.mappedLayerSurfaces = {⟨10, 20⟩} := ⟨_, rfl, by decide⟩
  obtain rfl := some.inj (hs.symm.trans ht)
  exact ⟨s, hs, hcorrect, hmapped⟩

/-- A mapped surface is destroyed after its output was removed, and one is created on a removed output. -/
theorem layer_surfaces_removed_output :
    (∃ ops s, AllAlong step Possible init ops ∧ run step init ops = some s ∧
      ∃ l ∈ s.niri.mappedLayerSurfaces, l ∉ s.live) ∧
    ∃ ops s, AllAlong step Possible init ops ∧ run step init ops = some s ∧
      ∃ l ∈ s.live, ¬ s.Connected l ∧ l ∉ s.niri.closed := by
  constructor
  · refine ⟨testOps ++ [.layerDestroyed ⟨10, 20⟩], _, allAlong_of_decide (by decide), rfl, ⟨10, 20⟩, ?_, ?_⟩
    · decide
    · decide
  · obtain ⟨s, hs, hlive, hout, hclosed⟩ : ∃ s, run step init
        [.addOutput 1, .removeOutput 1, .newLayerSurface ⟨10, 20⟩ (some (some 1))] = some s ∧
        ⟨10, 20⟩ ∈ s.live ∧ s.niri.outputs = [] ∧ ⟨10, 20⟩ ∉ s.niri.closed :=
      ⟨_, rfl, by decide, by decide, by decide⟩
    refine ⟨_, s, allAlong_of_decide (by decide), hs, ⟨10, 20⟩, hlive, ?_, hclosed⟩
    rintro ⟨o, ho, -⟩
    rw [hout] at ho
    exact not_mem_nil ho

end Macniri.LayerShell
