import Mathlib.Data.List.Basic

/-! What is under a point of an output: the contents that get the input, and the elements that are drawn
there, front to back. -/
namespace Macniri.UnderPoint

open Option List

inductive Layer
  | background
  | bottom
  | top
  | overlay
  deriving DecidableEq, Repr

inductive HitType
  /-- The point is within the input region of the window. -/
  | input
  | activate (isTabIndicator : Bool)
  deriving DecidableEq, Repr

/-- A surface of the layer map, with the surfaces of it that accept input at the point. -/
structure LayerSurface where
  id : ℕ
  /-- The entry in `mapped_layer_surfaces`: whether it is placed within the backdrop. -/
  mapped : Option Bool
  popupUnder : Option ℕ
  toplevelUnder : Option ℕ
  deriving DecidableEq, Repr

structure Window where
  id : ℕ
  hit : Option HitType
  surfaceUnder : Option ℕ
  deriving DecidableEq, Repr

/-- The elements that are no candidates for the input. -/
inductive Decoration
  | pointer
  | screenTransition
  | exitConfirmDialog
  | configErrorNotification
  | lockColor
  | screenshotUi
  | hotkeyOverlay
  | mru
  | insertHint
  | workspaceBackground
  | workspaceShadow
  | backdrop
  deriving DecidableEq, Repr

inductive Element
  | decoration (decoration : Decoration)
  | lockSurface (surface : Option ℕ)
  /-- The popups of a layer surface. -/
  | layerPopup (surface : LayerSurface)
  | layerToplevel (surface : LayerSurface)
  | movedWindow (window : Window)
  | window (window : Window)
  deriving DecidableEq, Repr

/-- The state as seen from one output and one point of it. -/
structure Niri where
  exitConfirmDialogOpen : Bool
  locked : Bool
  screenshotUiOpen : Bool
  mruOpen : Bool
  overviewOpen : Bool
  /-- The lock surface of the output, with its surface that accepts input. -/
  lockSurface : Option (Option ℕ)
  /-- The layer map, from the back to the front. -/
  layers : Layer → List LayerSurface
  renderAboveTopLayer : Bool
  insideHotCorner : Bool
  /-- Whether some workspace of the monitor is under the point. -/
  workspaceUnder : Bool
  /-- The window that is moved interactively over this output. -/
  moved : Option Window
  /-- The workspaces that are drawn, each with its windows from the front to the back. -/
  workspaces : List (List Window)
  /-- How many elements each decoration has. -/
  decorations : Decoration → ℕ

structure PointContents where
  surface : Option ℕ
  window : Option (ℕ × HitType)
  layer : Option ℕ
  hotCorner : Bool
  deriving DecidableEq, Repr

def PointContents.empty : PointContents := ⟨none, none, none, false⟩

/-- A hit, before it becomes the contents: the surface, the window and the layer surface. -/
structure Under where
  surface : Option ℕ
  window : Option (ℕ × HitType)
  layer : Option ℕ
  deriving DecidableEq, Repr

def PointContents.ofUnder : Option Under → PointContents
  | none => .empty
  | some under => ⟨under.surface, under.window, under.layer, false⟩

structure SplitElements where
  normal : List Element
  popups : List Element

def SplitElements.intoIter (e : SplitElements) : List Element := e.popups ++ e.normal

def SplitElements.extend (e other : SplitElements) : SplitElements :=
  ⟨e.normal ++ other.normal, e.popups ++ other.popups⟩

namespace Niri

/-- `Layout::interactive_moved_window_under`. -/
def interactiveMovedWindowUnder (s : Niri) : Option (Window × HitType) :=
  s.moved.bind fun window => window.hit.map fun hit => (window, hit)

/-- `Layout::window_under`: the front-most window at the point. -/
def layoutWindowUnder (s : Niri) : Option (Window × HitType) :=
  s.workspaces.flatten.findSome? fun window => window.hit.map fun hit => (window, hit)

/-- The hit on one layer surface; background and bottom layers move together with the workspaces. -/
def surfaceUnder (s : Niri) (layer : Layer) (popup : Bool) (surface : LayerSurface) : Option Under :=
  surface.mapped.bind fun placeWithinBackdrop =>
    if placeWithinBackdrop then none
    else if (layer = .background ∨ layer = .bottom) ∧ s.workspaceUnder = false then none
    else
      (if popup then surface.popupUnder else surface.toplevelUnder).map fun wlSurface =>
        ⟨some wlSurface, none, some surface.id⟩

def layerSurfaceUnder (s : Niri) (layer : Layer) (popup : Bool) : Option Under :=
  (s.layers layer).reverse.findSome? (s.surfaceUnder layer popup)

def mappedHitData (e : Window × HitType) : Under :=
  ⟨if e.2 = .input then e.1.surfaceUnder else none, some (e.1.id, e.2), none⟩

def contentsUnder (s : Niri) : PointContents :=
  if s.exitConfirmDialogOpen then .empty
  else if s.locked then
    match s.lockSurface with
    | none => .empty
    | some surface => { PointContents.empty with surface := surface }
  else if s.screenshotUiOpen || s.mruOpen then .empty
  else
    let layerToplevelUnder := fun layer => s.layerSurfaceUnder layer false
    let layerPopupUnder := fun layer => s.layerSurfaceUnder layer true
    let moved := s.interactiveMovedWindowUnder.map mappedHitData
    let window := s.layoutWindowUnder.map mappedHitData
    let under := (layerPopupUnder .overlay).or (layerToplevelUnder .overlay)
    -- when rendering above the top layer, the monitor elements come first
    if s.renderAboveTopLayer then
      .ofUnder <| ((((((((under.or moved).or window).or (layerPopupUnder .top)).or
        (layerToplevelUnder .top)).or (layerPopupUnder .bottom)).or (layerPopupUnder .background)).or
        (layerToplevelUnder .bottom)).or (layerToplevelUnder .background))
    else if s.insideHotCorner then { PointContents.empty with hotCorner := true }
    else
      let under := (under.or (layerPopupUnder .top)).or (layerToplevelUnder .top)
      let under := under.or moved
      let under :=
        if s.overviewOpen then under
        else (under.or (layerPopupUnder .bottom)).or (layerPopupUnder .background)
      let under := under.or window
      let under :=
        if s.overviewOpen then under
        else (under.or (layerToplevelUnder .bottom)).or (layerToplevelUnder .background)
      .ofUnder under

/-- Whether a mapped surface of a layer is hit, in the backdrop or not. -/
def isLayerUnder (s : Niri) (layer : Layer) (popup : Bool) : Bool :=
  ((s.layers layer).reverse.findSome? fun surface => surface.mapped.bind fun _ =>
    if popup then surface.popupUnder else surface.toplevelUnder).isSome

def isStickyObscuredUnder (s : Niri) : Bool :=
  if s.isLayerUnder .overlay true || s.isLayerUnder .overlay false then true
  else if s.renderAboveTopLayer then false
  else if s.insideHotCorner then true
  else s.isLayerUnder .top true || s.isLayerUnder .top false

/-- Whether a popup of a layer that moves with the workspaces is hit. -/
def isLayerPopupUnder (s : Niri) (layer : Layer) : Bool :=
  ((s.layers layer).reverse.findSome? fun surface => surface.mapped.bind fun placeWithinBackdrop =>
    if placeWithinBackdrop then none
    else if s.workspaceUnder = false then none
    else surface.popupUnder).isSome

def isLayoutObscuredUnder (s : Niri) : Bool :=
  if s.overviewOpen then false
  else s.isLayerPopupUnder .bottom || s.isLayerPopupUnder .background

def windowUnder (s : Niri) : Option ℕ :=
  if s.exitConfirmDialogOpen || s.locked || s.screenshotUiOpen || s.mruOpen then none
  else if s.isStickyObscuredUnder then none
  else
    match s.interactiveMovedWindowUnder with
    | some (window, _) => some window.id
    | none =>
      if s.isLayoutObscuredUnder then none else s.layoutWindowUnder.map fun e => e.1.id

def draw (s : Niri) (decoration : Decoration) : List Element :=
  List.replicate (s.decorations decoration) (.decoration decoration)

/-- The layer map is in reverse stacking order. -/
def renderLayer (s : Niri) (layer : Layer) (elements : SplitElements) (forBackdrop : Bool) :
    SplitElements :=
  ((s.layers layer).reverse.filter fun surface => surface.mapped = some forBackdrop).foldl
    (fun elements surface => elements.extend ⟨[.layerToplevel surface], [.layerPopup surface]⟩) elements

def render (s : Niri) : List Element :=
  let elements := s.draw .pointer ++ s.draw .screenTransition ++ s.draw .exitConfirmDialog ++
    s.draw .configErrorNotification
  if s.locked then
    elements ++ s.lockSurface.toList.map .lockSurface ++ s.draw .lockColor
  else if s.screenshotUiOpen then
    elements ++ s.draw .screenshotUi ++ s.draw .backdrop
  else
    let elements := elements ++ s.draw .hotkeyOverlay ++ s.draw .mru
    let intMoveElements := s.moved.toList.map Element.movedWindow
    let overlay := s.renderLayer .overlay ⟨[], []⟩ false
    let elements := elements ++ overlay.intoIter
    let topLayer := s.renderLayer .top ⟨[], []⟩ false
    let layerElems := s.renderLayer .background (s.renderLayer .bottom ⟨[], []⟩ false) false
    let elements :=
      if s.renderAboveTopLayer then
        elements ++ intMoveElements ++ s.draw .insertHint ++
          s.workspaces.flatMap (fun ws => ws.map Element.window) ++ topLayer.intoIter ++
          layerElems.intoIter ++ s.draw .workspaceBackground ++ s.draw .workspaceShadow
      else
        elements ++ topLayer.intoIter ++ intMoveElements ++ s.draw .insertHint ++
          s.workspaces.flatMap (fun ws =>
            layerElems.popups ++ ws.map Element.window ++ layerElems.normal ++
              s.draw .workspaceBackground) ++ s.draw .workspaceShadow
    let backdrop := s.renderLayer .background ⟨[], []⟩ true
    elements ++ backdrop.intoIter ++ s.draw .backdrop

/-- The hit on the candidate that an element belongs to. -/
def accepts : Element → Option Under
  | .layerPopup surface => surface.popupUnder.map fun wlSurface => ⟨some wlSurface, none, some surface.id⟩
  | .layerToplevel surface =>
    surface.toplevelUnder.map fun wlSurface => ⟨some wlSurface, none, some surface.id⟩
  | .movedWindow window | .window window => window.hit.map fun hit => mappedHitData (window, hit)
  | .decoration _ | .lockSurface _ => none

/-- The candidate that accepts input at the point and is drawn in front of all others. -/
def frontmost (s : Niri) : Option Under := s.render.findSome? accepts

/-- Nothing covers the workspaces, one of them is shown, and the point is in no hot corner. -/
structure Settled (s : Niri) : Prop where
  exitConfirmDialog : s.exitConfirmDialogOpen = false
  unlocked : s.locked = false
  screenshotUi : s.screenshotUiOpen = false
  mru : s.mruOpen = false
  overview : s.overviewOpen = false
  hotCorner : s.insideHotCorner = false
  workspace : s.workspaceUnder = true
  one : ∃ ws, s.workspaces = [ws]
  backdrop : ∀ layer, ∀ surface ∈ s.layers layer, surface.mapped ≠ some true

section Order

variable {s : Niri}

theorem findSome?_draw (d : Decoration) : (s.draw d).findSome? accepts = none := by
  rw [findSome?_eq_none_iff]
  intro e he
  rw [eq_of_mem_replicate he]
  rfl

theorem renderLayer_eq (layer : Layer) (e : SplitElements) (forBackdrop : Bool) :
    s.renderLayer layer e forBackdrop =
      ⟨e.normal ++ ((s.layers layer).reverse.filter fun l => l.mapped = some forBackdrop).map
        Element.layerToplevel,
        e.popups ++ ((s.layers layer).reverse.filter fun l => l.mapped = some forBackdrop).map
          Element.layerPopup⟩ := by
  have hfold : ∀ (l : List LayerSurface) (e : SplitElements), l.foldl (fun elements surface =>
      elements.extend ⟨[.layerToplevel surface], [.layerPopup surface]⟩) e =
      ⟨e.normal ++ l.map Element.layerToplevel, e.popups ++ l.map Element.layerPopup⟩ := by
    intro l
    induction l with
    | nil => simp
    | cons a l ih =>
      intro e
      rw [foldl_cons, ih]
      simp [SplitElements.extend]
  exact hfold _ e

theorem findSome?_filter_map {α β γ : Type} (p : α → Bool) (f : α → β) (g : β → Option γ)
    (h : α → Option γ) (l : List α) (hin : ∀ a ∈ l, h a = if p a then g (f a) else none) :
    ((l.filter p).map f).findSome? g = l.findSome? h := by
  induction l with
  | nil => rfl
  | cons a l ih =>
    have ha := hin a (mem_cons_self ..)
    have ih := ih fun b hb => hin b (mem_cons_of_mem a hb)
    cases hp : p a with
    | false => simp [hp, ha, ih]
    | true => simp [findSome?_cons, hp, ha, ih]

theorem surfaceUnder_eq (hs : s.Settled) {layer : Layer} {surface : LayerSurface}
    (h : surface ∈ s.layers layer) (popup : Bool) :
    s.surfaceUnder layer popup surface = if surface.mapped = some false then
      (if popup then surface.popupUnder else surface.toplevelUnder).map fun wlSurface =>
        ⟨some wlSurface, none, some surface.id⟩ else none := by
  have hback := hs.backdrop layer surface h
  unfold surfaceUnder
  cases hm : surface.mapped with
  | none => simp
  | some b =>
    cases b with
    | true => exact absurd hm hback
    | false => simp [hs.workspace]

/-- The popups of a layer are drawn in the order in which they are tried. -/
theorem findSome?_layerPopups (hs : s.Settled) (layer : Layer) :
    (((s.layers layer).reverse.filter fun l => l.mapped = some false).map
      Element.layerPopup).findSome? accepts = s.layerSurfaceUnder layer true := by
  refine findSome?_filter_map _ _ _ _ _ fun l hl => ?_
  rw [surfaceUnder_eq hs (mem_reverse.mp hl)]
  simp [accepts]

theorem findSome?_layerToplevels (hs : s.Settled) (layer : Layer) :
    (((s.layers layer).reverse.filter fun l => l.mapped = some false).map
      Element.layerToplevel).findSome? accepts = s.layerSurfaceUnder layer false := by
  refine findSome?_filter_map _ _ _ _ _ fun l hl => ?_
  rw [surfaceUnder_eq hs (mem_reverse.mp hl)]
  simp [accepts]

/-- Nothing is placed within the backdrop. -/
theorem renderLayer_backdrop (hs : s.Settled) (layer : Layer) :
    s.renderLayer layer ⟨[], []⟩ true = ⟨[], []⟩ := by
  have hnil : ((s.layers layer).reverse.filter fun l => l.mapped = some true) = [] := by
    rw [filter_eq_nil_iff]
    intro l hl
    simpa using hs.backdrop layer l (mem_reverse.mp hl)
  rw [renderLayer_eq, hnil]
  rfl

theorem findSome?_moved : (s.moved.toList.map Element.movedWindow).findSome? accepts =
    s.interactiveMovedWindowUnder.map mappedHitData := by
  unfold interactiveMovedWindowUnder
  cases s.moved with
  | none => rfl
  | some w => cases hw : w.hit <;> simp [accepts, hw]

theorem findSome?_windows {ws : List Window} (hs : s.workspaces = [ws]) :
    (ws.map Element.window).findSome? accepts = s.layoutWindowUnder.map mappedHitData := by
  have hmap : ∀ l : List Window, (l.map Element.window).findSome? accepts =
      (l.findSome? fun w => w.hit.map fun hit => (w, hit)).map mappedHitData := by
    intro l
    induction l with
    | nil => rfl
    | cons w l ih =>
      rw [map_cons, findSome?_cons, findSome?_cons, ih]
      cases hw : w.hit <;> simp [accepts, hw]
  unfold layoutWindowUnder
  rw [hs, flatten_singleton, hmap]

/-- The candidates in the order in which they are tried. -/
theorem contentsUnder_eq_frontmost (hs : s.Settled) : s.contentsUnder = .ofUnder s.frontmost := by
  obtain ⟨ws, hws⟩ := hs.one
  unfold contentsUnder frontmost render
  simp only [hs.exitConfirmDialog, hs.unlocked, hs.screenshotUi, hs.mru, hs.overview, hs.hotCorner,
    Bool.false_eq_true, if_false, Bool.or_self, renderLayer_backdrop hs]
  split
  · simp only [renderLayer_eq, SplitElements.intoIter, hws, flatMap_cons, flatMap_nil,
      append_nil, nil_append, findSome?_append, findSome?_draw, none_or, or_none,
      findSome?_layerPopups hs, findSome?_layerToplevels hs, findSome?_moved, findSome?_windows hws,
      Option.or_assoc]
  · simp only [renderLayer_eq, SplitElements.intoIter, hws, flatMap_cons, flatMap_nil,
      append_nil, nil_append, findSome?_append, findSome?_draw, none_or, or_none,
      findSome?_layerPopups hs, findSome?_layerToplevels hs, findSome?_moved, findSome?_windows hws,
      Option.or_assoc]

theorem isSome_findSome? {α β γ : Type} {f : α → Option β} {g : α → Option γ} {l : List α}
    (h : ∀ a ∈ l, (f a).isSome = (g a).isSome) : (l.findSome? f).isSome = (l.findSome? g).isSome := by
  induction l with
  | nil => rfl
  | cons a l ih =>
    have ha := h a (mem_cons_self ..)
    have ih := ih fun b hb => h b (mem_cons_of_mem a hb)
    rw [findSome?_cons, findSome?_cons]
    cases hf : f a <;> cases hg : g a <;> simp_all

theorem isLayerUnder_eq (hs : s.Settled) (layer : Layer) (popup : Bool) :
    s.isLayerUnder layer popup = (s.layerSurfaceUnder layer popup).isSome := by
  refine isSome_findSome? fun l hl => ?_
  rw [surfaceUnder_eq hs (mem_reverse.mp hl)]
  have hback := hs.backdrop layer l (mem_reverse.mp hl)
  cases hm : l.mapped with
  | none => simp
  | some b => cases b <;> simp_all

theorem isLayerPopupUnder_eq (hs : s.Settled) (layer : Layer) :
    s.isLayerPopupUnder layer = (s.layerSurfaceUnder layer true).isSome := by
  refine isSome_findSome? fun l hl => ?_
  rw [surfaceUnder_eq hs (mem_reverse.mp hl)]
  have hback := hs.backdrop layer l (mem_reverse.mp hl)
  cases hm : l.mapped with
  | none => simp
  | some b => cases b <;> simp_all [hs.workspace]

/-- A hit on a layer reports no window. -/
theorem layerSurfaceUnder_window {layer : Layer} {popup : Bool} {u : Under}
    (h : s.layerSurfaceUnder layer popup = some u) : u.window = none := by
  obtain ⟨l, -, hl⟩ := exists_of_findSome?_eq_some h
  obtain ⟨b, -, hb⟩ := bind_eq_some_iff.mp hl
  split at hb
  · simp at hb
  · split at hb
    · simp at hb
    · obtain ⟨x, -, rfl⟩ := map_eq_some_iff.mp hb
      rfl

/-- The window that a list of candidates reports. -/
def reported (under : Option Under) : Option ℕ := (under.bind Under.window).map Prod.fst

theorem reported_ofUnder (under : Option Under) :
    (PointContents.ofUnder under).window.map Prod.fst = reported under := by
  cases under <;> rfl

theorem reported_layer_or (layer : Layer) (popup : Bool) (rest : Option Under) :
    reported ((s.layerSurfaceUnder layer popup).or rest) =
      if (s.layerSurfaceUnder layer popup).isSome then none else reported rest := by
  cases h : s.layerSurfaceUnder layer popup with
  | none => simp
  | some u => simp [reported, layerSurfaceUnder_window h]

theorem reported_layer (layer : Layer) (popup : Bool) :
    reported (s.layerSurfaceUnder layer popup) = none := by
  cases h : s.layerSurfaceUnder layer popup with
  | none => rfl
  | some u => simp [reported, layerSurfaceUnder_window h]

theorem reported_window_or (e : Option (Window × HitType)) (rest : Option Under) :
    reported ((e.map mappedHitData).or rest) =
      match e with
      | some (window, _) => some window.id
      | none => reported rest := by
  cases e <;> rfl

end Order

/-- A window that is drawn above the top layer, with nothing above it, covers a popup of the bottom or the
background layer at the point. -/
def CoversPopup (s : Niri) : Prop :=
  s.renderAboveTopLayer = true ∧ s.isLayerUnder .overlay true = false ∧
    s.isLayerUnder .overlay false = false ∧ s.interactiveMovedWindowUnder = none ∧
    s.layoutWindowUnder.isSome = true ∧
    (s.isLayerPopupUnder .bottom = true ∨ s.isLayerPopupUnder .background = true)

section Windows

variable {s : Niri}

theorem contentsUnder_window (hs : s.Settled) : s.contentsUnder.window.map Prod.fst =
    if s.isStickyObscuredUnder then none
    else
      match s.interactiveMovedWindowUnder with
      | some (window, _) => some window.id
      | none =>
        if s.renderAboveTopLayer = false ∧ s.isLayoutObscuredUnder = true then none
        else s.layoutWindowUnder.map fun e => e.1.id := by
  unfold contentsUnder isStickyObscuredUnder isLayoutObscuredUnder
  simp only [hs.exitConfirmDialog, hs.unlocked, hs.screenshotUi, hs.mru, hs.overview, hs.hotCorner,
    Bool.false_eq_true, if_false, Bool.or_self, isLayerUnder_eq hs, isLayerPopupUnder_eq hs]
  cases s.renderAboveTopLayer with
  | true =>
    simp only [if_true, reported_ofUnder, Option.or_assoc, reported_layer_or, reported_window_or,
      reported_layer]
    cases (s.layerSurfaceUnder .overlay true).isSome <;>
      cases (s.layerSurfaceUnder .overlay false).isSome <;>
      cases s.interactiveMovedWindowUnder <;> cases s.layoutWindowUnder <;> simp
  | false =>
    simp only [Bool.false_eq_true, if_false, reported_ofUnder, Option.or_assoc, reported_layer_or,
      reported_window_or, reported_layer]
    cases (s.layerSurfaceUnder .overlay true).isSome <;>
      cases (s.layerSurfaceUnder .overlay false).isSome <;>
      cases (s.layerSurfaceUnder .top true).isSome <;>
      cases (s.layerSurfaceUnder .top false).isSome <;>
      cases s.interactiveMovedWindowUnder <;>
      cases (s.layerSurfaceUnder .bottom true).isSome <;>
      cases (s.layerSurfaceUnder .background true).isSome <;> cases s.layoutWindowUnder <;> simp

/-- `window_under` skips a window above the top layer that covers a popup. -/
theorem windowUnder_eq (hs : s.Settled) : s.windowUnder =
    if s.isStickyObscuredUnder then none
    else
      match s.interactiveMovedWindowUnder with
      | some (window, _) => some window.id
      | none => if s.isLayoutObscuredUnder then none else s.layoutWindowUnder.map fun e => e.1.id := by
  unfold windowUnder
  simp only [hs.exitConfirmDialog, hs.unlocked, hs.screenshotUi, hs.mru, Bool.or_self,
    Bool.false_eq_true, if_false]

theorem coversPopup_iff (hs : s.Settled) : s.CoversPopup ↔ s.renderAboveTopLayer = true ∧
    s.isStickyObscuredUnder = false ∧ s.interactiveMovedWindowUnder = none ∧
    s.layoutWindowUnder.isSome = true ∧ s.isLayoutObscuredUnder = true := by
  unfold CoversPopup isStickyObscuredUnder isLayoutObscuredUnder
  cases s.renderAboveTopLayer <;> cases s.isLayerUnder .overlay true <;>
    cases s.isLayerUnder .overlay false <;> simp [hs.overview]

/-- The contents under the point are those that are drawn in front, and the window under it is the window
of the contents, exactly where no window above the top layer covers a popup of a lower layer. -/
theorem contents_iff (s : Niri) (hs : s.Settled) :
    (s.contentsUnder = .ofUnder s.frontmost ∧
      ∀ w, s.windowUnder = some w ↔ ∃ hit, s.contentsUnder.window = some (w, hit)) ↔
      ¬ s.CoversPopup := by
  have hwindow : (∀ w, s.windowUnder = some w ↔ ∃ hit, s.contentsUnder.window = some (w, hit)) ↔
      s.windowUnder = s.contentsUnder.window.map Prod.fst := by
    constructor
    · intro h
      apply Option.ext
      intro w
      rw [h w]
      simp
    · intro h w
      rw [h]
      simp
  rw [and_iff_right (contentsUnder_eq_frontmost hs), hwindow, coversPopup_iff hs, windowUnder_eq hs,
    contentsUnder_window hs]
  cases s.isStickyObscuredUnder with
  | true => simp
  | false =>
    cases hm : s.interactiveMovedWindowUnder with
    | some e => simp
    | none =>
      cases s.isLayoutObscuredUnder <;> cases s.renderAboveTopLayer <;> cases s.layoutWindowUnder <;> simp

/-- A popup of a bottom layer surface and a window at one point. -/
def testNiri (renderAboveTopLayer : Bool) : Niri where
  exitConfirmDialogOpen := false
  locked := false
  screenshotUiOpen := false
  mruOpen := false
  overviewOpen := false
  lockSurface := none
  layers := fun layer => if layer = .bottom then [⟨1, some false, some 10, none⟩] else []
  renderAboveTopLayer := renderAboveTopLayer
  insideHotCorner := false
  workspaceUnder := true
  moved := none
  workspaces := [[⟨2, some .input, some 20⟩]]
  decorations := fun _ => 1

theorem settled_testNiri (above : Bool) : (testNiri above).Settled := by
  refine ⟨rfl, rfl, rfl, rfl, rfl, rfl, rfl, ⟨_, rfl⟩, fun layer l hl => ?_⟩
  cases layer <;> simp [testNiri] at hl
  simp [hl]

/-- Below the top layer the popup is in front of the window. -/
theorem contents_below_top : (testNiri false).windowUnder = none ∧
    (testNiri false).contentsUnder = .ofUnder (testNiri false).frontmost :=
  have h := (contents_iff (testNiri false) (settled_testNiri false)).mpr (by simp [CoversPopup, testNiri])
  ⟨by decide, h.1⟩

/-- Above it the window is in front, gets the input, and is not reported as the window under the point. -/
theorem contents_above_top : (testNiri true).Settled ∧
    ¬ ((testNiri true).contentsUnder = .ofUnder (testNiri true).frontmost ∧
      ∀ w, (testNiri true).windowUnder = some w ↔
        ∃ hit, (testNiri true).contentsUnder.window = some (w, hit)) := by
  refine ⟨settled_testNiri true, fun h => ?_⟩
  have hnone : (testNiri true).windowUnder = none := by decide
  have hsome : (testNiri true).contentsUnder.window = some (2, .input) := by decide
  have := (h.2 2).mpr ⟨_, hsome⟩
  simp [hnone] at this

end Windows

end Niri

end Macniri.UnderPoint
