import Macniri.Lib.HashMap
import Macniri.Lib.Run
import Mathlib.Algebra.Order.Floor.Ring
import Mathlib.Algebra.Order.Field.Rat
import Mathlib.Data.Rat.Floor

/-! The selection of the screenshot UI: two corners on one output, dragged, moved and resized. -/
namespace Macniri.Screenshot

open Option

/-- The floating point arithmetic of the sizes; of its results, only the sign of a product is used. -/
class F64 (F : Type) where
  ofInt : ℤ → F
  add : F → F → F
  mul : F → F → F
  div : F → F → F
  /-- `x.clamp(lo, hi)`. -/
  clamp : F → F → F → F
  /-- `x.round() as i32`. -/
  round : F → ℤ
  NonNeg : F → Prop
  nonNeg_ofInt : ∀ n : ℕ, NonNeg (ofInt n)
  round_mul_nonneg : ∀ x y, NonNeg x → NonNeg y → 0 ≤ round (mul x y)

/-- Round half away from zero. -/
def roundRat (x : ℚ) : ℤ := if 0 ≤ x then ⌊x + 1 / 2⌋ else -⌊-x + 1 / 2⌋

/-- Exact arithmetic. -/
instance : F64 ℚ where
  ofInt n := n
  add x y := x + y
  mul x y := x * y
  div x y := x / y
  clamp x lo hi := max lo (min hi x)
  round := roundRat
  NonNeg x := 0 ≤ x
  nonNeg_ofInt n := by simp
  round_mul_nonneg x y hx hy := by
    have hxy : 0 ≤ x * y := mul_nonneg hx hy
    rw [roundRat, if_pos hxy]
    exact Int.floor_nonneg.mpr (by linarith)

structure Point where
  x : ℤ
  y : ℤ
  deriving DecidableEq, Repr

structure Size where
  w : ℤ
  h : ℤ
  deriving DecidableEq, Repr

structure Rectangle where
  loc : Point
  size : Size
  deriving DecidableEq, Repr

namespace Point

def add (p q : Point) : Point := ⟨p.x + q.x, p.y + q.y⟩

def sub (p q : Point) : Point := ⟨p.x - q.x, p.y - q.y⟩

end Point

namespace Rectangle

def containsRect (r o : Rectangle) : Bool :=
  r.loc.x ≤ o.loc.x ∧ r.loc.y ≤ o.loc.y ∧ o.loc.x + o.size.w ≤ r.loc.x + r.size.w ∧
    o.loc.y + o.size.h ≤ r.loc.y + r.size.h

/-- The common part of two rectangles that overlap. -/
def intersection (r o : Rectangle) : Option Rectangle :=
  let x1 := max r.loc.x o.loc.x
  let y1 := max r.loc.y o.loc.y
  let x2 := min (r.loc.x + r.size.w) (o.loc.x + o.size.w)
  let y2 := min (r.loc.y + r.size.h) (o.loc.y + o.size.h)
  if x1 < x2 ∧ y1 < y2 then some ⟨⟨x1, y1⟩, ⟨x2 - x1, y2 - y1⟩⟩ else none

end Rectangle

/-- `Rectangle::from_size`. -/
def Size.rect (s : Size) : Rectangle := ⟨⟨0, 0⟩, s⟩

/-- `Point::constrain`. -/
def Point.constrain (p : Point) (r : Rectangle) : Point :=
  ⟨min (max p.x r.loc.x) (r.loc.x + r.size.w), min (max p.y r.loc.y) (r.loc.y + r.size.h)⟩

/-- `x.clamp(lo, hi)` on integers, which panics on an empty range. -/
def clamp (x lo hi : ℤ) : Option ℤ := if lo ≤ hi then some (max lo (min hi x)) else none

/-- The pointer is clamped to the output size less one, so that one is added back. -/
def rectFromCornerPoints (a b : Point) : Rectangle :=
  ⟨⟨min a.x b.x, min a.y b.y⟩, ⟨max a.x b.x + 1 - min a.x b.x, max a.y b.y + 1 - min a.y b.y⟩⟩

/-- The second corner of a rectangle. -/
def Rectangle.lastCorner (r : Rectangle) : Point :=
  ⟨r.loc.x + r.size.w - 1, r.loc.y + r.size.h - 1⟩

variable {F : Type} [F64 F]

/-- An output: its transformed size and its scale. -/
structure OutputInfo (F : Type) [F64 F] where
  size : Size
  scale : F
  width : 2 ≤ size.w
  height : 2 ≤ size.h
  nonNeg : F64.NonNeg scale

/-- What the UI keeps of a captured output; the panel has a texture that shows and one that hides the
pointer. -/
structure OutputData (F : Type) [F64 F] extends OutputInfo F where
  panel : Option (Size × Size)

structure MoveState where
  /-- Cursor offset from the first corner when starting the move. -/
  pointerOffset : Point
  /-- The touch that started the move, or `none` for the space key. -/
  touchSlot : Option ℕ
  deriving DecidableEq, Repr

structure ButtonDown where
  touchSlot : Option ℕ
  onCaptureButton : Bool
  lastPos : ℕ × Point
  moveState : Option MoveState
  deriving DecidableEq, Repr

structure Selection where
  output : ℕ
  a : Point
  b : Point
  deriving DecidableEq, Repr

structure OpenUi (F : Type) [F64 F] where
  selection : Selection
  outputData : HashMap ℕ (OutputData F)
  /-- `none` while the button is up. -/
  button : Option ButtonDown
  showPointer : Bool
  path : Option String

inductive ScreenshotUi (F : Type) [F64 F]
  | closed (lastSelection : Option (ℕ × Rectangle))
  | opened (ui : OpenUi F)

inductive SizeChange (F : Type)
  | setFixed (fixed : ℤ)
  | setProportion (prop : F)
  | adjustFixed (delta : ℤ)
  | adjustProportion (delta : F)

def toPhysicalPreciseRound (scale logical : F) : ℤ := F64.round (F64.mul logical scale)

def directionalMovePx : F := F64.ofInt 50

/-- The default selection on an output. -/
def Size.middle (s : Size) : Rectangle := ⟨⟨s.w / 4, s.h / 4⟩, ⟨s.w / 2, s.h / 2⟩⟩

def saturatingAdd (x y : ℤ) : ℤ := max (-2 ^ 31) (min (2 ^ 31 - 1) (x + y))

namespace OpenUi

/-- The index `output_data[output]`; `none` is a panic, here and below. -/
def data (ui : OpenUi F) : Option (OutputData F) := ui.outputData.get ui.selection.output

/-- If the selection is not valid on its output any more, reset it; the buffers are left out. -/
def updateBuffers (ui : OpenUi F) : OpenUi F :=
  let rect := rectFromCornerPoints ui.selection.a ui.selection.b
  match ui.data with
  | none => ui
  | some data =>
    if data.size.rect.containsRect rect then ui
    else
      { ui with selection := ⟨ui.selection.output, data.size.middle.loc, data.size.middle.lastCorner⟩ }

def shift (ui : OpenUi F) (delta : Point) : OpenUi F :=
  { ui with selection := { ui.selection with
      a := ui.selection.a.add delta
      b := ui.selection.b.add delta } }

def moveLeft (ui : OpenUi F) : Option (OpenUi F) :=
  ui.data.map fun data =>
    let delta := toPhysicalPreciseRound data.scale directionalMovePx
    let delta := min delta (min ui.selection.a.x ui.selection.b.x)
    (ui.shift ⟨-delta, 0⟩).updateBuffers

def moveRight (ui : OpenUi F) : Option (OpenUi F) :=
  ui.data.map fun data =>
    let delta := toPhysicalPreciseRound data.scale directionalMovePx
    let delta := min delta (data.size.w - max ui.selection.a.x ui.selection.b.x - 1)
    (ui.shift ⟨delta, 0⟩).updateBuffers

def moveUp (ui : OpenUi F) : Option (OpenUi F) :=
  ui.data.map fun data =>
    let delta := toPhysicalPreciseRound data.scale directionalMovePx
    let delta := min delta (min ui.selection.a.y ui.selection.b.y)
    (ui.shift ⟨0, -delta⟩).updateBuffers

def moveDown (ui : OpenUi F) : Option (OpenUi F) :=
  ui.data.map fun data =>
    let delta := toPhysicalPreciseRound data.scale directionalMovePx
    let delta := min delta (data.size.h - max ui.selection.a.y ui.selection.b.y - 1)
    (ui.shift ⟨0, delta⟩).updateBuffers

/-- Keep the relative position and the logical size, clamped to the new output. -/
def moveToOutput (ui : OpenUi F) (newOutput : ℕ) : Option (OpenUi F) :=
  if ui.selection.output = newOutput then some ui
  else
    match ui.outputData.get newOutput with
    | none => some ui
    | some target =>
      ui.data.bind fun current =>
        let rect := rectFromCornerPoints ui.selection.a ui.selection.b
        let relX := F64.div (F64.ofInt rect.loc.x : F) (F64.ofInt current.size.w)
        let relY := F64.div (F64.ofInt rect.loc.y : F) (F64.ofInt current.size.h)
        let factor := F64.div target.scale current.scale
        (clamp (F64.round (F64.mul (F64.ofInt rect.size.w) factor)) 1 target.size.w).bind fun newWidth =>
        (clamp (F64.round (F64.mul (F64.ofInt rect.size.h) factor)) 1 target.size.h).bind fun newHeight =>
        let newX := F64.round (F64.mul relX (F64.ofInt target.size.w))
        let newY := F64.round (F64.mul relY (F64.ofInt target.size.h))
        (clamp newX 0 (target.size.w - newWidth)).bind fun newX =>
        (clamp newY 0 (target.size.h - newHeight)).map fun newY =>
          let newRect : Rectangle := ⟨⟨newX, newY⟩, ⟨newWidth, newHeight⟩⟩
          ({ ui with selection := ⟨newOutput, newRect.loc, newRect.lastCorner⟩ } : OpenUi F).updateBuffers

/-- The new size in one direction, before it is clamped. -/
def changedSize (scale : F) (available current : ℤ) : SizeChange F → ℤ
  | .setFixed fixed => toPhysicalPreciseRound scale (F64.ofInt fixed)
  | .setProportion prop =>
    let prop := F64.clamp (F64.div prop (F64.ofInt 100)) (F64.ofInt 0) (F64.ofInt 1)
    F64.round (F64.mul (F64.ofInt available) prop)
  | .adjustFixed delta => saturatingAdd current (toPhysicalPreciseRound scale (F64.ofInt delta))
  | .adjustProportion delta =>
    let currentProp : F := F64.div (F64.ofInt current) (F64.ofInt available)
    let prop := F64.clamp (F64.add currentProp (F64.div delta (F64.ofInt 100))) (F64.ofInt 0)
      (F64.ofInt 1)
    F64.round (F64.mul (F64.ofInt available) prop)

def setWidth (ui : OpenUi F) (change : SizeChange F) : Option (OpenUi F) :=
  ui.data.bind fun data =>
    let a := ui.selection.a
    let b := ui.selection.b
    let currentSize := max a.x b.x + 1 - min a.x b.x
    (clamp (changedSize data.scale data.size.w currentSize change) 1
      (data.size.w - min a.x b.x)).map fun newSize =>
      ({ ui with selection := { ui.selection with
          a := ⟨min a.x b.x, a.y⟩
          b := ⟨min a.x b.x + (newSize - 1), b.y⟩ } } : OpenUi F).updateBuffers

def setHeight (ui : OpenUi F) (change : SizeChange F) : Option (OpenUi F) :=
  ui.data.bind fun data =>
    let a := ui.selection.a
    let b := ui.selection.b
    let currentSize := max a.y b.y + 1 - min a.y b.y
    (clamp (changedSize data.scale data.size.h currentSize change) 1
      (data.size.h - min a.y b.y)).map fun newSize =>
      ({ ui with selection := { ui.selection with
          a := ⟨a.x, min a.y b.y⟩
          b := ⟨b.x, min a.y b.y + (newSize - 1)⟩ } } : OpenUi F).updateBuffers

def setSpaceDown (ui : OpenUi F) (down : Bool) : OpenUi F :=
  match ui.button with
  | none => ui
  | some button =>
    if down then
      match button.moveState with
      | none =>
        { ui with button := some { button with
            moveState := some ⟨button.lastPos.2.sub ui.selection.a, none⟩ } }
      | some _ => ui
    else
      match button.moveState with
      -- only clear if moving with space
      | some ⟨_, none⟩ => { ui with button := some { button with moveState := none } }
      | _ => ui

/-- The pointer has moved to a point relative to the output of the selection. -/
def pointerMotion (ui : OpenUi F) (point : Point) (slot : Option ℕ) : Option (OpenUi F) :=
  match ui.button with
  | none => some ui
  | some button =>
    if button.touchSlot ≠ slot then some ui
    else
      let ui := { ui with button := some { button with lastPos := (button.lastPos.1, point) } }
      if button.onCaptureButton then some ui
      else
        match button.moveState with
        | some moveState =>
          ui.data.map fun data =>
            -- the cursor offset is relative to the first corner
            let delta := point.sub (ui.selection.a.add moveState.pointerOffset)
            let desired := rectFromCornerPoints (ui.selection.a.add delta) (ui.selection.b.add delta)
            let bounds := Size.rect ⟨data.size.w - desired.size.w, data.size.h - desired.size.h⟩
            let clampedLoc := desired.loc.constrain bounds
            let delta := clampedLoc.sub (rectFromCornerPoints ui.selection.a ui.selection.b).loc
            (ui.shift delta).updateBuffers
        | none =>
          some ({ ui with selection := { ui.selection with b := point } } : OpenUi F).updateBuffers

def panelLocation (data : OutputData F) (panelSize : Size) : Point :=
  let padding := toPhysicalPreciseRound data.scale (F64.ofInt 8)
  ⟨max 0 ((data.size.w - panelSize.w).tdiv 2), max 0 (data.size.h - panelSize.h - padding * 2)⟩

def isWithinCaptureButton (scale : F) (panelSize : Size) (pos : Point) : Bool :=
  let padding := toPhysicalPreciseRound scale (F64.ofInt 8)
  let radius := toPhysicalPreciseRound scale (F64.ofInt 16) - 2
  let xc := padding + radius
  let yc := panelSize.h.tdiv 2
  (pos.x - xc) * (pos.x - xc) + (pos.y - yc) * (pos.y - yc) ≤ radius * radius

/-- Whether a point of an output is on the capture button of its panel. -/
def onCaptureButton (data : OutputData F) (showPointer : Bool) (point : Point) : Bool :=
  match data.panel with
  | none => false
  | some (shown, hidden) =>
    let panelSize := if showPointer then hidden else shown
    isWithinCaptureButton data.scale panelSize (point.sub (panelLocation data panelSize))

def pointerDown (ui : OpenUi F) (output : ℕ) (point : Point) (slot : Option ℕ) : OpenUi F × Bool :=
  match ui.button with
  | some button =>
    -- a second touch while already dragging starts a move
    if slot.isSome ∧ button.onCaptureButton = false ∧ button.moveState = none then
      ({ ui with button := some { button with
          moveState := some ⟨button.lastPos.2.sub ui.selection.a, slot⟩ } }, false)
    else (ui, false)
  | none =>
    match ui.outputData.get output with
    | none => (ui, false)
    | some data =>
      if onCaptureButton data ui.showPointer point then
        ({ ui with button := some ⟨slot, true, (output, point), none⟩ }, false)
      else
        (({ ui with
            button := some ⟨slot, false, (output, point), none⟩
            selection := ⟨output, point, point⟩ } : OpenUi F).updateBuffers, true)

/-- A small rectangle around a point, inside the output. -/
def aroundPoint (size : Size) (loc : Point) : Rectangle :=
  ((⟨⟨loc.x - 16, loc.y - 16⟩, ⟨32, 32⟩⟩ : Rectangle).intersection size.rect).getD ⟨⟨0, 0⟩, ⟨0, 0⟩⟩

/-- The second value is `Some(true)` where the capture button was clicked. -/
def pointerUp (ui : OpenUi F) (slot : Option ℕ) : Option (OpenUi F × Option Bool) :=
  match ui.button with
  | none => some (ui, none)
  | some button =>
    -- if this is a move touch, stop the move
    if (button.moveState.bind MoveState.touchSlot).any fun moveSlot => some moveSlot = slot then
      some ({ ui with button := some { button with moveState := none } }, none)
    else if button.touchSlot ≠ slot then some (ui, none)
    else
      let ui := { ui with button := none }
      let (output, point) := button.lastPos
      match (if button.onCaptureButton then (ui.outputData.get output).map some else some none) with
      | none => some (ui, none)
      | some captured =>
        if captured.any fun data => onCaptureButton data ui.showPointer point then some (ui, some true)
        else
          let rect := rectFromCornerPoints ui.selection.a ui.selection.b
          if rect.size.w = 0 ∨ rect.size.h = 0 ∨ rect.size = ⟨1, 1⟩ then
            ui.data.map fun data =>
              let rect := aroundPoint data.size rect.loc
              (({ ui with selection := { ui.selection with
                  a := rect.loc
                  b := rect.lastCorner } } : OpenUi F).updateBuffers, some false)
          else some (ui.updateBuffers, some false)

end OpenUi

namespace ScreenshotUi

/-- `outputs` are the sizes and scales at the time, `alive` tells whether the output of the last selection
still exists. -/
def openUi (ui : ScreenshotUi F) (outputs : ℕ → OutputInfo F) (screenshots : List ℕ)
    (panels : ℕ → Option (Size × Size)) (alive : Bool) (defaultOutput : ℕ) (showPointer : Bool)
    (path : Option String) : ScreenshotUi F × Bool :=
  if screenshots = [] then (ui, false)
  else
    match ui with
    | .opened _ => (ui, false)
    | .closed lastSelection =>
      let lastSelection := if alive then lastSelection else none
      let selection := match lastSelection with
        | some selection =>
          if selection.1 ∈ screenshots then selection
          else (defaultOutput, (outputs defaultOutput).size.middle)
        | none => (defaultOutput, (outputs defaultOutput).size.middle)
      let outputData := screenshots.foldl
        (fun m output => m.insert output ⟨outputs output, panels output⟩) ∅
      (.opened (OpenUi.updateBuffers
        ⟨⟨selection.1, selection.2.loc, selection.2.lastCorner⟩, outputData, none, showPointer, path⟩),
        true)

def close : ScreenshotUi F → ScreenshotUi F × Bool
  | .closed lastSelection => (.closed lastSelection, false)
  | .opened ui =>
    (.closed (some (ui.selection.output, rectFromCornerPoints ui.selection.a ui.selection.b)), true)

/-- An operation on the open UI; it does nothing while the UI is closed. -/
def onOpen (f : OpenUi F → Option (OpenUi F)) : ScreenshotUi F → Option (ScreenshotUi F)
  | .closed lastSelection => some (.closed lastSelection)
  | .opened ui => (f ui).map .opened

end ScreenshotUi

inductive Op (F : Type) [F64 F]
  | openUi (outputs : ℕ → OutputInfo F) (screenshots : List ℕ) (panels : ℕ → Option (Size × Size))
      (alive : Bool) (defaultOutput : ℕ) (showPointer : Bool) (path : Option String)
  | close
  | togglePointer
  | moveLeft
  | moveRight
  | moveUp
  | moveDown
  | moveToOutput (newOutput : ℕ)
  | setWidth (change : SizeChange F)
  | setHeight (change : SizeChange F)
  | setSpaceDown (down : Bool)
  | pointerDown (output : ℕ) (point : Point) (slot : Option ℕ)
  | pointerMotion (point : Point) (slot : Option ℕ)
  | pointerUp (slot : Option ℕ)

def step (ui : ScreenshotUi F) : Op F → Option (ScreenshotUi F)
  | .openUi outputs screenshots panels alive defaultOutput showPointer path =>
    some (ui.openUi outputs screenshots panels alive defaultOutput showPointer path).1
  | .close => some ui.close.1
  | .togglePointer => ui.onOpen fun ui => some { ui with showPointer := !ui.showPointer }
  | .moveLeft => ui.onOpen OpenUi.moveLeft
  | .moveRight => ui.onOpen OpenUi.moveRight
  | .moveUp => ui.onOpen OpenUi.moveUp
  | .moveDown => ui.onOpen OpenUi.moveDown
  | .moveToOutput newOutput => ui.onOpen fun ui => ui.moveToOutput newOutput
  | .setWidth change => ui.onOpen fun ui => ui.setWidth change
  | .setHeight change => ui.onOpen fun ui => ui.setHeight change
  | .setSpaceDown down => ui.onOpen fun ui => some (ui.setSpaceDown down)
  | .pointerDown output point slot => ui.onOpen fun ui => some (ui.pointerDown output point slot).1
  | .pointerMotion point slot => ui.onOpen fun ui => ui.pointerMotion point slot
  | .pointerUp slot => ui.onOpen fun ui => (ui.pointerUp slot).map Prod.fst

/-- A corner on an output of the size. -/
def Inside (size : Size) (p : Point) : Prop :=
  0 ≤ p.x ∧ p.x ≤ size.w - 1 ∧ 0 ≤ p.y ∧ p.y ≤ size.h - 1

/-- The selection is on a captured output, with both corners inside. -/
def OpenUi.Valid (ui : OpenUi F) : Prop :=
  ∃ data, ui.data = some data ∧ Inside data.size ui.selection.a ∧ Inside data.size ui.selection.b

/-- The selected rectangle. -/
def OpenUi.rect (ui : OpenUi F) : Rectangle := rectFromCornerPoints ui.selection.a ui.selection.b

namespace OpenUi

section Valid

variable {ui ui' : OpenUi F} {data : OutputData F} {size : Size} {a b : Point}

omit [F64 F] in
theorem containsRect_iff :
    size.rect.containsRect (rectFromCornerPoints a b) = true ↔ Inside size a ∧ Inside size b := by
  unfold Rectangle.containsRect
  rw [decide_eq_true_iff]
  simp only [Size.rect, rectFromCornerPoints, Inside]
  omega

theorem inside_middle (info : OutputInfo F) :
    Inside info.size info.size.middle.loc ∧ Inside info.size info.size.middle.lastCorner := by
  have hw := info.width
  have hh := info.height
  simp only [Inside, Size.middle, Rectangle.lastCorner]
  omega

@[simp] theorem data_updateBuffers : ui.updateBuffers.data = ui.data := by
  unfold updateBuffers
  cases h : ui.data with
  | none => exact h
  | some data =>
    dsimp only
    split
    · exact h
    · exact h

/-- After every operation the selection is valid, if only its output was captured. -/
theorem valid_updateBuffers (data : OutputData F) (h : ui.data = some data) : ui.updateBuffers.Valid := by
  refine ⟨data, by rw [data_updateBuffers, h], ?_⟩
  unfold updateBuffers
  rw [h]
  dsimp only
  split
  · rename_i hin
    exact containsRect_iff.mp hin
  · exact inside_middle data.toOutputInfo

theorem updateBuffers_eq (h : ui.Valid) : ui.updateBuffers = ui := by
  obtain ⟨data, hdata, ha, hb⟩ := h
  unfold updateBuffers
  rw [hdata]
  exact if_pos (containsRect_iff.mpr ⟨ha, hb⟩)

theorem rect_size_shift (delta : Point) : (ui.shift delta).rect.size = ui.rect.size := by
  simp only [rect, shift, rectFromCornerPoints, Point.add, Size.mk.injEq]
  omega

/-- A shift that stays inside keeps the size. -/
theorem shift_spec {delta : Point} (h : ui.data = some data)
    (ha : Inside data.size (ui.selection.a.add delta)) (hb : Inside data.size (ui.selection.b.add delta)) :
    (ui.shift delta).updateBuffers.Valid ∧ (ui.shift delta).updateBuffers.rect.size = ui.rect.size := by
  have hvalid : (ui.shift delta).Valid := ⟨data, h, ha, hb⟩
  rw [updateBuffers_eq hvalid]
  exact ⟨hvalid, rect_size_shift delta⟩

theorem directionalMove_nonneg (data : OutputData F) :
    0 ≤ toPhysicalPreciseRound data.scale (directionalMovePx : F) :=
  F64.round_mul_nonneg _ _ (F64.nonNeg_ofInt 50) data.nonNeg

/-- The four moves do not fail, and keep the selection valid and its size. -/
def Moves (f : OpenUi F → Option (OpenUi F)) : Prop :=
  ∀ ui : OpenUi F, ui.Valid → ∃ ui', f ui = some ui' ∧ ui'.Valid ∧ ui'.rect.size = ui.rect.size

theorem moves_moveLeft : Moves (moveLeft (F := F)) := by
  rintro ui ⟨data, h, ha, hb⟩
  have hnonneg := directionalMove_nonneg data
  refine ⟨_, by rw [moveLeft, h, map_some], shift_spec h ?_ ?_⟩ <;>
    simp only [Inside, Point.add] at ha hb ⊢ <;> omega

theorem moves_moveRight : Moves (moveRight (F := F)) := by
  rintro ui ⟨data, h, ha, hb⟩
  have hnonneg := directionalMove_nonneg data
  refine ⟨_, by rw [moveRight, h, map_some], shift_spec h ?_ ?_⟩ <;>
    simp only [Inside, Point.add] at ha hb ⊢ <;> omega

theorem moves_moveUp : Moves (moveUp (F := F)) := by
  rintro ui ⟨data, h, ha, hb⟩
  have hnonneg := directionalMove_nonneg data
  refine ⟨_, by rw [moveUp, h, map_some], shift_spec h ?_ ?_⟩ <;>
    simp only [Inside, Point.add] at ha hb ⊢ <;> omega

theorem moves_moveDown : Moves (moveDown (F := F)) := by
  rintro ui ⟨data, h, ha, hb⟩
  have hnonneg := directionalMove_nonneg data
  refine ⟨_, by rw [moveDown, h, map_some], shift_spec h ?_ ?_⟩ <;>
    simp only [Inside, Point.add] at ha hb ⊢ <;> omega

omit [F64 F] in
theorem clamp_spec (x : ℤ) {lo hi : ℤ} (h : lo ≤ hi) :
    ∃ y, clamp x lo hi = some y ∧ lo ≤ y ∧ y ≤ hi := by
  refine ⟨_, if_pos h, ?_, ?_⟩ <;> omega

theorem setWidth_spec (h : ui.Valid) (change : SizeChange F) :
    ∃ ui', ui.setWidth change = some ui' ∧ ui'.Valid := by
  obtain ⟨data, hdata, ha, hb⟩ := h
  obtain ⟨size, hsize, -, -⟩ := clamp_spec
    (changedSize data.scale data.size.w (max ui.selection.a.x ui.selection.b.x + 1 -
      min ui.selection.a.x ui.selection.b.x) change)
    (show 1 ≤ data.size.w - min ui.selection.a.x ui.selection.b.x by
      simp only [Inside] at ha
      omega)
  unfold setWidth
  rw [hdata, bind_some]
  dsimp only
  rw [hsize]
  exact ⟨_, rfl, valid_updateBuffers _ hdata⟩

theorem setHeight_spec (h : ui.Valid) (change : SizeChange F) :
    ∃ ui', ui.setHeight change = some ui' ∧ ui'.Valid := by
  obtain ⟨data, hdata, ha, hb⟩ := h
  obtain ⟨size, hsize, -, -⟩ := clamp_spec
    (changedSize data.scale data.size.h (max ui.selection.a.y ui.selection.b.y + 1 -
      min ui.selection.a.y ui.selection.b.y) change)
    (show 1 ≤ data.size.h - min ui.selection.a.y ui.selection.b.y by
      simp only [Inside] at ha
      omega)
  unfold setHeight
  rw [hdata, bind_some]
  dsimp only
  rw [hsize]
  exact ⟨_, rfl, valid_updateBuffers _ hdata⟩

theorem moveToOutput_spec (h : ui.Valid) (newOutput : ℕ) :
    ∃ ui', ui.moveToOutput newOutput = some ui' ∧ ui'.Valid := by
  unfold moveToOutput
  split
  · exact ⟨ui, rfl, h⟩
  · split
    · exact ⟨ui, rfl, h⟩
    · rename_i target htarget
      obtain ⟨data, hdata, ha, hb⟩ := h
      have hw := target.width
      have hh := target.height
      obtain ⟨w, hw', hw1, hw2⟩ := clamp_spec (F64.round (F64.mul
        (F64.ofInt (rectFromCornerPoints ui.selection.a ui.selection.b).size.w)
        (F64.div target.scale data.scale))) (show 1 ≤ target.size.w by omega)
      obtain ⟨h, hh', hh1, hh2⟩ := clamp_spec (F64.round (F64.mul
        (F64.ofInt (rectFromCornerPoints ui.selection.a ui.selection.b).size.h)
        (F64.div target.scale data.scale))) (show 1 ≤ target.size.h by omega)
      simp only [hdata, bind_some, hw', hh']
      obtain ⟨x, hx, -⟩ := clamp_spec (F64.round (F64.mul (F64.div (F64.ofInt
        (rectFromCornerPoints ui.selection.a ui.selection.b).loc.x : F) (F64.ofInt data.size.w))
        (F64.ofInt target.size.w))) (show 0 ≤ target.size.w - w by omega)
      obtain ⟨y, hy, -⟩ := clamp_spec (F64.round (F64.mul (F64.div (F64.ofInt
        (rectFromCornerPoints ui.selection.a ui.selection.b).loc.y : F) (F64.ofInt data.size.h))
        (F64.ofInt target.size.h))) (show 0 ≤ target.size.h - h by omega)
      simp only [hx, bind_some, hy, map_some]
      exact ⟨_, rfl, valid_updateBuffers _ htarget⟩

/-- Only the button changes. -/
theorem valid_of_selection (h : ui.Valid) (hsel : ui'.selection = ui.selection)
    (hdata : ui'.outputData = ui.outputData) : ui'.Valid := by
  obtain ⟨data, hd, ha, hb⟩ := h
  refine ⟨data, ?_, hsel ▸ ha, hsel ▸ hb⟩
  rw [OpenUi.data, hsel, hdata]
  exact hd

theorem setSpaceDown_valid (h : ui.Valid) (down : Bool) : (ui.setSpaceDown down).Valid := by
  unfold setSpaceDown
  split
  · exact h
  · split
    · split
      · exact valid_of_selection h rfl rfl
      · exact h
    · split
      · exact valid_of_selection h rfl rfl
      · exact h

/-- The shift that a moved pointer makes, once it is clamped, stays inside. -/
theorem inside_constrain (ha : Inside size a) (hb : Inside size b) (delta : Point) :
    let desired := rectFromCornerPoints (a.add delta) (b.add delta)
    let shift := (desired.loc.constrain
      (Size.rect ⟨size.w - desired.size.w, size.h - desired.size.h⟩)).sub (rectFromCornerPoints a b).loc
    Inside size (a.add shift) ∧ Inside size (b.add shift) := by
  simp only [Inside, Point.add, Point.sub, Point.constrain, Size.rect, rectFromCornerPoints] at ha hb ⊢
  omega

theorem pointerMotion_spec (h : ui.Valid) (point : Point) (slot : Option ℕ) :
    ∃ ui', ui.pointerMotion point slot = some ui' ∧ ui'.Valid ∧
      ((ui.button.bind ButtonDown.moveState).isSome = true → ui'.rect.size = ui.rect.size) := by
  unfold pointerMotion
  split
  · exact ⟨ui, rfl, h, fun _ => rfl⟩
  · rename_i button hbutton
    split
    · exact ⟨ui, rfl, h, fun _ => rfl⟩
    · dsimp only
      split
      · exact ⟨_, rfl, valid_of_selection h rfl rfl, fun _ => rfl⟩
      · obtain ⟨data, hdata, ha, hb⟩ := h
        split
        · rename_i moveState _
          have hdata' : ({ ui with button := some { button with
              lastPos := (button.lastPos.1, point) } } : OpenUi F).data = some data := hdata
          rw [hdata', map_some]
          obtain ⟨hina, hinb⟩ := inside_constrain ha hb
            (point.sub (ui.selection.a.add moveState.pointerOffset))
          obtain ⟨hvalid, hsize⟩ := shift_spec hdata' hina hinb
          exact ⟨_, rfl, hvalid, fun _ => hsize⟩
        · rename_i hmove
          refine ⟨_, rfl, valid_updateBuffers data hdata, fun hsome => ?_⟩
          simp [hbutton, hmove] at hsome

theorem pointerDown_valid (h : ui.Valid) (output : ℕ) (point : Point) (slot : Option ℕ) :
    (ui.pointerDown output point slot).1.Valid := by
  unfold pointerDown
  split
  · split
    · exact valid_of_selection h rfl rfl
    · exact h
  · split
    · exact h
    · rename_i data hdata
      split
      · exact valid_of_selection h rfl rfl
      · exact valid_updateBuffers data hdata

theorem pointerUp_spec (h : ui.Valid) (slot : Option ℕ) :
    ∃ res, ui.pointerUp slot = some res ∧ res.1.Valid := by
  have hup : ({ ui with button := none } : OpenUi F).Valid := valid_of_selection h rfl rfl
  unfold pointerUp
  split
  · exact ⟨_, rfl, h⟩
  · rename_i button _
    split
    · exact ⟨_, rfl, valid_of_selection h rfl rfl⟩
    · split
      · exact ⟨_, rfl, h⟩
      · dsimp only
        split
        · exact ⟨_, rfl, hup⟩
        · split
          · exact ⟨_, rfl, hup⟩
          · obtain ⟨data, hdata, -, -⟩ := h
            have hdata' : ({ ui with button := none } : OpenUi F).data = some data := hdata
            split
            · rw [hdata', map_some]
              exact ⟨_, rfl, valid_updateBuffers data hdata⟩
            · exact ⟨_, rfl, valid_updateBuffers data hdata⟩

/-- What is captured: a rectangle that is not empty, inside the output. -/
theorem rect_inside (h : ui.Valid) : ∃ data, ui.data = some data ∧ 1 ≤ ui.rect.size.w ∧
    1 ≤ ui.rect.size.h ∧ data.size.rect.containsRect ui.rect = true := by
  obtain ⟨data, hdata, ha, hb⟩ := h
  refine ⟨data, hdata, ?_, ?_, containsRect_iff.mpr ⟨ha, hb⟩⟩ <;>
    simp only [rect, rectFromCornerPoints] <;> omega

end Valid

end OpenUi

/-- Valid while it is open. -/
def ScreenshotUi.Valid : ScreenshotUi F → Prop
  | .closed _ => True
  | .opened ui => ui.Valid

/-- An opening that succeeds has the remembered output or the default one among the captured ones. -/
def Captured (ui : ScreenshotUi F) : Op F → Prop
  | .openUi _ screenshots _ alive defaultOutput _ _ =>
    match ui with
    | .opened _ => True
    | .closed lastSelection => screenshots ≠ [] → defaultOutput ∈ screenshots ∨
        alive = true ∧ ∃ selection, lastSelection = some selection ∧ selection.1 ∈ screenshots
  | _ => True

/-- The operations that keep the width and the height of the selection: the moves, and a pointer motion
while moving. -/
def keepsSize (ui : OpenUi F) : Op F → Bool
  | .moveLeft | .moveRight | .moveUp | .moveDown => true
  | .pointerMotion _ _ => (ui.button.bind ButtonDown.moveState).isSome
  | _ => false

section Steps

variable {ui ui' : ScreenshotUi F} {op : Op F} {ops : List (Op F)}

theorem get_foldl_screenshots {outputs : ℕ → OutputInfo F} {panels : ℕ → Option (Size × Size)}
    {screenshots : List ℕ} {output : ℕ} :
    (screenshots.foldl (fun m output => m.insert output ⟨outputs output, panels output⟩)
      (∅ : HashMap ℕ (OutputData F))).get output =
      if output ∈ screenshots then some ⟨outputs output, panels output⟩ else none := by
  induction screenshots using List.reverseRecOn with
  | nil => simp
  | append_singleton l o ih =>
    rw [List.foldl_append, List.foldl_cons, List.foldl_nil, HashMap.get_insert, ih]
    by_cases ho : output = o
    · simp [ho]
    · simp [ho]

/-- An opening leaves a valid selection exactly where the output it chooses was captured. -/
theorem valid_openUi {outputs : ℕ → OutputInfo F} {screenshots : List ℕ}
    {panels : ℕ → Option (Size × Size)} {alive : Bool} {defaultOutput : ℕ} {showPointer : Bool}
    {path : Option String} (h : ui.Valid) :
    (ui.openUi outputs screenshots panels alive defaultOutput showPointer path).1.Valid ↔
      Captured ui (.openUi outputs screenshots panels alive defaultOutput showPointer path) := by
  unfold ScreenshotUi.openUi
  split
  · rename_i hnil
    cases ui with
    | opened ui => exact ⟨fun _ => trivial, fun _ => h⟩
    | closed lastSelection => exact ⟨fun _ hne => absurd hnil hne, fun _ => trivial⟩
  · rename_i hne
    cases ui with
    | opened ui => exact ⟨fun _ => trivial, fun _ => h⟩
    | closed lastSelection =>
      dsimp only
      have hopened : ∀ (selection : ℕ × Rectangle) (ui : OpenUi F), ui.selection.output = selection.1 →
          ui.outputData = screenshots.foldl
            (fun m output => m.insert output ⟨outputs output, panels output⟩) ∅ →
          (ui.updateBuffers.Valid ↔ selection.1 ∈ screenshots) := by
        intro selection ui hout hdata
        have hget : ui.data = if selection.1 ∈ screenshots then
            some ⟨outputs selection.1, panels selection.1⟩ else none := by
          rw [OpenUi.data, hout, hdata, get_foldl_screenshots]
        constructor
        · rintro ⟨data, hd, -⟩
          rw [OpenUi.data_updateBuffers, hget] at hd
          split_ifs at hd with hmem
          exact hmem
        · intro hmem
          rw [if_pos hmem] at hget
          exact OpenUi.valid_updateBuffers _ hget
      refine (hopened _ _ rfl rfl).trans ?_
      simp only [Captured, ne_eq, hne, not_false_eq_true, true_implies]
      cases alive with
      | false => simp
      | true =>
        cases lastSelection with
        | none => simp
        | some selection =>
          by_cases hmem : selection.1 ∈ screenshots
          · simp [hmem]
          · simp [hmem]

theorem valid_onOpen {f : OpenUi F → Option (OpenUi F)} (h : ui.Valid)
    (hf : ∀ ui, ui.Valid → ∃ ui', f ui = some ui' ∧ ui'.Valid) :
    ∃ ui', ui.onOpen f = some ui' ∧ ui'.Valid := by
  cases ui with
  | closed lastSelection => exact ⟨_, rfl, trivial⟩
  | opened ui =>
    obtain ⟨ui', hf', hvalid⟩ := hf ui h
    exact ⟨.opened ui', by simp only [ScreenshotUi.onOpen, hf', map_some], hvalid⟩

/-- No operation fails on a valid selection, and all keep it valid but an opening without its output. -/
theorem step_spec (h : ui.Valid) (op : Op F) :
    ∃ ui', step ui op = some ui' ∧ (Captured ui op → ui'.Valid) := by
  have hweaken : ∀ {r : Option (ScreenshotUi F)}, (∃ ui', r = some ui' ∧ ui'.Valid) →
      ∃ ui', r = some ui' ∧ (Captured ui op → ui'.Valid) := by
    rintro r ⟨ui', hr, hvalid⟩
    exact ⟨ui', hr, fun _ => hvalid⟩
  have hmoves : ∀ {f : OpenUi F → Option (OpenUi F)}, OpenUi.Moves f → ∀ ui : OpenUi F, ui.Valid →
      ∃ ui', f ui = some ui' ∧ ui'.Valid := by
    intro f hf ui hui
    obtain ⟨ui', hf', hvalid, -⟩ := hf ui hui
    exact ⟨ui', hf', hvalid⟩
  cases op with
  | openUi => exact ⟨_, rfl, (valid_openUi h).mpr⟩
  | close =>
    refine ⟨_, rfl, fun _ => ?_⟩
    cases ui <;> trivial
  | togglePointer =>
    exact hweaken (valid_onOpen h fun ui hui => ⟨_, rfl, OpenUi.valid_of_selection hui rfl rfl⟩)
  | moveLeft => exact hweaken (valid_onOpen h (hmoves OpenUi.moves_moveLeft))
  | moveRight => exact hweaken (valid_onOpen h (hmoves OpenUi.moves_moveRight))
  | moveUp => exact hweaken (valid_onOpen h (hmoves OpenUi.moves_moveUp))
  | moveDown => exact hweaken (valid_onOpen h (hmoves OpenUi.moves_moveDown))
  | moveToOutput newOutput =>
    exact hweaken (valid_onOpen h fun ui hui => OpenUi.moveToOutput_spec hui newOutput)
  | setWidth change => exact hweaken (valid_onOpen h fun ui hui => OpenUi.setWidth_spec hui change)
  | setHeight change => exact hweaken (valid_onOpen h fun ui hui => OpenUi.setHeight_spec hui change)
  | setSpaceDown down =>
    exact hweaken (valid_onOpen h fun ui hui => ⟨_, rfl, OpenUi.setSpaceDown_valid hui down⟩)
  | pointerDown output point slot =>
    exact hweaken (valid_onOpen h fun ui hui => ⟨_, rfl, OpenUi.pointerDown_valid hui output point slot⟩)
  | pointerMotion point slot =>
    refine hweaken (valid_onOpen h fun ui hui => ?_)
    obtain ⟨ui', hf, hvalid, -⟩ := OpenUi.pointerMotion_spec hui point slot
    exact ⟨ui', hf, hvalid⟩
  | pointerUp slot =>
    refine hweaken (valid_onOpen h fun ui hui => ?_)
    obtain ⟨res, hf, hvalid⟩ := OpenUi.pointerUp_spec hui slot
    exact ⟨res.1, by rw [hf, map_some], hvalid⟩

theorem step_keepsSize {ui ui' : OpenUi F} (h : ui.Valid) (hop : keepsSize ui op = true)
    (hs : step (.opened ui) op = some (.opened ui')) : ui'.rect.size = ui.rect.size := by
  have hmove : ∀ {f : OpenUi F → Option (OpenUi F)}, OpenUi.Moves f →
      (f ui).map ScreenshotUi.opened = some (.opened ui') → ui'.rect.size = ui.rect.size := by
    intro f hf hs
    obtain ⟨u, hu, -, hsize⟩ := hf ui h
    rw [hu, map_some, some.injEq, ScreenshotUi.opened.injEq] at hs
    exact hs ▸ hsize
  cases op with
  | moveLeft => exact hmove OpenUi.moves_moveLeft hs
  | moveRight => exact hmove OpenUi.moves_moveRight hs
  | moveUp => exact hmove OpenUi.moves_moveUp hs
  | moveDown => exact hmove OpenUi.moves_moveDown hs
  | pointerMotion point slot =>
    obtain ⟨u, hu, -, hsize⟩ := OpenUi.pointerMotion_spec h point slot
    have hs : (ui.pointerMotion point slot).map ScreenshotUi.opened = some (.opened ui') := hs
    rw [hu, map_some, some.injEq, ScreenshotUi.opened.injEq] at hs
    exact hs ▸ hsize hop
  | _ => simp [keepsSize] at hop

/-- In every run in which every successful opening has the remembered output or the default one among the
captured ones: no operation fails, the selection is inside its captured output, and moving keeps its
size. -/
theorem screenshot_selection
    (hc : AllAlong step Captured (ScreenshotUi.closed none : ScreenshotUi F) ops) :
    ∃ ui, run step (ScreenshotUi.closed none : ScreenshotUi F) ops = some ui ∧
      ∀ shown, ui = .opened shown →
        (∃ data, shown.data = some data ∧ Inside data.size shown.selection.a ∧
          Inside data.size shown.selection.b ∧ 1 ≤ shown.rect.size.w ∧ 1 ≤ shown.rect.size.h ∧
          data.size.rect.containsRect shown.rect = true) ∧
        (∀ op, (step ui op).isSome = true) ∧
        ∀ op after, keepsSize shown op = true → step ui op = some (.opened after) →
          after.rect.size = shown.rect.size := by
  have hrun : ∃ ui, run step (ScreenshotUi.closed none : ScreenshotUi F) ops = some ui ∧ ui.Valid := by
    have hgen : ∀ (ops : List (Op F)) (s : ScreenshotUi F), s.Valid → AllAlong step Captured s ops →
        ∃ ui, run step s ops = some ui ∧ ui.Valid := by
      intro ops
      induction ops with
      | nil => exact fun s hs _ => ⟨s, rfl, hs⟩
      | cons op ops ih =>
        intro s hs hc
        obtain ⟨u, hu, hvalid⟩ := step_spec hs op
        obtain ⟨t, ht, hvt⟩ := ih u (hvalid hc.1) (hc.2 u hu)
        exact ⟨t, by rw [run_cons, hu, bind_some, ht], hvt⟩
    exact hgen ops _ trivial hc
  obtain ⟨ui, hui, hvalid⟩ := hrun
  refine ⟨ui, hui, ?_⟩
  rintro o rfl
  refine ⟨?_, fun op => ?_, fun op after hop hs => step_keepsSize hvalid hop hs⟩
  · obtain ⟨data, hdata, ha, hb⟩ := hvalid
    obtain ⟨data', hdata', hw, hh, hin⟩ := OpenUi.rect_inside ⟨data, hdata, ha, hb⟩
    obtain rfl := some.inj (hdata.symm.trans hdata')
    exact ⟨data, hdata, ha, hb, hw, hh, hin⟩
  · obtain ⟨u, hu, -⟩ := step_spec hvalid op
    rw [hu]
    rfl

def testInfo : OutputInfo ℚ := ⟨⟨100, 80⟩, 1, by decide, by decide, zero_le_one⟩

/-- An opening at which one of two outputs is captured. -/
def testOpen (defaultOutput : ℕ) : Op ℚ :=
  .openUi (fun _ => testInfo) [1] (fun _ => none) true defaultOutput true none

/-- A selection is dragged, and the UI is closed. -/
def dragged : List (Op ℚ) :=
  [testOpen 1, .pointerDown 1 ⟨10, 10⟩ none, .pointerMotion ⟨50, 40⟩ none, .pointerUp none, .close]

/-- Only the output of the remembered selection is captured. -/
theorem screenshot_selection_captured :
    ∃ ui, run step (ScreenshotUi.closed none) (dragged ++ [testOpen 2]) = some (.opened ui) ∧
      ui.selection = ⟨1, ⟨10, 10⟩, ⟨50, 40⟩⟩ ∧ 1 ≤ ui.rect.size.w := by
  have hdragged : run step (ScreenshotUi.closed none) dragged =
      some (.closed (some (1, ⟨⟨10, 10⟩, ⟨41, 31⟩⟩))) := rfl
  have hc : AllAlong step Captured (ScreenshotUi.closed none) (dragged ++ [testOpen 2]) := by
    refine (allAlong_concat hdragged).mpr ⟨⟨fun _ => .inl (by simp), fun _ _ => ?_⟩, fun _ => .inr ?_⟩
    · exact allAlong_of_forall (by simp [Captured])
    · exact ⟨rfl, _, rfl, by simp⟩
  obtain ⟨ui, hui, hsel⟩ := screenshot_selection hc
  obtain ⟨u, hu, hselection⟩ : ∃ u : OpenUi ℚ, run step (ScreenshotUi.closed none)
      (dragged ++ [testOpen 2]) = some (.opened u) ∧ u.selection = ⟨1, ⟨10, 10⟩, ⟨50, 40⟩⟩ :=
    ⟨_, rfl, rfl⟩
  obtain rfl := some.inj (hu.symm.trans hui)
  obtain ⟨⟨_, -, -, -, hw, -, -⟩, -, -⟩ := hsel u rfl
  exact ⟨u, hui, hselection, hw⟩

/-- The default output was not captured: the selection is on no captured output, and a move panics. -/
theorem screenshot_selection_not_captured :
    ∃ ui, run step (ScreenshotUi.closed none) [testOpen 2] = some (.opened ui) ∧ ui.data = none ∧
      step (.opened ui) .moveLeft = none := by
  obtain ⟨u, hu⟩ : ∃ u : OpenUi ℚ, u = OpenUi.updateBuffers
      ⟨⟨2, testInfo.size.middle.loc, testInfo.size.middle.lastCorner⟩,
        (∅ : HashMap ℕ (OutputData ℚ)).insert 1 ⟨testInfo, none⟩, none, true, none⟩ := ⟨_, rfl⟩
  have hnone : u.data = none := by
    rw [hu, OpenUi.data_updateBuffers, OpenUi.data, HashMap.get_insert]
    simp
  refine ⟨u, by rw [hu]; rfl, hnone, ?_⟩
  simp only [step, ScreenshotUi.onOpen, OpenUi.moveLeft, hnone, map_none]

end Steps

end Macniri.Screenshot
