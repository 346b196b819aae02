import Macniri.Scrolling.Column

/-! The view offset of a scrolling space: static, animating or controlled by a gesture. -/
namespace Macniri.Layout

/-- Touchpad swipes are normalised to this width of the working area. -/
def viewGestureWorkingAreaMovement : ℚ := 1200

/-- `DECELERATION_TOUCHPAD.ln()`, as the nearest floating-point number. -/
def decelerationTouchpadLn : ℚ := -3004509020298724 / 1000000000000000000

structure SwipeEvent where
  delta : ℚ
  timestamp : ℚ
  deriving DecidableEq, Repr

structure SwipeTracker where
  history : List SwipeEvent
  pos : ℚ
  deriving DecidableEq, Repr

namespace SwipeTracker

def new : SwipeTracker := ⟨[], 0⟩

/-- Events older than 150 ms before the last one are dropped. -/
def trimHistory (t : SwipeTracker) : SwipeTracker :=
  match t.history.getLast? with
  | none => t
  | some last =>
    { t with history := t.history.dropWhile fun e => e.timestamp + 150 / 1000 < last.timestamp }

def push (t : SwipeTracker) (delta timestamp : ℚ) : SwipeTracker :=
  if t.history.getLast?.any (timestamp < ·.timestamp) then t
  else trimHistory ⟨t.history ++ [⟨delta, timestamp⟩], t.pos + delta⟩

def velocity (t : SwipeTracker) : ℚ :=
  match t.history.head?, t.history.getLast? with
  | some first, some last =>
    let totalTime := last.timestamp - first.timestamp
    if totalTime = 0 then 0 else (t.history.map (·.delta)).sum / totalTime
  | _, _ => 0

def projectedEndPos (t : SwipeTracker) : ℚ :=
  t.pos - t.velocity / (1000 * decelerationTouchpadLn)

end SwipeTracker

structure ViewGesture where
  currentViewOffset : ℚ
  animation : Option Animation
  tracker : SwipeTracker
  deltaFromTracker : ℚ
  stationaryViewOffset : ℚ
  isTouchpad : Bool
  dndLastEventTime : Option ℚ
  dndNonzeroStartTime : Option ℚ
  deriving DecidableEq, Repr

def ViewGesture.animateFrom (g : ViewGesture) (frm : ℚ) : ViewGesture :=
  { g with animation := some ⟨frm + (g.animation.map (·.value)).getD 0, 0⟩ }

inductive ViewOffset where
  | static (offset : ℚ)
  | animation (anim : Animation)
  | gesture (gesture : ViewGesture)
  deriving DecidableEq, Repr

namespace ViewOffset

def current : ViewOffset → ℚ
  | .static offset => offset
  | .animation anim => anim.value
  | .gesture g => g.currentViewOffset + (g.animation.map (·.value)).getD 0

def target : ViewOffset → ℚ
  | .static offset => offset
  | .animation anim => anim.toValue
  | .gesture g => g.currentViewOffset

def stationary : ViewOffset → ℚ
  | .static offset => offset
  | .animation anim => anim.toValue
  | .gesture g => g.stationaryViewOffset

def isGesture : ViewOffset → Bool
  | .gesture _ => true
  | _ => false

def isDndScroll : ViewOffset → Bool
  | .gesture g => g.dndLastEventTime.isSome
  | _ => false

def offset (delta : ℚ) : ViewOffset → ViewOffset
  | .static o => .static (o + delta)
  | .animation anim => .animation ⟨anim.value + delta, anim.toValue + delta⟩
  | .gesture g =>
    .gesture { g with
      stationaryViewOffset := g.stationaryViewOffset + delta
      deltaFromTracker := g.deltaFromTracker + delta
      currentViewOffset := g.currentViewOffset + delta }

def cancelGesture : ViewOffset → ViewOffset
  | .gesture g => .static g.currentViewOffset
  | v => v

def stopAnimAndGesture (v : ViewOffset) : ViewOffset := .static v.current

/-- Go to `newViewOffset`: nothing but a correction if the view is already heading there, a move of
the gesture during a DnD scroll, and an animation otherwise. -/
def animateTo (v : ViewOffset) (newViewOffset pixel : ℚ) : ViewOffset :=
  let toDiff := newViewOffset - v.target
  if |toDiff| < pixel then v.offset toDiff
  else
    match v with
    | .gesture g =>
      if g.dndLastEventTime.isSome then
        let currentPos := g.currentViewOffset - g.deltaFromTracker
        let offsetDelta := newViewOffset - g.currentViewOffset
        .gesture (ViewGesture.animateFrom
          { g with
            stationaryViewOffset := newViewOffset
            deltaFromTracker := newViewOffset - currentPos
            currentViewOffset := newViewOffset } (-offsetDelta))
      else .animation ⟨v.current, newViewOffset⟩
    | v => .animation ⟨v.current, newViewOffset⟩

end ViewOffset

def computeNewViewOffset (curX viewWidth newColX newColWidth gaps : ℚ) : ℚ :=
  if viewWidth ≤ newColWidth then 0
  else
    let padding := clamp ((viewWidth - newColWidth) / 2) 0 gaps
    let newX := newColX - padding
    let newRightX := newColX + newColWidth + padding
    if curX ≤ newX ∧ newRightX ≤ curX + viewWidth then -(newColX - curX)
    else if |curX - newX| ≤ |curX + viewWidth - newRightX| then -padding
    else -(viewWidth - padding - newColWidth)

end Macniri.Layout
