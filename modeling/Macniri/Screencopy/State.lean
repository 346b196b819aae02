import Macniri.Lib.HashMap
import Macniri.Lib.Run

/-! The screencopy protocol: the frames that clients ask for, the queues of those that wait for damage,
and the events that answer them. -/
namespace Macniri.WlrScreencopy

inductive ScreencopyBuffer
  | dmabuf (id : ℕ)
  | shm (id : ℕ)
  deriving DecidableEq, Repr

/-- A buffer as the client passes it. -/
inductive WlBuffer
  | dmabuf (id : ℕ) (xrgb8888 : Bool) (width height : ℤ)
  | shm (id : ℕ) (xrgb8888 : Bool) (width height stride len : ℤ)
  | other
  deriving DecidableEq, Repr

structure FrameInfo where
  output : ℕ
  bufferSize : ℤ × ℤ
  regionLoc : ℤ × ℤ
  overlayCursor : Bool
  deriving DecidableEq, Repr

inductive FrameState
  | failed
  | pending (manager : ℕ) (info : FrameInfo) (copied : Bool)
  deriving DecidableEq, Repr

structure Screencopy where
  info : FrameInfo
  frame : ℕ
  buffer : ScreencopyBuffer
  withDamage : Bool
  deriving DecidableEq, Repr

/-- What is sent to a frame, and the calls that lead to it. -/
inductive Event
  /-- A copy is pushed to the queue of a manager. -/
  | queued (manager : ℕ) (screencopy : Screencopy)
  /-- The region of a copy is rendered from an output to the buffer of the copy. -/
  | rendered (output : ℕ) (screencopy : Screencopy)
  /-- That render failed. -/
  | renderError (output : ℕ) (screencopy : Screencopy)
  | damage (frame : ℕ) (loc size : ℤ × ℤ)
  /-- A copy is submitted, maybe to wait for its sync point. -/
  | submitted (screencopy : Screencopy)
  | flags (frame : ℕ) (yInvert : Bool)
  | ready (frame : ℕ) (timestamp : ℕ)
  | failed (frame : ℕ)
  | alreadyUsed (frame : ℕ)
  | invalidBuffer (frame : ℕ)
  deriving DecidableEq, Repr

structure Niri where
  /-- The keys of `output_state`. -/
  outputs : List ℕ
  /-- Every manager object bound so far, and whether it is alive. -/
  managers : HashMap ℕ Bool
  queues : HashMap ℕ (List Screencopy)
  /-- The user data of every frame object created so far. -/
  frames : HashMap ℕ FrameState
  /-- The sources of the event loop that wait for a sync point, with their timestamps. -/
  syncing : List (Screencopy × ℕ)

/-- What the damage tracker and the renderer answer. -/
structure Answer where
  damages : Option (List ((ℤ × ℤ) × (ℤ × ℤ)))
  /-- `none` is an error; a dmabuf render may leave a sync point that exports a file descriptor. -/
  render : Option Bool
  deriving DecidableEq, Repr

def ScreencopyBuffer.isDmabuf : ScreencopyBuffer → Bool
  | .dmabuf _ => true
  | .shm _ => false

/-- The buffer must have the format and the size that the frame announced. -/
def checkBuffer (size : ℤ × ℤ) : WlBuffer → Option ScreencopyBuffer
  | .dmabuf id xrgb8888 width height =>
    if xrgb8888 ∧ width = size.1 ∧ height = size.2 then some (.dmabuf id) else none
  | .shm id xrgb8888 width height stride len =>
    if xrgb8888 ∧ width = size.1 ∧ height = size.2 ∧ stride = size.1 * 4 ∧ len = stride * height
    then some (.shm id) else none
  | .other => none

def renderForScreencopyInternal (output : ℕ) (withDamage : Bool) (answer : Answer)
    (screencopy : Screencopy) :
    List Event × Option (Bool × Option (List ((ℤ × ℤ) × (ℤ × ℤ)))) :=
  if withDamage && answer.damages.isNone then ([], some (false, none))
  else
    match answer.render with
    | none => ([.renderError output screencopy], none)
    | some sync =>
      ([.rendered output screencopy], some (screencopy.buffer.isDmabuf && sync, answer.damages))

/-- `ScreencopyQueue::pop`. -/
def pop (queue : List Screencopy) : Option (Screencopy × List Screencopy) :=
  queue.getLast?.map fun screencopy => (screencopy, queue.dropLast)

namespace Niri

def init : Niri := ⟨[], ∅, ∅, ∅, []⟩

def submitAfterSync (s : Niri) (screencopy : Screencopy) (sync : Bool) (timestamp : ℕ) :
    Niri × List Event :=
  if sync then ({ s with syncing := s.syncing ++ [(screencopy, timestamp)] }, [.submitted screencopy])
  else
    (s, [.submitted screencopy, .flags screencopy.frame false, .ready screencopy.frame timestamp])

/-- One turn of the loop of `render_for_screencopy_with_damage`, with the events so far. -/
def renderQueue (output : ℕ) (answers : ℕ → Answer) (now : ℕ) (r : Niri × List Event)
    (manager : ℕ) : Option (Niri × List Event) :=
  match r.1.queues.get manager with
  | none => some r
  | some queue =>
    match queue.head? with
    | none => some r
    | some screencopy =>
      if screencopy.info.output ≠ output then some r
      else
        match renderForScreencopyInternal output true (answers manager) screencopy with
        | (events, some (sync, some damages)) =>
          (pop queue).map fun popped =>
            let s := { r.1 with queues := r.1.queues.insert manager popped.2 }
            let res := s.submitAfterSync popped.1 sync now
            (res.1, r.2 ++ events ++ damages.map (fun d => .damage screencopy.frame d.1 d.2) ++ res.2)
        -- no damage found, waiting till next redraw
        | (events, some (_, none)) => some (r.1, r.2 ++ events)
        | (events, none) =>
          -- the popped copy is dropped
          (pop queue).map fun popped =>
            ({ r.1 with queues := r.1.queues.insert manager popped.2 },
              r.2 ++ events ++ [.failed popped.1.frame])

def renderForScreencopyWithDamage (ord : IterOrder) (s : Niri) (output : ℕ) (answers : ℕ → Answer)
    (now : ℕ) : Option (Niri × List Event) :=
  ((ord.iter s.queues).map Sigma.fst).foldlM (renderQueue output answers now) (s, [])

/-- A copy that is not submitted is dropped at the end. -/
def renderForScreencopyWithoutDamage (s : Niri) (manager : ℕ) (screencopy : Screencopy)
    (answer : Answer) (now : ℕ) : Niri × List Event :=
  let output := screencopy.info.output
  if output ∉ s.outputs then (s, [.failed screencopy.frame])
  else
    match s.queues.get manager with
    | none => (s, [.failed screencopy.frame])
    | some _ =>
      match renderForScreencopyInternal output false answer screencopy with
      | (events, some (sync, _)) =>
        let res := s.submitAfterSync screencopy sync now
        (res.1, events ++ res.2)
      | (events, none) => (s, events ++ [.failed screencopy.frame])

/-- `ScreencopyHandler::frame`; without a renderer the copy is dropped. -/
def frame (s : Niri) (manager : ℕ) (screencopy : Screencopy) (answer : Option Answer) (now : ℕ) :
    Niri × List Event :=
  if screencopy.withDamage then
    match s.queues.get manager with
    | none => (s, [.failed screencopy.frame])
    | some queue =>
      ({ s with queues := s.queues.insert manager (queue ++ [screencopy]) },
        [.queued manager screencopy])
  else
    match answer with
    | none => (s, [.failed screencopy.frame])
    | some answer => s.renderForScreencopyWithoutDamage manager screencopy answer now

def bind (s : Niri) (manager : ℕ) : Niri :=
  -- clean up all entries if its manager is dead and its queue is empty
  let queues := s.queues.retain fun k v => s.managers.get k == some true || !v.isEmpty
  { s with
    managers := s.managers.insert manager true
    queues := queues.insert manager [] }

/-- `info` is what the checks of the output and the region come to. -/
def capture (s : Niri) (manager frame : ℕ) (info : Option FrameInfo) : Niri × List Event :=
  match info with
  | none => ({ s with frames := s.frames.insert frame .failed }, [.failed frame])
  | some info => ({ s with frames := s.frames.insert frame (.pending manager info false) }, [])

/-- A `copy` or `copy_with_damage` request on a frame object. -/
def copy (s : Niri) (frame : ℕ) (withDamage : Bool) (buffer : WlBuffer) (answer : Option Answer)
    (now : ℕ) : Option (Niri × List Event) :=
  (s.frames.get frame).map fun data =>
    match data with
    | .failed => (s, [])
    | .pending manager info copied =>
      if copied then (s, [.alreadyUsed frame])
      else
        match checkBuffer info.bufferSize buffer with
        | none => (s, [.invalidBuffer frame])
        | some buffer =>
          ({ s with frames := s.frames.insert frame (.pending manager info true) }).frame manager
            ⟨info, frame, buffer, withDamage⟩ answer now

/-- The copies that wait for an output, queue by queue. -/
def dropped (ord : IterOrder) (s : Niri) (output : ℕ) : List Screencopy :=
  (ord.iter s.queues).flatMap fun e => e.2.filter fun screencopy => screencopy.info.output = output

def removeOutput (ord : IterOrder) (s : Niri) (output : ℕ) : Niri × List Event :=
  ({ s with
      outputs := s.outputs.filter (· ≠ output)
      queues := s.queues.mapValues fun queue =>
        queue.filter fun screencopy => screencopy.info.output ≠ output },
    (s.dropped ord output).map fun screencopy => .failed screencopy.frame)

/-- The sync point of a source is signalled. -/
def signal (s : Niri) (i : ℕ) : Option (Niri × List Event) :=
  s.syncing[i]?.map fun e =>
    ({ s with syncing := s.syncing.eraseIdx i }, [.flags e.1.frame false, .ready e.1.frame e.2])

end Niri

inductive Op
  | bind (manager : ℕ)
  | destroyManager (manager : ℕ)
  | capture (manager frame : ℕ) (info : Option FrameInfo)
  | copy (frame : ℕ) (withDamage : Bool) (buffer : WlBuffer) (answer : Option Answer) (now : ℕ)
  | redraw (output : ℕ) (answers : ℕ → Answer) (now : ℕ)
  | addOutput (output : ℕ)
  | removeOutput (output : ℕ)
  | signal (i : ℕ)

/-- `none` where the event cannot happen: a new object is not an old one, a request is made on a living
manager or an existing frame, and an output is redrawn or removed while it is there. -/
def call (ord : IterOrder) (s : Niri) : Op → Option (Niri × List Event)
  | .bind manager => if (s.managers.get manager).isSome then none else some (s.bind manager, [])
  | .destroyManager manager =>
    if s.managers.get manager = some true then
      some ({ s with managers := s.managers.insert manager false }, [])
    else none
  | .capture manager frame info =>
    if s.managers.get manager = some true ∧ s.frames.get frame = none then
      some (s.capture manager frame info)
    else none
  | .copy frame withDamage buffer answer now => s.copy frame withDamage buffer answer now
  | .redraw output answers now =>
    if output ∈ s.outputs then s.renderForScreencopyWithDamage ord output answers now else none
  | .addOutput output =>
    if output ∈ s.outputs then none else some ({ s with outputs := output :: s.outputs }, [])
  | .removeOutput output => if output ∈ s.outputs then some (s.removeOutput ord output) else none
  | .signal i => s.signal i

/-- The calls made so far, each with its events. -/
def step (ord : IterOrder) (r : Niri × List (List Event)) (op : Op) :
    Option (Niri × List (List Event)) :=
  (call ord r.1 op).map fun res => (res.1, r.2 ++ [res.2])

end Macniri.WlrScreencopy
