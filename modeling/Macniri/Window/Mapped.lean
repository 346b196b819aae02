import Macniri.Layout.Basic
import Macniri.Lib.Run

/-! A mapped toplevel window: what it requests of its client, and what the client commits to. -/
namespace Macniri.Window

open Layout (SizingMode)

/-- The state of an xdg toplevel; `rest` are the other states and fields, which the requests here do not
touch. -/
structure ToplevelState (ρ : Type) where
  size : Option Layout.ISize
  fullscreen : Bool
  maximized : Bool
  rest : ρ
  deriving DecidableEq

structure ToplevelConfigure (ρ : Type) where
  state : ToplevelState ρ
  serial : ℕ

/-- The toplevel surface of smithay: the parts of its role data that the window looks at, its
operations and their laws. Serials are numbers in the order they are issued. -/
class ToplevelSurface (τ : Type) (ρ : outParam Type) where
  serverPending : τ → Option (ToplevelState ρ)
  currentServerState : τ → ToplevelState ρ
  pendingConfigures : τ → List (ToplevelConfigure ρ)
  lastAcked : τ → Option (ToplevelConfigure ρ)
  /-- The configure that the current state of the surface was committed with. -/
  committed : τ → Option (ToplevelConfigure ρ)
  withPendingState : τ → (ToplevelState ρ → ToplevelState ρ) → τ
  sendConfigure : τ → τ × ℕ
  /-- `none` is a protocol error. -/
  ackConfigure : τ → ℕ → Option τ
  commit : τ → τ
  current_of_pending : ∀ t c, (pendingConfigures t).getLast? = some c → currentServerState t = c.state
  current_of_acked : ∀ t c, pendingConfigures t = [] → lastAcked t = some c →
    currentServerState t = c.state
  serverPending_with : ∀ t f, serverPending (withPendingState t f) =
    some (f ((serverPending t).getD (currentServerState t)))
  current_with : ∀ t f, currentServerState (withPendingState t f) = currentServerState t
  configures_with : ∀ t f, pendingConfigures (withPendingState t f) = pendingConfigures t
  acked_with : ∀ t f, lastAcked (withPendingState t f) = lastAcked t
  committed_with : ∀ t f, committed (withPendingState t f) = committed t
  serverPending_send : ∀ t, serverPending (sendConfigure t).1 = none
  configures_send : ∀ t, pendingConfigures (sendConfigure t).1 = pendingConfigures t ++
    [⟨(serverPending t).getD (currentServerState t), (sendConfigure t).2⟩]
  acked_send : ∀ t, lastAcked (sendConfigure t).1 = lastAcked t
  committed_send : ∀ t, committed (sendConfigure t).1 = committed t
  serial_send : ∀ t c, (pendingConfigures t).getLast? = some c ∨ lastAcked t = some c ∨
    committed t = some c → c.serial < (sendConfigure t).2
  /-- Acking a configure drops the ones before it. -/
  ack : ∀ t t' s, ackConfigure t s = some t' → ∃ pre c post,
    pendingConfigures t = pre ++ c :: post ∧ c.serial = s ∧ pendingConfigures t' = post ∧
    lastAcked t' = some c ∧ serverPending t' = serverPending t ∧ committed t' = committed t
  committed_commit : ∀ t, committed (commit t) = lastAcked t
  acked_commit : ∀ t, lastAcked (commit t) = lastAcked t
  configures_commit : ∀ t, pendingConfigures (commit t) = pendingConfigures t
  serverPending_commit : ∀ t, serverPending (commit t) = serverPending t
  current_commit : ∀ t, currentServerState (commit t) = currentServerState t

/-- Request-size-once logic state. -/
inductive RequestSizeOnce where
  /-- Waiting for configure to be sent with the requested size. -/
  | waitingForConfigure
  /-- Waiting for the window to commit in response to the configure. -/
  | waitingForCommit (serial : ℕ)
  /-- When configuring, use the current window size. -/
  | useWindowSize
  deriving DecidableEq, Repr

inductive InteractiveResize where
  | ongoing
  | waitingForLastConfigure
  | waitingForLastCommit (serial : ℕ)
  deriving DecidableEq, Repr

/-- The fields of a mapped window that its requests use. -/
structure Mapped (τ : Type) where
  toplevel : τ
  /-- The size of the geometry of the window. -/
  geometry : Layout.ISize
  needsConfigure : Bool
  needsFrameCallback : Bool
  animateNextConfigure : Bool
  animateSerials : List ℕ
  sizeOnce : Option RequestSizeOnce
  transactionForNextConfigure : Option ℕ
  pendingTransactions : List (ℕ × ℕ)
  interactiveResize : Option InteractiveResize
  isWindowedFullscreen : Bool
  isPendingWindowedFullscreen : Bool
  uncommittedWindowedFullscreen : List (ℕ × Bool)
  isMaximized : Bool
  isPendingMaximized : Bool
  uncommittedMaximized : List (ℕ × Bool)

variable {τ ρ : Type} [ToplevelSurface τ ρ]

namespace ToplevelSurface

/-- What `with_pending_state` shows. -/
def pending (t : τ) : ToplevelState ρ := (serverPending t).getD (currentServerState t)

/-- `with_toplevel_last_uncommitted_configure`. -/
def lastUncommittedConfigure (t : τ) : Option (ToplevelConfigure ρ) :=
  match (pendingConfigures t).getLast? with
  -- Configure not yet acked by the client.
  | some lastPending => some lastPending
  | none =>
    match lastAcked t with
    | some lastAcked =>
      match committed t with
      | some committed =>
        -- Already committed to this configure.
        if lastAcked.serial ≤ committed.serial then none else some lastAcked
      | none => some lastAcked
    -- Surface hadn't been configured yet.
    | none => none

end ToplevelSurface

open ToplevelSurface

def ToplevelState.sizingMode (state : ToplevelState ρ) : SizingMode :=
  if state.fullscreen then .fullscreen
  else if state.maximized then .maximized
  else .normal

namespace Mapped

def sizingMode (w : Mapped τ) : SizingMode :=
  if w.isWindowedFullscreen then
    if w.isMaximized then .maximized else .normal
  else
    match committed w.toplevel with
    | none => .normal
    | some configure => configure.state.sizingMode

def pendingSizingMode (w : Mapped τ) : SizingMode :=
  if w.isPendingWindowedFullscreen then
    if w.isPendingMaximized then .maximized else .normal
  else (pending w.toplevel).sizingMode

def new (toplevel : τ) (geometry : Layout.ISize) : Mapped τ :=
  let w : Mapped τ :=
    { toplevel := toplevel
      geometry := geometry
      needsConfigure := false
      needsFrameCallback := false
      animateNextConfigure := false
      animateSerials := []
      sizeOnce := none
      transactionForNextConfigure := none
      pendingTransactions := []
      interactiveResize := none
      isWindowedFullscreen := false
      isPendingWindowedFullscreen := false
      uncommittedWindowedFullscreen := []
      isMaximized := false
      isPendingMaximized := false
      uncommittedMaximized := [] }
  { w with
    isMaximized := w.sizingMode == .maximized
    isPendingMaximized := w.pendingSizingMode == .maximized }

/-- Change the pending state; whether that changes its size decides if the change is animated. -/
def setPending (w : Mapped τ) (size : Layout.ISize) (animate : Bool)
    (f : ToplevelState ρ → ToplevelState ρ) : Mapped τ :=
  let changed := (pending w.toplevel).size != some size
  { w with
    toplevel := withPendingState w.toplevel fun state => f { state with size := some size }
    animateNextConfigure := w.animateNextConfigure || (changed && animate) }

def requestSize (w : Mapped τ) (size : Layout.ISize) (mode : SizingMode) (animate : Bool)
    (transaction : Option ℕ) : Mapped τ :=
  let isFullscreen := mode == .fullscreen
  let isMaximized := mode == .maximized
  -- Going into real fullscreen resets windowed fullscreen.
  let w := { w with
    isPendingWindowedFullscreen := w.isPendingWindowedFullscreen && !isFullscreen
    -- Make sure we receive a commit to update isWindowedFullscreen to false later on.
    needsConfigure := w.needsConfigure || (isFullscreen && w.isWindowedFullscreen) }
  let w := { w with
    isPendingMaximized := isMaximized
    -- Make sure we receive a commit to update isMaximized later on.
    needsConfigure := w.needsConfigure || w.isMaximized != isMaximized }
  let w := w.setPending size animate fun state =>
    if isFullscreen || w.isPendingWindowedFullscreen then
      { state with fullscreen := true, maximized := false }
    else if isMaximized then
      { state with fullscreen := false, maximized := true }
    else
      { state with fullscreen := false, maximized := false }
  { w with
    sizeOnce := none
    -- Store the transaction regardless of whether the size changed.
    transactionForNextConfigure := transaction.or w.transactionForNextConfigure }

/-- The last configure, if it asks for what a request for a size asks for. -/
def alreadySent (w : Mapped τ) (size : Layout.ISize) : Option ℕ :=
  (lastUncommittedConfigure w.toplevel).bind fun configure =>
    let sameSize := configure.state.size.getD ⟨0, 0⟩ == size
    let sameFullscreen := configure.state.fullscreen == w.isPendingWindowedFullscreen
    let sameMaximized := !configure.state.maximized
    if sameSize && sameFullscreen && sameMaximized then some configure.serial else none

def requestSizeOnce (w : Mapped τ) (size : Layout.ISize) (animate : Bool) : Mapped τ :=
  -- The window is going floating, so it can no longer participate in any transactions.
  let w := { w with
    transactionForNextConfigure := none
    isPendingMaximized := false
    -- Make sure we receive a commit to update isMaximized later on.
    needsConfigure := w.needsConfigure || w.isMaximized }
  match w.alreadySent size with
  | some serial =>
    match committed w.toplevel with
    | some current =>
      if ¬ serial ≤ current.serial then
        -- The surface has not committed in response yet, so we will wait for that commit.
        { w with sizeOnce := some (.waitingForCommit serial) }
      else
        { w with sizeOnce := some .useWindowSize }
    -- No current serial; did the surface not ack the initial configure?
    | none => { w with sizeOnce := some .useWindowSize }
  | none =>
    let w := w.setPending size animate fun state =>
      { state with
        fullscreen := state.fullscreen && w.isPendingWindowedFullscreen
        maximized := false }
    { w with sizeOnce := some .waitingForConfigure }

def requestWindowedFullscreen (w : Mapped τ) (value : Bool) : Mapped τ :=
  if w.isPendingWindowedFullscreen = value then w
  else
    { w with
      isPendingWindowedFullscreen := value
      -- Set the fullscreen state to match.
      toplevel := withPendingState w.toplevel fun state =>
        if value then { state with fullscreen := true, maximized := false }
        else { state with fullscreen := false, maximized := state.maximized || w.isPendingMaximized }
      -- Make sure we receive a commit later to update isWindowedFullscreen.
      needsConfigure := true }

variable [DecidableEq ρ]

/-- With `UseWindowSize`, we do not consider size-only changes, because we will request the current
window size and do not expect it to actually change. -/
def ignoreSize (w : Mapped τ) : Mapped τ :=
  if w.sizeOnce = some .useWindowSize then
    { w with
      toplevel := withPendingState w.toplevel fun state =>
        { state with size := (currentServerState w.toplevel).size } }
  else w

/-- Check for pending changes manually to account for `UseWindowSize`; that forgets the pending size. -/
def hasPendingChanges (w : Mapped τ) : Bool × Mapped τ :=
  if w.needsConfigure then (true, w)
  else if (serverPending w.toplevel).isNone then (false, w)
  else
    let w := w.ignoreSize
    (pending w.toplevel != currentServerState w.toplevel, w)

/-- The last value that was sent, or else the committed one. -/
def lastSent (uncommitted : List (ℕ × Bool)) (value : Bool) : Bool :=
  (uncommitted.getLast?.map Prod.snd).getD value

/-- Store the serial of a configure if the value changed compared to the last one that was sent. -/
def store (uncommitted : List (ℕ × Bool)) (committed value : Bool) (serial : ℕ) : List (ℕ × Bool) :=
  if lastSent uncommitted committed ≠ value then uncommitted ++ [(serial, value)] else uncommitted

/-- The part of `send_pending_configure` that sends one. -/
def configure (w : Mapped τ) : Mapped τ :=
  -- If needed, replace the pending size with the current window size.
  let toplevel :=
    if w.sizeOnce = some .useWindowSize then
      withPendingState w.toplevel fun state => { state with size := some w.geometry }
    else w.toplevel
  let (toplevel, serial) := sendConfigure toplevel
  { w with
    toplevel := toplevel
    needsConfigure := false
    needsFrameCallback := true
    animateSerials := if w.animateNextConfigure then w.animateSerials ++ [serial] else w.animateSerials
    pendingTransactions := w.pendingTransactions ++
      w.transactionForNextConfigure.toList.map fun transaction => (serial, transaction)
    interactiveResize :=
      if w.interactiveResize = some .waitingForLastConfigure then some (.waitingForLastCommit serial)
      else w.interactiveResize
    sizeOnce :=
      if w.sizeOnce = some .waitingForConfigure then some (.waitingForCommit serial) else w.sizeOnce
    uncommittedWindowedFullscreen := store w.uncommittedWindowedFullscreen w.isWindowedFullscreen
      w.isPendingWindowedFullscreen serial
    uncommittedMaximized := store w.uncommittedMaximized w.isMaximized w.isPendingMaximized serial }

def sendPendingConfigure (w : Mapped τ) : Mapped τ :=
  let (hasPendingChanges, w) := w.hasPendingChanges
  let w :=
    if hasPendingChanges then w.configure
    else
      { w with
        interactiveResize :=
          if w.interactiveResize = some .waitingForLastConfigure then none else w.interactiveResize }
  { w with
    animateNextConfigure := false
    transactionForNextConfigure := none }

/-- "Commit" the "acked" values: the flag takes those of the entries that are dropped, in order. -/
def commitFlag (uncommitted : List (ℕ × Bool)) (value : Bool) (commitSerial : ℕ) :
    Bool × List (ℕ × Bool) :=
  (lastSent (uncommitted.filter (·.1 ≤ commitSerial)) value,
    uncommitted.filter (¬ ·.1 ≤ commitSerial))

def onCommit (w : Mapped τ) (commitSerial : ℕ) : Mapped τ :=
  let (isWindowedFullscreen, uncommittedWindowedFullscreen) :=
    commitFlag w.uncommittedWindowedFullscreen w.isWindowedFullscreen commitSerial
  let (isMaximized, uncommittedMaximized) :=
    commitFlag w.uncommittedMaximized w.isMaximized commitSerial
  { w with
    interactiveResize :=
      match w.interactiveResize with
      | some (.waitingForLastCommit serial) =>
        if serial ≤ commitSerial then none else w.interactiveResize
      | _ => w.interactiveResize
    sizeOnce :=
      match w.sizeOnce with
      | some (.waitingForCommit serial) =>
        if serial ≤ commitSerial then some .useWindowSize else w.sizeOnce
      | _ => w.sizeOnce
    isWindowedFullscreen := isWindowedFullscreen
    uncommittedWindowedFullscreen := uncommittedWindowedFullscreen
    isMaximized := isMaximized
    uncommittedMaximized := uncommittedMaximized }

/-- A commit of the client, which may change the geometry of the window. -/
def commit (w : Mapped τ) (geometry : Layout.ISize) : Mapped τ :=
  let toplevel := ToplevelSurface.commit w.toplevel
  let w := { w with
    toplevel := toplevel
    geometry := geometry }
  match committed toplevel with
  | none => w
  | some configure => w.onCommit configure.serial

end Mapped

/-- What can happen to a window: requests of the compositor, and acks and commits of the client. -/
inductive Action where
  | requestSize (size : Layout.ISize) (mode : SizingMode) (animate : Bool) (transaction : Option ℕ)
  | requestSizeOnce (size : Layout.ISize) (animate : Bool)
  | requestWindowedFullscreen (value : Bool)
  | sendPendingConfigure
  | ackConfigure (serial : ℕ)
  | commit (geometry : Layout.ISize)
  deriving DecidableEq, Repr

def Mapped.step [DecidableEq ρ] (w : Mapped τ) : Action → Option (Mapped τ)
  | .requestSize size mode animate transaction => some (w.requestSize size mode animate transaction)
  | .requestSizeOnce size animate => some (w.requestSizeOnce size animate)
  | .requestWindowedFullscreen value => some (w.requestWindowedFullscreen value)
  | .sendPendingConfigure => some w.sendPendingConfigure
  | .ackConfigure serial =>
    (ToplevelSurface.ackConfigure w.toplevel serial).map fun toplevel => { w with toplevel := toplevel }
  | .commit geometry => some (w.commit geometry)

end Macniri.Window
