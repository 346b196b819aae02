import Macniri.Window.Convergence

/-! A window that is asked to float is neither fullscreen nor maximized, unless a pending state is
overlooked. -/
namespace Macniri.Window

open Option

open ToplevelSurface

variable {τ ρ : Type} [ToplevelSurface τ ρ]

/-- Nothing that changes what the window is asked to be: `request_size_once` itself, sending, or the
client. -/
def Action.KeepsFloating : Action → Prop
  | .requestSize .. => False
  | .requestWindowedFullscreen _ => False
  | _ => True

namespace Mapped

variable {w w' : Mapped τ} {size : Layout.ISize} {animate : Bool}

/-- The pending state of a floating window. -/
def PendingNormal (w : Mapped τ) : Prop :=
  (pending w.toplevel).maximized = false ∧
    (pending w.toplevel).fullscreen = w.isPendingWindowedFullscreen

/-- The window is asked to be floating. -/
structure AskedNormal (w : Mapped τ) : Prop where
  pending : w.PendingNormal
  maximized : w.isPendingMaximized = false

/-- `request_size_once` does not return early over a pending state that is fullscreen or maximized. -/
def NotOverlooked (w : Mapped τ) (size : Layout.ISize) : Prop :=
  w.alreadySent size = none ∨ w.PendingNormal

/-- Windowed fullscreen is fullscreen for the client. -/
def WindowedInv (w : Mapped τ) : Prop :=
  w.isPendingWindowedFullscreen = true →
    (pending w.toplevel).fullscreen = true ∧ (pending w.toplevel).maximized = false

theorem AskedNormal.pendingSizingMode_eq (h : w.AskedNormal) : w.pendingSizingMode = .normal := by
  obtain ⟨⟨hmaximized, hfullscreen⟩, hflag⟩ := h
  unfold pendingSizingMode
  rw [hflag]
  cases hwindowed : w.isPendingWindowedFullscreen with
  | true => simp
  | false =>
    rw [hwindowed] at hfullscreen
    simp [ToplevelState.sizingMode, hfullscreen, hmaximized]

theorem askedNormal_requestSizeOnce (hinv : w.WindowedInv) (h : w.NotOverlooked size) :
    (w.requestSizeOnce size animate).AskedNormal := by
  cases hs : w.alreadySent size with
  | some serial =>
    obtain ⟨once, -, hw⟩ := requestSizeOnce_of_sent animate hs
    rw [hw]
    refine ⟨?_, rfl⟩
    rcases h with h | h
    · rw [hs] at h
      cases h
    · exact h
  | none =>
    rw [requestSizeOnce_of_not_sent hs]
    refine ⟨⟨?_, ?_⟩, rfl⟩
    · simp only [setPending, pending_with]
    · simp only [setPending, pending_with]
      change ((pending w.toplevel).fullscreen && w.isPendingWindowedFullscreen) =
        w.isPendingWindowedFullscreen
      cases hwindowed : w.isPendingWindowedFullscreen with
      | false => simp
      | true => simp [(hinv hwindowed).1]

/-- An early return over a pending state leaves it pending. -/
theorem pendingNormal_of_requestSizeOnce {serial : ℕ} (hs : w.alreadySent size = some serial)
    (hinv : w.WindowedInv) (h : (w.requestSizeOnce size animate).pendingSizingMode = .normal) :
    w.PendingNormal := by
  obtain ⟨once, -, hw⟩ := requestSizeOnce_of_sent animate hs
  rw [hw] at h
  unfold pendingSizingMode at h
  dsimp only [asFloating] at h
  split_ifs at h with hwindowed
  · obtain ⟨hfullscreen, hmaximized⟩ := hinv hwindowed
    exact ⟨hmaximized, hfullscreen.trans hwindowed.symm⟩
  · unfold ToplevelState.sizingMode at h
    split_ifs at h with hfullscreen hmaximized
    exact ⟨by simpa using hmaximized, by simp_all⟩

/-- Only the size of the pending state differs, and nothing was sent. -/
structure SameButSize (t t' : τ) : Prop where
  pending : ∃ size, pending t' = { pending t with size := size }
  configures : pendingConfigures t' = pendingConfigures t

theorem SameButSize.refl (t : τ) : SameButSize t t := ⟨⟨_, rfl⟩, rfl⟩

theorem SameButSize.trans {t t' t'' : τ} (h : SameButSize t t') (h' : SameButSize t' t'') :
    SameButSize t t'' := by
  obtain ⟨size, hsize⟩ := h.pending
  obtain ⟨size', hsize'⟩ := h'.pending
  exact ⟨⟨size', by rw [hsize', hsize]⟩, h'.configures.trans h.configures⟩

theorem sameButSize_with (t : τ) (size : Option Layout.ISize) :
    SameButSize t (withPendingState t fun state => { state with size := size }) :=
  ⟨⟨size, pending_with⟩, configures_with ..⟩

theorem sameButSize_ignoreSize : SameButSize w.toplevel w.ignoreSize.toplevel := by
  unfold ignoreSize
  split_ifs
  · exact sameButSize_with ..
  · exact .refl _

theorem toplevel_configure :
    ∃ t, SameButSize w.toplevel t ∧ w.configure.toplevel = (sendConfigure t).1 := by
  unfold configure
  dsimp only
  split_ifs
  · exact ⟨_, sameButSize_with .., rfl⟩
  · exact ⟨_, .refl _, rfl⟩

theorem flags_commit (w : Mapped τ) (geometry : Layout.ISize) :
    (w.commit geometry).isPendingWindowedFullscreen = w.isPendingWindowedFullscreen ∧
      (w.commit geometry).isPendingMaximized = w.isPendingMaximized := by
  unfold Mapped.commit
  dsimp only
  split <;> exact ⟨rfl, rfl⟩

variable [DecidableEq ρ]

/-- `send_pending_configure` sends the pending state, possibly with another size, or sends nothing. -/
theorem toplevel_sendPendingConfigure : ∃ t, SameButSize w.toplevel t ∧
    (w.sendPendingConfigure.toplevel = (sendConfigure t).1 ∨ w.sendPendingConfigure.toplevel = t) := by
  have hw : SameButSize w.toplevel w.hasPendingChanges.2.toplevel := by
    rcases hasPendingChanges_snd (w := w) with h | h
    · rw [h]
      exact .refl _
    · rw [h]
      exact sameButSize_ignoreSize
  cases hchanged : w.hasPendingChanges.1 with
  | true =>
    obtain ⟨t, ht, hsent⟩ := toplevel_configure (w := w.hasPendingChanges.2)
    refine ⟨t, hw.trans ht, .inl ?_⟩
    rw [← hsent]
    simp [sendPendingConfigure, hchanged]
  | false =>
    refine ⟨_, hw, .inr ?_⟩
    simp [sendPendingConfigure, hchanged]

/-- Sending a configure changes nothing but the size of the pending state. -/
theorem pending_sendPendingConfigure :
    ∃ size, pending w.sendPendingConfigure.toplevel = { pending w.toplevel with size := size } := by
  obtain ⟨t, ht, hsent | hsent⟩ := toplevel_sendPendingConfigure (w := w)
  · rw [hsent, pending_send]
    exact ht.pending
  · rw [hsent]
    exact ht.pending

theorem state_of_sent {c : ToplevelConfigure ρ}
    (h : pendingConfigures w.sendPendingConfigure.toplevel = pendingConfigures w.toplevel ++ [c]) :
    c.state = pending w.sendPendingConfigure.toplevel := by
  obtain ⟨t, ht, hsent | hsent⟩ := toplevel_sendPendingConfigure (w := w)
  · rw [hsent, configures_send, ht.configures, List.append_cancel_left_eq, List.cons.injEq] at h
    rw [hsent, pending_send, ← h.1]
    rfl
  · rw [hsent, ht.configures] at h
    simp at h

theorem flags_sendPendingConfigure :
    w.sendPendingConfigure.isPendingWindowedFullscreen = w.isPendingWindowedFullscreen ∧
      w.sendPendingConfigure.isPendingMaximized = w.isPendingMaximized := by
  obtain ⟨t, ht, -⟩ := hasPendingChanges_eq (w := w)
  cases hchanged : w.hasPendingChanges.1 with
  | true => simp [sendPendingConfigure, hchanged, ht, configure]
  | false => simp [sendPendingConfigure, hchanged, ht]

/-! What a step keeps. -/

theorem windowedInv_step {a : Action} (h : w.WindowedInv) (hw : w.step a = some w') :
    w'.WindowedInv := by
  intro hwindowed
  cases a with
  | requestSize size mode animate transaction =>
    obtain rfl := some.inj hw
    have hflag : (w.isPendingWindowedFullscreen && !(mode == .fullscreen)) = true := hwindowed
    rw [pending_requestSize]
    cases mode <;> simp_all
  | requestSizeOnce size animate =>
    obtain rfl := some.inj hw
    cases hs : w.alreadySent size with
    | some serial =>
      obtain ⟨once, -, hw⟩ := requestSizeOnce_of_sent animate hs
      rw [hw] at hwindowed ⊢
      exact h hwindowed
    | none =>
      rw [requestSizeOnce_of_not_sent hs] at hwindowed ⊢
      have hflag : w.isPendingWindowedFullscreen = true := hwindowed
      simp [setPending, pending_with, asFloating, hflag, (h hflag).1]
  | requestWindowedFullscreen value =>
    obtain rfl := some.inj hw
    by_cases hsame : w.isPendingWindowedFullscreen = value
    · rw [requestWindowedFullscreen, if_pos hsame] at hwindowed ⊢
      exact h hwindowed
    · rw [requestWindowedFullscreen, if_neg hsame] at hwindowed ⊢
      have hvalue : value = true := hwindowed
      simp [pending_with, hvalue]
  | sendPendingConfigure =>
    obtain rfl := some.inj hw
    rw [flags_sendPendingConfigure.1] at hwindowed
    obtain ⟨size, hsize⟩ := pending_sendPendingConfigure (w := w)
    rw [hsize]
    exact h hwindowed
  | ackConfigure serial =>
    obtain ⟨t, ht, rfl⟩ := of_map hw
    rw [pending_ack ht]
    exact h hwindowed
  | commit geometry =>
    obtain rfl := some.inj hw
    rw [(flags_commit _ _).1] at hwindowed
    rw [toplevel_commit, pending_commit]
    exact h hwindowed

theorem askedNormal_step {a : Action} (hinv : w.WindowedInv) (h : w.AskedNormal)
    (ha : a.KeepsFloating) (hw : w.step a = some w') : w'.AskedNormal := by
  cases a with
  | requestSize | requestWindowedFullscreen => cases ha
  | requestSizeOnce size animate =>
    obtain rfl := some.inj hw
    exact askedNormal_requestSizeOnce hinv (.inr h.pending)
  | sendPendingConfigure =>
    obtain rfl := some.inj hw
    obtain ⟨size, hsize⟩ := pending_sendPendingConfigure (w := w)
    obtain ⟨hwindowed, hmaximized⟩ := flags_sendPendingConfigure (w := w)
    refine ⟨?_, hmaximized.trans h.maximized⟩
    unfold PendingNormal
    rw [hsize, hwindowed]
    exact h.pending
  | ackConfigure serial =>
    obtain ⟨t, ht, rfl⟩ := of_map hw
    refine ⟨?_, h.maximized⟩
    unfold PendingNormal
    rw [pending_ack ht]
    exact h.pending
  | commit geometry =>
    obtain rfl := some.inj hw
    obtain ⟨hwindowed, hmaximized⟩ := flags_commit w geometry
    refine ⟨?_, hmaximized.trans h.maximized⟩
    unfold PendingNormal
    rw [toplevel_commit, pending_commit, hwindowed]
    exact h.pending

/-- A floating window stays asked for as such until the next request. -/
theorem askedNormal_run {ys : List Action} (hinv : w.WindowedInv) (h : w.AskedNormal)
    (hys : ∀ a ∈ ys, a.KeepsFloating) (hw : run step w ys = some w') : w'.AskedNormal := by
  induction ys generalizing w with
  | nil => exact some.inj hw ▸ h
  | cons a ys ih =>
    obtain ⟨v, hv, hrest⟩ := of_bind hw
    exact ih (windowedInv_step hinv hv)
      (askedNormal_step hinv h (hys a (List.mem_cons_self ..)) hv)
      (fun b hb => hys b (List.mem_cons_of_mem _ hb)) hrest

theorem AskedNormal.sent {c : ToplevelConfigure ρ} (h : w.AskedNormal)
    (hc : pendingConfigures w.sendPendingConfigure.toplevel = pendingConfigures w.toplevel ++ [c]) :
    c.state.maximized = false ∧ c.state.fullscreen = w.isPendingWindowedFullscreen := by
  obtain ⟨size, hsize⟩ := pending_sendPendingConfigure (w := w)
  rw [state_of_sent hc, hsize]
  exact h.pending

/-- A window that is asked to float is configured as such exactly if `request_size_once` does not
overlook a pending state. -/
theorem configured_floating_iff (t : τ) (geometry : Layout.ISize) (xs : List Action) (w : Mapped τ)
    (size : Layout.ISize) (animate : Bool) (hw : run step (new t geometry) xs = some w) :
    (∀ ys w', (∀ a ∈ ys, Action.KeepsFloating a) →
      run step (w.requestSizeOnce size animate) ys = some w' →
      w'.pendingSizingMode = .normal ∧
        ∀ c : ToplevelConfigure ρ, pendingConfigures w'.sendPendingConfigure.toplevel =
            pendingConfigures w'.toplevel ++ [c] →
          c.state.maximized = false ∧ c.state.fullscreen = w'.isPendingWindowedFullscreen) ↔
      w.NotOverlooked size := by
  have hinv : w.WindowedInv := run_invariant (I := fun w => w.WindowedInv)
    (fun _ _ _ h hw => windowedInv_step h hw) (fun h => by cases h) hw
  constructor
  · intro h
    cases hs : w.alreadySent size with
    | none => exact .inl hs
    | some serial =>
      obtain ⟨hmode, -⟩ := h [] _ (by simp) rfl
      exact .inr (pendingNormal_of_requestSizeOnce hs hinv hmode)
  · intro h ys w' hys hw'
    have hinv' : (w.requestSizeOnce size animate).WindowedInv :=
      windowedInv_step (a := .requestSizeOnce size animate) hinv rfl
    have hasked := askedNormal_run hinv' (askedNormal_requestSizeOnce hinv h) hys hw'
    exact ⟨hasked.pendingSizingMode_eq, fun c hc => hasked.sent hc⟩

theorem configured_floating_iff_normal :
    run step mapped [.requestSize ⟨200, 200⟩ .maximized true none] =
        some (mapped.requestSize ⟨200, 200⟩ .maximized true none) ∧
      ((mapped.requestSize ⟨200, 200⟩ .maximized true none).requestSizeOnce ⟨100, 100⟩
        true).pendingSizingMode = .normal := by
  have hw : run step mapped [.requestSize ⟨200, 200⟩ .maximized true none] =
      some (mapped.requestSize ⟨200, 200⟩ .maximized true none) := rfl
  refine ⟨hw, ?_⟩
  have hall := (configured_floating_iff _ _ _ _ ⟨100, 100⟩ true hw).mpr (.inl rfl)
  exact (hall [] _ (by simp) rfl).1

/-- A floating window is maximized and made floating again before a configure is sent, while the
client did not commit to the one before. -/
def maximizeUnsent : List Action :=
  [.requestSizeOnce ⟨200, 200⟩ true, .sendPendingConfigure, .requestSize ⟨400, 400⟩ .maximized true none]

theorem configured_maximized : ∃ w, run step mapped maximizeUnsent = some w ∧
    (w.requestSizeOnce ⟨200, 200⟩ true).pendingSizingMode = .maximized ∧
    pendingConfigures (w.requestSizeOnce ⟨200, 200⟩ true).sendPendingConfigure.toplevel =
      pendingConfigures (w.requestSizeOnce ⟨200, 200⟩ true).toplevel ++
        [⟨⟨some ⟨400, 400⟩, false, true, ()⟩, 3⟩] := by
  exact ⟨_, rfl, rfl, rfl⟩

end Mapped

end Macniri.Window
