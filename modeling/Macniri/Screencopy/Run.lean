import Macniri.Screencopy.Answers

/-! Which copy a call answers: the one it rendered, in the order of the requests, as long as a queue that
is served holds one copy. -/
namespace Macniri.WlrScreencopy

open Option List HashMap

open Macniri.WlrScreencopy.Niri

def submittedOf : Event → Option Screencopy
  | .submitted screencopy => some screencopy
  | _ => none

def submittedCopies (events : List Event) : List Screencopy := events.filterMap submittedOf

def queuedOf (manager output : ℕ) : Event → Option Screencopy
  | .queued m screencopy =>
    if m = manager ∧ screencopy.info.output = output then some screencopy else none
  | _ => none

/-- The copies that a manager asked for on an output, to be made at the next damage. -/
def queuedCopies (manager output : ℕ) (events : List Event) : List Screencopy :=
  events.filterMap (queuedOf manager output)

/-- What one call may send. -/
structure CallOk (events : List Event) : Prop where
  /-- Only a copy that the call rendered, from its own output, is submitted. -/
  rendered : ∀ sc, .submitted sc ∈ events → .rendered sc.info.output sc ∈ events
  /-- Damage is sent to the frame that is submitted. -/
  damage : ∀ f loc size, .damage f loc size ∈ events → ∃ sc, sc.frame = f ∧ .submitted sc ∈ events
  /-- A render error fails the copy that was rendered. -/
  renderError : ∀ o sc, .renderError o sc ∈ events → .failed sc.frame ∈ events
  /-- It fails no other. -/
  failed : ∀ o sc, .renderError o sc ∈ events → ∀ f, .failed f ∈ events →
    ∃ o sc, sc.frame = f ∧ .renderError o sc ∈ events

/-- What the calls so far have made of the requests. -/
structure Correct (s : Niri) (log : List (List Event)) : Prop where
  calls : ∀ events ∈ log, CallOk events
  /-- A frame is ready only after its copy was submitted. -/
  ready : ∀ f t, .ready f t ∈ log.flatten → ∃ sc, sc.frame = f ∧ .submitted sc ∈ log.flatten
  /-- No frame gets two of `ready` and `failed`. -/
  once : (answered log.flatten).Nodup
  /-- A copy leaves its queue only to be submitted or failed. -/
  left : ∀ m sc, .queued m sc ∈ log.flatten →
    sc ∈ s.queue m ∨ .submitted sc ∈ log.flatten ∨ .failed sc.frame ∈ log.flatten
  /-- What one manager has queued on one output is submitted in the order of the requests. -/
  order : ∀ m o, ((submittedCopies log.flatten).filter
    (· ∈ queuedCopies m o log.flatten)).Sublist (queuedCopies m o log.flatten)

/-- Where the first copy of a queue is to be taken out, it is the only one. -/
def OneWaiting (output : ℕ) (answers : ℕ → Answer) (s : Niri) : Prop :=
  ∀ m sc q, s.queues.get m = some (sc :: q) → sc.info.output = output →
    (answers m).damages.isSome = true → q = []

def Served (s : Niri) : Op → Prop
  | .redraw output answers _ => OneWaiting output answers s
  | _ => True

/-- What is still queued comes after what was submitted. -/
def Ordered (s : Niri) (events : List Event) : Prop :=
  ∀ m o, ((submittedCopies events).filter (· ∈ queuedCopies m o events) ++
    (s.queue m).filter (fun sc => sc.info.output = o)).Sublist (queuedCopies m o events)

variable {s s' : Niri} {events es : List Event} {sc : Screencopy} {m o f : ℕ}

@[simp] theorem submittedCopies_append :
    submittedCopies (events ++ es) = submittedCopies events ++ submittedCopies es := by
  simp [submittedCopies]

@[simp] theorem queuedCopies_append :
    queuedCopies m o (events ++ es) = queuedCopies m o events ++ queuedCopies m o es := by
  simp [queuedCopies]

theorem mem_submittedCopies : sc ∈ submittedCopies events ↔ .submitted sc ∈ events := by
  simp only [submittedCopies, mem_filterMap]
  constructor
  · rintro ⟨e, he, h⟩
    cases e <;> simp [submittedOf] at h
    exact h ▸ he
  · exact fun h => ⟨_, h, rfl⟩

theorem mem_queuedCopies :
    sc ∈ queuedCopies m o events ↔ .queued m sc ∈ events ∧ sc.info.output = o := by
  simp only [queuedCopies, mem_filterMap]
  constructor
  · rintro ⟨e, he, h⟩
    cases e <;> simp [queuedOf] at h
    obtain ⟨⟨rfl, ho⟩, rfl⟩ := h
    exact ⟨he, ho⟩
  · rintro ⟨h, ho⟩
    exact ⟨_, h, by simp [queuedOf, ho]⟩

theorem submittedCopies_eq_nil (h : ∀ sc, .submitted sc ∉ es) : submittedCopies es = [] := by
  rw [eq_nil_iff_forall_not_mem]
  intro sc hsc
  exact h sc (mem_submittedCopies.mp hsc)

theorem queuedCopies_eq_nil (h : ∀ m sc, .queued m sc ∉ es) : queuedCopies m o es = [] := by
  rw [eq_nil_iff_forall_not_mem]
  intro sc hsc
  exact h m sc (mem_queuedCopies.mp hsc).1

namespace Ordered

theorem init : Ordered Niri.init [] := by
  intro m o
  simp [Niri.init, Niri.queue, submittedCopies, queuedCopies]

/-- Nothing is submitted or queued; copies may leave the queues. -/
theorem shrink (h : Ordered s events) (hsub : ∀ sc, .submitted sc ∉ es)
    (hqueued : ∀ m sc, .queued m sc ∉ es) (hqueue : ∀ m, (s'.queue m).Sublist (s.queue m)) :
    Ordered s' (events ++ es) := by
  intro m o
  rw [submittedCopies_append, queuedCopies_append, submittedCopies_eq_nil hsub,
    queuedCopies_eq_nil hqueued, append_nil, append_nil]
  exact ((Sublist.refl _).append ((hqueue m).filter _)).trans (h m o)

/-- A copy that was never queued is submitted. -/
theorem submit (h : Ordered s events) (hsub : submittedCopies es = [sc])
    (hqueued : ∀ m sc, .queued m sc ∉ es) (hnot : ∀ m, .queued m sc ∉ events)
    (hqueue : ∀ m, s'.queue m = s.queue m) : Ordered s' (events ++ es) := by
  intro m o
  have hne : sc ∉ queuedCopies m o events := fun hmem => hnot m (mem_queuedCopies.mp hmem).1
  rw [submittedCopies_append, queuedCopies_append, hsub, queuedCopies_eq_nil hqueued,
    append_nil, filter_append, hqueue]
  simpa [hne] using h m o

/-- The only copy of a queue is submitted. -/
theorem serve (h : Ordered s events) (hq : s.queue m = [sc]) (hmem : .queued m sc ∈ events)
    (honly : ∀ m', .queued m' sc ∈ events → m' = m) (hsub : submittedCopies es = [sc])
    (hqueued : ∀ m sc, .queued m sc ∉ es)
    (hqueue : ∀ m', s'.queue m' = if m' = m then [] else s.queue m') : Ordered s' (events ++ es) := by
  intro m' o
  have hm := h m' o
  rw [submittedCopies_append, queuedCopies_append, hsub, queuedCopies_eq_nil hqueued,
    append_nil, filter_append, hqueue]
  by_cases heq : m' = m
  · subst heq
    rw [hq] at hm
    by_cases ho : sc.info.output = o
    · have hin : sc ∈ queuedCopies m' o events := mem_queuedCopies.mpr ⟨hmem, ho⟩
      simpa [hin, ho] using hm
    · have hout : sc ∉ queuedCopies m' o events := fun hin => ho (mem_queuedCopies.mp hin).2
      simpa [hout, ho] using hm
  · have hout : sc ∉ queuedCopies m' o events := fun hin => heq (honly m' (mem_queuedCopies.mp hin).1)
    simpa [hout, heq] using hm

theorem push {q : List Screencopy} (h : Ordered s events) (hq : s.queues.get m = some q)
    (hnot : .submitted sc ∉ events) :
    Ordered { s with queues := s.queues.insert m (q ++ [sc]) } (events ++ [.queued m sc]) := by
  intro m' o
  have hm := h m' o
  have hs : submittedCopies [.queued m sc] = [] := rfl
  rw [submittedCopies_append, queuedCopies_append, hs, append_nil, queue_insert]
  by_cases hhere : m' = m ∧ sc.info.output = o
  · obtain ⟨rfl, ho⟩ := hhere
    have hq' : queuedCopies m' o [.queued m' sc] = [sc] := by simp [queuedCopies, queuedOf, ho]
    have hfilter : (submittedCopies events).filter (· ∈ queuedCopies m' o events ++ [sc]) =
        (submittedCopies events).filter (· ∈ queuedCopies m' o events) := by
      refine filter_congr fun x hx => ?_
      have hne : x ≠ sc := fun heq => hnot (heq ▸ mem_submittedCopies.mp hx)
      simp [hne]
    rw [hq', hfilter, if_pos rfl, filter_append, ← append_assoc]
    rw [queue_of_get hq] at hm
    refine hm.append ?_
    simp [ho]
  · have hq' : queuedCopies m' o [.queued m sc] = [] := by
      simp only [queuedCopies, filterMap_cons, queuedOf, filterMap_nil]
      rw [if_neg fun h => hhere ⟨h.1.symm, h.2⟩]
    rw [hq', append_nil]
    split_ifs with heq
    · have ho : sc.info.output ≠ o := fun ho => hhere ⟨heq, ho⟩
      rw [heq, queue_of_get hq, ← heq] at hm
      simpa [ho] using hm
    · exact hm

end Ordered

section Calls

variable {sync : Bool} {now : ℕ}

theorem submittedCopies_submitAfterSync :
    submittedCopies (s.submitAfterSync sc sync now).2 = [sc] := by
  unfold Niri.submitAfterSync
  split <;> rfl

theorem queued_not_mem_submitAfterSync (m : ℕ) (sc' : Screencopy) :
    .queued m sc' ∉ (s.submitAfterSync sc sync now).2 := by
  unfold Niri.submitAfterSync
  split <;> simp

theorem failed_not_mem_submitAfterSync : .failed f ∉ (s.submitAfterSync sc sync now).2 := by
  unfold Niri.submitAfterSync
  split <;> simp

theorem renderError_not_mem_submitAfterSync (sc' : Screencopy) :
    .renderError o sc' ∉ (s.submitAfterSync sc sync now).2 := by
  unfold Niri.submitAfterSync
  split <;> simp

theorem damage_not_mem_submitAfterSync (loc size : ℤ × ℤ) :
    .damage f loc size ∉ (s.submitAfterSync sc sync now).2 := by
  unfold Niri.submitAfterSync
  split <;> simp

theorem mem_submitAfterSync (sc' : Screencopy) :
    .submitted sc' ∈ (s.submitAfterSync sc sync now).2 ↔ sc' = sc := by
  rw [← mem_submittedCopies, submittedCopies_submitAfterSync, mem_singleton]

@[simp] theorem queue_submitAfterSync (m : ℕ) :
    (s.submitAfterSync sc sync now).1.queue m = s.queue m := by
  unfold Niri.submitAfterSync
  split <;> rfl

/-- A call without a render error that submits nothing. -/
theorem CallOk.quiet (hsub : ∀ sc, .submitted sc ∉ es) (hdamage : ∀ f l z, .damage f l z ∉ es)
    (herror : ∀ o sc, .renderError o sc ∉ es) : CallOk es :=
  ⟨fun sc h => absurd h (hsub sc), fun f l z h => absurd h (hdamage f l z),
    fun o sc h => absurd h (herror o sc), fun o sc h => absurd h (herror o sc)⟩

/-- A call about one copy. -/
theorem callOk_frame {answer : Option Answer} : CallOk (s.frame m sc answer now).2 := by
  rcases frame_cases s m sc answer now with ⟨q, -, heq⟩ | heq | heq | ⟨sync, heq⟩ <;> rw [heq]
  · exact .quiet (by simp) (by simp) (by simp)
  · exact .quiet (by simp) (by simp) (by simp)
  · refine ⟨by simp, by simp, fun o sc' h => ?_, fun o sc' _ f hf => ?_⟩
    · obtain ⟨-, rfl⟩ : o = sc.info.output ∧ sc' = sc := by simpa using h
      simp
    · obtain rfl : f = sc.frame := by simpa using hf
      exact ⟨_, sc, rfl, mem_cons_self ..⟩
  · refine ⟨fun sc' h => ?_, fun f l z h => ?_, fun o sc' h => ?_, fun o sc' h => ?_⟩
    · obtain rfl : sc' = sc := by simpa [mem_submitAfterSync] using h
      exact mem_cons_self ..
    · simp [damage_not_mem_submitAfterSync] at h
    · simp [renderError_not_mem_submitAfterSync] at h
    · simp [renderError_not_mem_submitAfterSync] at h

theorem callOk_copy {withDamage : Bool} {buffer : WlBuffer} {answer : Option Answer}
    {res : Niri × List Event} (h : s.copy f withDamage buffer answer now = some res) :
    CallOk res.2 := by
  obtain ⟨data, -, rfl⟩ := of_map h
  cases data with
  | failed => exact .quiet (by simp) (by simp) (by simp)
  | pending manager info copied =>
    dsimp only
    split
    · exact .quiet (by simp) (by simp) (by simp)
    · split
      · exact .quiet (by simp) (by simp) (by simp)
      · exact callOk_frame

theorem ordered_frame {answer : Option Answer} (h : Ordered s events)
    (hnew : ∀ m, .queued m sc ∉ events) (hsub : .submitted sc ∉ events) :
    Ordered (s.frame m sc answer now).1 (events ++ (s.frame m sc answer now).2) := by
  rcases frame_cases s m sc answer now with ⟨q, hq, heq⟩ | heq | heq | ⟨sync, heq⟩ <;> rw [heq]
  · exact h.push hq hsub
  · exact h.shrink (by simp) (by simp) fun m => .refl _
  · exact h.shrink (by simp) (by simp) fun m => .refl _
  · refine h.submit ?_ ?_ hnew fun m => queue_submitAfterSync m
    · exact submittedCopies_submitAfterSync
    · intro m' sc'
      simp [queued_not_mem_submitAfterSync]

theorem ordered_copy {withDamage : Bool} {buffer : WlBuffer} {answer : Option Answer}
    {res : Niri × List Event} (hi : Inv s events []) (ho : Ordered s events)
    (h : s.copy f withDamage buffer answer now = some res) : Ordered res.1 (events ++ res.2) := by
  obtain ⟨data, hdata, rfl⟩ := of_map h
  cases data with
  | failed => exact ho.shrink (by simp) (by simp) fun m => .refl _
  | pending manager info copied =>
    dsimp only
    split
    · exact ho.shrink (by simp) (by simp) fun m => .refl _
    · rename_i hcopied
      split
      · exact ho.shrink (by simp) (by simp) fun m => .refl _
      · have hunused : ¬ s.Used f := by
          rintro ⟨d, hd, hu⟩
          obtain rfl := some.inj (hdata.symm.trans hd)
          exact hcopied hu
        refine ordered_frame (s := { s with frames := _ }) ho (fun m hq => ?_) fun hs => ?_
        · exact hunused ⟨_, hi.queued m _ hq, rfl⟩
        · exact hunused (hi.submitted _ hs)

/-- What the loop over the queues sends. -/
structure LoopOk (events : List Event) : Prop where
  rendered : ∀ sc, .submitted sc ∈ events → .rendered sc.info.output sc ∈ events
  damage : ∀ f loc size, .damage f loc size ∈ events → ∃ sc, sc.frame = f ∧ .submitted sc ∈ events
  failed : ∀ f, .failed f ∈ events ↔ ∃ o sc, sc.frame = f ∧ .renderError o sc ∈ events

theorem LoopOk.callOk (h : LoopOk es) : CallOk es :=
  ⟨h.rendered, h.damage, fun o sc hsc => (h.failed _).mpr ⟨o, sc, rfl, hsc⟩,
    fun _ _ _ f hf => (h.failed f).mp hf⟩

theorem LoopOk.nil : LoopOk [] := ⟨by simp, by simp, by simp⟩

theorem LoopOk.append (h : LoopOk events) (h' : LoopOk es) : LoopOk (events ++ es) := by
  refine ⟨fun sc hsc => ?_, fun f l z hd => ?_, fun f => ?_⟩
  · rcases mem_append.mp hsc with hsc | hsc
    · exact mem_append_left _ (h.rendered sc hsc)
    · exact mem_append_right _ (h'.rendered sc hsc)
  · rcases mem_append.mp hd with hd | hd
    · obtain ⟨sc, hf, hsc⟩ := h.damage f l z hd
      exact ⟨sc, hf, mem_append_left _ hsc⟩
    · obtain ⟨sc, hf, hsc⟩ := h'.damage f l z hd
      exact ⟨sc, hf, mem_append_right _ hsc⟩
  · rw [mem_append, h.failed, h'.failed]
    simp only [mem_append]
    constructor
    · rintro (⟨o, sc, hf, hsc⟩ | ⟨o, sc, hf, hsc⟩)
      · exact ⟨o, sc, hf, .inl hsc⟩
      · exact ⟨o, sc, hf, .inr hsc⟩
    · rintro ⟨o, sc, hf, hsc | hsc⟩
      · exact .inl ⟨o, sc, hf, hsc⟩
      · exact .inr ⟨o, sc, hf, hsc⟩

/-- A turn of the loop, where the copy it renders is the one it pops. -/
theorem serve_renderQueue {output : ℕ} {answers : ℕ → Answer} {r r' : Niri × List Event}
    (hi : Inv r.1 (events ++ r.2) []) (ho : Ordered r.1 (events ++ r.2)) (hl : LoopOk r.2)
    (hone : OneWaiting output answers r.1) (h : renderQueue output answers now r m = some r') :
    Ordered r'.1 (events ++ r'.2) ∧ LoopOk r'.2 ∧ OneWaiting output answers r'.1 := by
  rcases renderQueue_cases h with rfl | ⟨sc, q, last, hq, hfirst, hout, hlast, hdmg, hcase⟩
  · exact ⟨ho, hl, hone⟩
  · obtain rfl : q = [sc] := by
      cases q with
      | nil => simp at hfirst
      | cons a q =>
        obtain rfl : a = sc := by simpa using hfirst
        rw [hone m a q hq hout hdmg]
    obtain rfl : sc = last := by simpa using hlast
    have hwait : OneWaiting output answers
        ({ r.1 with queues := r.1.queues.insert m [] } : Niri) := by
      intro m' sc' q' hq'
      simp only [get_insert] at hq'
      split_ifs at hq' with heq
      · simp at hq'
      · exact hone m' sc' q' hq'
    have hqueue := queue_of_get hq
    have hmem := hi.waiting m sc (by simp [hqueue])
    rcases hcase with ⟨damages, sync, -, -, rfl⟩ | ⟨-, rfl⟩
    · have hnq : ∀ m' sc', .queued m' sc' ∉ (Event.rendered output sc ::
          (damages.map (fun d => .damage sc.frame d.1 d.2) ++
            (({ r.1 with queues := r.1.queues.insert m [] } : Niri).submitAfterSync sc sync now).2)) := by
        intro m' sc'
        simp [queued_not_mem_submitAfterSync]
      have hsub : submittedCopies (Event.rendered output sc ::
          (damages.map (fun d => .damage sc.frame d.1 d.2) ++
            (({ r.1 with queues := r.1.queues.insert m [] } : Niri).submitAfterSync sc sync now).2)) =
          [sc] := by
        have hnil : submittedCopies (damages.map fun d => .damage sc.frame d.1 d.2) = [] :=
          submittedCopies_eq_nil (by simp)
        have hcons : ∀ l, submittedCopies (Event.rendered output sc :: l) = submittedCopies l :=
          fun l => rfl
        rw [hcons, submittedCopies_append, hnil, submittedCopies_submitAfterSync, nil_append]
      refine ⟨?_, hl.append ⟨fun sc' h => ?_, fun f l z h => ?_, fun f => ?_⟩, ?_⟩
      · rw [← append_assoc]
        refine ho.serve (m := m) hqueue hmem (fun m' hm' => ?_) hsub hnq fun m' => ?_
        · have := (hi.queued m' sc hm').symm.trans (hi.queued m sc hmem)
          simp only [some.injEq, FrameState.pending.injEq] at this
          exact this.1
        · rw [queue_submitAfterSync]
          exact queue_insert m'
      · obtain rfl : sc' = sc := by simpa [mem_submitAfterSync] using h
        rw [hout]
        exact mem_cons_self ..
      · refine ⟨sc, ?_, by simp [mem_submitAfterSync]⟩
        simp only [mem_cons, reduceCtorEq, mem_append, List.mem_map,
          damage_not_mem_submitAfterSync, or_false, false_or] at h
        obtain ⟨d, -, hd⟩ := h
        simp only [Event.damage.injEq] at hd
        exact hd.1
      · simp [failed_not_mem_submitAfterSync, renderError_not_mem_submitAfterSync]
      · unfold Niri.submitAfterSync
        split <;> exact hwait
    · refine ⟨?_, hl.append ⟨by simp, by simp, fun f => ?_⟩, hwait⟩
      · rw [← append_assoc]
        refine ho.shrink (by simp) (by simp) fun m' => ?_
        rw [dropLast_singleton, queue_insert]
        split
        · exact nil_sublist _
        · exact .refl _
      · simp [eq_comm]

theorem serve_redraw {ord : IterOrder} {output : ℕ} {answers : ℕ → Answer} {res : Niri × List Event}
    (hi : Inv s events []) (ho : Ordered s events) (hone : OneWaiting output answers s)
    (h : s.renderForScreencopyWithDamage ord output answers now = some res) :
    Ordered res.1 (events ++ res.2) ∧ CallOk res.2 := by
  have hloop := foldlM_invariant (P := fun r : Niri × List Event =>
    Inv r.1 (events ++ r.2) [] ∧ Ordered r.1 (events ++ r.2) ∧ LoopOk r.2 ∧
      OneWaiting output answers r.1)
    (fun r m _ r' hr hstep => ⟨inv_renderQueue hr.1 hstep,
      serve_renderQueue hr.1 hr.2.1 hr.2.2.1 hr.2.2.2 hstep⟩)
    ⟨by simpa using hi, by simpa using ho, .nil, hone⟩ h
  exact ⟨hloop.2.1, hloop.2.2.1.callOk⟩

theorem serve_call {ord : IterOrder} {op : Op} {res : Niri × List Event} (hi : Inv s events [])
    (ho : Ordered s events) (hop : Served s op) (h : call ord s op = some res) :
    Ordered res.1 (events ++ res.2) ∧ CallOk res.2 := by
  have hquiet : CallOk [] := .quiet (by simp) (by simp) (by simp)
  cases op with
  | bind m =>
    simp only [call] at h
    split at h
    · simp at h
    · rename_i hm
      obtain rfl := some.inj h
      refine ⟨ho.shrink (by simp) (by simp) fun m' => ?_, hquiet⟩
      rw [hi.queue_bind (by simpa using hm)]
  | destroyManager m =>
    simp only [call] at h
    split at h
    · obtain rfl := some.inj h
      exact ⟨ho.shrink (by simp) (by simp) fun m' => .refl _, hquiet⟩
    · simp at h
  | capture m f info =>
    simp only [call] at h
    split at h
    · obtain rfl := some.inj h
      cases info with
      | none =>
        exact ⟨ho.shrink (by simp [Niri.capture]) (by simp [Niri.capture]) fun m' => .refl _,
          .quiet (by simp [Niri.capture]) (by simp [Niri.capture]) (by simp [Niri.capture])⟩
      | some info =>
        exact ⟨ho.shrink (by simp [Niri.capture]) (by simp [Niri.capture]) fun m' => .refl _, hquiet⟩
    · simp at h
  | copy f withDamage buffer answer now => exact ⟨ordered_copy hi ho h, callOk_copy h⟩
  | redraw output answers now =>
    simp only [call] at h
    split at h
    · exact serve_redraw hi ho hop h
    · simp at h
  | addOutput output =>
    simp only [call] at h
    split at h
    · simp at h
    · obtain rfl := some.inj h
      exact ⟨ho.shrink (by simp) (by simp) fun m' => .refl _, hquiet⟩
  | removeOutput output =>
    simp only [call] at h
    split at h
    · obtain rfl := some.inj h
      refine ⟨ho.shrink (by simp [Niri.removeOutput]) (by simp [Niri.removeOutput]) fun m' => ?_,
        .quiet (by simp [Niri.removeOutput]) (by simp [Niri.removeOutput]) (by simp [Niri.removeOutput])⟩
      rw [queue_removeOutput]
      exact filter_sublist
    · simp at h
  | signal i =>
    obtain ⟨e, -, rfl⟩ := of_map h
    exact ⟨ho.shrink (by simp) (by simp) fun m' => .refl _, .quiet (by simp) (by simp) (by simp)⟩

end Calls

/-- In every run in which a queue that a redraw takes a copy from holds no other copy, the calls answer
what they rendered, once and in order. -/
theorem screencopy_correct {ord : IterOrder} {ops : List Op} {r : Niri × List (List Event)}
    (h : run (step ord) (Niri.init, []) ops = some r)
    (hserved : AllAlong (step ord) (fun r op => Served r.1 op) (Niri.init, []) ops) :
    Correct r.1 r.2 := by
  have hinv := run_invariant_of_allAlong
    (I := fun r => Inv r.1 r.2.flatten [] ∧ Ordered r.1 r.2.flatten ∧ ∀ es ∈ r.2, CallOk es)
    (fun r op r' hr hop hs => by
      refine ⟨inv_step hr.1 hs, ?_⟩
      obtain ⟨res, hres, rfl⟩ := of_map hs
      obtain ⟨hord, hcall⟩ := serve_call hr.1 hr.2.1 hop hres
      refine ⟨by simpa using hord, fun es hes => ?_⟩
      rcases mem_append.mp hes with hes | hes
      · exact hr.2.2 es hes
      · exact mem_singleton.mp hes ▸ hcall)
    ⟨inv_init, Ordered.init, by simp⟩ hserved h
  obtain ⟨hi, ho, hc⟩ := hinv
  refine ⟨hc, hi.ready, ?_, fun m sc hsc => ?_, fun m o => ?_⟩
  · exact hi.taken.sublist (by simp [Niri.taken])
  · rcases hi.left m sc hsc with hl | hl | hl | hl
    · exact .inl hl
    · exact .inr (.inl hl)
    · exact .inr (.inr hl)
    · simp at hl
  · exact (sublist_append_left ..).trans (ho m o)

section Example

variable (ord : IterOrder)

def testInfo (regionLoc : ℤ × ℤ) : FrameInfo := ⟨1, (2, 2), regionLoc, false⟩

def testBuffer (id : ℕ) : WlBuffer := .shm id true 2 2 8 16

def testCopy (frame buffer : ℕ) (regionLoc : ℤ × ℤ) : Screencopy :=
  ⟨testInfo regionLoc, frame, .shm buffer, true⟩

/-- The tracker finds damage, and the render to the buffer succeeds. -/
def testAnswers (_ : ℕ) : Answer := ⟨some [((0, 0), (2, 2))], some false⟩

/-- One copy with damage of a manager on an output. -/
def oneCopy : List Op :=
  [.bind 1, .addOutput 1, .capture 1 10 (some (testInfo (0, 0))),
    .copy 10 true (testBuffer 20) none 0]

/-- Another one, of another region, waits behind it. -/
def twoCopies : List Op :=
  oneCopy ++ [.capture 1 11 (some (testInfo (2, 0))), .copy 11 true (testBuffer 21) none 0]

theorem run_oneCopy : run (step ord) (Niri.init, []) oneCopy =
    some (⟨[1], (∅ : HashMap ℕ Bool).insert 1 true,
        (∅ : HashMap ℕ (List Screencopy)).insert 1 [testCopy 10 20 (0, 0)],
        (∅ : HashMap ℕ FrameState).insert 10 (.pending 1 (testInfo (0, 0)) true), []⟩,
      [[], [], [], [.queued 1 (testCopy 10 20 (0, 0))]]) := by
  simp [run, oneCopy, step, call, Niri.init, Niri.bind, Niri.capture, Niri.copy, Niri.frame,
    checkBuffer, testInfo, testBuffer, testCopy]

theorem run_twoCopies : run (step ord) (Niri.init, []) twoCopies =
    some (⟨[1], (∅ : HashMap ℕ Bool).insert 1 true,
        (∅ : HashMap ℕ (List Screencopy)).insert 1 [testCopy 10 20 (0, 0), testCopy 11 21 (2, 0)],
        ((∅ : HashMap ℕ FrameState).insert 10 (.pending 1 (testInfo (0, 0)) true)).insert 11
          (.pending 1 (testInfo (2, 0)) true), []⟩,
      [[], [], [], [.queued 1 (testCopy 10 20 (0, 0))], [], [.queued 1 (testCopy 11 21 (2, 0))]]) := by
  rw [twoCopies, run_append, run_oneCopy]
  simp [run, step, call, Niri.capture, Niri.copy, Niri.frame, checkBuffer, testInfo, testBuffer,
    testCopy]

/-- With one copy in the queue, the redraw answers it. -/
theorem screencopy_one_waiting : ∃ (ord : IterOrder) (r : Niri × List (List Event)),
    run (step ord) (Niri.init, []) (oneCopy ++ [.redraw 1 testAnswers 5]) = some r ∧
      .ready 10 5 ∈ r.2.flatten ∧ Correct r.1 r.2 := by
  refine ⟨IterOrder.arbitrary, ?_⟩
  generalize IterOrder.arbitrary = ord
  have hrun : ∃ r, run (step ord) (Niri.init, []) (oneCopy ++ [.redraw 1 testAnswers 5]) = some r ∧
      .ready 10 5 ∈ r.2.flatten := by
    rw [run_append, run_oneCopy]
    simp [run, step, call, renderForScreencopyWithDamage, iter_singleton, renderQueue,
      renderForScreencopyInternal, testAnswers, pop, Niri.submitAfterSync, testCopy, testInfo]
  obtain ⟨r, hr, hready⟩ := hrun
  refine ⟨r, hr, hready, screencopy_correct hr ?_⟩
  rw [allAlong_concat (run_oneCopy ord)]
  refine ⟨by simp [oneCopy, AllAlong, Served], fun m sc q hq _ _ => ?_⟩
  simp only [get_insert, get_empty] at hq
  split_ifs at hq
  exact (List.cons.inj (some.inj hq)).2.symm

/-- With two, the first one is rendered and the second one submitted. -/
theorem screencopy_two_waiting : ∃ (ord : IterOrder) (r : Niri × List (List Event)),
    run (step ord) (Niri.init, []) (twoCopies ++ [.redraw 1 testAnswers 5]) = some r ∧
      ¬ Correct r.1 r.2 := by
  refine ⟨IterOrder.arbitrary, ?_⟩
  generalize IterOrder.arbitrary = ord
  have hrun : ∃ r, run (step ord) (Niri.init, []) (twoCopies ++ [.redraw 1 testAnswers 5]) = some r ∧
      ∃ es ∈ r.2, .submitted (testCopy 11 21 (2, 0)) ∈ es ∧
        .rendered 1 (testCopy 11 21 (2, 0)) ∉ es := by
    rw [run_append, run_twoCopies]
    simp [run, step, call, renderForScreencopyWithDamage, iter_singleton, renderQueue,
      renderForScreencopyInternal, testAnswers, pop, Niri.submitAfterSync, testCopy, testInfo]
  obtain ⟨r, hr, es, hes, hsub, hnot⟩ := hrun
  exact ⟨r, hr, fun h => hnot ((h.calls es hes).rendered _ hsub)⟩

end Example

end Macniri.WlrScreencopy
