import Macniri.Screencopy.State

/-! Every copy is answered at most once, and waits in its queue until it is submitted or failed. -/
namespace Macniri.WlrScreencopy

open Option List HashMap

def FrameState.used : FrameState → Bool
  | .failed => true
  | .pending _ _ copied => copied

def answeredOf : Event → Option ℕ
  | .ready frame _ => some frame
  | .failed frame => some frame
  | _ => none

/-- The frames that got a final event. -/
def answered (events : List Event) : List ℕ := events.filterMap answeredOf

/-- An event that neither answers, submits nor queues a copy. -/
def Event.neutral : Event → Bool
  | .queued .. | .submitted .. | .ready .. | .failed .. => false
  | _ => true

namespace Niri

def Used (s : Niri) (frame : ℕ) : Prop := ∃ d, s.frames.get frame = some d ∧ d.used = true

def queue (s : Niri) (manager : ℕ) : List Screencopy := (s.queues.get manager).getD []

/-- The frames whose copy left the queues, `held` by the running call or not. -/
def taken (s : Niri) (events : List Event) (held : List Screencopy) : List ℕ :=
  answered events ++ s.syncing.map (fun e => e.1.frame) ++ held.map Screencopy.frame

/-- Where the copies are: each one in one queue, with one sync point, held by the running call or answered. -/
structure Inv (s : Niri) (events : List Event) (held : List Screencopy) : Prop where
  bound : ∀ m q, s.queues.get m = some q → (s.managers.get m).isSome = true
  owner : ∀ m, ∀ sc ∈ s.queue m, s.frames.get sc.frame = some (.pending m sc.info true)
  nodup : ∀ m, ((s.queue m).map Screencopy.frame).Nodup
  taken : (s.taken events held).Nodup
  used : ∀ f ∈ s.taken events held, s.Used f
  apart : ∀ m, ∀ sc ∈ s.queue m, sc.frame ∉ s.taken events held
  waiting : ∀ m, ∀ sc ∈ s.queue m, .queued m sc ∈ events
  queued : ∀ m sc, .queued m sc ∈ events → s.frames.get sc.frame = some (.pending m sc.info true)
  left : ∀ m sc, .queued m sc ∈ events →
    sc ∈ s.queue m ∨ .submitted sc ∈ events ∨ .failed sc.frame ∈ events ∨ sc ∈ held
  submitted : ∀ sc, .submitted sc ∈ events → s.Used sc.frame
  ready : ∀ f t, .ready f t ∈ events → ∃ sc, sc.frame = f ∧ .submitted sc ∈ events
  synced : ∀ e ∈ s.syncing, .submitted e.1 ∈ events

end Niri

open Macniri.WlrScreencopy.Niri

variable {s s' : Niri} {events es : List Event} {held : List Screencopy} {sc : Screencopy} {m f : ℕ}

@[simp] theorem answered_append : answered (events ++ es) = answered events ++ answered es := by
  simp [answered]

theorem answered_neutral (h : ∀ e ∈ es, e.neutral = true) : answered es = [] := by
  rw [answered, filterMap_eq_nil_iff]
  intro e he
  have hn := h e he
  cases e <;> simp_all [Event.neutral, answeredOf]

theorem queue_insert {q : List Screencopy} {managers : HashMap ℕ Bool} {outputs : List ℕ}
    {frames : HashMap ℕ FrameState} {syncing : List (Screencopy × ℕ)} (m' : ℕ) :
    (⟨outputs, managers, s.queues.insert m q, frames, syncing⟩ : Niri).queue m' =
      if m' = m then q else s.queue m' := by
  simp only [Niri.queue, get_insert]
  split <;> rfl

theorem queue_of_get {q : List Screencopy} (h : s.queues.get m = some q) : s.queue m = q := by
  simp [Niri.queue, h]

theorem inv_init : Inv Niri.init [] [] where
  bound m q h := by simp [Niri.init] at h
  owner m sc h := by simp [Niri.init, Niri.queue] at h
  nodup m := by simp [Niri.init, Niri.queue]
  taken := by simp [Niri.init, Niri.taken, answered]
  used f h := by simp [Niri.init, Niri.taken, answered] at h
  apart m sc h := by simp [Niri.init, Niri.queue] at h
  waiting m sc h := by simp [Niri.init, Niri.queue] at h
  queued m sc h := by simp at h
  left m sc h := by simp at h
  submitted sc h := by simp at h
  ready f t h := by simp at h
  synced e h := by simp [Niri.init] at h

/-- A copy is queued, dropped, rendered in vain or rendered and submitted. -/
theorem frame_cases (s : Niri) (m : ℕ) (sc : Screencopy) (answer : Option Answer) (now : ℕ) :
    (∃ q, s.queues.get m = some q ∧ s.frame m sc answer now =
      ({ s with queues := s.queues.insert m (q ++ [sc]) }, [.queued m sc])) ∨
    s.frame m sc answer now = (s, [.failed sc.frame]) ∨
    s.frame m sc answer now = (s, [.renderError sc.info.output sc, .failed sc.frame]) ∨
    ∃ sync, s.frame m sc answer now = ((s.submitAfterSync sc sync now).1,
      .rendered sc.info.output sc :: (s.submitAfterSync sc sync now).2) := by
  unfold Niri.frame
  split
  · split
    · exact .inr (.inl rfl)
    · rename_i q hq
      exact .inl ⟨q, hq, rfl⟩
  · split
    · exact .inr (.inl rfl)
    · rename_i answer
      unfold renderForScreencopyWithoutDamage renderForScreencopyInternal
      dsimp only
      split
      · exact .inr (.inl rfl)
      · split
        · exact .inr (.inl rfl)
        · cases answer.render with
          | none => exact .inr (.inr (.inl rfl))
          | some sync => exact .inr (.inr (.inr ⟨_, rfl⟩))

namespace Niri.Inv

/-- A call moves copies on, from its hands and the sync points to the answered ones. -/
theorem moves {held' : List Screencopy} (h : Inv s events held) (hqueues : s'.queues = s.queues)
    (hframes : s'.frames = s.frames) (hmanagers : s'.managers = s.managers)
    (hperm : (s'.taken (events ++ es) held').Perm (s.taken events held))
    (hqueued : ∀ m sc, .queued m sc ∉ es)
    (hleft : ∀ sc ∈ held, sc ∈ held' ∨ .submitted sc ∈ es ∨ .failed sc.frame ∈ es)
    (hsub : ∀ sc, .submitted sc ∈ es → sc.frame ∈ s.taken events held)
    (hready : ∀ f t, .ready f t ∈ es → ∃ sc, sc.frame = f ∧ .submitted sc ∈ events ++ es)
    (hsync : ∀ e ∈ s'.syncing, .submitted e.1 ∈ events ++ es) : Inv s' (events ++ es) held' := by
  have hqueue : ∀ m, s'.queue m = s.queue m := by simp [Niri.queue, hqueues]
  have hused : ∀ f, s'.Used f ↔ s.Used f := by simp [Niri.Used, hframes]
  have hold : ∀ m sc, .queued m sc ∈ events ++ es → .queued m sc ∈ events := by
    intro m sc hsc
    exact (mem_append.mp hsc).resolve_right (hqueued m sc)
  refine ⟨fun m q hq => ?_, fun m sc hsc => ?_, fun m => ?_, hperm.nodup_iff.mpr h.taken,
    fun f hf => ?_, fun m sc hsc hmem => ?_, fun m sc hsc => ?_, fun m sc hsc => ?_,
    fun m sc hsc => ?_, fun sc hsc => ?_, fun f t hf => ?_, hsync⟩
  · rw [hqueues] at hq
    rw [hmanagers]
    exact h.bound m q hq
  · rw [hqueue] at hsc
    rw [hframes]
    exact h.owner m sc hsc
  · rw [hqueue]
    exact h.nodup m
  · exact (hused f).mpr (h.used f (hperm.mem_iff.mp hf))
  · rw [hqueue] at hsc
    exact h.apart m sc hsc (hperm.mem_iff.mp hmem)
  · rw [hqueue] at hsc
    exact mem_append_left _ (h.waiting m sc hsc)
  · rw [hframes]
    exact h.queued m sc (hold m sc hsc)
  · rw [hqueue]
    rcases h.left m sc (hold m sc hsc) with hl | hl | hl | hl
    · exact .inl hl
    · exact .inr (.inl (mem_append_left _ hl))
    · exact .inr (.inr (.inl (mem_append_left _ hl)))
    · rcases hleft sc hl with hl | hl | hl
      · exact .inr (.inr (.inr hl))
      · exact .inr (.inl (mem_append_right _ hl))
      · exact .inr (.inr (.inl (mem_append_right _ hl)))
  · rw [hused]
    rcases mem_append.mp hsc with hsc | hsc
    · exact h.submitted sc hsc
    · exact h.used _ (hsub sc hsc)
  · rcases mem_append.mp hf with hf | hf
    · obtain ⟨sc, hsc, hs⟩ := h.ready f t hf
      exact ⟨sc, hsc, mem_append_left _ hs⟩
    · exact hready f t hf

/-- Events that move no copy. -/
theorem neutral (h : Inv s events held) (es : List Event) (hes : ∀ e ∈ es, e.neutral = true) :
    Inv s (events ++ es) held := by
  have hnot : ∀ e ∈ es, e.neutral ≠ false := fun e he => by simp [hes e he]
  refine h.moves rfl rfl rfl ?_ (fun m sc he => hnot _ he rfl) (fun sc hsc => .inl hsc)
    (fun sc he => absurd rfl (hnot _ he)) (fun f t he => absurd rfl (hnot _ he))
    fun e he => mem_append_left _ (h.synced e he)
  simp [Niri.taken, answered_neutral hes]

/-- A copy that is dropped fails. -/
theorem drop (h : Inv s events (sc :: held)) : Inv s (events ++ [.failed sc.frame]) held := by
  refine h.moves rfl rfl rfl ?_ (by simp) (fun sc' hsc => ?_) (by simp) (by simp)
    fun e he => mem_append_left _ (h.synced e he)
  · have hanswered : answered [.failed sc.frame] = [sc.frame] := rfl
    simp only [Niri.taken, answered_append, hanswered, map_cons, append_assoc,
      singleton_append]
    exact Perm.append_left _ perm_middle.symm
  · rcases mem_cons.mp hsc with rfl | hsc
    · exact .inr (.inr (by simp))
    · exact .inl hsc

theorem dropAll (h : Inv s events held) :
    Inv s (events ++ held.map fun sc => .failed sc.frame) [] := by
  induction held generalizing events with
  | nil => simpa using h
  | cons sc held ih => simpa using ih h.drop

theorem submitAfterSync (h : Inv s events (sc :: held)) (sync : Bool) (now : ℕ) :
    Inv (s.submitAfterSync sc sync now).1 (events ++ (s.submitAfterSync sc sync now).2) held := by
  have hmem : sc.frame ∈ s.taken events (sc :: held) := by simp [Niri.taken]
  unfold Niri.submitAfterSync
  cases sync with
  | true =>
    refine h.moves rfl rfl rfl ?_ (by simp) (fun sc' hsc => ?_) (by simp [hmem]) (by simp) ?_
    · have hanswered : answered [.submitted sc] = [] := rfl
      simp [Niri.taken, hanswered]
    · rcases mem_cons.mp hsc with rfl | hsc
      · exact .inr (.inl (by simp))
      · exact .inl hsc
    · intro e he
      rcases mem_append.mp he with he | he
      · exact mem_append_left _ (h.synced e he)
      · obtain rfl := mem_singleton.mp he
        simp
  | false =>
    refine h.moves rfl rfl rfl ?_ (by simp) (fun sc' hsc => ?_) (by simp [hmem]) (fun f t hf => ?_) ?_
    · have hanswered : answered [.submitted sc, .flags sc.frame false, .ready sc.frame now] =
        [sc.frame] := rfl
      simp only [Bool.false_eq_true, if_false, Niri.taken, answered_append, hanswered, map_cons,
        append_assoc, singleton_append]
      exact Perm.append_left _ perm_middle.symm
    · rcases mem_cons.mp hsc with rfl | hsc
      · exact .inr (.inl (by simp))
      · exact .inl hsc
    · have hf : f = sc.frame ∧ t = now := by simpa using hf
      exact ⟨sc, hf.1.symm, by simp⟩
    · exact fun e he => mem_append_left _ (h.synced e he)

theorem signal (h : Inv s events held) {i : ℕ} {res : Niri × List Event}
    (hs : s.signal i = some res) : Inv res.1 (events ++ res.2) held := by
  obtain ⟨⟨sc, t⟩, hi, rfl⟩ := of_map hs
  have hsub := h.synced _ (mem_of_getElem? hi)
  refine h.moves rfl rfl rfl ?_ (by simp) (fun sc' hsc => .inl hsc) (by simp) (fun f t' hf => ?_)
    fun e he => mem_append_left _ (h.synced e ((eraseIdx_sublist ..).subset he))
  · have hanswered : answered [.flags sc.frame false, .ready sc.frame t] = [sc.frame] := rfl
    obtain ⟨hlt, hget⟩ := List.getElem?_eq_some_iff.mp hi
    have hperm : ((sc, t) :: s.syncing.eraseIdx i).Perm s.syncing :=
      hget ▸ getElem_cons_eraseIdx_perm hlt
    have hframes := hperm.map fun e => e.1.frame
    simp only [Niri.taken, answered_append, hanswered, append_assoc, singleton_append]
    exact Perm.append_left _ (hframes.append_right _)
  · have hf : f = sc.frame ∧ t' = t := by simpa using hf
    exact ⟨sc, hf.1.symm, mem_append_left _ hsub⟩

/-- A copy is taken out of its queue. -/
theorem pop {q l r : List Screencopy} (h : Inv s events held) (hq : s.queues.get m = some q)
    (hsplit : q = l ++ sc :: r) :
    Inv { s with queues := s.queues.insert m (l ++ r) } events (sc :: held) := by
  have hqueue := queue_of_get hq
  subst hsplit
  have hmem : sc ∈ s.queue m := by simp [hqueue]
  have hsub : ∀ m', ((if m' = m then l ++ r else s.queue m')).Sublist (s.queue m') := by
    intro m'
    split
    · rename_i heq
      rw [heq, hqueue]
      exact (Sublist.refl l).append (sublist_cons_self ..)
    · exact .refl _
  have htaken : (s.taken events (sc :: held)).Perm (sc.frame :: s.taken events held) := by
    simp only [Niri.taken, map_cons]
    exact perm_middle
  refine ⟨fun m' q' hq' => ?_, fun m' sc' hsc' => ?_, fun m' => ?_, ?_, fun f hf => ?_,
    fun m' sc' hsc' hmem' => ?_, fun m' sc' hsc' => ?_, h.queued, fun m' sc' hsc' => ?_, h.submitted,
    h.ready, h.synced⟩
  · simp only [get_insert] at hq'
    split_ifs at hq' with heq
    · exact heq ▸ h.bound m _ hq
    · exact h.bound m' q' hq'
  · rw [queue_insert] at hsc'
    exact h.owner m' sc' ((hsub m').subset hsc')
  · rw [queue_insert]
    exact (h.nodup m').sublist ((hsub m').map _)
  · exact htaken.nodup_iff.mpr (nodup_cons.mpr ⟨h.apart m sc hmem, h.taken⟩)
  · rcases mem_cons.mp (htaken.mem_iff.mp hf) with rfl | hf
    · exact ⟨_, h.owner m sc hmem, rfl⟩
    · exact h.used f hf
  · rw [queue_insert] at hsc'
    rcases mem_cons.mp (htaken.mem_iff.mp hmem') with heq | hmem'
    · -- the frame tells the manager, and in its queue it is there once
      have howner := h.owner m' sc' ((hsub m').subset hsc')
      rw [heq, h.owner m sc hmem] at howner
      have hm : m' = m := by
        simp only [some.injEq, FrameState.pending.injEq] at howner
        exact howner.1.symm
      have hn := h.nodup m
      rw [hqueue, map_append, map_cons, nodup_middle, ← map_append] at hn
      rw [if_pos hm] at hsc'
      exact (nodup_cons.mp hn).1 (heq ▸ List.mem_map_of_mem hsc')
    · exact h.apart m' sc' ((hsub m').subset hsc') hmem'
  · rw [queue_insert] at hsc'
    exact h.waiting m' sc' ((hsub m').subset hsc')
  · rw [queue_insert]
    rcases h.left m' sc' hsc' with hl | hl | hl | hl
    · by_cases hm : m' = m
      · subst hm
        rw [hqueue] at hl
        rcases mem_append.mp hl with hl | hl
        · exact .inl (by simp [hl])
        · rcases mem_cons.mp hl with rfl | hl
          · exact .inr (.inr (.inr (mem_cons_self ..)))
          · exact .inl (by simp [hl])
      · exact .inl (by rwa [if_neg hm])
    · exact .inr (.inl hl)
    · exact .inr (.inr (.inl hl))
    · exact .inr (.inr (.inr (mem_cons_of_mem _ hl)))

/-- A copy is pushed to the queue of its manager. -/
theorem push {q : List Screencopy} (h : Inv s events (sc :: held)) (hq : s.queues.get m = some q)
    (howner : s.frames.get sc.frame = some (.pending m sc.info true)) :
    Inv { s with queues := s.queues.insert m (q ++ [sc]) } (events ++ [.queued m sc]) held := by
  have hqueue := queue_of_get hq
  have htaken : (s.taken events (sc :: held)).Perm (sc.frame :: s.taken events held) := by
    simp only [Niri.taken, map_cons]
    exact perm_middle
  obtain ⟨hnot, hnodup⟩ := nodup_cons.mp (htaken.nodup_iff.mp h.taken)
  have hsame : s.taken (events ++ [.queued m sc]) held = s.taken events held := by
    have hanswered : answered [.queued m sc] = [] := rfl
    simp [Niri.taken, hanswered]
  have happart : ∀ m', ∀ sc' ∈ s.queue m', sc'.frame ≠ sc.frame := by
    intro m' sc' hsc' heq
    exact h.apart m' sc' hsc' (htaken.mem_iff.mpr (heq ▸ mem_cons_self ..))
  have hcases : ∀ m' sc', (sc' ∈ if m' = m then q ++ [sc] else s.queue m') →
      sc' ∈ s.queue m' ∨ m' = m ∧ sc' = sc := by
    intro m' sc' hsc'
    split_ifs at hsc' with heq
    · rcases mem_append.mp hsc' with hsc' | hsc'
      · exact .inl (by rwa [heq, hqueue])
      · exact .inr ⟨heq, mem_singleton.mp hsc'⟩
    · exact .inl hsc'
  refine ⟨fun m' q' hq' => ?_, fun m' sc' hsc' => ?_, fun m' => ?_, hsame ▸ hnodup, fun f hf => ?_,
    fun m' sc' hsc' hmem => ?_, fun m' sc' hsc' => ?_, fun m' sc' hsc' => ?_, fun m' sc' hsc' => ?_,
    fun sc' hsc' => ?_, fun f t hf => ?_, fun e he => mem_append_left _ (h.synced e he)⟩
  · simp only [get_insert] at hq'
    split_ifs at hq' with heq
    · exact heq ▸ h.bound m _ hq
    · exact h.bound m' q' hq'
  · rw [queue_insert] at hsc'
    rcases hcases m' sc' hsc' with hsc' | ⟨rfl, rfl⟩
    · exact h.owner m' sc' hsc'
    · exact howner
  · rw [queue_insert]
    split
    · rw [map_append, nodup_append]
      refine ⟨hqueue ▸ h.nodup m, by simp, fun a ha b hb heq => ?_⟩
      obtain ⟨sc', hsc', rfl⟩ := List.mem_map.mp ha
      obtain rfl : b = sc.frame := by simpa using hb
      exact happart m sc' (hqueue ▸ hsc') heq
    · exact h.nodup m'
  · rw [Niri.taken] at hf
    exact h.used f (htaken.mem_iff.mpr (mem_cons_of_mem _ (hsame ▸ hf)))
  · rw [queue_insert] at hsc'
    have hold : sc'.frame ∈ s.taken events held := hsame ▸ hmem
    rcases hcases m' sc' hsc' with hsc' | ⟨rfl, rfl⟩
    · exact h.apart m' sc' hsc' (htaken.mem_iff.mpr (mem_cons_of_mem _ hold))
    · exact hnot hold
  · rw [queue_insert] at hsc'
    rcases hcases m' sc' hsc' with hsc' | ⟨rfl, rfl⟩
    · exact mem_append_left _ (h.waiting m' sc' hsc')
    · simp
  · rcases mem_append.mp hsc' with hsc' | hsc'
    · exact h.queued m' sc' hsc'
    · obtain ⟨rfl, rfl⟩ : m' = m ∧ sc' = sc := by simpa using hsc'
      exact howner
  · rw [queue_insert]
    have hin : ∀ sc', sc' ∈ s.queue m' → sc' ∈ if m' = m then q ++ [sc] else s.queue m' := by
      intro sc' hsc'
      split_ifs with heq
      · rw [heq, hqueue] at hsc'
        exact mem_append_left _ hsc'
      · exact hsc'
    rcases mem_append.mp hsc' with hold | hsc'
    · rcases h.left m' sc' hold with hl | hl | hl | hl
      · exact .inl (hin sc' hl)
      · exact .inr (.inl (mem_append_left _ hl))
      · exact .inr (.inr (.inl (mem_append_left _ hl)))
      · rcases mem_cons.mp hl with rfl | hl
        · -- its frame names the manager
          have := (h.queued m' sc' hold).symm.trans howner
          have hm : m' = m := by
            simp only [some.injEq, FrameState.pending.injEq] at this
            exact this.1
          exact .inl (by simp [hm])
        · exact .inr (.inr (.inr hl))
    · obtain ⟨rfl, rfl⟩ : m' = m ∧ sc' = sc := by simpa using hsc'
      exact .inl (by simp)
  · exact h.submitted sc' (by simpa using hsc')
  · obtain ⟨sc', hsc', hs⟩ := h.ready f t (by simpa using hf)
    exact ⟨sc', hsc', mem_append_left _ hs⟩

/-- A change of the frames that no copy is about. -/
theorem frames {frames : HashMap ℕ FrameState} (h : Inv s events held)
    (hkeep : ∀ f d, s.frames.get f = some d → d.used = true → frames.get f = some d) :
    Inv { s with frames := frames } events held := by
  have hused : ∀ f, s.Used f → ({ s with frames := frames } : Niri).Used f := by
    rintro f ⟨d, hd, hu⟩
    exact ⟨d, hkeep f d hd hu, hu⟩
  exact ⟨h.bound, fun m sc hsc => hkeep _ _ (h.owner m sc hsc) rfl, h.nodup, h.taken,
    fun f hf => hused f (h.used f hf), h.apart, h.waiting,
    fun m sc hsc => hkeep _ _ (h.queued m sc hsc) rfl, h.left,
    fun sc hsc => hused _ (h.submitted sc hsc), h.ready, h.synced⟩

/-- The call holds a copy of a frame that was not used before. -/
theorem hold (h : Inv s events held) (sc : Screencopy) (hold : ¬ s.Used sc.frame)
    {frames : HashMap ℕ FrameState}
    (hkeep : ∀ f d, s.frames.get f = some d → d.used = true → frames.get f = some d)
    (hnew : ({ s with frames := frames } : Niri).Used sc.frame) :
    Inv { s with frames := frames } events (sc :: held) := by
  have hframes := h.frames hkeep
  have htaken : (s.taken events (sc :: held)).Perm (sc.frame :: s.taken events held) := by
    simp only [Niri.taken, map_cons]
    exact perm_middle
  refine ⟨hframes.bound, hframes.owner, hframes.nodup, ?_, fun f hf => ?_, fun m sc' hsc' hmem => ?_,
    hframes.waiting, hframes.queued, fun m sc' hsc' => ?_, hframes.submitted, hframes.ready,
    hframes.synced⟩
  · exact htaken.nodup_iff.mpr (nodup_cons.mpr ⟨fun hmem => hold (h.used _ hmem), h.taken⟩)
  · rcases mem_cons.mp (htaken.mem_iff.mp hf) with rfl | hf
    · exact hnew
    · exact hframes.used f hf
  · rcases mem_cons.mp (htaken.mem_iff.mp hmem) with heq | hmem
    · exact hold (heq ▸ ⟨_, h.owner m sc' hsc', rfl⟩)
    · exact h.apart m sc' hsc' hmem
  · rcases h.left m sc' hsc' with hl | hl | hl | hl
    · exact .inl hl
    · exact .inr (.inl hl)
    · exact .inr (.inr (.inl hl))
    · exact .inr (.inr (.inr (mem_cons_of_mem _ hl)))

theorem frame {answer : Option Answer} {now : ℕ} (h : Inv s events (sc :: held))
    (howner : s.frames.get sc.frame = some (.pending m sc.info true)) :
    Inv (s.frame m sc answer now).1 (events ++ (s.frame m sc answer now).2) held := by
  rcases frame_cases s m sc answer now with ⟨q, hq, heq⟩ | heq | heq | ⟨sync, heq⟩ <;> rw [heq]
  · exact h.push hq howner
  · exact h.drop
  · simpa using (h.neutral [.renderError sc.info.output sc] (by simp [Event.neutral])).drop
  · simpa using (h.neutral [.rendered sc.info.output sc] (by simp [Event.neutral])).submitAfterSync
      sync now

theorem copy {answer : Option Answer} {withDamage : Bool} {buffer : WlBuffer} {now : ℕ}
    {res : Niri × List Event} (h : Inv s events []) (hs : s.copy f withDamage buffer answer now = some res) :
    Inv res.1 (events ++ res.2) [] := by
  obtain ⟨data, hdata, rfl⟩ := of_map hs
  cases data with
  | failed => simpa using h
  | pending manager info copied =>
    dsimp only
    split
    · exact h.neutral _ (by simp [Event.neutral])
    · rename_i hcopied
      split
      · exact h.neutral _ (by simp [Event.neutral])
      · rename_i b _
        have hunused : ¬ s.Used f := by
          rintro ⟨d, hd, hu⟩
          obtain rfl := some.inj (hdata.symm.trans hd)
          exact hcopied hu
        refine (h.hold ⟨info, f, b, withDamage⟩ hunused (fun f' d hd hu => ?_) ?_).frame ?_
        · rw [get_insert, if_neg]
          · exact hd
          · rintro rfl
            exact hunused ⟨d, hd, hu⟩
        · exact ⟨.pending manager info true, by simp, rfl⟩
        · simp

theorem capture {info : Option FrameInfo} (h : Inv s events []) (hf : s.frames.get f = none) :
    Inv (s.capture m f info).1 (events ++ (s.capture m f info).2) [] := by
  have hkeep : ∀ d f' d', s.frames.get f' = some d' → d'.used = true →
      (s.frames.insert f d).get f' = some d' := by
    intro d f' d' hd _
    rw [get_insert, if_neg]
    · exact hd
    · rintro rfl
      simp [hf] at hd
  unfold Niri.capture
  cases info with
  | some info => simpa using h.frames (hkeep _)
  | none =>
    have hunused : ¬ s.Used f := by
      rintro ⟨d, hd, -⟩
      simp [hf] at hd
    have hheld := h.hold ⟨⟨0, 0, 0, false⟩, f, .shm 0, false⟩ hunused (hkeep .failed)
      ⟨.failed, by simp, rfl⟩
    exact hheld.drop

/-- Only empty queues are cleaned up. -/
theorem queue_bind (h : Inv s events held) (hm : s.managers.get m = none) (m' : ℕ) :
    (s.bind m).queue m' = s.queue m' := by
  simp only [Niri.queue, Niri.bind, get_insert, get_retain]
  split
  · rename_i heq
    subst heq
    cases hq : s.queues.get m' with
    | none => rfl
    | some q =>
      have := h.bound m' q hq
      simp [hm] at this
  · cases hq : s.queues.get m' with
    | none => rfl
    | some q =>
      rw [filter_some]
      split
      · rfl
      · rename_i hp
        have hnil : q = [] := by
          simp only [Bool.or_eq_true, Bool.not_eq_true', not_or, Bool.not_eq_false] at hp
          exact List.isEmpty_iff.mp hp.2
        simp [hnil]

theorem bind (h : Inv s events held) (hm : s.managers.get m = none) :
    Inv (s.bind m) events held := by
  have hqueue := h.queue_bind hm
  refine ⟨fun m' q hq => ?_, fun m' sc hsc => h.owner m' sc (hqueue m' ▸ hsc),
    fun m' => hqueue m' ▸ h.nodup m', h.taken, h.used, fun m' sc hsc => h.apart m' sc (hqueue m' ▸ hsc),
    fun m' sc hsc => h.waiting m' sc (hqueue m' ▸ hsc), h.queued,
    fun m' sc hsc => hqueue m' ▸ h.left m' sc hsc, h.submitted, h.ready, h.synced⟩
  simp only [Niri.bind, get_insert, get_retain] at hq ⊢
  split_ifs at hq ⊢ with heq
  · rfl
  · exact h.bound m' _ (eq_some_of_filter_eq_some hq)

end Niri.Inv

/-- A turn of the loop over the queues leaves everything as it is, or renders the first copy and pops the
last one, to submit it or to fail it. -/
theorem renderQueue_cases {output now : ℕ} {answers : ℕ → Answer} {r r' : Niri × List Event}
    (h : renderQueue output answers now r m = some r') :
    r' = r ∨ ∃ first q last, r.1.queues.get m = some q ∧ q.head? = some first ∧
      first.info.output = output ∧ q.getLast? = some last ∧ (answers m).damages.isSome = true ∧
      ((∃ damages sync, (answers m).damages = some damages ∧ (answers m).render.isSome = true ∧
        r' = ((({ r.1 with queues := r.1.queues.insert m q.dropLast } : Niri).submitAfterSync last
            sync now).1,
          r.2 ++ .rendered output first ::
            (damages.map (fun d => .damage first.frame d.1 d.2) ++
              (({ r.1 with queues := r.1.queues.insert m q.dropLast } : Niri).submitAfterSync last
                sync now).2))) ∨
      (answers m).render = none ∧
        r' = ({ r.1 with queues := r.1.queues.insert m q.dropLast },
          r.2 ++ [.renderError output first, .failed last.frame])) := by
  unfold renderQueue at h
  split at h
  · exact .inl (some.inj h).symm
  · rename_i q hq
    split at h
    · exact .inl (some.inj h).symm
    · rename_i first hfirst
      split at h
      · exact .inl (some.inj h).symm
      · rename_i houtput
        have houtput : first.info.output = output := by simpa using houtput
        obtain ⟨last, hlast⟩ : ∃ last, q.getLast? = some last := by
          cases q with
          | nil => simp at hfirst
          | cons a q => exact ⟨_, getLast?_eq_some_getLast (by simp)⟩
        unfold renderForScreencopyInternal at h
        cases hd : (answers m).damages with
        | none =>
          simp [hd] at h
          exact .inl h.symm
        | some damages =>
          refine .inr ⟨first, q, last, hq, hfirst, houtput, hlast, rfl, ?_⟩
          cases hr : (answers m).render with
          | none =>
            simp [hd, hr, pop, hlast] at h
            exact .inr ⟨rfl, h.symm⟩
          | some sync =>
            simp [hd, hr, pop, hlast] at h
            exact .inl ⟨damages, _, rfl, rfl, h.symm⟩

theorem neutral_damages (damages : List ((ℤ × ℤ) × (ℤ × ℤ))) (f : ℕ) :
    ∀ e ∈ damages.map (fun d => Event.damage f d.1 d.2), e.neutral = true := by
  intro e he
  obtain ⟨d, -, rfl⟩ := List.mem_map.mp he
  rfl

theorem inv_renderQueue {output now : ℕ} {answers : ℕ → Answer} {r r' : Niri × List Event}
    (hi : Inv r.1 (events ++ r.2) []) (h : renderQueue output answers now r m = some r') :
    Inv r'.1 (events ++ r'.2) [] := by
  rcases renderQueue_cases h with rfl | ⟨first, q, last, hq, -, -, hlast, -, hcase⟩
  · exact hi
  · have hsplit : q = q.dropLast ++ last :: [] := (dropLast_append_getLast? last hlast).symm
    have hpop := hi.pop hq hsplit
    rw [append_nil] at hpop
    rcases hcase with ⟨damages, sync, -, -, rfl⟩ | ⟨-, rfl⟩
    · have hneutral := (hpop.neutral [.rendered output first] (by simp [Event.neutral])).neutral _
        (neutral_damages damages first.frame)
      simpa using hneutral.submitAfterSync sync now
    · have hneutral := hpop.neutral [.renderError output first] (by simp [Event.neutral])
      simpa using hneutral.drop

/-- What every turn keeps holds after the loop. -/
theorem foldlM_invariant {α β : Type} {g : β → α → Option β} {P : β → Prop} {l : List α} {b b' : β}
    (hstep : ∀ b, ∀ a ∈ l, ∀ b', P b → g b a = some b' → P b') (hb : P b)
    (h : l.foldlM g b = some b') : P b' := by
  induction l generalizing b with
  | nil => exact some.inj h ▸ hb
  | cons a l ih =>
    rw [foldlM_cons] at h
    obtain ⟨c, hc, hrest⟩ := of_bind h
    exact ih (fun b a' ha' => hstep b a' (mem_cons_of_mem a ha'))
      (hstep b a (mem_cons_self ..) c hb hc) hrest

theorem inv_redraw {ord : IterOrder} {output now : ℕ} {answers : ℕ → Answer}
    {res : Niri × List Event} (hi : Inv s events [])
    (h : s.renderForScreencopyWithDamage ord output answers now = some res) :
    Inv res.1 (events ++ res.2) [] :=
  foldlM_invariant (P := fun r => Inv r.1 (events ++ r.2) [])
    (fun _ _ _ _ hr hstep => inv_renderQueue hr hstep) (by simpa using hi) h

theorem mem_dropped {ord : IterOrder} {output : ℕ} :
    sc ∈ dropped ord s output ↔ sc.info.output = output ∧ ∃ m, sc ∈ s.queue m := by
  simp only [dropped, mem_flatMap, mem_filter, decide_eq_true_eq, mem_iter]
  constructor
  · rintro ⟨e, he, hsc, hout⟩
    exact ⟨hout, e.1, by rwa [queue_of_get he]⟩
  · rintro ⟨hout, m, hsc⟩
    cases hq : s.queues.get m with
    | none => simp [Niri.queue, hq] at hsc
    | some q => exact ⟨⟨m, q⟩, hq, queue_of_get hq ▸ hsc, hout⟩

theorem nodup_dropped {ord : IterOrder} {output : ℕ} (h : Inv s events []) :
    ((dropped ord s output).map Screencopy.frame).Nodup := by
  rw [dropped, map_flatMap, nodup_flatMap]
  constructor
  · intro e he
    have hn := h.nodup e.1
    rw [queue_of_get (mem_iter ord |>.mp he)] at hn
    exact hn.sublist (filter_sublist.map _)
  · have hkeys := nodup_keys_iter ord s.queues
    rw [nodup_iff_pairwise_ne, pairwise_map] at hkeys
    refine hkeys.imp_of_mem fun {e e'} he he' hne f hf hf' => hne ?_
    obtain ⟨sc, hsc, rfl⟩ := List.mem_map.mp hf
    obtain ⟨sc', hsc', heq⟩ := List.mem_map.mp hf'
    have ho := h.owner e.1 sc (queue_of_get (mem_iter ord |>.mp he) ▸ mem_of_mem_filter hsc)
    have ho' := h.owner e'.1 sc'
      (queue_of_get (mem_iter ord |>.mp he') ▸ mem_of_mem_filter hsc')
    rw [heq, ho] at ho'
    simp only [some.injEq, FrameState.pending.injEq] at ho'
    exact ho'.1

theorem queue_removeOutput {ord : IterOrder} {output : ℕ} (m : ℕ) :
    (s.removeOutput ord output).1.queue m = (s.queue m).filter fun sc => sc.info.output ≠ output := by
  simp only [Niri.queue, Niri.removeOutput, get_mapValues]
  cases s.queues.get m <;> simp

theorem inv_removeOutput {ord : IterOrder} {output : ℕ} (h : Inv s events []) :
    Inv (s.removeOutput ord output).1 (events ++ (s.removeOutput ord output).2) [] := by
  have hsub : ∀ m, ((s.removeOutput ord output).1.queue m).Sublist (s.queue m) := by
    intro m
    rw [queue_removeOutput]
    exact filter_sublist
  suffices hheld : Inv (s.removeOutput ord output).1 events (dropped ord s output) from hheld.dropAll
  have htaken : (s.removeOutput ord output).1.taken events (dropped ord s output) =
      s.taken events [] ++ (dropped ord s output).map Screencopy.frame := by
    simp [Niri.taken, Niri.removeOutput]
  refine ⟨fun m q hq => ?_, fun m sc hsc => h.owner m sc ((hsub m).subset hsc),
    fun m => (h.nodup m).sublist ((hsub m).map _), ?_, fun f hf => ?_, fun m sc hsc hmem => ?_,
    fun m sc hsc => h.waiting m sc ((hsub m).subset hsc), h.queued, fun m sc hsc => ?_, h.submitted,
    h.ready, h.synced⟩
  · simp only [Niri.removeOutput, get_mapValues] at hq
    obtain ⟨q', hq', -⟩ := of_map hq
    exact h.bound m q' hq'
  · rw [htaken, nodup_append]
    refine ⟨h.taken, nodup_dropped h, fun a ha b hb heq => ?_⟩
    obtain ⟨sc, hsc, rfl⟩ := List.mem_map.mp hb
    obtain ⟨-, m, hm⟩ := mem_dropped.mp hsc
    exact h.apart m sc hm (heq ▸ ha)
  · rw [htaken] at hf
    rcases mem_append.mp hf with hf | hf
    · exact h.used f hf
    · obtain ⟨sc, hsc, rfl⟩ := List.mem_map.mp hf
      obtain ⟨-, m, hm⟩ := mem_dropped.mp hsc
      exact ⟨_, h.owner m sc hm, rfl⟩
  · rw [htaken] at hmem
    have hold := (hsub m).subset hsc
    rcases mem_append.mp hmem with hmem | hmem
    · exact h.apart m sc hold hmem
    · obtain ⟨sc', hsc', heq⟩ := List.mem_map.mp hmem
      obtain ⟨hout, m', hm'⟩ := mem_dropped.mp hsc'
      have hinfo := (h.owner m' sc' hm').symm.trans (heq ▸ h.owner m sc hold)
      simp only [some.injEq, FrameState.pending.injEq] at hinfo
      rw [queue_removeOutput] at hsc
      have := (mem_filter.mp hsc).2
      simp [← hinfo.2.1, hout] at this
  · rcases h.left m sc hsc with hl | hl | hl | hl
    · by_cases hout : sc.info.output = output
      · exact .inr (.inr (.inr (mem_dropped.mpr ⟨hout, m, hl⟩)))
      · refine .inl ?_
        rw [queue_removeOutput]
        exact mem_filter.mpr ⟨hl, by simpa using hout⟩
    · exact .inr (.inl hl)
    · exact .inr (.inr (.inl hl))
    · simp at hl

theorem inv_call {ord : IterOrder} {op : Op} {res : Niri × List Event} (h : Inv s events [])
    (hs : call ord s op = some res) : Inv res.1 (events ++ res.2) [] := by
  cases op with
  | bind m =>
    simp only [call] at hs
    split at hs
    · simp at hs
    · rename_i hm
      obtain rfl := some.inj hs
      simpa using h.bind (by simpa using hm)
  | destroyManager m =>
    simp only [call] at hs
    split at hs
    · obtain rfl := some.inj hs
      rw [append_nil]
      refine { h with bound := fun m' q hq => ?_ }
      simp only [get_insert]
      split
      · rfl
      · exact h.bound m' q hq
    · simp at hs
  | capture m f info =>
    simp only [call] at hs
    split at hs
    · rename_i hc
      obtain rfl := some.inj hs
      exact h.capture hc.2
    · simp at hs
  | copy f withDamage buffer answer now => exact h.copy hs
  | redraw output answers now =>
    simp only [call] at hs
    split at hs
    · exact inv_redraw h hs
    · simp at hs
  | addOutput output =>
    simp only [call] at hs
    split at hs
    · simp at hs
    · obtain rfl := some.inj hs
      rw [append_nil]
      exact { h with }
  | removeOutput output =>
    simp only [call] at hs
    split at hs
    · obtain rfl := some.inj hs
      exact inv_removeOutput h
    · simp at hs
  | signal i => exact h.signal hs

theorem inv_step {ord : IterOrder} {op : Op} {r r' : Niri × List (List Event)}
    (h : Inv r.1 r.2.flatten []) (hs : step ord r op = some r') : Inv r'.1 r'.2.flatten [] := by
  obtain ⟨res, hres, rfl⟩ := of_map hs
  simpa using inv_call h hres

end Macniri.WlrScreencopy
