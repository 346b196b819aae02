import Macniri.OutputManagement.View

/-! The incremental changes keep what a client knows in step with the outputs. -/
namespace Macniri.OutputManagement

open Option List HashMap

open Function (update)

/-- The head and the modes that a client has for an output. -/
def ClientData.objects (d : ClientData) (o : ℕ) : List ℕ :=
  (d.heads.get o).elim [] fun entry => entry.1.id :: entry.2

/-- A client that knows `v` has one head for each output in `cur`, which shows its state. -/
structure ClientData.Tracks (d : ClientData) (v : View) (next : ℕ) (cur : ℕ → Option Output) :
    Prop where
  dom : ∀ o, (d.heads.get o).isSome = (cur o).isSome
  shown : ∀ o head modes conf, d.heads.get o = some (head, modes) → cur o = some conf →
    Shown v head modes conf
  version : ∀ o head modes, d.heads.get o = some (head, modes) → head.version = d.manager.version
  nodup : ∀ o, (d.objects o).Nodup
  lt : ∀ o, ∀ x ∈ d.objects o, x < next
  disjoint : ∀ o o', o ≠ o' → ∀ x ∈ d.objects o, x ∉ d.objects o'
  live : ∀ h, (v.heads h).isSome → ∃ o head modes, d.heads.get o = some (head, modes) ∧ head.id = h

def Client.Tracks (c : Client) (cur : ℕ → Option Output) : Prop :=
  ∃ d, c.data = some d ∧ d.Tracks c.view c.nextObject cur

theorem ClientData.objects_of_get {d : ClientData} {o : ℕ} {head : Head} {modes : List ℕ}
    (h : d.heads.get o = some (head, modes)) : d.objects o = head.id :: modes := by
  simp [objects, h]

section Client

variable {c : Client} {events : List Event}

@[simp] theorem Client.view_send : (c.send events).view = c.view.apply events := by
  have hevents : (c.send events).events = c.events ++ events := by
    simp [Client.events, Client.send, filterMap_map]
  rw [Client.view, hevents, View.apply_append]
  rfl

/-- Only its own announcement makes a head live. -/
theorem isSome_of_isSome_foldl {h : ℕ} {o : Option HeadView} {xs : List Event}
    (hsome : (xs.foldl (HeadView.next h) o).isSome) : o.isSome ∨ ∃ m, .head m h ∈ xs := by
  induction xs generalizing o with
  | nil => exact .inl hsome
  | cons e xs ih =>
    rcases ih hsome with hnext | ⟨m, hm⟩
    · by_cases hnew : ∃ m, e = .head m h
      · obtain ⟨m, rfl⟩ := hnew
        exact .inr ⟨m, by simp⟩
      · left
        cases e with
        | head m h' =>
          have hne : h' ≠ h := by
            rintro rfl
            exact hnew ⟨m, rfl⟩
          simpa [HeadView.next, hne] using hnext
        | mode h' _ | currentMode h' _ | position h' _ _ | transform h' _ | scale h' _
        | enabled h' _ | adaptiveSync h' _ =>
          by_cases he : h' = h <;> simpa [HeadView.next, he] using hnext
        | headFinished h' =>
          by_cases he : h' = h
          · simp [HeadView.next, he] at hnext
          · simpa [HeadView.next, he] using hnext
        | modeFinished _ => simpa [HeadView.next] using hnext
        | _ => exact hnext
    · exact .inr ⟨m, by simp [hm]⟩

end Client

namespace ClientData

variable {d : ClientData} {v : View} {next next' o : ℕ} {cur : ℕ → Option Output}
variable {head : Head} {modes : List ℕ} {conf : Output} {events : List Event}

/-- The objects of other outputs are neither those of an output nor new ones. -/
theorem Tracks.notMem_objects (ht : d.Tracks v next cur) {o' x : ℕ} (hne : o' ≠ o)
    (hx : x ∈ d.objects o ∨ next ≤ x) : x ∉ d.objects o' := by
  intro hmem
  rcases hx with hx | hx
  · exact ht.disjoint o' o hne x hmem hx
  · exact absurd (ht.lt o' x hmem) (by omega)

/-- Events about the objects of one output leave the others alone. -/
theorem Tracks.shown_frame (ht : d.Tracks v next cur) {o' : ℕ} {head' : Head} {modes' : List ℕ}
    {conf' : Output} (hne : o' ≠ o)
    (hevents : ∀ e ∈ events, ∀ x ∈ e.objects, x ∈ d.objects o ∨ next ≤ x)
    (hget : d.heads.get o' = some (head', modes')) (hcur : cur o' = some conf') :
    Shown (v.apply events) head' modes' conf' := by
  refine (ht.shown o' head' modes' conf' hget hcur).frame fun e he id hid hmem => ?_
  rw [← objects_of_get hget] at hid
  exact ht.notMem_objects hne (hevents e he id hmem) hid

theorem objects_insert {entry : Head × List ℕ} {o' : ℕ} :
    objects { d with heads := d.heads.insert o entry } o' =
      if o' = o then entry.1.id :: entry.2 else d.objects o' := by
  unfold objects
  rw [get_insert]
  split <;> rfl

/-- The head of an output gets new modes, or a new head is added; the events are about it. -/
theorem Tracks.set (ht : d.Tracks v next cur) (hle : next ≤ next')
    (hevents : ∀ e ∈ events, ∀ x ∈ e.objects, x ∈ d.objects o ∨ next ≤ x)
    (hhead : ∀ m h, .head m h ∈ events → h = head.id)
    (hkeep : ∀ head' modes', d.heads.get o = some (head', modes') → head'.id = head.id)
    (hown : ∀ x ∈ head.id :: modes, x ∈ d.objects o ∨ next ≤ x)
    (hlt : ∀ x ∈ head.id :: modes, x < next') (hn : (head.id :: modes).Nodup)
    (hversion : head.version = d.manager.version)
    (hshown : Shown (v.apply events) head modes conf) :
    Tracks { d with heads := d.heads.insert o (head, modes) } (v.apply events) next'
      (update cur o (some conf)) where
  dom o' := by
    rw [get_insert]
    by_cases ho : o' = o
    · simp [ho]
    · simpa [ho] using ht.dom o'
  shown o' head' modes' conf' hget hcur := by
    rw [get_insert] at hget
    by_cases ho : o' = o
    · subst ho
      simp only [if_true, some.injEq, Prod.mk.injEq] at hget
      obtain ⟨rfl, rfl⟩ := hget
      simp only [Function.update_self, some.injEq] at hcur
      exact hcur ▸ hshown
    · rw [if_neg ho] at hget
      rw [Function.update_of_ne ho] at hcur
      exact ht.shown_frame ho hevents hget hcur
  version o' head' modes' hget := by
    rw [get_insert] at hget
    by_cases ho : o' = o
    · simp only [ho, if_true, some.injEq, Prod.mk.injEq] at hget
      exact hget.1 ▸ hversion
    · rw [if_neg ho] at hget
      exact ht.version o' head' modes' hget
  nodup o' := by
    rw [objects_insert]
    split
    · exact hn
    · exact ht.nodup o'
  lt o' x hx := by
    rw [objects_insert] at hx
    split at hx
    · exact hlt x hx
    · exact Nat.lt_of_lt_of_le (ht.lt o' x hx) hle
  disjoint o₁ o₂ hne x hx hx' := by
    rw [objects_insert] at hx hx'
    by_cases h₁ : o₁ = o
    · have h₂ : o₂ ≠ o := fun h => hne (h₁.trans h.symm)
      rw [if_pos h₁] at hx
      rw [if_neg h₂] at hx'
      exact ht.notMem_objects h₂ (hown x hx) hx'
    · rw [if_neg h₁] at hx
      by_cases h₂ : o₂ = o
      · rw [if_pos h₂] at hx'
        exact ht.notMem_objects h₁ (hown x hx') hx
      · rw [if_neg h₂] at hx'
        exact ht.disjoint o₁ o₂ hne x hx hx'
  live h hsome := by
    rcases isSome_of_isSome_foldl hsome with hold | ⟨m, hm⟩
    · obtain ⟨o', head', modes', hget, rfl⟩ := ht.live h hold
      by_cases ho : o' = o
      · subst ho
        exact ⟨o', head, modes, by simp, (hkeep head' modes' hget).symm⟩
      · exact ⟨o', head', modes', by simp [ho, hget], rfl⟩
    · exact ⟨o, head, modes, by simp, (hhead m h hm).symm⟩

/-- The head of an output is gone. -/
theorem Tracks.unset (ht : d.Tracks v next cur) (hget : d.heads.get o = some (head, modes))
    (hmem : Event.headFinished head.id ∈ events)
    (hevents : ∀ e ∈ events, ∃ x ∈ head.id :: modes, e = .modeFinished x ∨ e = .headFinished x) :
    Tracks { d with heads := d.heads.remove o } (v.apply events) next (update cur o none) := by
  have hobjects : ∀ e ∈ events, ∀ x ∈ e.objects, x ∈ d.objects o ∨ next ≤ x := by
    intro e he x hx
    rw [objects_of_get hget]
    obtain ⟨y, hy, rfl | rfl⟩ := hevents e he
    all_goals
      rw [Event.objects, mem_singleton] at hx
      exact .inl (hx ▸ hy)
  have hnew : ∀ m h, Event.head m h ∉ events := by
    intro m h he
    obtain ⟨x, -, h | h⟩ := hevents _ he <;> simp at h
  have hother : ∀ o', objects { d with heads := d.heads.remove o } o' =
      if o' = o then [] else d.objects o' := by
    intro o'
    unfold objects
    rw [get_remove]
    split <;> rfl
  -- Nothing announces the head again, so it stays gone once it is finished.
  have hgone : (v.apply events).heads head.id = none := by
    have hfold : ∀ xs : List Event, (∀ m, Event.head m head.id ∉ xs) →
        Event.headFinished head.id ∈ xs → ∀ o, xs.foldl (HeadView.next head.id) o = none := by
      intro xs hxs hin o
      obtain ⟨pre, post, rfl⟩ := append_of_mem hin
      rw [foldl_append, foldl_cons, HeadView.next, if_pos rfl]
      by_contra hne
      rcases isSome_of_isSome_foldl (isSome_iff_ne_none.mpr hne) with h | ⟨m, hm⟩
      · simp at h
      · exact hxs m (by simp [hm])
    exact hfold events (fun m => hnew m head.id) hmem _
  refine ⟨fun o' => ?_, fun o' head' modes' conf' hget' hcur => ?_, fun o' head' modes' hget' => ?_,
    fun o' => ?_, fun o' x hx => ?_, fun o₁ o₂ hne x hx hx' => ?_, fun h hsome => ?_⟩
  · rw [get_remove]
    by_cases ho : o' = o
    · simp [ho]
    · simpa [ho] using ht.dom o'
  · rw [get_remove] at hget'
    split_ifs at hget' with ho
    rw [Function.update_of_ne ho] at hcur
    exact ht.shown_frame ho hobjects hget' hcur
  · rw [get_remove] at hget'
    split_ifs at hget' with ho
    exact ht.version o' head' modes' hget'
  · rw [hother]
    split
    · exact .nil
    · exact ht.nodup o'
  · rw [hother] at hx
    split_ifs at hx
    · simp at hx
    · exact ht.lt o' x hx
  · rw [hother] at hx hx'
    split_ifs at hx hx'
    all_goals first | simp at hx | simp at hx' | skip
    exact ht.disjoint o₁ o₂ hne x hx hx'
  · rcases isSome_of_isSome_foldl hsome with hold | ⟨m, hm⟩
    · obtain ⟨o', head', modes', hget', rfl⟩ := ht.live h hold
      have ho : o' ≠ o := by
        rintro rfl
        rw [hget] at hget'
        obtain ⟨rfl, rfl⟩ := pair_inj hget'
        rw [hgone] at hsome
        simp at hsome
      exact ⟨o', head', modes', by simp [ho, hget'], rfl⟩
    · exact absurd hm (hnew m h)

end ClientData

/-- A change of an output that the diff handles: if the number of modes changes, the output is
disabled now, or its current mode keeps its index. -/
def Follows (old conf : Output) : Prop :=
  old.modes.length = conf.modes.length ∨ conf.currentMode = none ∨
    old.currentMode = conf.currentMode

/-- A state that can be told to clients: the current mode exists, and refresh rates fit in an
`i32`. -/
structure Output.Valid (conf : Output) : Prop where
  range : ∀ i, conf.currentMode = some i → i < conf.modes.length
  refresh : ∀ mode ∈ conf.modes, mode.refreshRate < 2 ^ 31

namespace Client

variable {c : Client} {cur : ℕ → Option Output} {o : ℕ} {old conf new : Output}

theorem Tracks.self (ht : c.Tracks cur) (hcur : cur o = some conf) :
    c.Tracks (update cur o (some conf)) := by
  rwa [← hcur, Function.update_eq_self]

/-- The entry of an output that is known. -/
theorem Tracks.get (ht : c.Tracks cur) (hcur : cur o = some conf) :
    ∃ d head modes, c.data = some d ∧ d.heads.get o = some (head, modes) ∧
      d.Tracks c.view c.nextObject cur := by
  obtain ⟨d, hd, ht⟩ := ht
  have hdom := ht.dom o
  rw [hcur, isSome_some, isSome_iff_exists] at hdom
  obtain ⟨⟨head, modes⟩, hget⟩ := hdom
  exact ⟨d, head, modes, hd, hget, ht⟩

theorem head_of_get {d : ClientData} (hd : c.data = some d) : c.head o = d.heads.get o := by
  simp [head, hd]

theorem insert_get {d : ClientData} {entry : Head × List ℕ} (hget : d.heads.get o = some entry) :
    { d with heads := d.heads.insert o entry } = d := by
  have hheads : d.heads.insert o entry = d.heads := by
    apply HashMap.ext_get
    intro k
    rw [get_insert]
    split_ifs with hk
    · rw [hk, hget]
    · rfl
  rw [hheads]

/-- Events about the head of an output, which keeps its modes. -/
theorem Tracks.send {d : ClientData} {head : Head} {modes : List ℕ} {events : List Event}
    (hd : c.data = some d) (hget : d.heads.get o = some (head, modes))
    (ht : d.Tracks c.view c.nextObject cur)
    (hevents : ∀ e ∈ events, ∀ x ∈ e.objects, x ∈ head.id :: modes)
    (hhead : ∀ m h, Event.head m h ∉ events)
    (hshown : Shown (c.view.apply events) head modes new) :
    (c.send events).Tracks (update cur o (some new)) := by
  have hobjects := ClientData.objects_of_get hget
  refine ⟨d, hd, ?_⟩
  have hset : ClientData.Tracks { d with heads := d.heads.insert o (head, modes) }
      (c.view.apply events) c.nextObject (update cur o (some new)) :=
    ht.set (Nat.le_refl _) ?_ (fun m h hm => absurd hm (hhead m h)) ?_ ?_ ?_ ?_
      (ht.version o head modes hget) hshown
  · rw [insert_get hget] at hset
    rw [view_send]
    exact hset
  · exact fun e he x hx => .inl (hobjects ▸ hevents e he x hx)
  · intro head' modes' hget'
    rw [hget] at hget'
    obtain ⟨rfl, -⟩ := pair_inj hget'
    rfl
  · exact fun x hx => .inl (hobjects ▸ hx)
  · exact fun x hx => ht.lt o x (hobjects ▸ hx)
  · exact hobjects ▸ ht.nodup o

theorem tracks_notifyVrr (ht : c.Tracks cur) (hcur : cur o = some old) :
    (c.notifyVrr o conf).Tracks (update cur o (some { old with vrrEnabled := conf.vrrEnabled })) := by
  obtain ⟨d, head, modes, hd, hget, ht⟩ := ht.get hcur
  have hshown := ht.shown o head modes old hget hcur
  unfold notifyVrr
  rw [head_of_get hd, hget]
  refine Tracks.send hd hget ht (fun e he x hx => by simp_all [objects_vrrEvents he]) ?_ ?_
  · intro m h
    unfold vrrEvents
    split <;> simp
  · unfold vrrEvents
    split
    · exact shown_adaptiveSync hshown _
    · rename_i hversion
      exact shown_oldVersion hshown _ hversion

theorem tracks_notifyLogical (conf : Output) (ht : c.Tracks cur) (hcur : cur o = some new)
    (hnew : new.logical = old.logical) :
    ∃ l, (c.notifyLogical o old conf).Tracks (update cur o (some { new with logical := l })) ∧
      ∀ l', conf.logical = some l' → l = some l' := by
  have hkept : ∀ l', new.logical = l' → c.Tracks (update cur o (some { new with logical := l' })) := by
    rintro _ rfl
    exact ht.self hcur
  obtain ⟨d, head, modes, hd, hget, htr⟩ := ht.get hcur
  have hshown := htr.shown o head modes new hget hcur
  unfold notifyLogical
  rw [head_of_get hd, hget]
  dsimp only
  split
  · rename_i oldLogical newLogical hold hconf
    refine ⟨some newLogical, ?_, fun l' hl' => hconf ▸ hl'⟩
    refine Tracks.send hd hget htr (fun e he x hx => by simp_all [objects_movedEvents he]) (fun m h he => ?_)
      (shown_moved hshown (hnew.trans hold) _)
    simp only [movedEvents, mem_append] at he
    rcases he with (he | he) | he <;> split at he <;> simp at he
  · rename_i newLogical hold hconf
    refine ⟨some newLogical, ?_, fun l' hl' => hconf ▸ hl'⟩
    refine Tracks.send hd hget htr (fun e he x hx => by simp_all [objects_logicalEvents he]) ?_
      (shown_logical hshown _)
    intro m h
    simp [logicalEvents]
  · rename_i oldLogical hold hconf
    exact ⟨some oldLogical, hkept _ (hnew.trans hold), fun l' hl' => by simp [hconf] at hl'⟩
  · rename_i hold hconf
    exact ⟨none, hkept _ (hnew.trans hold), fun l' hl' => by simp [hconf] at hl'⟩

/-- Modes are added to the head of an output, or removed from it. -/
theorem Tracks.setModes {d : ClientData} {head : Head} {modes ids : List ℕ} {events : List Event}
    {next : ℕ} (hd : c.data = some d) (hget : d.heads.get o = some (head, modes))
    (ht : d.Tracks c.view c.nextObject cur) (hle : c.nextObject ≤ next)
    (hids : ∀ x ∈ ids, x ∈ modes ∨ c.nextObject ≤ x) (hlt : ∀ x ∈ ids, x < next)
    (hn : (head.id :: ids).Nodup)
    (hevents : ∀ e ∈ events, ∀ x ∈ e.objects, x ∈ head.id :: modes ∨ x ∈ ids)
    (hhead : ∀ m h, Event.head m h ∉ events)
    (hshown : Shown (c.view.apply events) head ids new) :
    ((Client.send { c with nextObject := next } events).setModes o head ids).Tracks
      (update cur o (some new)) := by
  have hobjects := ClientData.objects_of_get hget
  have hown : ∀ x ∈ head.id :: ids, x ∈ d.objects o ∨ c.nextObject ≤ x := by
    intro x hx
    rw [hobjects]
    rcases mem_cons.mp hx with rfl | hx
    · simp
    · rcases hids x hx with hx | hx
      · simp [hx]
      · exact .inr hx
  have hview : ((Client.send { c with nextObject := next } events).setModes o head ids).view =
      c.view.apply events := view_send (c := { c with nextObject := next })
  refine ⟨{ d with heads := d.heads.insert o (head, ids) },
    by simp [Client.setModes, Client.send, hd], ?_⟩
  rw [hview]
  refine ht.set hle ?_ (fun m h hm => absurd hm (hhead m h)) ?_ hown (fun x hx => ?_) hn
    (ht.version o head modes hget) hshown
  · intro e he x hx
    rcases hevents e he x hx with hx | hx
    · exact .inl (hobjects ▸ hx)
    · exact hown x (by simp [hx])
  · intro head' modes' hget'
    rw [hget] at hget'
    obtain ⟨rfl, -⟩ := pair_inj hget'
    rfl
  · change x < next
    rcases mem_cons.mp hx with rfl | hx
    · exact Nat.lt_of_lt_of_le (ht.lt o head.id (by simp [hobjects])) hle
    · exact hlt x hx

theorem tracks_notifyModes (ht : c.Tracks cur) (hcur : cur o = some old)
    (hrange : ∀ i, old.currentMode = some i → i < old.modes.length)
    (hr : ∀ mode ∈ conf.modes, mode.refreshRate < 2 ^ 31) :
    (c.notifyModes o conf).Tracks (update cur o (some { old with modes := conf.modes })) := by
  obtain ⟨d, head, modes, hd, hget, ht⟩ := ht.get hcur
  have hshown := ht.shown o head modes old hget hcur
  have hobjects := ClientData.objects_of_get hget
  have hn : (head.id :: modes).Nodup := hobjects ▸ ht.nodup o
  have hlt : ∀ x ∈ head.id :: modes, x < c.nextObject := fun x hx => ht.lt o x (hobjects ▸ hx)
  have hreused : ∀ e ∈ reusedModesEvents modes conf.modes, ∀ x ∈ e.objects, x ∈ head.id :: modes := by
    intro e he x hx
    obtain ⟨id, hid, hobj⟩ := objects_reusedModesEvents he
    rw [hobj, mem_singleton] at hx
    simp [hx, hid]
  have hreusedHead : ∀ m h, Event.head m h ∉ reusedModesEvents modes conf.modes := by
    intro m h he
    obtain ⟨⟨id, mode⟩, -, he⟩ := mem_flatMap.mp he
    unfold refreshEvents at he
    split at he
    all_goals simp at he
  unfold notifyModes
  rw [head_of_get hd, hget]
  dsimp only
  split
  · rename_i hmore
    have hk : min modes.length conf.modes.length = modes.length := by omega
    rw [hk]
    have hids : ∀ x ∈ List.range' c.nextObject (conf.modes.drop modes.length).length,
        c.nextObject ≤ x ∧ x < c.nextObject + (conf.modes.drop modes.length).length :=
      fun x hx => by simpa using hx
    have hnew : (head.id :: (modes ++
        List.range' c.nextObject (conf.modes.drop modes.length).length)).Nodup := by
      rw [← cons_append, nodup_append']
      refine ⟨hn, nodup_range', fun x hx hx' => ?_⟩
      have := hlt x hx
      have := (hids x hx').1
      omega
    refine Tracks.setModes hd hget ht (Nat.le_add_right _ _) (fun x hx => ?_) (fun x hx => ?_) hnew
      (fun e he x hx => ?_) (fun m h he => ?_)
      (shown_addedModes hshown hnew hr (by omega) (by simp) hrange)
    · rcases mem_append.mp hx with hx | hx
      · exact .inl hx
      · exact .inr (hids x hx).1
    · rcases mem_append.mp hx with hx | hx
      · exact Nat.lt_of_lt_of_le (hlt x (by simp [hx])) (Nat.le_add_right _ _)
      · exact (hids x hx).2
    · rcases mem_append.mp he with he | he
      · exact .inl (hreused e he x hx)
      · rcases objects_addedModesEvents he x hx with rfl | hx
        · simp
        · exact .inr (mem_append_right _ hx)
    · rcases mem_append.mp he with he | he
      · exact hreusedHead m h he
      · obtain ⟨⟨id, mode⟩, -, he⟩ := mem_flatMap.mp he
        unfold refreshEvents at he
        split at he
        all_goals simp at he
  · rename_i hmore
    have hk : min modes.length conf.modes.length = conf.modes.length := by omega
    rw [hk]
    have hle : conf.modes.length ≤ modes.length := by omega
    have hremoved := shown_removedModes hshown hn hr hle
    split
    · refine Tracks.setModes hd hget ht (Nat.le_refl _) (fun x hx => .inl (mem_of_mem_take hx))
        (fun x hx => hlt x (by simp [mem_of_mem_take hx]))
        (hn.sublist ((take_sublist _ _).cons_cons _)) (fun e he x hx => ?_) (fun m h he => ?_)
        hremoved
      · rcases mem_append.mp he with he | he
        · exact .inl (hreused e he x hx)
        · obtain ⟨id, hid, rfl⟩ := List.mem_map.mp he
          rw [Event.objects, mem_singleton] at hx
          exact .inl (by simp [hx, mem_of_mem_drop hid])
      · rcases mem_append.mp he with he | he
        · exact hreusedHead m h he
        · obtain ⟨_, _, he⟩ := List.mem_map.mp he
          simp at he
    · have hlen : modes.length = conf.modes.length := by omega
      rw [← hlen, drop_length, take_length, map_nil, append_nil] at hremoved
      exact Tracks.send hd hget ht hreused hreusedHead hremoved

theorem tracks_notifyCurrentMode (ht : c.Tracks cur) (hcur : cur o = some new)
    (hmodes : new.modes = conf.modes) (hcurrent : new.currentMode = old.currentMode)
    (hf : Follows old conf) (hrange : ∀ i, conf.currentMode = some i → i < conf.modes.length) :
    (c.notifyCurrentMode o old conf).Tracks
      (update cur o (some { new with currentMode := conf.currentMode })) := by
  have hkept : old.currentMode = conf.currentMode →
      c.Tracks (update cur o (some { new with currentMode := conf.currentMode })) := by
    intro h
    rw [← h, ← hcurrent]
    exact ht.self hcur
  obtain ⟨d, head, modes, hd, hget, htr⟩ := ht.get hcur
  have hshown := htr.shown o head modes new hget hcur
  have hlen : modes.length = conf.modes.length := by rw [hshown.length_eq, hmodes]
  have hmode : ∀ j, conf.currentMode = some j → ∃ m, modes[j]? = some m := by
    intro j hj
    have := hrange j hj
    exact ⟨modes[j], getElem?_eq_getElem _⟩
  unfold notifyCurrentMode
  rw [head_of_get hd, hget]
  dsimp only
  split
  · rename_i i j hi hj
    obtain ⟨m, hm⟩ := hmode j hj
    split
    · rw [hj, currentModeEvents, hm]
      exact Tracks.send hd hget htr (by simp [Event.objects]) (by simp)
        (shown_currentMode hshown hm (by simp [hcurrent, hi]))
    · rename_i hsame
      refine hkept ?_
      rcases hf with hf | hf | hf
      · have : i = j := by
          by_contra hne
          exact hsame ⟨hf, .inr hne⟩
        rw [hi, hj, this]
      · simp [hj] at hf
      · exact hf
  · rename_i hj
    rw [hj]
    exact Tracks.send hd hget htr (by simp [Event.objects]) (by simp) (shown_disabled hshown)
  · rename_i j hi hj
    obtain ⟨m, hm⟩ := hmode j hj
    have hsame : old.modes.length = conf.modes.length := by
      rcases hf with hf | hf | hf
      · exact hf
      · simp [hj] at hf
      · simp [hi, hj] at hf
    rw [if_pos hsame, hj, currentModeEvents, hm]
    exact Tracks.send hd hget htr (by simp [Event.objects]) (by simp) (shown_enabled hshown hm)
  · rename_i hi hj
    exact hkept (hi.trans hj.symm)

theorem Tracks.congr (ht : c.Tracks (update cur o (some old))) (hmodes : new.modes = old.modes)
    (hcurrent : new.currentMode = old.currentMode) (hvrr : new.vrrEnabled = old.vrrEnabled)
    (hlogical : ∀ l, new.logical = some l → old.logical = some l) :
    c.Tracks (update cur o (some new)) := by
  obtain ⟨d, hd, ht⟩ := ht
  refine ⟨d, hd, { ht with dom := fun o' => ?_, shown := fun o' head modes conf hget hcur => ?_ }⟩
  · rw [ht.dom o']
    by_cases ho : o' = o <;> simp [ho]
  · by_cases ho : o' = o
    · subst ho
      simp only [Function.update_self, some.injEq] at hcur
      subst hcur
      exact (ht.shown o' head modes old hget (by simp)).congr hmodes hcurrent hvrr hlogical
    · rw [Function.update_of_ne ho] at hcur
      exact ht.shown o' head modes conf hget (by rwa [Function.update_of_ne ho])

/-- A client follows a change of an output. -/
theorem tracks_notifyOutput (ht : c.Tracks cur) (hcur : cur o = some old) (hf : Follows old conf)
    (hold : old.Valid) (hconf : conf.Valid) :
    (c.notifyOutput o old conf).Tracks (update cur o (some conf)) := by
  -- One stage after the other brings a part of the old state up to date.
  set c₁ := if old.vrrEnabled ≠ conf.vrrEnabled then c.notifyVrr o conf else c with hc₁
  set x₁ : Output := { old with vrrEnabled := conf.vrrEnabled } with hx₁
  have h₁ : c₁.Tracks (update cur o (some x₁)) := by
    rw [hc₁]
    split
    · exact tracks_notifyVrr ht hcur
    · rename_i hvrr
      rw [hx₁, ← not_not.mp hvrr]
      exact ht.self hcur
  set c₂ := if old.modes ≠ conf.modes then c₁.notifyModes o conf else c₁ with hc₂
  set x₂ : Output := { x₁ with modes := conf.modes } with hx₂
  have h₂ : c₂.Tracks (update cur o (some x₂)) := by
    rw [hc₂]
    split
    · have hstep := tracks_notifyModes (o := o) h₁ (Function.update_self ..) hold.range hconf.refresh
      rwa [Function.update_idem] at hstep
    · rename_i hmodes
      have hsame : x₁.modes = conf.modes := not_not.mp hmodes
      rw [hx₂, ← hsame]
      exact h₁
  have h₃ : (c₂.notifyCurrentMode o old conf).Tracks
      (update (update cur o (some x₂)) o (some { x₂ with currentMode := conf.currentMode })) :=
    tracks_notifyCurrentMode h₂ (Function.update_self ..) rfl rfl hf hconf.range
  rw [Function.update_idem] at h₃
  have hlogical : Output.logical { x₂ with currentMode := conf.currentMode } = old.logical := rfl
  obtain ⟨l, h₄, hl⟩ := tracks_notifyLogical conf h₃ (Function.update_self ..) hlogical
  rw [Function.update_idem] at h₄
  exact h₄.congr rfl rfl rfl hl

/-- A client gets a head for an output that has none. -/
theorem tracks_sendNewHead {d : ClientData} (ht : d.Tracks c.view c.nextObject cur)
    (hcur : cur o = none) (hconf : conf.Valid) :
    (sendNewHead c d o conf).2.Tracks (sendNewHead c d o conf).1.view
      (sendNewHead c d o conf).1.nextObject (update cur o (some conf)) := by
  have hnone : d.heads.get o = none := by
    have hdom := ht.dom o
    rw [hcur, isSome_none] at hdom
    simpa using hdom
  have hfresh : ∀ x ∈ c.nextObject :: List.range' (c.nextObject + 1) conf.modes.length,
      c.nextObject ≤ x ∧ x < c.nextObject + 1 + conf.modes.length := by
    intro x hx
    rcases mem_cons.mp hx with rfl | hx
    · omega
    · rw [List.mem_range'_1] at hx
      omega
  have hn : (c.nextObject :: List.range' (c.nextObject + 1) conf.modes.length).Nodup := by
    refine nodup_cons.mpr ⟨fun hx => ?_, nodup_range'⟩
    rw [List.mem_range'_1] at hx
    omega
  have hview : (sendNewHead c d o conf).1.view = c.view.apply (newHeadEvents d.manager
      ⟨c.nextObject, d.manager.version⟩ (List.range' (c.nextObject + 1) conf.modes.length) conf) :=
    view_send
  rw [hview]
  refine ht.set (by simp [sendNewHead, Client.send]; omega) (fun e he x hx => ?_) (fun m h he => ?_)
    (fun head' modes' hget => by simp [hnone] at hget) (fun x hx => .inr (hfresh x hx).1)
    (fun x hx => (hfresh x hx).2) hn rfl (shown_newHead hn (by simp) hconf.refresh)
  · exact .inr (hfresh x (objects_newHeadEvents he x hx)).1
  · simp only [newHeadEvents, mem_append] at he
    rcases he with ((he | he) | he) | he
    · simp only [mem_cons, Event.head.injEq, reduceCtorEq, not_mem_nil, or_false] at he
      exact he.2
    · simpa [Event.objects] using objects_physicalSizeEvents he
    · exact absurd he head_notMem_newModesEvents
    · exact objects_headStateEvents he h (by simp [Event.objects])

theorem tracks_notifyNewHead (ht : c.Tracks cur) (hcur : cur o = none) (hconf : conf.Valid) :
    (c.notifyNewHead o conf).Tracks (update cur o (some conf)) := by
  obtain ⟨d, hd, ht⟩ := ht
  unfold notifyNewHead
  rw [hd]
  exact ⟨_, rfl, tracks_sendNewHead ht hcur hconf⟩

theorem tracks_notifyRemovedHead (ht : c.Tracks cur) :
    (c.notifyRemovedHead o).Tracks (update cur o none) := by
  unfold notifyRemovedHead
  split
  · rename_i hnone
    have hcur : cur o = none := by
      obtain ⟨d, hd, ht⟩ := ht
      have hdom := ht.dom o
      rw [← head_of_get hd, hnone] at hdom
      simpa using hdom.symm
    rwa [← hcur, Function.update_eq_self]
  · rename_i head modes hhead
    obtain ⟨d, hd, ht⟩ := ht
    rw [head_of_get hd] at hhead
    refine ⟨{ d with heads := d.heads.remove o }, by simp [Client.send, hd], ?_⟩
    rw [view_send]
    refine ht.unset hhead (by simp) fun e he => ?_
    rcases mem_append.mp he with he | he
    · obtain ⟨m, hm, rfl⟩ := List.mem_map.mp he
      exact ⟨m, by simp [hm], .inl rfl⟩
    · obtain rfl := mem_singleton.mp he
      exact ⟨head.id, by simp, .inr rfl⟩

/-! A whole change of the state. -/

variable {currentState newState : HashMap ℕ Output}

/-- The outputs of the new state, one after the other. -/
theorem tracks_notifyEntries (entries : List (Σ _ : ℕ, Output)) (ht : c.Tracks cur)
    (hn : (entries.map Sigma.fst).Nodup) (hcur : ∀ e ∈ entries, cur e.1 = currentState.get e.1)
    (hold : ∀ o old, currentState.get o = some old → old.Valid)
    (hnew : ∀ e ∈ entries, e.2.Valid)
    (hf : ∀ e ∈ entries, ∀ old, currentState.get e.1 = some old → Follows old e.2) :
    (entries.foldl (fun c e => c.notifyEntry currentState e.1 e.2) c).Tracks
      (entries.foldl (fun cur e => update cur e.1 (some e.2)) cur) := by
  induction entries generalizing c cur with
  | nil => exact ht
  | cons e entries ih =>
    obtain ⟨he, hn⟩ := nodup_cons.mp hn
    have hfirst : (c.notifyEntry currentState e.1 e.2).Tracks (update cur e.1 (some e.2)) := by
      have hcur := hcur e (by simp)
      have hvalid := hnew e (by simp)
      unfold notifyEntry
      split
      · rename_i old hget
        exact tracks_notifyOutput ht (hcur.trans hget) (hf e (by simp) old hget) (hold e.1 old hget)
          hvalid
      · rename_i hget
        exact tracks_notifyNewHead ht (hcur.trans hget) hvalid
    refine ih hfirst hn (fun e' he' => ?_) (fun e' he' => hnew e' (by simp [he']))
      (fun e' he' => hf e' (by simp [he']))
    have hne : e'.1 ≠ e.1 := fun heq => he (heq ▸ List.mem_map_of_mem he')
    exact (Function.update_of_ne hne ..).trans (hcur e' (by simp [he']))

/-- The outputs of the old state that are gone. -/
theorem tracks_notifyGone (newState : HashMap ℕ Output) (entries : List (Σ _ : ℕ, Output))
    (ht : c.Tracks cur) :
    (entries.foldl (fun c e => c.notifyGone newState e.1) c).Tracks fun o =>
      if o ∈ entries.map Sigma.fst ∧ newState.get o = none then none else cur o := by
  induction entries generalizing c cur with
  | nil => simpa using ht
  | cons e entries ih =>
    have hfirst : (c.notifyGone newState e.1).Tracks
        (if newState.get e.1 = none then update cur e.1 none else cur) := by
      unfold notifyGone
      by_cases hnone : newState.get e.1 = none
      · simpa [hnone] using tracks_notifyRemovedHead ht
      · simpa [hnone] using ht
    have hrest := ih hfirst
    rw [foldl_cons]
    convert hrest using 1
    funext o
    simp only [map_cons, mem_cons]
    by_cases ho : o = e.1
    · subst ho
      by_cases hnone : newState.get e.1 = none <;> simp [hnone]
    · by_cases hnone : newState.get e.1 = none <;> simp only [ho, hnone, false_or, if_true, if_false,
        ne_eq, not_false_eq_true, Function.update_of_ne]

theorem foldl_update_iter (ord : IterOrder) (newState : HashMap ℕ Output) (cur : ℕ → Option Output) :
    (ord.iter newState).foldl (fun (cur : ℕ → Option Output) e => update cur e.1 (some e.2)) cur =
      fun o => (newState.get o).or (cur o) := by
  have hfold : ∀ (entries : List (Σ _ : ℕ, Output)) (cur : ℕ → Option Output),
      (entries.map Sigma.fst).Nodup → ∀ o,
      entries.foldl (fun (cur : ℕ → Option Output) e => update cur e.1 (some e.2)) cur o =
        ((entries.find? (·.1 == o)).map Sigma.snd).or (cur o) := by
    intro entries
    induction entries with
    | nil => simp
    | cons e entries ih =>
      intro cur hn o
      obtain ⟨he, hn⟩ := nodup_cons.mp hn
      rw [foldl_cons, ih _ hn]
      by_cases ho : e.1 = o
      · have hfind : entries.find? (·.1 == o) = none := by
          rw [find?_eq_none]
          intro e' he' heq
          exact he (ho ▸ (beq_iff_eq.mp heq) ▸ List.mem_map_of_mem he')
        rw [hfind]
        simp [ho]
      · rw [find?_cons_of_neg (by simpa using ho), Function.update_of_ne (Ne.symm ho)]
  funext o
  rw [hfold _ _ (nodup_keys_iter ord newState)]
  congr 1
  cases hget : newState.get o with
  | none =>
    rw [find?_eq_none.mpr, map_none]
    intro e he heq
    have := (mem_iter ord).mp he
    rw [beq_iff_eq.mp heq, hget] at this
    simp at this
  | some conf =>
    have hmem : (⟨o, conf⟩ : Σ _ : ℕ, Output) ∈ ord.iter newState := (mem_iter ord).mpr hget
    have hsome : ((ord.iter newState).find? (·.1 == o)).isSome :=
      find?_isSome.mpr ⟨_, hmem, beq_self_eq_true o⟩
    obtain ⟨e, he⟩ := isSome_iff_exists.mp hsome
    have hget' := (mem_iter ord).mp (mem_of_find?_eq_some he)
    have hkey : e.1 = o := by simpa using find?_some he
    rw [hkey, hget] at hget'
    rw [he, map_some, ← hget']

/-- A client that knows the old state knows the new one after the loops of `notify_changes`. -/
theorem tracks_notifyClient {ord : IterOrder} {st : OutputManagementManagerState}
    (ht : c.Tracks st.currentState.get)
    (hold : ∀ o old, st.currentState.get o = some old → old.Valid)
    (hnew : ∀ o conf, newState.get o = some conf → conf.Valid)
    (hf : ∀ o old conf, st.currentState.get o = some old → newState.get o = some conf →
      Follows old conf) :
    (st.notifyClient ord newState c).Tracks newState.get := by
  have hentries := tracks_notifyEntries (ord.iter newState) ht
    (nodup_keys_iter ord newState) (fun _ _ => rfl) hold
    (fun e he => hnew e.1 e.2 ((mem_iter ord).mp he))
    (fun e he old hget => hf e.1 old e.2 hget ((mem_iter ord).mp he))
  rw [foldl_update_iter] at hentries
  have hgone := tracks_notifyGone newState (ord.iter st.currentState) hentries
  unfold OutputManagementManagerState.notifyClient
  convert hgone using 1
  funext o
  cases hget : newState.get o with
  | some conf => simp
  | none =>
    cases hcur : st.currentState.get o with
    | none => simp
    | some old =>
      have hmem := List.mem_map_of_mem (f := Sigma.fst)
        ((mem_iter ord (e := ⟨o, old⟩)).mpr hcur)
      simp [hmem]

end Client

end Macniri.OutputManagement
