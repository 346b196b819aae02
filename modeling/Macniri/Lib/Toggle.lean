import Macniri.Lib.Run
import Mathlib.Data.Finset.Basic

/-! Switches that are turned on and off in turn. -/
namespace Macniri

open Option List

variable {κ ι : Type} [DecidableEq κ] {on on' : Finset κ} {k l : κ} {b : Bool}

/-- Turn `k` on, which must be off, or off, which must be on. -/
def toggle (on : Finset κ) (e : κ × Bool) : Option (Finset κ) :=
  if e.2 then if e.1 ∈ on then none else some (insert e.1 on)
  else if e.1 ∈ on then some (on.erase e.1) else none

theorem toggle_on (h : k ∉ on) : toggle on (k, true) = some (insert k on) := by
  simp [toggle, h]

theorem toggle_off (h : k ∈ on) : toggle on (k, false) = some (on.erase k) := by
  simp [toggle, h]

theorem mem_toggle (h : toggle on (k, b) = some on') :
    l ∈ on' ↔ if l = k then b = true else l ∈ on := by
  unfold toggle at h
  cases b with
  | true =>
    obtain ⟨-, h⟩ := ite_none_left_eq_some.mp h
    obtain rfl := some.inj h
    by_cases hl : l = k <;> simp [hl]
  | false =>
    obtain ⟨-, rfl⟩ := of_guard h
    by_cases hl : l = k <;> simp [hl]

theorem of_toggle (h : toggle on (k, b) = some on') : k ∈ on ↔ b = false := by
  unfold toggle at h
  cases b with
  | true =>
    obtain ⟨hk, -⟩ := ite_none_left_eq_some.mp h
    simp [hk]
  | false =>
    obtain ⟨hk, -⟩ := ite_none_right_eq_some.mp h
    simp [hk]

/-- The toggles that lead from one setting of the switches `f i` to another. -/
def settings (f : ι → κ) (old new : ι → Bool) (is : List ι) : List (κ × Bool) :=
  is.flatMap fun i => if old i ≠ new i then [(f i, new i)] else []

theorem run_settings {f : ι → κ} {old : ι → Bool} (new : ι → Bool) (is : List ι) (hf : (is.map f).Nodup)
    (h : ∀ i ∈ is, f i ∈ on ↔ old i = true) :
    ∃ on', run toggle on (settings f old new is) = some on' ∧ (∀ i ∈ is, f i ∈ on' ↔ new i = true) ∧
      ∀ k, k ∉ is.map f → (k ∈ on' ↔ k ∈ on) := by
  induction is generalizing on with
  | nil => exact ⟨on, rfl, (fun i hi => nomatch hi), fun k _ => Iff.rfl⟩
  | cons i is ih =>
    obtain ⟨hnot, hnodup⟩ := nodup_cons.mp hf
    -- the first switch is set to its new value, and the others are left as they were
    have hfirst : ∃ mid, run toggle on (if old i ≠ new i then [(f i, new i)] else []) = some mid ∧
        (f i ∈ mid ↔ new i = true) ∧ ∀ k, k ≠ f i → (k ∈ mid ↔ k ∈ on) := by
      have hi := h i (mem_cons_self ..)
      by_cases hsame : old i = new i
      · exact ⟨on, by simp [hsame], by rw [hi, hsame], fun k _ => Iff.rfl⟩
      · cases hnew : new i with
        | true =>
          have hout : f i ∉ on := by
            rw [hi]
            simpa [hnew] using hsame
          refine ⟨insert (f i) on, ?_, by simp, fun k hk => by simp [hk]⟩
          simp [toggle_on hout, show old i ≠ true by simpa [hnew] using hsame]
        | false =>
          have hin : f i ∈ on := by
            rw [hi]
            simpa [hnew] using hsame
          refine ⟨on.erase (f i), ?_, by simp, fun k hk => by simp [hk]⟩
          simp [toggle_off hin, show old i ≠ false by simpa [hnew] using hsame]
    obtain ⟨mid, hmid, hi, hothers⟩ := hfirst
    have hne : ∀ j ∈ is, f j ≠ f i := fun j hj heq => hnot (heq ▸ List.mem_map_of_mem hj)
    obtain ⟨on', hrun, hset, hkept⟩ := ih hnodup fun j hj => by
      rw [hothers (f j) (hne j hj)]
      exact h j (mem_cons_of_mem i hj)
    refine ⟨on', ?_, ?_, ?_⟩
    · rw [settings, flatMap_cons, run_append, hmid]
      exact hrun
    · intro j hj
      rcases mem_cons.mp hj with rfl | hj
      · rw [hkept (f j) hnot, hi]
      · exact hset j hj
    · intro k hk
      rw [map_cons, mem_cons, not_or] at hk
      rw [hkept k hk.2, hothers k hk.1]

end Macniri
