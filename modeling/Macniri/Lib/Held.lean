import Mathlib.Data.List.Induction

/-! What a run holds: a thing is held from the step that puts it in to the one that takes it out. -/
namespace Macniri

open List

universe u v w

variable {σ : Type u} {α : Type v} {κ : Type w} {step : σ → α → σ}
  {puts takes : σ → α → κ → Prop} {s : σ} {as : List α} {b : α} {k : κ}

/-- Some step of the run puts `k` in, and no later step takes it out. -/
def Held (step : σ → α → σ) (puts takes : σ → α → κ → Prop) (s : σ) (as : List α) (k : κ) : Prop :=
  ∃ before a after, as = before ++ a :: after ∧ puts (before.foldl step s) a k ∧
    ∀ mid b rest, after = mid ++ b :: rest → ¬ takes ((before ++ a :: mid).foldl step s) b k

theorem not_held_nil : ¬ Held step puts takes s [] k := by
  rintro ⟨before, a, after, heq, -, -⟩
  simp at heq

theorem held_concat : Held step puts takes s (as ++ [b]) k ↔
    puts (as.foldl step s) b k ∨ Held step puts takes s as k ∧ ¬ takes (as.foldl step s) b k := by
  constructor
  · rintro ⟨before, a, after, heq, hput, hkept⟩
    rcases eq_nil_or_concat after with rfl | ⟨after, c, rfl⟩
    · obtain ⟨rfl, hb⟩ := append_inj' heq rfl
      obtain rfl := head_eq_of_cons_eq hb
      exact Or.inl hput
    · rw [concat_eq_append, ← cons_append, ← append_assoc] at heq
      obtain ⟨rfl, hb⟩ := append_inj' heq rfl
      obtain rfl := head_eq_of_cons_eq hb
      rw [concat_eq_append] at hkept
      refine Or.inr ⟨⟨before, a, after, rfl, hput, ?_⟩, hkept after b [] rfl⟩
      intro mid c rest hafter
      exact hkept mid c (rest ++ [b]) (by rw [hafter]; simp)
  · rintro (hput | ⟨⟨before, a, after, rfl, hput, hkept⟩, hb⟩)
    · exact ⟨as, b, [], rfl, hput, fun mid c rest h => by simp at h⟩
    · refine ⟨before, a, after ++ [b], by simp, hput, ?_⟩
      intro mid c rest hafter
      rcases eq_nil_or_concat rest with rfl | ⟨rest, d, rfl⟩
      · obtain ⟨rfl, hc⟩ := append_inj' hafter rfl
        obtain rfl := head_eq_of_cons_eq hc
        exact hb
      · rw [concat_eq_append, ← cons_append, ← append_assoc] at hafter
        exact hkept mid c rest (append_inj' hafter rfl).1

/-- Where `I` is kept and every step only puts in and takes out, a run holds at its end what was put
in and not taken since. -/
theorem holds_iff_held {I : σ → Prop} (holds : σ → κ → Prop) (hs : I s)
    (hkeep : ∀ s a, I s → I (step s a)) (hnone : ¬ holds s k)
    (hstep : ∀ s a, I s → (holds (step s a) k ↔ puts s a k ∨ holds s k ∧ ¬ takes s a k)) :
    holds (as.foldl step s) k ↔ Held step puts takes s as k := by
  have hinv : I (as.foldl step s) ∧ (holds (as.foldl step s) k ↔ Held step puts takes s as k) := by
    induction as using List.reverseRecOn with
    | nil => exact ⟨hs, iff_of_false hnone not_held_nil⟩
    | append_singleton as a ih =>
      rw [foldl_append, foldl_cons, foldl_nil, hstep _ _ ih.1, held_concat, ih.2]
      exact ⟨hkeep _ _ ih.1, Iff.rfl⟩
  exact hinv.2

end Macniri
