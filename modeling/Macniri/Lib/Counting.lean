import Macniri.Lib.ListEdit
import Mathlib.Algebra.BigOperators.Group.List.Basic
import Mathlib.Algebra.Ring.Nat
import Mathlib.Data.List.Nodup

/-! Counting items over a list of containers, as single containers are replaced, come and go. -/
namespace Macniri

open Option List

universe u v

variable {α : Type u} {β : Type v} {l m : List α} {f : α → ℕ} {a b : α} {i : ℕ}

theorem sum_map_set (h : l[i]? = some a) (b : α) :
    ((l.set i b).map f).sum + f a = (l.map f).sum + f b := by
  induction l generalizing i with
  | nil => simp at h
  | cons x l ih =>
    cases i with
    | zero =>
      obtain rfl : x = a := by simpa using h
      simp only [set_cons_zero, map_cons, sum_cons]
      omega
    | succ i =>
      have hrest := ih (show l[i]? = some a from h)
      simp only [set_cons_succ, map_cons, sum_cons]
      omega

theorem sum_map_eraseIdx (h : l[i]? = some a) : ((l.eraseIdx i).map f).sum + f a = (l.map f).sum := by
  induction l generalizing i with
  | nil => simp at h
  | cons x l ih =>
    cases i with
    | zero =>
      obtain rfl : x = a := by simpa using h
      simp only [eraseIdx_cons_zero, map_cons, sum_cons]
      omega
    | succ i =>
      have hrest := ih (show l[i]? = some a from h)
      simp only [eraseIdx_cons_succ, map_cons, sum_cons]
      omega

theorem sum_map_forall₂ (h : Forall₂ (fun a b => f a = f b) l m) : (l.map f).sum = (m.map f).sum := by
  induction h with
  | nil => rfl
  | cons hab _ ih => rw [map_cons, map_cons, sum_cons, sum_cons, hab, ih]

theorem mapM_forall₂ {g : α → Option β} {ys : List β} (h : l.mapM g = some ys) :
    Forall₂ (fun a b => g a = some b) l ys := by
  induction l generalizing ys with
  | nil =>
    obtain rfl := some.inj h
    exact .nil
  | cons a l ih =>
    rw [mapM_cons] at h
    obtain ⟨b, hb, h⟩ := bind_eq_some_iff.mp h
    obtain ⟨rest, hrest, h⟩ := bind_eq_some_iff.mp h
    obtain rfl := some.inj h
    exact .cons hb (ih hrest)

theorem exists_mapM {g : α → Option β} (h : ∀ a ∈ l, ∃ b, g a = some b) : ∃ ys, l.mapM g = some ys := by
  induction l with
  | nil => exact ⟨[], rfl⟩
  | cons a l ih =>
    obtain ⟨b, hb⟩ := h a mem_cons_self
    obtain ⟨ys, hys⟩ := ih fun c hc => h c (mem_cons_of_mem a hc)
    rw [mapM_cons, hb, hys]
    exact ⟨b :: ys, rfl⟩

/-- A list in which nothing occurs more often than in one without duplicates has none either. -/
theorem nodup_of_count_le [DecidableEq β] {xs ys : List β} (h : ∀ x, xs.count x ≤ ys.count x)
    (hys : ys.Nodup) : xs.Nodup :=
  nodup_iff_count_le_one.mpr fun x => Nat.le_trans (h x) (nodup_iff_count_le_one.mp hys x)

theorem eq_of_mem_of_nodup_flatten {ls : List (List α)} {xs ys : List α} {x : α} {j : ℕ}
    (h : ls.flatten.Nodup) (hi : ls[i]? = some xs) (hj : ls[j]? = some ys) (hx : x ∈ xs) (hy : x ∈ ys) :
    i = j := by
  obtain ⟨hilt, rfl⟩ := List.getElem?_eq_some_iff.mp hi
  obtain ⟨hjlt, rfl⟩ := List.getElem?_eq_some_iff.mp hj
  have hdisjoint := pairwise_iff_getElem.mp (nodup_flatten.mp h).2
  rcases Nat.lt_trichotomy i j with hlt | heq | hlt
  · exact absurd hy (hdisjoint i j hilt hjlt hlt hx)
  · exact heq
  · exact absurd hx (hdisjoint j i hjlt hilt hlt hy)

end Macniri
