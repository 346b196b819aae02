import Mathlib.Data.List.Nodup

/-! Stacks, from the topmost element down, in which children are kept above their parents. An element
is raised by bringing up its descendants from below it, which are found in one pass from the bottom. -/
namespace Macniri

open List

universe u

variable {α : Type u} (child : α → α → Bool)

/-- No element is below its parent. -/
def Stacked (l : List α) : Prop := l.Pairwise fun above below => child below above = false

/-- The descendants of `w` in the part of the stack below it. -/
def family (w : α) : List α → List α
  | [] => []
  | x :: xs =>
    if child x w || (family w xs).any (child x) then x :: family w xs else family w xs

/-- What is left below `w` without its descendants. -/
def others (w : α) : List α → List α
  | [] => []
  | x :: xs =>
    if child x w || (family child w xs).any (child x) then others w xs else x :: others w xs

/-- The indices of the descendants of `w`, where the list starts at index `n`. -/
def familyIdx (w : α) : ℕ → List α → List ℕ
  | _, [] => []
  | n, x :: xs =>
    if child x w || (family child w xs).any (child x) then n :: familyIdx w (n + 1) xs
    else familyIdx w (n + 1) xs

variable {child} {w x a b : α} {xs pre : List α} {p : α → Bool}

theorem family_sublist (w : α) (xs : List α) : (family child w xs).Sublist xs := by
  induction xs with
  | nil => exact .slnil
  | cons x xs ih =>
    unfold family
    split
    · exact ih.cons_cons x
    · exact ih.cons x

theorem others_sublist (w : α) (xs : List α) : (others child w xs).Sublist xs := by
  induction xs with
  | nil => exact .slnil
  | cons x xs ih =>
    unfold others
    split
    · exact ih.cons x
    · exact ih.cons_cons x

theorem family_append_others_perm (w : α) (xs : List α) :
    (family child w xs ++ others child w xs).Perm xs := by
  induction xs with
  | nil => exact .nil
  | cons x xs ih =>
    unfold family others
    split
    · exact ih.cons x
    · exact perm_middle.trans (ih.cons x)

/-- What holds of the children of `w` and passes from parents to children holds of the family. -/
theorem family_induct {P : α → Prop} (hchild : ∀ x ∈ xs, child x w = true → P x)
    (hpass : ∀ x ∈ xs, ∀ y ∈ xs, P y → child x y = true → P x) : ∀ x ∈ family child w xs, P x := by
  induction xs with
  | nil => simp [family]
  | cons y xs ih =>
    have ih := ih (fun x hx => hchild x (mem_cons_of_mem y hx))
      fun x hx z hz => hpass x (mem_cons_of_mem y hx) z (mem_cons_of_mem y hz)
    intro x hx
    unfold family at hx
    split at hx
    · rename_i htaken
      rcases mem_cons.mp hx with rfl | hx
      · rcases Bool.or_eq_true_iff.mp htaken with h | h
        · exact hchild x (mem_cons_self ..) h
        · obtain ⟨z, hz, hxz⟩ := List.any_eq_true.mp h
          have hmem := mem_cons_of_mem x ((family_sublist w xs).subset hz)
          exact hpass x (mem_cons_self ..) z hmem (ih z hz) hxz
      · exact ih x hx
    · exact ih x hx

/-- One pass from the bottom finds the whole family, since the order was right before. -/
theorem not_child_of_family (h : Stacked child xs) :
    ∀ b ∈ others child w xs, child b w = false ∧ ∀ a ∈ family child w xs, child b a = false := by
  induction xs with
  | nil => simp [others]
  | cons x xs ih =>
    obtain ⟨hx, hxs⟩ := pairwise_cons.mp h
    have ih := ih hxs
    intro b hb
    unfold others at hb
    unfold family
    split at hb
    · rename_i htaken
      rw [if_pos htaken]
      refine ⟨(ih b hb).1, fun a ha => ?_⟩
      rcases mem_cons.mp ha with rfl | ha
      · exact hx b ((others_sublist w xs).subset hb)
      · exact (ih b hb).2 a ha
    · rename_i hleft
      rw [if_neg hleft]
      rcases mem_cons.mp hb with rfl | hb
      · simpa using hleft
      · exact ih b hb

theorem Stacked.raise (h : Stacked child (pre ++ xs)) (hpre : ∀ a ∈ pre, child w a = false)
    (hacyclic : ∀ a ∈ family child w xs, child w a = false) :
    Stacked child (pre ++ family child w xs ++ w :: others child w xs) := by
  obtain ⟨hpp, hxs, hpx⟩ := pairwise_append.mp h
  have hothers := not_child_of_family (w := w) hxs
  rw [append_assoc]
  refine pairwise_append.mpr ⟨hpp, pairwise_append.mpr ⟨?_, ?_, ?_⟩, fun a ha b hb => ?_⟩
  · exact hxs.sublist (family_sublist w xs)
  · exact pairwise_cons.mpr ⟨fun b hb => (hothers b hb).1, hxs.sublist (others_sublist w xs)⟩
  · intro a ha b hb
    rcases mem_cons.mp hb with rfl | hb
    · exact hacyclic a ha
    · exact (hothers b hb).2 a ha
  · rcases mem_append.mp hb with hb | hb
    · exact hpx a ha b ((family_sublist w xs).subset hb)
    · rcases mem_cons.mp hb with rfl | hb
      · exact hpre a ha
      · exact hpx a ha b ((others_sublist w xs).subset hb)

/-- Nothing that is left below `w` has a parent above it. -/
theorem Stacked.not_child_others (h : Stacked child (pre ++ xs)) (hb : b ∈ others child w xs)
    (ha : a ∈ pre ++ family child w xs ++ [w]) : child b a = false := by
  obtain ⟨-, hxs, hpx⟩ := pairwise_append.mp h
  obtain ⟨hw, hfamily⟩ := not_child_of_family hxs b hb
  rcases mem_append.mp ha with ha | ha
  · rcases mem_append.mp ha with ha | ha
    · exact hpx a ha b ((others_sublist w xs).subset hb)
    · exact hfamily a ha
  · exact mem_singleton.mp ha ▸ hw

/-! The order of what is raised, and of what is not. -/

theorem filter_others (h : ∀ x ∈ family child w xs, p x = false) :
    (others child w xs).filter p = xs.filter p := by
  induction xs with
  | nil => rfl
  | cons x xs ih =>
    unfold family at h
    unfold others
    split at h
    · rename_i htaken
      rw [if_pos htaken, ih fun y hy => h y (mem_cons_of_mem x hy),
        filter_cons_of_neg (by simp [h x (mem_cons_self ..)])]
    · rename_i hleft
      rw [if_neg hleft, filter_cons, filter_cons, ih h]

theorem filter_family (h : ∀ x ∈ others child w xs, p x = false) :
    (family child w xs).filter p = xs.filter p := by
  induction xs with
  | nil => rfl
  | cons x xs ih =>
    unfold others at h
    unfold family
    split at h
    · rename_i htaken
      rw [if_pos htaken, filter_cons, filter_cons, ih h]
    · rename_i hleft
      rw [if_neg hleft, ih fun y hy => h y (mem_cons_of_mem x hy),
        filter_cons_of_neg (by simp [h x (mem_cons_self ..)])]

section Keys

variable {β : Type u} {f : α → β}

theorem disjoint_family_others (h : (xs.map f).Nodup) :
    ((family child w xs).map f).Disjoint ((others child w xs).map f) := by
  have hperm : ((family child w xs ++ others child w xs).map f).Perm _ :=
    (family_append_others_perm w xs).map f
  rw [map_append] at hperm
  exact (nodup_append'.mp (hperm.nodup_iff.mpr h)).2.2

variable [DecidableEq β]

theorem filter_notMem_family (h : (xs.map f).Nodup) :
    (xs.map f).filter (· ∉ (family child w xs).map f) = (others child w xs).map f := by
  have hdisj : ((family child w xs).map f).Disjoint _ := disjoint_family_others h
  have hout : ∀ a ∈ family child w xs, decide (f a ∉ (family child w xs).map f) = false :=
    fun a ha => decide_eq_false (not_not.mpr (List.mem_map_of_mem ha))
  have hin : ∀ a ∈ others child w xs, decide (f a ∉ (family child w xs).map f) = true :=
    fun a ha => decide_eq_true fun hmem => hdisj hmem (List.mem_map_of_mem ha)
  calc (xs.map f).filter (· ∉ (family child w xs).map f)
      = (xs.filter fun a => f a ∉ (family child w xs).map f).map f := List.filter_map ..
    _ = ((others child w xs).filter fun a => f a ∉ (family child w xs).map f).map f := by
        rw [filter_others hout]
    _ = (others child w xs).map f := by rw [filter_eq_self.mpr hin]

theorem filter_mem_family (h : (xs.map f).Nodup) :
    (xs.map f).filter (· ∈ (family child w xs).map f) = (family child w xs).map f := by
  have hdisj : ((family child w xs).map f).Disjoint _ := disjoint_family_others h
  have hout : ∀ a ∈ others child w xs, decide (f a ∈ (family child w xs).map f) = false :=
    fun a ha => decide_eq_false fun hmem => hdisj hmem (List.mem_map_of_mem ha)
  have hin : ∀ a ∈ family child w xs, decide (f a ∈ (family child w xs).map f) = true :=
    fun a ha => decide_eq_true (List.mem_map_of_mem ha)
  calc (xs.map f).filter (· ∈ (family child w xs).map f)
      = (xs.filter fun a => f a ∈ (family child w xs).map f).map f := List.filter_map ..
    _ = ((family child w xs).filter fun a => f a ∈ (family child w xs).map f).map f := by
        rw [filter_family hout]
    _ = (family child w xs).map f := by rw [filter_eq_self.mpr hin]

end Keys

/-! Finding the family by index. -/

theorem any_familyIdx {l : List α} (h : l = pre ++ xs) (q : α → Bool) :
    ((familyIdx child w pre.length xs).any fun j => l[j]?.any q) = (family child w xs).any q := by
  induction xs generalizing pre with
  | nil => rfl
  | cons x xs ih =>
    have hrest : l = (pre ++ [x]) ++ xs := by simp [h]
    have ih := ih hrest
    rw [length_append, length_singleton] at ih
    have hx : l[pre.length]? = some x := by simp [h]
    rw [familyIdx, family]
    split
    · rw [any_cons, any_cons, hx, ih]
      rfl
    · exact ih

section Map

variable {β : Type u} {f : β → α} {v : β} {ys : List β}

theorem family_map :
    family child (f v) (ys.map f) = (family (fun a b => child (f a) (f b)) v ys).map f := by
  induction ys with
  | nil => rfl
  | cons y ys ih =>
    rw [map_cons, family, family, ih, List.any_map]
    simp only [Function.comp_def]
    split <;> rfl

theorem familyIdx_map (n : ℕ) :
    familyIdx child (f v) n (ys.map f) = familyIdx (fun a b => child (f a) (f b)) v n ys := by
  induction ys generalizing n with
  | nil => rfl
  | cons y ys ih =>
    rw [map_cons, familyIdx, familyIdx, ih, family_map, List.any_map]
    rfl

end Map

/-- The pass from the bottom over the indices of a list. -/
theorem foldr_eq_familyIdx {l : List α} (h : l = pre ++ xs) :
    (List.range' pre.length xs.length).foldr (fun i found =>
      if l[i]?.any fun below => child below w || found.any fun j => l[j]?.any (child below)
      then i :: found else found) [] = familyIdx child w pre.length xs := by
  induction xs generalizing pre with
  | nil => rfl
  | cons x xs ih =>
    have hrest : l = (pre ++ [x]) ++ xs := by simp [h]
    have hany : ((familyIdx child w _ xs).any fun j => l[j]?.any (child x)) = _ :=
      any_familyIdx hrest (child x)
    have ih := ih hrest
    rw [length_append, length_singleton] at ih hany
    have hx : l[pre.length]? = some x := by simp [h]
    rw [length_cons, range'_succ, foldr_cons, ih, hx]
    simp only [Option.any_some, hany]
    rfl

end Macniri
