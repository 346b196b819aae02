import Mathlib.Data.List.Cycle

/-! A selection in a list with distinct keys: stepping round the list, and the nearest element that
satisfies a predicate. -/
namespace Macniri

open Option List

variable {α κ : Type} {l : List α} {f : α → κ} {k : κ} {p : α → Bool}

section Next

variable [DecidableEq κ]

/-- The element after the one with key `k`, or the first one where there is none after it. -/
def nextAfter (f : α → κ) (k : κ) (l : List α) : Option α :=
  match (l.dropWhile fun a => f a != k)[1]? with
  | some a => some a
  | none => l.head?

theorem dropWhile_key_ne (hn : (l.map f).Nodup) {i : ℕ} (hi : i < l.length) (hk : f l[i] = k) :
    l.dropWhile (fun a => f a != k) = l.drop i := by
  induction l generalizing i with
  | nil => simp at hi
  | cons a l ih =>
    rw [map_cons, nodup_cons] at hn
    cases i with
    | zero =>
      have ha : f a = k := by simpa using hk
      simp [ha]
    | succ i =>
      have hi' : i < l.length := by simpa using hi
      have hk' : f l[i] = k := by simpa using hk
      have hne : f a ≠ k := by
        rintro rfl
        exact hn.1 (hk' ▸ List.mem_map_of_mem (getElem_mem hi'))
      simpa [hne] using ih hn.2 hi' hk'

/-- With distinct keys this is the next one of the cycle of keys. -/
theorem map_nextAfter (hn : (l.map f).Nodup) (hk : k ∈ l.map f) :
    (nextAfter f k l).map f = some ((l.map f).next k hk) := by
  obtain ⟨i, hi, hik⟩ := getElem_of_mem hk
  have hil : i < l.length := by simpa using hi
  have hfk : f l[i] = k := by simpa using hik
  have hmod : (i + 1) % (l.map f).length < (l.map f).length := Nat.mod_lt _ (by omega)
  have hnext : some ((l.map f).next k hk) = (l.map f)[(i + 1) % (l.map f).length]? := by
    subst hik
    rw [next_getElem _ hn i hi, getElem?_eq_getElem hmod]
  unfold nextAfter
  rw [dropWhile_key_ne hn hil hfk, hnext, getElem?_drop]
  rcases Nat.lt_or_ge (i + 1) l.length with hlt | hge
  · simp [getElem?_eq_getElem hlt, Nat.mod_eq_of_lt hlt]
  · have hlen : l.length = i + 1 := by omega
    simp [hlen, head?_eq_getElem?]

theorem map_nextAfter_reverse (hn : (l.map f).Nodup) (hk : k ∈ l.map f) :
    (nextAfter f k l.reverse).map f = some ((l.map f).prev k hk) := by
  have hn' : (l.reverse.map f).Nodup := by simpa using hn
  have hk' : k ∈ l.reverse.map f := by simpa using hk
  rw [map_nextAfter hn' hk', ← next_reverse_eq_prev _ hn]
  simp only [map_reverse]

/-- Going round the whole cycle leads back. -/
theorem next_cycle {σ : Type} {l : List κ} (hn : l.Nodup) {F : κ → σ} {g : σ → σ}
    (hg : ∀ k (hk : k ∈ l), g (F k) = F (l.next k hk)) (hk : k ∈ l) : g^[l.length] (F k) = F k := by
  obtain ⟨i, hi, rfl⟩ := getElem_of_mem hk
  have h : ∀ n, ∃ hlt : (i + n) % l.length < l.length, g^[n] (F l[i]) = F l[(i + n) % l.length] := by
    intro n
    refine ⟨Nat.mod_lt _ (by omega), ?_⟩
    induction n with
    | zero => simp [Nat.mod_eq_of_lt hi]
    | succ n ih =>
      rw [Function.iterate_succ_apply', ih, hg _ (getElem_mem _), next_getElem _ hn]
      simp only [Nat.mod_add_mod, Nat.add_assoc]
  obtain ⟨hlt, hl⟩ := h l.length
  simpa [Nat.mod_eq_of_lt hi] using hl

/-- Only in a cycle of one is an element its own successor. -/
theorem eq_of_next_eq_self {l : List κ} (hn : l.Nodup) (hk : k ∈ l) (h : l.next k hk = k) :
    ∀ x ∈ l, x = k := by
  obtain ⟨i, hi, rfl⟩ := getElem_of_mem hk
  rw [next_getElem _ hn, hn.getElem_inj_iff] at h
  have hlen : l.length = 1 := by
    rcases Nat.lt_or_ge (i + 1) l.length with hlt | hge
    · rw [Nat.mod_eq_of_lt hlt] at h
      omega
    · have hi1 : i + 1 = l.length := by omega
      rw [hi1, Nat.mod_self] at h
      omega
  obtain ⟨a, rfl⟩ := length_eq_one_iff.mp hlen
  simp

end Next

/-- The element chosen in place of the one at `i`: itself if it satisfies `p`, otherwise the nearest to
its left that does, otherwise the first of all that do. -/
inductive Nearest (p : α → Bool) (l : List α) (i : ℕ) : Option α → Prop
  | same {a} : l[i]? = some a → p a = true → Nearest p l i (some a)
  | left {j a} : (∀ b, l[i]? = some b → p b = false) → j < i → l[j]? = some a → p a = true →
      (∀ k b, j < k → k < i → l[k]? = some b → p b = false) → Nearest p l i (some a)
  | first : (∀ j b, j ≤ i → l[j]? = some b → p b = false) → Nearest p l i (l.find? p)

/-- The last element up to `i` that satisfies `p`. -/
def lastUpTo (p : α → Bool) (l : List α) (i : ℕ) : Option α :=
  ((l.take (i + 1)).filter p).getLast?

theorem lastUpTo_of_pos {i : ℕ} {a : α} (ha : l[i]? = some a) (hp : p a = true) :
    lastUpTo p l i = some a := by
  simp [lastUpTo, take_add_one, ha, hp]

theorem lastUpTo_of_neg {i : ℕ} (h : ∀ b, l[i]? = some b → p b = false) :
    lastUpTo p l i = ((l.take i).filter p).getLast? := by
  unfold lastUpTo
  rw [take_add_one]
  cases hi : l[i]? with
  | none => simp
  | some b => simp [h b hi]

theorem getLast?_filter_take (n : ℕ) :
    (((l.take n).filter p).getLast? = none ∧ ∀ j b, j < n → l[j]? = some b → p b = false) ∨
      ∃ j a, ((l.take n).filter p).getLast? = some a ∧ j < n ∧ l[j]? = some a ∧ p a = true ∧
        ∀ k b, j < k → k < n → l[k]? = some b → p b = false := by
  induction n with
  | zero => simp
  | succ n ih =>
    by_cases h : ∀ b, l[n]? = some b → p b = false
    · have hlast := lastUpTo_of_neg h
      rw [lastUpTo] at hlast
      rcases ih with ⟨hnone, hall⟩ | ⟨j, a, ha, hj, hja, hp, hall⟩
      · refine .inl ⟨hlast.trans hnone, fun j b hj hb => ?_⟩
        rcases Nat.lt_succ_iff_lt_or_eq.mp hj with hlt | rfl
        · exact hall j b hlt hb
        · exact h b hb
      · refine .inr ⟨j, a, hlast.trans ha, by omega, hja, hp, fun k b hjk hk hb => ?_⟩
        rcases Nat.lt_succ_iff_lt_or_eq.mp hk with hlt | rfl
        · exact hall k b hjk hlt hb
        · exact h b hb
    · push Not at h
      obtain ⟨b, hb, hp⟩ := h
      have hp : p b = true := by simpa using hp
      refine .inr ⟨n, b, lastUpTo_of_pos hb hp, by omega, hb, hp, fun k _ hk hk' => ?_⟩
      omega

theorem nearest_lastUpTo (i : ℕ) : Nearest p l i ((lastUpTo p l i).or (l.find? p)) := by
  by_cases h : ∀ b, l[i]? = some b → p b = false
  · rw [lastUpTo_of_neg h]
    rcases getLast?_filter_take (l := l) (p := p) i with ⟨hnone, hall⟩ | ⟨j, a, ha, hj, hja, hp, hall⟩
    · rw [hnone, none_or]
      refine .first fun j b hj hb => ?_
      rcases Nat.lt_or_eq_of_le hj with hlt | rfl
      · exact hall j b hlt hb
      · exact h b hb
    · rw [ha, some_or]
      exact .left h hj hja hp hall
  · push Not at h
    obtain ⟨b, hb, hp⟩ := h
    have hp : p b = true := by simpa using hp
    rw [lastUpTo_of_pos hb hp, some_or]
    exact .same hb hp

/-- A loop over the satisfying elements with their indices that stops behind `i` and keeps the last. -/
theorem foldl_takeWhile_zipIdx {β : Type} (g : α → β) (d : Option β) (i n : ℕ) :
    (((l.zipIdx n).filter fun e => p e.1).takeWhile fun e => e.2 ≤ n + i).foldl
        (fun _ e => some (g e.1)) d = ((lastUpTo p l i).map g).or d := by
  have htake : ((l.zipIdx n).filter fun e => p e.1).takeWhile (fun e => e.2 ≤ n + i) =
      ((l.take (i + 1)).zipIdx n).filter fun e => p e.1 := by
    induction l generalizing i n with
    | nil => simp
    | cons a l ih =>
      cases i with
      | zero =>
        have hnil : ((l.zipIdx (n + 1)).filter fun e => p e.1).takeWhile (fun e => e.2 ≤ n) = [] := by
          cases hl : (l.zipIdx (n + 1)).filter fun e => p e.1 with
          | nil => rfl
          | cons e es =>
            have hmem : e ∈ l.zipIdx (n + 1) :=
              mem_of_mem_filter (hl ▸ mem_cons_self ..)
            have hle := le_snd_of_mem_zipIdx hmem
            exact takeWhile_cons_of_neg (by simp; omega)
        cases hp : p a <;> simp [zipIdx_cons, hp, hnil]
      | succ i =>
        have := ih i (n + 1)
        rw [show n + 1 + i = n + (i + 1) by omega] at this
        cases hp : p a <;> simp [zipIdx_cons, hp, this]
  rw [htake]
  have hfold : ∀ (l : List (α × ℕ)) d, l.foldl (fun _ e => some (g e.1)) d =
      ((l.map Prod.fst).getLast?.map g).or d := by
    intro l
    induction l using List.reverseRecOn with
    | nil => simp
    | append_singleton l e _ => simp
  rw [hfold]
  unfold lastUpTo
  congr 2
  have := List.filter_map (f := Prod.fst) (p := p) (l := (l.take (i + 1)).zipIdx n)
  rw [zipIdx_map_fst] at this
  rw [this]
  rfl

end Macniri
