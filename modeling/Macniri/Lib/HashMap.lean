import Mathlib.Data.Finmap

/-! Finite maps whose iteration order is not observable except through an oracle. -/
namespace Macniri

open Option List

/-- A hash map is its finite set of entries; no order is part of the value. -/
abbrev HashMap (K V : Type) := Finmap (fun _ : K => V)

/-- One choice of iteration order: any enumeration of the entries, each once. -/
structure IterOrder where
  iter : ∀ {K V : Type}, HashMap K V → List (Σ _ : K, V)
  iter_entries : ∀ {K V : Type} (m : HashMap K V), (iter m : Multiset (Σ _ : K, V)) = m.entries

namespace HashMap

variable {K V : Type} [DecidableEq K] {m m' : HashMap K V} {f : V → V} {k k' : K} {v : V}

def get (m : HashMap K V) (k : K) : Option V := Finmap.lookup k m

def insert (m : HashMap K V) (k : K) (v : V) : HashMap K V := Finmap.insert k v m

def remove (m : HashMap K V) (k : K) : HashMap K V := Finmap.erase k m

omit [DecidableEq K] in
theorem keys_map_entries (f : V → V) (s : Multiset (Σ _ : K, V)) :
    (s.map fun e => (⟨e.1, f e.2⟩ : Σ _ : K, V)).keys = s.keys := by
  simp [Multiset.keys, Multiset.map_map]

/-- Rewrite every value in place, as a loop over `values_mut` does. -/
def mapValues (f : V → V) (m : HashMap K V) : HashMap K V where
  entries := m.entries.map fun e => ⟨e.1, f e.2⟩
  nodupKeys := by
    rw [← Multiset.nodup_keys, keys_map_entries, Multiset.nodup_keys]
    exact m.nodupKeys

omit [DecidableEq K] in
theorem keys_mapEntries_entries (f : K → V → V) (s : Multiset (Σ _ : K, V)) :
    (s.map fun e => (⟨e.1, f e.1 e.2⟩ : Σ _ : K, V)).keys = s.keys := by
  simp [Multiset.keys, Multiset.map_map]

/-- Rewrite every value in place, with its key at hand, as a loop over `iter_mut` does. -/
def mapEntries (f : K → V → V) (m : HashMap K V) : HashMap K V where
  entries := m.entries.map fun e => ⟨e.1, f e.1 e.2⟩
  nodupKeys := by
    rw [← Multiset.nodup_keys, keys_mapEntries_entries, Multiset.nodup_keys]
    exact m.nodupKeys

/-- Keep the entries that satisfy `p`. -/
def retain (p : K → V → Bool) (m : HashMap K V) : HashMap K V where
  entries := m.entries.filter fun e => p e.1 e.2
  nodupKeys := by
    have hle : (m.entries.filter fun e => p e.1 e.2).keys ≤ m.entries.keys :=
      Multiset.map_le_map (Multiset.filter_le _ _)
    exact Multiset.nodup_keys.mp (Multiset.nodup_of_le hle (Multiset.nodup_keys.mpr m.nodupKeys))

/-- Whether every value satisfies `p`. -/
def all (p : V → Bool) (m : HashMap K V) : Bool := decide (∀ e ∈ m.entries, p e.2 = true)

def isEmpty (m : HashMap K V) : Bool := m.all fun _ => false

/-- Collect values keyed by `key`; a later value replaces an earlier one. -/
def collect (key : V → K) (vs : List V) : HashMap K V :=
  vs.foldl (fun m v => m.insert (key v) v) ∅

theorem ext_get (h : ∀ k, m.get k = m'.get k) : m = m' := Finmap.ext_lookup h

@[simp] theorem get_empty : (∅ : HashMap K V).get k = none := rfl

theorem mem_keys_iff : k ∈ m.keys ↔ ∃ v, m.get k = some v :=
  Finmap.mem_keys.trans Finmap.mem_iff

@[simp] theorem get_insert : (m.insert k v).get k' = if k' = k then some v else m.get k' := by
  by_cases h : k' = k
  · subst k'
    simp [get, insert]
  · simp [get, insert, h, Finmap.lookup_insert_of_ne]

@[simp] theorem get_remove : (m.remove k).get k' = if k' = k then none else m.get k' := by
  by_cases h : k' = k
  · subst k'
    simp [get, remove]
  · simp [get, remove, h, Finmap.lookup_erase_ne]

@[simp] theorem insert_insert {w : V} : (m.insert k v).insert k w = m.insert k w := by
  apply ext_get
  intro k'
  simp only [get_insert]
  split <;> rfl

theorem dlookup_map_entries (f : K → V → V) (k : K) (l : List (Σ _ : K, V)) :
    (l.map fun e => (⟨e.1, f e.1 e.2⟩ : Σ _ : K, V)).dlookup k = (l.dlookup k).map (f k) := by
  induction l with
  | nil => rfl
  | cons e l ih =>
    obtain ⟨k', v⟩ := e
    by_cases h : k = k'
    · subst h
      simp
    · simp [h, ih]

@[simp] theorem get_mapValues : (m.mapValues f).get k = (m.get k).map f := by
  induction m using Finmap.induction_on with
  | H a => exact dlookup_map_entries (fun _ => f) k a.entries

@[simp] theorem get_mapEntries {f : K → V → V} : (m.mapEntries f).get k = (m.get k).map (f k) := by
  induction m using Finmap.induction_on with
  | H a => exact dlookup_map_entries f k a.entries

@[simp] theorem get_retain {p : K → V → Bool} : (m.retain p).get k = (m.get k).filter (p k) := by
  apply Option.ext
  intro v
  have hleft : (m.retain p).get k = some v ↔ (⟨k, v⟩ : Σ _ : K, V) ∈ (m.retain p).entries :=
    Finmap.lookup_eq_some_iff
  have hright : m.get k = some v ↔ (⟨k, v⟩ : Σ _ : K, V) ∈ m.entries := Finmap.lookup_eq_some_iff
  rw [hleft, filter_eq_some_iff, hright]
  exact Multiset.mem_filter

@[simp] theorem retain_empty {p : K → V → Bool} : (∅ : HashMap K V).retain p = ∅ := by
  apply ext_get
  intro k
  simp

theorem all_eq_true {p : V → Bool} : m.all p = true ↔ ∀ k v, m.get k = some v → p v = true := by
  unfold all
  rw [decide_eq_true_iff]
  constructor
  · intro h k v hv
    exact h ⟨k, v⟩ (Finmap.lookup_eq_some_iff.mp hv)
  · rintro h ⟨k, v⟩ he
    exact h k v (Finmap.lookup_eq_some_iff.mpr he)

theorem isEmpty_eq_true : m.isEmpty = true ↔ ∀ k, m.get k = none := by
  unfold isEmpty
  rw [all_eq_true]
  constructor
  · intro h k
    cases hv : m.get k with
    | none => rfl
    | some v => exact absurd (h k v hv) (by simp)
  · intro h k v hv
    simp [h k] at hv

theorem mapValues_congr {g : V → V} (h : ∀ k v, m.get k = some v → f v = g v) :
    m.mapValues f = m.mapValues g := by
  apply ext_get
  intro k
  cases hv : m.get k with
  | none => simp [hv]
  | some v => simp [hv, h k v hv]

@[simp] theorem mapValues_mapValues (f g : V → V) (m : HashMap K V) :
    (m.mapValues f).mapValues g = m.mapValues (g ∘ f) := by
  apply ext_get
  intro k
  simp

theorem mapValues_eq_self (h : ∀ k v, m.get k = some v → f v = v) : m.mapValues f = m := by
  apply ext_get
  intro k
  cases hv : m.get k with
  | none => simp [hv]
  | some v => simp [hv, h k v hv]

variable {key : V → K} {vs : List V}

theorem get_foldl_insert_of_notMem (h : k ∉ vs.map key) (m : HashMap K V) :
    (vs.foldl (fun m v => m.insert (key v) v) m).get k = m.get k := by
  induction vs generalizing m with
  | nil => rfl
  | cons v vs ih =>
    simp only [map_cons, mem_cons, not_or] at h
    rw [foldl_cons, ih h.2, get_insert, if_neg h.1]

theorem get_foldl_insert (hn : (vs.map key).Nodup) (hv : v ∈ vs) (m : HashMap K V) :
    (vs.foldl (fun m v => m.insert (key v) v) m).get (key v) = some v := by
  induction vs generalizing m with
  | nil => simp at hv
  | cons w vs ih =>
    simp only [map_cons, nodup_cons] at hn
    rcases mem_cons.mp hv with rfl | hv
    · rw [foldl_cons, get_foldl_insert_of_notMem hn.1, get_insert, if_pos rfl]
    · exact ih hn.2 hv _

/-- Every value is stored under its own key. -/
def KeyedBy (key : V → K) (m : HashMap K V) : Prop := ∀ k v, m.get k = some v → key v = k

theorem keyedBy_empty : KeyedBy key (∅ : HashMap K V) := by simp [KeyedBy]

theorem KeyedBy.insert (h : KeyedBy key m) (hk : key v = k) : KeyedBy key (m.insert k v) := by
  intro k' w hw
  rw [get_insert] at hw
  split_ifs at hw with he
  · rw [← some.inj hw, hk, he]
  · exact h k' w hw

theorem KeyedBy.mapValues (h : KeyedBy key m) (hf : ∀ v, key (f v) = key v) :
    KeyedBy key (m.mapValues f) := by
  intro k w hw
  rw [get_mapValues] at hw
  obtain ⟨v, hv, rfl⟩ := map_eq_some_iff.mp hw
  rw [hf, h k v hv]

theorem KeyedBy.remove (h : KeyedBy key m) : KeyedBy key (m.remove k) := by
  intro k' w hw
  rw [get_remove] at hw
  split_ifs at hw
  exact h k' w hw

theorem keyedBy_collect : KeyedBy key (collect key vs) := by
  have hfold : ∀ m : HashMap K V, KeyedBy key m →
      KeyedBy key (vs.foldl (fun m v => m.insert (key v) v) m) := by
    induction vs with
    | nil => exact fun m h => h
    | cons v vs ih => exact fun m h => ih _ (h.insert rfl)
  exact hfold ∅ keyedBy_empty

/-- With distinct keys the collected map holds exactly the listed values. -/
theorem get_collect (hn : (vs.map key).Nodup) :
    (collect key vs).get k = some v ↔ v ∈ vs ∧ key v = k := by
  constructor
  · intro h
    by_cases hk : k ∈ vs.map key
    · obtain ⟨w, hw, rfl⟩ := List.mem_map.mp hk
      have : some v = some w := h.symm.trans (get_foldl_insert hn hw ∅)
      obtain rfl := some.inj this
      exact ⟨hw, rfl⟩
    · have : (∅ : HashMap K V).get k = some v := (get_foldl_insert_of_notMem hk ∅).symm.trans h
      simp at this
  · rintro ⟨hv, rfl⟩
    exact get_foldl_insert hn hv ∅

theorem mem_iter (ord : IterOrder) {e : Σ _ : K, V} :
    e ∈ ord.iter m ↔ m.get e.1 = some e.2 := by
  unfold get
  rw [Finmap.lookup_eq_some_iff, ← ord.iter_entries m]
  rfl

omit [DecidableEq K] in
theorem nodup_keys_iter (ord : IterOrder) (m : HashMap K V) :
    ((ord.iter m).map Sigma.fst).Nodup := by
  have h : (ord.iter m : Multiset (Σ _ : K, V)).NodupKeys := by
    rw [ord.iter_entries]
    exact m.nodupKeys
  simpa [NodupKeys, List.keys] using Multiset.coe_nodupKeys.mp h

omit [DecidableEq K] in
@[simp] theorem iter_empty (ord : IterOrder) : ord.iter (∅ : HashMap K V) = [] := by
  have h := ord.iter_entries (∅ : HashMap K V)
  exact Multiset.coe_eq_zero _ |>.mp h

/-- A map with one entry has one order. -/
theorem iter_singleton (ord : IterOrder) : ord.iter ((∅ : HashMap K V).insert k v) = [⟨k, v⟩] := by
  have h := ord.iter_entries ((∅ : HashMap K V).insert k v)
  have hentries : ((∅ : HashMap K V).insert k v).entries = {(⟨k, v⟩ : Σ _ : K, V)} := rfl
  rw [hentries] at h
  exact Multiset.coe_eq_singleton.mp h

/-- Collecting the values of a map rebuilds it, in whatever order they come. -/
theorem collect_iter (ord : IterOrder) (h : KeyedBy key m) :
    collect key ((ord.iter m).map Sigma.snd) = m := by
  have hkeys : ((ord.iter m).map Sigma.snd).map key = (ord.iter m).map Sigma.fst := by
    rw [List.map_map]
    apply map_congr_left
    intro e he
    exact h e.1 e.2 ((mem_iter ord).mp he)
  have hn : (((ord.iter m).map Sigma.snd).map key).Nodup := by
    rw [hkeys]
    exact nodup_keys_iter ord m
  apply ext_get
  intro k
  apply Option.ext
  intro v
  rw [get_collect hn]
  constructor
  · rintro ⟨hv, rfl⟩
    obtain ⟨e, he, rfl⟩ := List.mem_map.mp hv
    have hm := (mem_iter ord).mp he
    rwa [h e.1 e.2 hm]
  · intro hv
    exact ⟨List.mem_map.mpr ⟨⟨k, v⟩, (mem_iter ord).mpr hv, rfl⟩, h k v hv⟩

end HashMap

/-- Every map has some iteration order. -/
noncomputable def IterOrder.arbitrary : IterOrder where
  iter m := m.entries.toList
  iter_entries m := Multiset.coe_toList m.entries

end Macniri
