import Macniri.Lib.Run
import Macniri.Scrolling.Effects

/-! What the operations of a scrolling space do to its list of columns, up to their animations. -/
namespace Macniri.Layout.ScrollingSpace

open List Option

variable {s s' : ScrollingSpace} {i : ℕ} {c : Column}

@[simp] theorem columns_activateColumn (s : ScrollingSpace) (i : ℕ) :
    (s.activateColumn i).columns = s.columns := by
  unfold activateColumn
  split
  · rfl
  · dsimp only
    split <;> rfl

@[simp] theorem activeColumnIdx_activateColumn (s : ScrollingSpace) (i : ℕ) :
    (s.activateColumn i).activeColumnIdx = i := by
  have h := (s.like_activateColumn i).active
  rwa [activeColumnIdx_focusOn] at h

theorem columns_activateInserted (s : ScrollingSpace) (i : ℕ) (wasEmpty : Bool) :
    (s.activateInserted i wasEmpty).columns = s.columns := by
  unfold activateInserted
  cases wasEmpty <;> simp

theorem activeColumnIdx_activateInserted (s : ScrollingSpace) (i : ℕ) (wasEmpty : Bool) :
    (s.activateInserted i wasEmpty).activeColumnIdx = i := by
  unfold activateInserted
  simp

theorem columns_refocusAfterRemoval (s : ScrollingSpace) (i : ℕ) :
    (s.refocusAfterRemoval i).columns = s.columns := by
  unfold refocusAfterRemoval
  split
  · rfl
  split
  · rfl
  split
  · split
    · simp [animateViewOffset, animateViewOffsetToColumn]
    · rfl
  · simp

/-- Where the active column is after another one is inserted. -/
def activeIdxInserted (s : ScrollingSpace) (i : ℕ) (activate : Bool) : ℕ :=
  if activate then i
  else if s.columns ≠ [] ∧ i ≤ s.activeColumnIdx then s.activeColumnIdx + 1
  else s.activeColumnIdx

theorem activeColumnIdx_inserted (s : ScrollingSpace) (i : ℕ) (c : Column) (activate : Bool) :
    (s.inserted i c activate).activeColumnIdx = s.activeIdxInserted i activate := by
  unfold inserted activeIdxInserted
  split
  · exact activeColumnIdx_focusOn ..
  · split <;> rfl

/-- A column without its animation. -/
def still (c : Column) : Column := { c with moveAnimation := none }

theorem still_ignores_animation (c : Column) (m : Option MoveAnimation) :
    still { c with moveAnimation := m } = still c := rfl

section Observation

/-! Something that is observed of a column and does not depend on its animation. -/

variable {β : Type} {f : Column → β}
variable (hf : ∀ (c : Column) (m : Option MoveAnimation), f { c with moveAnimation := m } = f c)

include hf

theorem map_animateColumns (s : ScrollingSpace) (p : ℕ → Bool) (x : ℚ) :
    (s.animateColumns p x).columns.map f = s.columns.map f := by
  refine map_mapIdx_of_eq fun i c => ?_
  split
  · exact hf c _
  · rfl

theorem map_animateAround (s : ScrollingSpace) (n : ℕ) (p q : ℕ → Bool) (x y : ℚ) :
    (if s.activeColumnIdx ≤ n then s.animateColumns p x else s.animateColumns q y).columns.map f =
      s.columns.map f := by
  split
  · exact map_animateColumns hf s p x
  · exact map_animateColumns hf s q y

theorem map_addColumn {idx : Option ℕ} {column : Column} {activate : Bool}
    (h : s.addColumn idx column activate = some s') :
    s'.columns.map f = (s.columns.map f).insertIdx (s.insertionIdx idx) (f (s.adopt column)) := by
  unfold addColumn at h
  dsimp only at h
  split at h
  · cases h
  obtain rfl := some.inj h
  rw [map_animateAround hf]
  have hinsert : (s.insertColumn (s.insertionIdx idx) column).columns.map f =
      (s.columns.map f).insertIdx (s.insertionIdx idx) (f (s.adopt column)) := map_insertIdx ..
  split
  · rw [columns_activateInserted, hinsert]
  · split <;> exact hinsert

theorem map_removeColumnByIdx (h : s.removeColumnByIdx i = some (c, s')) :
    s'.columns.map f = (s.columns.map f).eraseIdx i := by
  obtain ⟨c', hc, h⟩ := of_bind h
  obtain ⟨rfl, rfl⟩ := pair_inj h
  rw [columns_refocusAfterRemoval]
  show ((if _ then _ else _ : ScrollingSpace).columns.eraseIdx i).map f = _
  rw [← eraseIdx_map, map_animateAround hf]

theorem map_addTileToColumn {tileIdx : Option ℕ} {tile : Tile} {activate : Bool}
    (h : s.addTileToColumn i tileIdx tile activate = some s') :
    ∃ c, s.columns[i]? = some c ∧ tileIdx.getD c.tiles.length ≤ c.tiles.length ∧
      s'.columns.map f = (s.columns.map f).set i
        (f (c.insertTile (tileIdx.getD c.tiles.length) tile activate)) := by
  unfold addTileToColumn at h
  obtain ⟨c, hc, h⟩ := of_bind h
  dsimp only at h
  split at h
  · cases h
  rename_i hle
  obtain rfl := some.inj h
  refine ⟨c, hc, Nat.le_of_not_lt hle, ?_⟩
  rw [map_animateAround hf, ← map_set]
  split
  · rw [columns_activateColumn]
    rfl
  · rfl

theorem map_removeTileByIdx {tileIdx : ℕ} {r : RemovedTile} (hc : s.columns[i]? = some c)
    (h : s.removeTileByIdx i tileIdx = some (r, s')) :
    s'.columns.map f = if c.tiles.length = 1 then (s.columns.map f).eraseIdx i
      else (s.columns.map f).set i (f (c.removeTile tileIdx)) := by
  obtain ⟨c', hc', h⟩ := of_bind h
  obtain rfl := some.inj (hc.symm.trans hc')
  split at h
  · rename_i hlen
    rw [if_pos hlen]
    obtain ⟨⟨c', t⟩, ht, h⟩ := of_bind h
    obtain ⟨tile, -, h⟩ := of_bind h
    obtain ⟨-, rfl⟩ := pair_inj h
    exact map_removeColumnByIdx hf ht
  · rename_i hlen
    rw [if_neg hlen]
    obtain ⟨tile, -, h⟩ := of_bind h
    obtain ⟨-, rfl⟩ := pair_inj h
    rw [map_animateAround hf, ← map_set]
    rfl

end Observation

end Macniri.Layout.ScrollingSpace
