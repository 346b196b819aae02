import Macniri.Scrolling.ColumnPositions
import Macniri.Scrolling.Step

/-! Where the columns are seen, and that adding, removing, moving and activating them does not make
them jump. -/
namespace Macniri.Layout.ScrollingSpace

open List

variable {s s' t : ScrollingSpace} {c c' : Column} {d : ColumnData} {i j n : ℕ} {x y : ℚ}

/-- The X position where a column is seen in the view, with its animation. -/
def SeenAt (s : ScrollingSpace) (uid : ℕ) (x : ℚ) : Prop :=
  ∃ i c, s.columns[i]? = some c ∧ c.uid = uid ∧ s.columnX i + c.renderOffsetX - s.viewPos = x

theorem SeenAt.unique (hs : (s.columns.map (·.uid)).Nodup) {uid : ℕ} (hx : s.SeenAt uid x)
    (hy : s.SeenAt uid y) : x = y := by
  obtain ⟨i, c, hc, rfl, rfl⟩ := hx
  obtain ⟨j, c', hc', huid, rfl⟩ := hy
  obtain rfl : i = j := by
    refine (List.getElem?_inj (i := i) (j := j) ?_ hs).mp ?_
    · simpa using lt_length_of_getElem? hc
    · simp [hc, hc', huid]
  rw [Option.some.inj (hc.symm.trans hc')]

/-! What the view jumps by at once when it is animated to an offset. -/

def viewCorrection (s : ScrollingSpace) (idx : ℕ) (newViewOffset : ℚ) : ℚ :=
  (s.viewOffset.offset (s.columnX s.activeColumnIdx - s.columnX idx)).correction newViewOffset
    (1 / s.scale)

/-- The corrections below a pixel while a column is activated. -/
def activationCorrections (s : ScrollingSpace) (idx : ℕ) : List ℚ :=
  if s.activeColumnIdx = idx ∧ (s.columns = [] ∨ s.viewOffset.isDndScroll = false) then []
  else [s.viewCorrection idx (s.computeNewViewOffsetForColumn none idx (some s.activeColumnIdx))]

/-- The corrections after the column at `columnIdx` was taken out. -/
def refocusCorrections (s : ScrollingSpace) (columnIdx : ℕ) : List ℚ :=
  if s.columns = [] ∨ columnIdx < s.activeColumnIdx then []
  else
    match (if columnIdx = s.activeColumnIdx then s.activatePrevColumnOnRemoval else none) with
    | some prevOffset =>
      if 0 < columnIdx then
        let activated := s.activateColumn (s.activeColumnIdx - 1)
        let restored := activated.animateViewOffset activated.activeColumnIdx prevOffset
        s.activationCorrections (s.activeColumnIdx - 1) ++
          [activated.viewCorrection activated.activeColumnIdx prevOffset,
            restored.viewCorrection restored.activeColumnIdx
              (restored.computeNewViewOffsetForColumn none restored.activeColumnIdx none)]
      else []
    | none => s.activationCorrections (min s.activeColumnIdx (s.columns.length - 1))

/-- The view after an animation starts, seen from the column it is for. -/
theorem columnX_animateViewOffset (s : ScrollingSpace) (i : ℕ) (o : ℚ) :
    s.columnX i + (s.animateViewOffset i o).viewOffset.current = s.viewPos + s.viewCorrection i o := by
  unfold animateViewOffset viewCorrection viewPos
  dsimp only
  rw [ViewOffset.current_animateTo, ViewOffset.current_offset]
  ring

theorem viewPos_animateViewOffset (s : ScrollingSpace) (o : ℚ) :
    (s.animateViewOffset s.activeColumnIdx o).viewPos =
      s.viewPos + s.viewCorrection s.activeColumnIdx o :=
  s.columnX_animateViewOffset s.activeColumnIdx o

theorem viewPos_activateColumn (s : ScrollingSpace) (i : ℕ) :
    (s.activateColumn i).viewPos = s.viewPos + (s.activationCorrections i).sum := by
  unfold activateColumn activationCorrections
  split
  · simp
  · have hpos := s.columnX_animateViewOffset i
      (s.computeNewViewOffsetForColumn none i (some s.activeColumnIdx))
    rw [List.sum_singleton, ← hpos]
    dsimp only
    split
    · rename_i hsame
      exact congrArg (s.columnX · + _) hsame
    · rfl

theorem viewPos_refocusAfterRemoval (h : ¬ (s.columns = [] ∨ i < s.activeColumnIdx)) :
    (s.refocusAfterRemoval i).viewPos = s.viewPos + (s.refocusCorrections i).sum := by
  obtain ⟨hne, hlt⟩ := not_or.mp h
  unfold refocusAfterRemoval refocusCorrections
  rw [if_neg hne, if_neg hlt, if_neg h]
  generalize (if i = s.activeColumnIdx then s.activatePrevColumnOnRemoval else none) = prev
  cases prev with
  | none => exact viewPos_activateColumn ..
  | some prevOffset =>
    dsimp only
    split
    · rw [List.sum_append, List.sum_cons, List.sum_singleton, ← add_assoc, ← add_assoc,
        ← viewPos_activateColumn]
      unfold animateViewOffsetToColumn
      rw [viewPos_animateViewOffset, viewPos_animateViewOffset]
    · simp

theorem viewCorrection_small (s : ScrollingSpace) (i : ℕ) (o : ℚ) :
    s.viewCorrection i o = 0 ∨ |s.viewCorrection i o| < 1 / s.scale := by
  unfold viewCorrection ViewOffset.correction
  split
  · right
    assumption
  · exact .inl rfl

theorem activationCorrections_small {k : ℚ} (hk : k ∈ s.activationCorrections i) :
    k = 0 ∨ |k| < 1 / s.scale := by
  unfold activationCorrections at hk
  split at hk
  · exact absurd hk List.not_mem_nil
  · exact List.mem_singleton.mp hk ▸ s.viewCorrection_small ..

theorem scale_activateColumn (s : ScrollingSpace) (i : ℕ) : (s.activateColumn i).scale = s.scale := by
  unfold activateColumn
  split
  · rfl
  · dsimp only
    split <;> rfl

theorem refocusCorrections_small {k : ℚ} (hk : k ∈ s.refocusCorrections i) :
    k = 0 ∨ |k| < 1 / s.scale := by
  unfold refocusCorrections at hk
  split at hk
  · exact absurd hk List.not_mem_nil
  split at hk
  · split at hk
    · dsimp only at hk
      rw [← s.scale_activateColumn (s.activeColumnIdx - 1)]
      rcases List.mem_append.mp hk with hk | hk
      · rw [scale_activateColumn]
        exact activationCorrections_small hk
      · simp only [List.mem_cons, List.not_mem_nil, or_false] at hk
        obtain rfl | rfl := hk
        · exact viewCorrection_small ..
        · exact viewCorrection_small ..
    · exact absurd hk List.not_mem_nil
  · exact activationCorrections_small hk

/-! Where a column is after the columns around it moved. -/

@[simp] theorem renderOffsetX_animateMoveFrom (c : Column) (x : ℚ) :
    (c.animateMoveFrom x).renderOffsetX = c.renderOffsetX + x := by
  simp [Column.animateMoveFrom, Column.renderOffsetX, add_comm]

/-- The column `uid` is somewhere at `x`, with its animation. -/
def IsAt (s : ScrollingSpace) (uid : ℕ) (x : ℚ) : Prop :=
  ∃ i c, s.columns[i]? = some c ∧ c.uid = uid ∧ s.columnX i + c.renderOffsetX = x

theorem IsAt.seenAt {uid : ℕ} (h : s.IsAt uid x) : s.SeenAt uid (x - s.viewPos) := by
  obtain ⟨i, c, hc, huid, rfl⟩ := h
  exact ⟨i, c, hc, huid, rfl⟩

theorem IsAt.of_column (hc : s.columns[i]? = some c) :
    s.IsAt c.uid (s.columnX i + c.renderOffsetX) := ⟨i, c, hc, rfl, rfl⟩

/-- A column that is animated or not. -/
theorem exists_animateColumns (hc : s.columns[i]? = some c) (p : ℕ → Bool) (x : ℚ) :
    ∃ c', (s.animateColumns p x).columns[i]? = some c' ∧ c'.uid = c.uid ∧
      c'.renderOffsetX = c.renderOffsetX + if p i then x else 0 := by
  by_cases hp : p i
  · refine ⟨c.animateMoveFrom x, by simp [animateColumns, hc, hp], rfl, ?_⟩
    rw [renderOffsetX_animateMoveFrom, if_pos hp]
  · refine ⟨c, by simp [animateColumns, hc, hp], rfl, ?_⟩
    rw [if_neg hp, add_zero]

/-! The columns on the side of `n` where the active one is not are animated. -/

theorem exists_animateAround_left (hc : s.columns[i]? = some c) (hi : i < n) (x y : ℚ) :
    ∃ c', (if s.activeColumnIdx ≤ n then s.animateColumns (n + 1 ≤ ·) x
        else s.animateColumns (· < n) y).columns[i]? = some c' ∧ c'.uid = c.uid ∧
      c'.renderOffsetX = c.renderOffsetX + if s.activeColumnIdx ≤ n then 0 else y := by
  have hnot : ¬ n + 1 ≤ i := by omega
  split
  · simpa only [decide_eq_true_eq, if_neg hnot] using exists_animateColumns hc (n + 1 ≤ ·) x
  · simpa only [decide_eq_true_eq, if_pos hi] using exists_animateColumns hc (· < n) y

theorem exists_animateAround_right (hc : s.columns[i]? = some c) (hi : n < i) (x y : ℚ) :
    ∃ c', (if s.activeColumnIdx ≤ n then s.animateColumns (n + 1 ≤ ·) x
        else s.animateColumns (· < n) y).columns[i]? = some c' ∧ c'.uid = c.uid ∧
      c'.renderOffsetX = c.renderOffsetX + if s.activeColumnIdx ≤ n then x else 0 := by
  split
  · simpa only [decide_eq_true_eq, if_pos (Nat.succ_le_of_lt hi)] using
      exists_animateColumns hc (n + 1 ≤ ·) x
  · simpa only [decide_eq_true_eq, if_neg hi.asymm] using exists_animateColumns hc (· < n) y

theorem columnX_animateAround (s : ScrollingSpace) (p q : ℕ → Bool) (x y : ℚ) (n i : ℕ) :
    (if s.activeColumnIdx ≤ n then s.animateColumns p x else s.animateColumns q y).columnX i =
      s.columnX i := by
  split
  · rfl
  · rfl

theorem IsAt.congr {uid : ℕ} (h : s.IsAt uid x) (hcolumns : t.columns = s.columns)
    (hdata : t.data = s.data) (hoptions : t.options = s.options) : t.IsAt uid x := by
  obtain ⟨i, c, hc, huid, rfl⟩ := h
  refine ⟨i, c, hcolumns ▸ hc, huid, ?_⟩
  unfold columnX
  rw [hdata, hoptions]

/-- The columns move apart for the one at `n`, on the side where the active one is not. -/
def makeRoom (s : ScrollingSpace) (n : ℕ) : ScrollingSpace :=
  let offset := s.columnX (n + 1) - s.columnX n
  if s.activeColumnIdx ≤ n then s.animateColumns (n + 1 ≤ ·) (-offset)
  else s.animateColumns (· < n) offset

theorem viewPos_makeRoom (s : ScrollingSpace) (n : ℕ) : (s.makeRoom n).viewPos = s.viewPos := by
  unfold makeRoom
  dsimp only
  split
  · rfl
  · rfl

/-- The space `u` has one more column than `s`, at `n`. -/
structure Inserted (s u : ScrollingSpace) (n : ℕ) (column : Column) : Prop where
  columns : u.columns = s.columns.insertIdx n column
  data : u.data = s.data.insertIdx n (ColumnData.new column)
  options : u.options = s.options
  workingArea : u.workingArea = s.workingArea

theorem isAt_makeRoom {column : Column} {u : ScrollingSpace} (hs : s.Inv)
    (hn : n ≤ s.columns.length) (hu : Inserted s u n column) (hc : s.columns[i]? = some c) :
    (u.makeRoom n).IsAt c.uid (s.columnX i + c.renderOffsetX +
      if u.activeColumnIdx ≤ n then 0 else column.actualWidth + s.options.gaps) := by
  have hlen : s.data.length = s.columns.length := by rw [hs.data, List.length_map]
  have hX (k : ℕ) : u.columnX k =
      columnXAt s.options.gaps (s.data.insertIdx n (ColumnData.new column)) k := by
    rw [← hu.options, ← hu.data]
    rfl
  have hd : (s.data.insertIdx n (ColumnData.new column))[n]? = some (ColumnData.new column) := by
    rw [List.getElem?_insertIdx_self, if_pos (by omega)]
  have hoffset : u.columnX (n + 1) - u.columnX n = column.actualWidth + s.options.gaps := by
    rw [hX, hX, columnXAt_succ hd, add_sub_cancel_left]
    rfl
  have hlt := lt_length_of_getElem? hc
  unfold makeRoom
  dsimp only
  rw [hoffset]
  by_cases hi : i < n
  · have hcu : u.columns[i]? = some c := by
      rw [hu.columns, List.getElem?_insertIdx_of_lt hi, hc]
    have hXi : u.columnX i = s.columnX i := by
      rw [hX]
      exact columnXAt_insertIdx_le (by omega) hi.le
    obtain ⟨c', hc', huid, hrender⟩ := exists_animateAround_left hcu hi
      (-(column.actualWidth + s.options.gaps)) (column.actualWidth + s.options.gaps)
    refine ⟨i, c', hc', huid, ?_⟩
    rw [columnX_animateAround, hXi, hrender, add_assoc]
  · have hni := Nat.le_of_not_lt hi
    have hcu : u.columns[i + 1]? = some c := by
      rw [hu.columns, List.getElem?_insertIdx_of_gt (by omega), Nat.add_sub_cancel, hc]
    have hXi : u.columnX (i + 1) = s.columnX i + (column.actualWidth + s.options.gaps) := by
      rw [hX]
      exact columnXAt_insertIdx_gt (by omega) hni (by omega)
    obtain ⟨c', hc', huid, hrender⟩ := exists_animateAround_right hcu (Nat.lt_succ_of_le hni)
      (-(column.actualWidth + s.options.gaps)) (column.actualWidth + s.options.gaps)
    refine ⟨i + 1, c', hc', huid, ?_⟩
    rw [columnX_animateAround, hXi, hrender]
    split
    · ring
    · ring

theorem seenAt_makeRoom {column : Column} {u : ScrollingSpace} {e : ℚ} (hs : s.Inv)
    (hn : n ≤ s.columns.length) (hu : Inserted s u n column)
    (hview : u.viewPos = s.viewPos + e +
      if u.activeColumnIdx ≤ n then 0 else column.actualWidth + s.options.gaps)
    (hc : s.columns[i]? = some c) :
    (u.makeRoom n).SeenAt c.uid (s.columnX i + c.renderOffsetX - s.viewPos - e) := by
  have hseen := (isAt_makeRoom hs hn hu hc).seenAt
  rw [viewPos_makeRoom, hview] at hseen
  convert hseen using 1
  ring

theorem data_activateColumn (s : ScrollingSpace) (i : ℕ) : (s.activateColumn i).data = s.data := by
  unfold activateColumn
  split
  · rfl
  · dsimp only
    split <;> rfl

theorem options_activateColumn (s : ScrollingSpace) (i : ℕ) :
    (s.activateColumn i).options = s.options := by
  unfold activateColumn
  split
  · rfl
  · dsimp only
    split <;> rfl

theorem workingArea_activateColumn (s : ScrollingSpace) (i : ℕ) :
    (s.activateColumn i).workingArea = s.workingArea := by
  unfold activateColumn
  split
  · rfl
  · dsimp only
    split <;> rfl

/-- How the active column is chosen when one is inserted. -/
theorem addColumn_cases {idx : Option ℕ} {column : Column} {activate : Bool} (hne : s.columns ≠ [])
    (h : s.addColumn idx column activate = some s') :
    s.insertionIdx idx ≤ s.columns.length ∧
    ∃ u, Inserted s u (s.insertionIdx idx) (s.adopt column) ∧
      s' = u.makeRoom (s.insertionIdx idx) ∧
      if activate then u.activeColumnIdx = s.insertionIdx idx ∧
        u.viewOffset = ((s.insertColumn (s.insertionIdx idx) column).activateColumn
          (s.insertionIdx idx)).viewOffset ∧
        u.viewPos = ((s.insertColumn (s.insertionIdx idx) column).activateColumn
          (s.insertionIdx idx)).viewPos
      else u.viewOffset = s.viewOffset ∧ u.activeColumnIdx =
        if s.insertionIdx idx ≤ s.activeColumnIdx then s.activeColumnIdx + 1
        else s.activeColumnIdx := by
  unfold addColumn at h
  dsimp only at h
  rw [List.isEmpty_eq_false_iff.mpr hne] at h
  split at h
  · cases h
  rename_i hn
  refine ⟨Nat.le_of_not_lt hn, ?_⟩
  obtain rfl := Option.some.inj h
  clear h
  generalize s.insertionIdx idx = n
  cases activate with
  | true =>
    refine ⟨(s.insertColumn n column).activateInserted n false, ⟨?_, ?_, ?_, ?_⟩, rfl, ?_⟩
    · exact columns_activateInserted ..
    · exact (s.insertColumn n column).data_activateColumn n
    · exact (s.insertColumn n column).options_activateColumn n
    · exact (s.insertColumn n column).workingArea_activateColumn n
    · exact ⟨activeColumnIdx_activateInserted .., rfl, rfl⟩
  | false =>
    simp only [Bool.false_eq_true, if_false, Bool.not_false, Bool.true_and, decide_eq_true_eq]
    by_cases hidx : n ≤ s.activeColumnIdx
    · rw [if_pos hidx, if_pos (show n ≤ (s.insertColumn n column).activeColumnIdx from hidx)]
      exact ⟨{ s.insertColumn n column with activeColumnIdx := s.activeColumnIdx + 1 },
        ⟨rfl, rfl, rfl, rfl⟩, rfl, rfl, rfl⟩
    · rw [if_neg hidx, if_neg (show ¬ n ≤ (s.insertColumn n column).activeColumnIdx from hidx)]
      exact ⟨s.insertColumn n column, ⟨rfl, rfl, rfl, rfl⟩, rfl, rfl, rfl⟩

/-- The space after a column is taken out, before the active one is chosen. -/
def columnTaken (s : ScrollingSpace) (columnIdx : ℕ) (column : Column) : ScrollingSpace :=
  let offset := s.columnX (columnIdx + 1) - s.columnX columnIdx
  let s := if s.activeColumnIdx ≤ columnIdx then s.animateColumns (columnIdx + 1 ≤ ·) offset
    else s.animateColumns (· < columnIdx) (-offset)
  s.dropColumn columnIdx column

theorem removeColumnByIdx_eq (hn : s.columns[n]? = some c) :
    s.removeColumnByIdx n = some (c, (s.columnTaken n c).refocusAfterRemoval n) := by
  unfold removeColumnByIdx
  rw [hn]
  rfl

theorem removeColumnByIdx_taken (h : s.removeColumnByIdx n = some (c, s')) :
    s.columns[n]? = some c ∧ s' = (s.columnTaken n c).refocusAfterRemoval n := by
  obtain ⟨c', hc, h'⟩ := of_bind h
  obtain rfl := (pair_inj h').1
  rw [removeColumnByIdx_eq hc] at h
  exact ⟨hc, (pair_inj h).2.symm⟩

theorem columnTaken_eq (s : ScrollingSpace) (n : ℕ) (c : Column) :
    ∃ cs, s.columnTaken n c = { s.dropColumn n c with columns := cs } := by
  unfold columnTaken
  dsimp only
  split
  · exact ⟨_, rfl⟩
  · exact ⟨_, rfl⟩

theorem columnX_columnTaken (s : ScrollingSpace) (n : ℕ) (c : Column) (k : ℕ) :
    (s.columnTaken n c).columnX k = columnXAt s.options.gaps (s.data.eraseIdx n) k := by
  obtain ⟨cs, heq⟩ := s.columnTaken_eq n c
  rw [heq]
  rfl

/-- The columns close the gap that one of them leaves, on the side where the active one is not. -/
theorem isAt_columnTaken {column : Column} (hs : s.Inv) (hn : s.columns[n]? = some column)
    (hc : s.columns[i]? = some c) (hi : i ≠ n) :
    (s.columnTaken n column).IsAt c.uid (s.columnX i + c.renderOffsetX -
      if s.activeColumnIdx ≤ n then 0 else column.actualWidth + s.options.gaps) := by
  have hX := s.columnX_columnTaken n column
  have hd := hs.data_getElem? hn
  have hoffset : s.columnX (n + 1) - s.columnX n = column.actualWidth + s.options.gaps :=
    sub_eq_of_eq_add' (columnXAt_succ hd)
  have hcolumns : (s.columnTaken n column).columns = (if s.activeColumnIdx ≤ n then
        s.animateColumns (n + 1 ≤ ·) (column.actualWidth + s.options.gaps)
      else s.animateColumns (· < n) (-(column.actualWidth + s.options.gaps))).columns.eraseIdx n := by
    unfold columnTaken
    dsimp only
    rw [hoffset]
    rfl
  have hlt := lt_length_of_getElem? hc
  have hlen : s.data.length = s.columns.length := by rw [hs.data, List.length_map]
  rcases Nat.lt_or_gt_of_ne hi with hi | hi
  · have hXi : (s.columnTaken n column).columnX i = s.columnX i := by
      rw [hX]
      exact columnXAt_eraseIdx_le hd hi.le
    obtain ⟨c', hc', huid, hrender⟩ := exists_animateAround_left hc hi
      (column.actualWidth + s.options.gaps) (-(column.actualWidth + s.options.gaps))
    refine ⟨i, c', by rw [hcolumns, List.getElem?_eraseIdx_of_lt hi, hc'], huid, ?_⟩
    rw [hXi, hrender]
    split
    · ring
    · ring
  · have hXi : (s.columnTaken n column).columnX (i - 1) =
        s.columnX i - (column.actualWidth + s.options.gaps) := by
      rw [hX]
      exact columnXAt_eraseIdx_gt hd hi (by omega)
    obtain ⟨c', hc', huid, hrender⟩ := exists_animateAround_right hc hi
      (column.actualWidth + s.options.gaps) (-(column.actualWidth + s.options.gaps))
    refine ⟨i - 1, c', ?_, huid, ?_⟩
    · rw [hcolumns, List.getElem?_eraseIdx_of_ge (by omega), Nat.sub_add_cancel (by omega), hc']
    · rw [hXi, hrender]
      split
      · ring
      · ring

theorem data_refocusAfterRemoval (s : ScrollingSpace) (i : ℕ) :
    (s.refocusAfterRemoval i).data = s.data := by
  unfold refocusAfterRemoval
  split
  · rfl
  split
  · rfl
  split
  · split
    · exact s.data_activateColumn _
    · rfl
  · exact s.data_activateColumn _

theorem options_refocusAfterRemoval (s : ScrollingSpace) (i : ℕ) :
    (s.refocusAfterRemoval i).options = s.options := by
  unfold refocusAfterRemoval
  split
  · rfl
  split
  · rfl
  split
  · split
    · exact s.options_activateColumn _
    · rfl
  · exact s.options_activateColumn _

theorem viewPos_removed (hs : s.Inv) (hn : s.columns[n]? = some c) (hi : s.columns[i]? = some c')
    (hin : i ≠ n) : ((s.columnTaken n c).refocusAfterRemoval n).viewPos =
      s.viewPos + ((s.columnTaken n c).refocusCorrections n).sum -
        if s.activeColumnIdx ≤ n then 0 else c.actualWidth + s.options.gaps := by
  obtain ⟨cs, heq⟩ := s.columnTaken_eq n c
  have hX := s.columnX_columnTaken n c
  have hd := hs.data_getElem? hn
  have hactive := hs.active fun hnil => by simp [hnil] at hn
  have hlen : s.data.length = s.columns.length := by rw [hs.data, List.length_map]
  have hne : (s.columnTaken n c).columns ≠ [] := by
    obtain ⟨j, d, hd, -⟩ := isAt_columnTaken hs hn hi hin
    exact fun hnil => by simp [hnil] at hd
  have hidx : (s.columnTaken n c).activeColumnIdx = s.activeColumnIdx := by rw [heq]; rfl
  have hoffset : (s.columnTaken n c).viewOffset = s.viewOffset := by rw [heq]; rfl
  by_cases hleft : n < s.activeColumnIdx
  · have hleft' : n < (s.columnTaken n c).activeColumnIdx := by rwa [hidx]
    have hshift : columnXAt s.options.gaps (s.data.eraseIdx n) (s.activeColumnIdx - 1) = _ :=
      columnXAt_eraseIdx_gt hd hleft (by omega)
    unfold refocusAfterRemoval refocusCorrections
    rw [if_neg hne, if_pos hleft', if_pos (.inr hleft'), List.sum_nil, add_zero,
      if_neg (by omega), hidx]
    show (s.columnTaken n c).columnX (s.activeColumnIdx - 1) + (s.columnTaken n c).viewOffset.current = _
    rw [hX, hshift, hoffset]
    exact sub_add_eq_add_sub ..
  · have hnot : ¬ ((s.columnTaken n c).columns = [] ∨ n < (s.columnTaken n c).activeColumnIdx) := by
      rw [hidx]
      exact not_or.mpr ⟨hne, hleft⟩
    rw [viewPos_refocusAfterRemoval hnot, if_pos (by omega), sub_zero]
    unfold viewPos
    rw [hidx, hX, hoffset, columnXAt_eraseIdx_le hd (by omega)]
    rfl

/-- Where the element at `i` goes when the one at `a` is moved to `n`. -/
def movedIdx (a n i : ℕ) : ℕ :=
  let k := if a < i then i - 1 else i
  if k < n then k else k + 1

theorem getElem?_moved {α : Type} {l : List α} {b : α} {a : ℕ} (ha : a < l.length)
    (hi : i ≠ a) : ((l.eraseIdx a).insertIdx n b)[movedIdx a n i]? = l[i]? := by
  have herase : (l.eraseIdx a)[if a < i then i - 1 else i]? = l[i]? := by
    split
    · rw [List.getElem?_eraseIdx_of_ge (by omega), Nat.sub_add_cancel (by omega)]
    · rw [List.getElem?_eraseIdx_of_lt (by omega)]
  have hlen := List.length_eraseIdx_of_lt ha
  unfold movedIdx
  dsimp only
  by_cases hk : (if a < i then i - 1 else i) < n
  · rw [if_pos hk, List.getElem?_insertIdx_of_lt hk, herase]
  · rw [if_neg hk, List.getElem?_insertIdx_of_gt (by omega), Nat.add_sub_cancel, herase]

theorem columnXAt_moved {gaps : ℚ} {ds : List ColumnData} {a : ℕ} (ha : ds[a]? = some d)
    (hn : n < ds.length) (hi : i ≠ a) (hlt : i < ds.length) :
    columnXAt gaps ((ds.eraseIdx a).insertIdx n d) (movedIdx a n i) = columnXAt gaps ds i +
      if a < i ∧ i ≤ n then -(d.width + gaps) else if n ≤ i ∧ i < a then d.width + gaps else 0 := by
  have hla := lt_length_of_getElem? ha
  have hlen := List.length_eraseIdx_of_lt hla
  unfold movedIdx
  dsimp only
  rcases Nat.lt_or_gt_of_ne hi with hia | hia
  · have hnot : ¬ (a < i ∧ i ≤ n) := fun h => hia.not_gt h.1
    rw [if_neg hia.not_gt, if_neg hnot]
    have herase : columnXAt gaps (ds.eraseIdx a) i = columnXAt gaps ds i :=
      columnXAt_eraseIdx_le ha hia.le
    by_cases hin : i < n
    · have hnot : ¬ (n ≤ i ∧ i < a) := fun h => h.1.not_gt hin
      rw [if_pos hin, if_neg hnot, columnXAt_insertIdx_le (by omega) hin.le, herase, add_zero]
    · have hni := Nat.le_of_not_lt hin
      rw [if_neg hin, columnXAt_insertIdx_gt (by omega) hni (by omega), herase, if_pos ⟨hni, hia⟩]
  · rw [if_pos hia]
    have herase : columnXAt gaps (ds.eraseIdx a) (i - 1) = columnXAt gaps ds i - (d.width + gaps) :=
      columnXAt_eraseIdx_gt ha hia hlt
    by_cases hin : i ≤ n
    · have hlt : i - 1 < n := by omega
      rw [if_pos hlt, if_pos ⟨hia, hin⟩, columnXAt_insertIdx_le (by omega) hlt.le, herase,
        sub_eq_add_neg]
    · have hge : ¬ i - 1 < n := by omega
      have hnot : ¬ (a < i ∧ i ≤ n) := fun h => hin h.2
      have hnot' : ¬ (n ≤ i ∧ i < a) := fun h => h.2.not_gt hia
      rw [if_neg hge, if_neg hnot, if_neg hnot',
        columnXAt_insertIdx_gt (by omega) (by omega) (by omega), herase]
      ring

theorem movedIdx_cases {a : ℕ} (hi : i ≠ a) :
    movedIdx a n i ≠ n ∧ ((a < n ∧ a ≤ movedIdx a n i ∧ movedIdx a n i < n) ↔ a < i ∧ i ≤ n) ∧
      ((n < a ∧ n + 1 ≤ movedIdx a n i ∧ movedIdx a n i ≤ a) ↔ n ≤ i ∧ i < a) := by
  unfold movedIdx
  grind

/-- The active column at its new index, before it is activated there. -/
def columnMoved (s : ScrollingSpace) (newIdx : ℕ) (column : Column) (data : ColumnData) :
    ScrollingSpace :=
  ((s.cancelResizeForColumn s.activeColumnIdx).reorderColumn s.activeColumnIdx newIdx
      column.cancelResize data).animateColumnMove s.activeColumnIdx newIdx
    (s.columnX s.activeColumnIdx) (s.columnX (s.activeColumnIdx + 1))

theorem moveColumnTo_eq (hc : s.columns[s.activeColumnIdx]? = some c)
    (hd : s.data[s.activeColumnIdx]? = some d) (hne : s.activeColumnIdx ≠ n) :
    s.moveColumnTo n = (s.columnMoved n c d).activateColumn n := by
  unfold moveColumnTo columnMoved
  dsimp only
  rw [if_neg hne, hc, hd]

theorem isAt_animateColumnMove (hc : s.columns[j]? = some c) (a : ℕ) (cx nx : ℚ) :
    (s.animateColumnMove a n cx nx).IsAt c.uid (s.columnX j + c.renderOffsetX +
      (if j = n then cx - s.columnX n else 0) +
      if a < n then (if a ≤ j ∧ j < n then nx - cx else 0)
      else if n + 1 ≤ j ∧ j ≤ a then -(nx - cx) else 0) := by
  unfold animateColumnMove
  dsimp only
  have hoffset : ({ s with viewOffset := s.viewOffset.offset (-s.columnX a + cx) } :
      ScrollingSpace).columns[j]? = some c := hc
  obtain ⟨c₁, hc₁, huid₁, hrender₁⟩ := exists_animateColumns hoffset (· == n) (cx - s.columnX n)
  split
  · obtain ⟨c₂, hc₂, huid₂, hrender₂⟩ :=
      exists_animateColumns hc₁ (fun i => decide (a ≤ i) && decide (i < n)) (nx - cx)
    refine ⟨j, c₂, hc₂, huid₂.trans huid₁, ?_⟩
    rw [hrender₂, hrender₁]
    simp only [beq_iff_eq, Bool.and_eq_true, decide_eq_true_eq, ← add_assoc]
    rfl
  · obtain ⟨c₂, hc₂, huid₂, hrender₂⟩ :=
      exists_animateColumns hc₁ (fun i => decide (n + 1 ≤ i) && decide (i ≤ a)) (-(nx - cx))
    refine ⟨j, c₂, hc₂, huid₂.trans huid₁, ?_⟩
    rw [hrender₂, hrender₁]
    simp only [beq_iff_eq, Bool.and_eq_true, decide_eq_true_eq, ← add_assoc]
    rfl

theorem viewPos_animateColumnMove (s : ScrollingSpace) (a n : ℕ) (cx nx : ℚ) :
    (s.animateColumnMove a n cx nx).viewPos = s.viewPos - s.columnX a + cx := by
  have hoffset : ({ s with viewOffset := s.viewOffset.offset (-s.columnX a + cx) } :
      ScrollingSpace).viewPos = s.viewPos - s.columnX a + cx := by
    unfold viewPos
    dsimp only
    rw [ViewOffset.current_offset]
    unfold columnX
    ring
  rw [← hoffset]
  unfold animateColumnMove
  dsimp only
  split
  · rfl
  · rfl

/-- The column is taken from its place and put at another one. -/
theorem reordered_spec {m : ScrollingSpace} (hc : s.columns[s.activeColumnIdx]? = some c)
    (hm : m = (s.cancelResizeForColumn s.activeColumnIdx).reorderColumn s.activeColumnIdx n
      c.cancelResize d) :
    m.columns = (s.columns.eraseIdx s.activeColumnIdx).insertIdx n c.cancelResize ∧
      (∀ k, m.columnX k =
        columnXAt s.options.gaps ((s.data.eraseIdx s.activeColumnIdx).insertIdx n d) k) ∧
      m.viewPos = m.columnX s.activeColumnIdx + s.viewOffset.current := by
  subst hm
  unfold cancelResizeForColumn reorderColumn
  rw [hc]
  refine ⟨?_, fun _ => rfl, rfl⟩
  dsimp only [setColumn]
  rw [List.eraseIdx_set_eq]

theorem viewPos_columnMoved (hc : s.columns[s.activeColumnIdx]? = some c) (n : ℕ) (d : ColumnData) :
    (s.columnMoved n c d).viewPos = s.viewPos := by
  obtain ⟨-, -, hview⟩ := reordered_spec (n := n) (d := d) hc rfl
  unfold columnMoved
  rw [viewPos_animateColumnMove, hview, viewPos]
  ring

/-- A moved column and the ones in between are where they were. -/
theorem isAt_columnMoved (hs : s.Inv) (hc : s.columns[s.activeColumnIdx]? = some c)
    (hn : n < s.columns.length) (hi : s.columns[i]? = some c') :
    (s.columnMoved n c (ColumnData.new c)).IsAt c'.uid (s.columnX i + c'.renderOffsetX) := by
  obtain ⟨hcolumns, hX, -⟩ := reordered_spec (n := n) (d := ColumnData.new c) hc rfl
  have hd := hs.data_getElem? hc
  have hlen : s.data.length = s.columns.length := by rw [hs.data, List.length_map]
  have hla := lt_length_of_getElem? hc
  have hgap : s.columnX (s.activeColumnIdx + 1) - s.columnX s.activeColumnIdx =
      c.actualWidth + s.options.gaps := sub_eq_of_eq_add' (columnXAt_succ hd)
  unfold columnMoved
  generalize (s.cancelResizeForColumn s.activeColumnIdx).reorderColumn s.activeColumnIdx n
    c.cancelResize (ColumnData.new c) = m at hcolumns hX
  by_cases hia : i = s.activeColumnIdx
  · subst hia
    obtain rfl := Option.some.inj (hc.symm.trans hi)
    have hm : m.columns[n]? = some c.cancelResize := by
      rw [hcolumns, List.getElem?_insertIdx_self, if_pos]
      rw [List.length_eraseIdx_of_lt hla]
      omega
    have hat := isAt_animateColumnMove (n := n) hm s.activeColumnIdx
      (s.columnX s.activeColumnIdx) (s.columnX (s.activeColumnIdx + 1))
    have hright : ¬ (s.activeColumnIdx ≤ n ∧ n < n) := fun h => lt_irrefl n h.2
    have hleft : ¬ (n + 1 ≤ n ∧ n ≤ s.activeColumnIdx) := fun h => Nat.not_succ_le_self n h.1
    rw [if_pos rfl, if_neg hright, if_neg hleft, ite_self] at hat
    have hX : m.columnX n + c.cancelResize.renderOffsetX +
        (s.columnX s.activeColumnIdx - m.columnX n) + 0 =
        s.columnX s.activeColumnIdx + c.renderOffsetX := by
      rw [show c.cancelResize.renderOffsetX = c.renderOffsetX from rfl]
      ring
    exact hX ▸ hat
  · have hm : m.columns[movedIdx s.activeColumnIdx n i]? = some c' := by
      rw [hcolumns, getElem?_moved hla hia, hi]
    obtain ⟨hnot, hright, hleft⟩ := movedIdx_cases (n := n) hia
    have hat := isAt_animateColumnMove (n := n) hm s.activeColumnIdx
      (s.columnX s.activeColumnIdx) (s.columnX (s.activeColumnIdx + 1))
    rw [if_neg hnot, hgap, hX, columnXAt_moved hd (by omega) hia
      (by have := lt_length_of_getElem? hi; omega)] at hat
    convert hat using 1
    show columnXAt s.options.gaps s.data i + _ = _
    rw [show (ColumnData.new c).width = c.actualWidth from rfl]
    grind

/-! The operations on columns. -/

inductive ColumnOp where
  | addColumn (idx : Option ℕ) (column : Column) (activate : Bool)
  | removeColumnByIdx (idx : ℕ)
  | moveColumnTo (idx : ℕ)
  | activateColumn (idx : ℕ)

def applyColumnOp (s : ScrollingSpace) : ColumnOp → Option ScrollingSpace
  | .addColumn idx column activate => s.addColumn idx column activate
  | .removeColumnByIdx idx => (s.removeColumnByIdx idx).map (·.2)
  | .moveColumnTo idx => if idx < s.columns.length then some (s.moveColumnTo idx) else none
  | .activateColumn idx => if idx < s.columns.length then some (s.activateColumn idx) else none

/-- The corrections that an operation makes to the view. -/
def corrections (s : ScrollingSpace) : ColumnOp → List ℚ
  | .addColumn idx column activate =>
    let idx := s.insertionIdx idx
    if activate then (s.insertColumn idx column).activationCorrections idx else []
  | .removeColumnByIdx idx =>
    match s.columns[idx]? with
    | none => []
    | some column => (s.columnTaken idx column).refocusCorrections idx
  | .moveColumnTo idx =>
    match s.columns[s.activeColumnIdx]?, s.data[s.activeColumnIdx]? with
    | some column, some data =>
      if s.activeColumnIdx = idx then [] else (s.columnMoved idx column data).activationCorrections idx
    | _, _ => []
  | .activateColumn idx => s.activationCorrections idx

/-- How far the view jumps. -/
def viewJump (s : ScrollingSpace) : ColumnOp → ℚ
  | .addColumn idx column true =>
    if s.insertionIdx idx < s.activeColumnIdx
    then (s.adopt column).actualWidth - s.dataWidth (s.activeColumnIdx - 1) else 0
  | _ => 0

/-- Every column that stays is seen where it was, up to the corrections. -/
def Stays (s s' : ScrollingSpace) (ks : List ℚ) : Prop :=
  ∀ uid x x', s.SeenAt uid x → s'.SeenAt uid x' → x' = x - ks.sum

theorem viewPos_insertColumn (hs : s.Inv) (hne : s.columns ≠ []) (hn : n ≤ s.columns.length)
    (column : Column) : (s.insertColumn n column).viewPos = s.viewPos +
      if n < s.activeColumnIdx then (s.adopt column).actualWidth - s.dataWidth (s.activeColumnIdx - 1)
      else 0 := by
  have hactive := hs.active hne
  have hlen : s.data.length = s.columns.length := by rw [hs.data, List.length_map]
  have hX : (s.insertColumn n column).viewPos = columnXAt s.options.gaps
      (s.data.insertIdx n (ColumnData.new (s.adopt column))) s.activeColumnIdx +
      s.viewOffset.current := rfl
  rw [hX]
  split
  · rename_i hlt
    obtain ⟨a, ha⟩ : ∃ a, s.activeColumnIdx = a + 1 := ⟨s.activeColumnIdx - 1, by omega⟩
    have hd : s.data[a]? = some s.data[a] := List.getElem?_eq_getElem (by omega)
    have hnext : columnXAt s.options.gaps s.data (a + 1) = _ := columnXAt_succ hd
    have hwidth : s.dataWidth a = s.data[a].width := by simp [dataWidth, hd]
    rw [ha, Nat.add_sub_cancel, columnXAt_insertIdx_gt (by omega) (by omega) (by omega), hwidth]
    show _ = columnXAt s.options.gaps s.data s.activeColumnIdx + _ + _
    rw [ha, hnext, show (ColumnData.new (s.adopt column)).width = (s.adopt column).actualWidth from rfl]
    ring
  · rename_i hlt
    rw [columnXAt_insertIdx_le (by omega) (by omega), add_zero]
    rfl

theorem seenAt_addColumn {idx : Option ℕ} {column : Column} {activate : Bool} (hs : s.Inv)
    (h : s.addColumn idx column activate = some s') (hc : s.columns[i]? = some c) :
    s'.SeenAt c.uid (s.columnX i + c.renderOffsetX - s.viewPos -
      (s.viewJump (.addColumn idx column activate) +
        (s.corrections (.addColumn idx column activate)).sum)) := by
  have hne : s.columns ≠ [] := fun hnil => by simp [hnil] at hc
  obtain ⟨hn, u, hu, rfl, hactive⟩ := addColumn_cases hne h
  have hview := viewPos_insertColumn hs hne hn column
  refine seenAt_makeRoom hs hn hu ?_ hc
  cases activate with
  | true =>
    obtain ⟨hidx, -, hpos⟩ := hactive
    show _ = s.viewPos + (_ + ((s.insertColumn (s.insertionIdx idx) column).activationCorrections
      (s.insertionIdx idx)).sum) + _
    rw [hpos, viewPos_activateColumn, hview, if_pos hidx.le, add_zero, add_assoc]
    rfl
  | false =>
    obtain ⟨hoffset, hidx⟩ := hactive
    show _ = s.viewPos + (0 + ([] : List ℚ).sum) + _
    rw [List.sum_nil, add_zero, add_zero]
    have hX (k : ℕ) : u.columnX k = columnXAt s.options.gaps
        (s.data.insertIdx (s.insertionIdx idx) (ColumnData.new (s.adopt column))) k := by
      rw [← hu.options, ← hu.data]
      rfl
    have hlen : s.data.length = s.columns.length := by rw [hs.data, List.length_map]
    have hlt := hs.active hne
    unfold viewPos
    rw [hoffset, hidx]
    by_cases hleft : s.insertionIdx idx ≤ s.activeColumnIdx
    · rw [if_pos hleft, if_neg (by omega), hX, columnXAt_insertIdx_gt (by omega) hleft (by omega)]
      exact add_right_comm ..
    · rw [if_neg hleft, if_pos (by omega), hX, columnXAt_insertIdx_le (by omega) (by omega), add_zero]
      rfl

theorem seenAt_removeColumnByIdx {column : Column} (hs : s.Inv)
    (h : s.removeColumnByIdx n = some (column, s')) (hc : s.columns[i]? = some c) (hi : i ≠ n) :
    s'.SeenAt c.uid (s.columnX i + c.renderOffsetX - s.viewPos -
      (s.corrections (.removeColumnByIdx n)).sum) := by
  obtain ⟨hn, rfl⟩ := removeColumnByIdx_taken h
  have hat : ((s.columnTaken n column).refocusAfterRemoval n).IsAt c.uid _ :=
    (isAt_columnTaken hs hn hc hi).congr (columns_refocusAfterRemoval ..)
      (data_refocusAfterRemoval ..) (options_refocusAfterRemoval ..)
  have hseen := hat.seenAt
  rw [viewPos_removed hs hn hc hi] at hseen
  unfold corrections
  dsimp only
  rw [hn]
  convert hseen using 1
  ring

theorem seenAt_activateColumn (hc : s.columns[i]? = some c) (n : ℕ) :
    (s.activateColumn n).SeenAt c.uid
      (s.columnX i + c.renderOffsetX - s.viewPos - (s.activationCorrections n).sum) := by
  have hat : (s.activateColumn n).IsAt c.uid _ := (IsAt.of_column hc).congr
    (columns_activateColumn ..) (data_activateColumn ..) (options_activateColumn ..)
  have hseen := hat.seenAt
  rw [viewPos_activateColumn] at hseen
  convert hseen using 1
  ring

theorem seenAt_moveColumnTo (hs : s.Inv) (hn : n < s.columns.length) (hi : s.columns[i]? = some c) :
    (s.moveColumnTo n).SeenAt c.uid
      (s.columnX i + c.renderOffsetX - s.viewPos - (s.corrections (.moveColumnTo n)).sum) := by
  have hlt := hs.active fun hnil => by simp [hnil] at hi
  have hc : s.columns[s.activeColumnIdx]? = some s.columns[s.activeColumnIdx] :=
    List.getElem?_eq_getElem hlt
  have hd := hs.data_getElem? hc
  unfold corrections
  rw [hc, hd]
  dsimp only
  by_cases hne : s.activeColumnIdx = n
  · rw [if_pos hne, List.sum_nil, sub_zero]
    unfold moveColumnTo
    dsimp only
    rw [if_pos hne]
    exact (IsAt.of_column hi).seenAt
  · rw [if_neg hne, moveColumnTo_eq hc hd hne]
    obtain ⟨j, c', hc', huid, hX⟩ := isAt_columnMoved hs hc hn hi
    have hseen := seenAt_activateColumn hc' n
    rwa [huid, hX, viewPos_columnMoved hc] at hseen

theorem map_uid_addColumn {idx : Option ℕ} {column : Column} {activate : Bool}
    (h : s.addColumn idx column activate = some s') :
    s'.columns.map (·.uid) = (s.columns.map (·.uid)).insertIdx (s.insertionIdx idx) s.nextUid :=
  map_addColumn (fun _ _ => rfl) h

theorem map_uid_removeColumnByIdx (h : s.removeColumnByIdx n = some (c, s')) :
    s'.columns.map (·.uid) = (s.columns.map (·.uid)).eraseIdx n :=
  map_removeColumnByIdx (fun _ _ => rfl) h

theorem nodup_uids_applyColumnOp {op : ColumnOp} (hs : s.Inv) (h : s.applyColumnOp op = some s') :
    (s'.columns.map (·.uid)).Nodup := by
  cases op with
  | addColumn idx column activate =>
    have hn := (addColumn_spec h).1
    rw [map_uid_addColumn h, (List.perm_insertIdx _ _ (by rwa [List.length_map])).nodup_iff,
      List.nodup_cons]
    refine ⟨fun hmem => ?_, hs.uids⟩
    obtain ⟨c, hc, huid⟩ := List.mem_map.mp hmem
    exact absurd (hs.uid_lt c hc) (by omega)
  | removeColumnByIdx n =>
    obtain ⟨⟨c, t⟩, ht, rfl⟩ := of_map h
    rw [map_uid_removeColumnByIdx ht]
    exact hs.uids.sublist (List.eraseIdx_sublist ..)
  | moveColumnTo n =>
    unfold applyColumnOp at h
    dsimp only at h
    split at h
    · rename_i hn
      obtain rfl := Option.some.inj h
      have htame : Tame true s (s.moveColumnTo n) := tame_moveColumnTo hn
      exact (htame.inv hs).uids
    · cases h
  | activateColumn n =>
    unfold applyColumnOp at h
    dsimp only at h
    split at h
    · obtain rfl := Option.some.inj h
      rw [columns_activateColumn]
      exact hs.uids
    · cases h

theorem seenAt_applyColumnOp {op : ColumnOp} (hs : s.Inv) (h : s.applyColumnOp op = some s')
    (hc : s.columns[i]? = some c) (hstays : c.uid ∈ s'.columns.map (·.uid)) :
    s'.SeenAt c.uid (s.columnX i + c.renderOffsetX - s.viewPos -
      (s.viewJump op + (s.corrections op).sum)) := by
  cases op with
  | addColumn idx column activate => exact seenAt_addColumn hs h hc
  | removeColumnByIdx n =>
    obtain ⟨⟨column, t⟩, ht, rfl⟩ := of_map h
    have hi : i ≠ n := by
      rintro rfl
      rw [map_uid_removeColumnByIdx ht] at hstays
      have hlt : i < (s.columns.map (·.uid)).length := by simpa using lt_length_of_getElem? hc
      have huid : (s.columns.map (·.uid))[i] = c.uid := by
        rw [List.getElem_map, (List.getElem?_eq_some_iff.mp hc).2]
      have hperm := (List.getElem_cons_eraseIdx_perm hlt).nodup_iff.mpr hs.uids
      exact (List.nodup_cons.mp hperm).1 (huid ▸ hstays)
    have hseen := seenAt_removeColumnByIdx hs ht hc hi
    rwa [← zero_add (s.corrections (.removeColumnByIdx n)).sum] at hseen
  | moveColumnTo n =>
    unfold applyColumnOp at h
    dsimp only at h
    split at h
    · rename_i hn
      obtain rfl := Option.some.inj h
      have hseen := seenAt_moveColumnTo hs hn hc
      rwa [← zero_add (s.corrections (.moveColumnTo n)).sum] at hseen
    · cases h
  | activateColumn n =>
    unfold applyColumnOp at h
    dsimp only at h
    split at h
    · obtain rfl := Option.some.inj h
      have hseen := seenAt_activateColumn hc n
      rwa [← zero_add (s.activationCorrections n).sum] at hseen
    · cases h

/-- The columns stay where they are seen unless the view jumps. -/
theorem stays_iff {op : ColumnOp} (hs : s.Inv) (h : s.applyColumnOp op = some s') :
    Stays s s' (s.corrections op) ↔ s.viewJump op = 0 := by
  have hnodup := nodup_uids_applyColumnOp hs h
  constructor
  · intro hstays
    cases op with
    | addColumn idx column activate =>
      cases activate with
      | false => rfl
      | true =>
        by_cases hleft : s.insertionIdx idx < s.activeColumnIdx
        · have hne : s.columns ≠ [] := fun hnil => by
            rw [hs.empty hnil] at hleft
            omega
          have hlt := hs.active hne
          have hc := List.getElem?_eq_getElem hlt
          have hmem : s.columns[s.activeColumnIdx].uid ∈ s'.columns.map (·.uid) := by
            rw [map_uid_addColumn h,
              List.mem_insertIdx (by rw [List.length_map]; exact (addColumn_spec h).1)]
            exact .inr (List.mem_map_of_mem (List.getElem_mem _))
          have hseen := seenAt_applyColumnOp hs h hc hmem
          have hsame := hstays _ _ _ (IsAt.of_column hc).seenAt hseen
          linarith
        · exact if_neg hleft
    | removeColumnByIdx n => rfl
    | moveColumnTo n => rfl
    | activateColumn n => rfl
  · rintro hjump uid x x' ⟨i, c, hc, rfl, rfl⟩ hx'
    have hmem : c.uid ∈ s'.columns.map (·.uid) := by
      obtain ⟨j, c', hc', huid, -⟩ := hx'
      exact huid ▸ List.mem_map_of_mem (List.mem_of_getElem? hc')
    have hseen := seenAt_applyColumnOp hs h hc hmem
    rw [hx'.unique hnodup hseen, hjump, zero_add]

/-! What does not concern the active column leaves it and the view alone. -/

/-- A column other than the active one is added, removed or resized. -/
inductive ChangesOther (s : ScrollingSpace) : ScrollingSpace → Prop
  | add {s' : ScrollingSpace} {idx : Option ℕ} {column : Column} :
    s.addColumn idx column false = some s' → ChangesOther s s'
  | remove {s' : ScrollingSpace} {idx : ℕ} {column : Column} :
    idx ≠ s.activeColumnIdx → s.removeColumnByIdx idx = some (column, s') → ChangesOther s s'
  | resize {s' : ScrollingSpace} {w i k : ℕ} {commit : Commit} {ongoing : Bool} :
    s.findWindow w = some (i, k) → i ≠ s.activeColumnIdx →
    s.updateWindow w commit ongoing = some s' → ChangesOther s s'

theorem getElem?_animateColumns {p : ℕ → Bool} (hp : p i = false) (s : ScrollingSpace) (x : ℚ) :
    (s.animateColumns p x).columns[i]? = s.columns[i]? := by
  simp [animateColumns, hp]

theorem activeColumn_makeRoom (s : ScrollingSpace) (n : ℕ) :
    (s.makeRoom n).activeColumn = s.activeColumn := by
  unfold makeRoom
  dsimp only
  split
  · exact getElem?_animateColumns (i := s.activeColumnIdx) (decide_eq_false (by omega)) s _
  · exact getElem?_animateColumns (i := s.activeColumnIdx) (decide_eq_false (by omega)) s _

theorem viewOffset_makeRoom (s : ScrollingSpace) (n : ℕ) :
    (s.makeRoom n).viewOffset = s.viewOffset := by
  unfold makeRoom
  dsimp only
  split
  · rfl
  · rfl

theorem addColumn_untouched {idx : Option ℕ} {column : Column} (hne : s.columns ≠ [])
    (h : s.addColumn idx column false = some s') :
    s'.activeColumn = s.activeColumn ∧ s'.viewOffset = s.viewOffset := by
  obtain ⟨hn, u, hu, rfl, hoffset, hidx⟩ := addColumn_cases hne h
  rw [viewOffset_makeRoom]
  refine ⟨?_, hoffset⟩
  split at hidx
  · rename_i hle
    rw [activeColumn_makeRoom]
    unfold activeColumn
    rw [hidx, hu.columns, List.getElem?_insertIdx_of_gt (by omega), Nat.add_sub_cancel]
  · rename_i hlt
    rw [activeColumn_makeRoom]
    unfold activeColumn
    rw [hidx, hu.columns, List.getElem?_insertIdx_of_lt (by omega)]

/-- The columns that are not next to where the active one goes. -/
theorem getElem?_columnTaken (hn : s.activeColumnIdx ≠ n) (c : Column) :
    (s.columnTaken n c).columns[if n < s.activeColumnIdx then s.activeColumnIdx - 1
      else s.activeColumnIdx]? = s.activeColumn := by
  unfold columnTaken dropColumn activeColumn
  dsimp only
  split
  · rename_i hle
    rw [if_neg hle.not_gt, List.getElem?_eraseIdx_of_lt (by omega)]
    exact getElem?_animateColumns (i := s.activeColumnIdx) (decide_eq_false (by omega)) s _
  · rename_i hgt
    rw [if_pos (not_le.mp hgt), List.getElem?_eraseIdx_of_ge (by omega),
      Nat.sub_add_cancel (by omega)]
    exact getElem?_animateColumns (i := s.activeColumnIdx) (decide_eq_false (by omega)) s _

theorem removeColumnByIdx_untouched (hs : s.Inv) (hdnd : s.viewOffset.isDndScroll = false)
    (hn : n ≠ s.activeColumnIdx) (h : s.removeColumnByIdx n = some (c, s')) :
    s'.activeColumn = s.activeColumn ∧ s'.viewOffset = s.viewOffset := by
  obtain ⟨hc, rfl⟩ := removeColumnByIdx_taken h
  obtain ⟨cs, heq⟩ := s.columnTaken_eq n c
  have hactive := hs.active fun hnil => by simp [hnil] at hc
  have hget := getElem?_columnTaken hn.symm c
  have hidx : (s.columnTaken n c).activeColumnIdx = s.activeColumnIdx := by rw [heq]; rfl
  have hoffset : (s.columnTaken n c).viewOffset = s.viewOffset := by rw [heq]; rfl
  have hsome : s.activeColumn = some s.columns[s.activeColumnIdx] := List.getElem?_eq_getElem hactive
  have hne : (s.columnTaken n c).columns ≠ [] := fun hnil => by
    rw [hnil, hsome] at hget
    simp at hget
  unfold refocusAfterRemoval
  rw [if_neg hne, hidx]
  by_cases hleft : n < s.activeColumnIdx
  · rw [if_pos hleft] at hget ⊢
    exact ⟨hget, hoffset⟩
  · rw [if_neg hleft] at hget ⊢
    rw [if_neg hn]
    dsimp only
    have hlt := lt_length_of_getElem? (hget.trans hsome)
    rw [min_eq_left (by omega), ← hidx, activateColumn_self (by rwa [hoffset])]
    exact ⟨(congrArg ((s.columnTaken n c).columns[·]?) hidx).trans hget, hoffset⟩

theorem followResize_untouched (s : ScrollingSpace) (i : ℕ) (offset : ℚ) (ongoing : Bool) :
    (s.followResize i offset ongoing).activeColumn = s.activeColumn ∧
      (s.followResize i offset ongoing).viewOffset = s.viewOffset ∧
      (s.followResize i offset ongoing).activeColumnIdx = s.activeColumnIdx := by
  unfold followResize
  split
  · exact ⟨rfl, rfl, rfl⟩
  · refine ⟨?_, rfl, rfl⟩
    unfold activeColumn
    dsimp only
    rw [List.getElem?_mapIdx]
    cases s.columns[s.activeColumnIdx]? with
    | none => rfl
    | some c =>
      rw [Option.map_some]
      split
      · rw [if_neg (by omega)]
      · rfl

theorem updateWindow_untouched {w k : ℕ} {commit : Commit} {ongoing : Bool}
    (hw : s.findWindow w = some (i, k)) (hi : i ≠ s.activeColumnIdx)
    (h : s.updateWindow w commit ongoing = some s') :
    s'.activeColumn = s.activeColumn ∧ s'.viewOffset = s.viewOffset := by
  unfold updateWindow at h
  obtain ⟨⟨i', k'⟩, hw', h⟩ := of_bind h
  obtain ⟨rfl, rfl⟩ := pair_inj (hw.symm.trans hw')
  obtain ⟨c, hc, h⟩ := of_bind h
  obtain ⟨tile, ht, rfl⟩ := of_bind_some h
  obtain ⟨hactive, hoffset, hidx⟩ := followResize_untouched
    ((s.setColumn i (c.updateWindow k commit).updateTileSizes).updateData i (c.updateWindow k commit))
    i (s.dataWidth i - ((s.setColumn i (c.updateWindow k commit).updateTileSizes).updateData i
      (c.updateWindow k commit)).dataWidth i) ongoing
  rw [if_neg (by rw [hidx]; exact hi), hactive, hoffset]
  exact ⟨List.getElem?_set_ne hi, rfl⟩

theorem ChangesOther.untouched (hs : s.Inv) (hne : s.columns ≠ [])
    (hdnd : s.viewOffset.isDndScroll = false) (h : ChangesOther s s') :
    s'.activeColumn = s.activeColumn ∧ s'.viewOffset = s.viewOffset := by
  cases h with
  | add hadd => exact addColumn_untouched hne hadd
  | remove hidx hremove => exact removeColumnByIdx_untouched hs hdnd hidx hremove
  | resize hw hi hcommit => exact updateWindow_untouched hw hi hcommit

theorem corrections_small {op : ColumnOp} {k : ℚ} (hk : k ∈ s.corrections op) :
    k = 0 ∨ |k| < 1 / s.scale := by
  cases op with
  | addColumn idx column activate =>
    unfold corrections at hk
    dsimp only at hk
    split at hk
    · have hsmall : k = 0 ∨ |k| < 1 / (s.insertColumn (s.insertionIdx idx) column).scale :=
        activationCorrections_small hk
      exact hsmall
    · exact absurd hk List.not_mem_nil
  | removeColumnByIdx n =>
    unfold corrections at hk
    dsimp only at hk
    split at hk
    · exact absurd hk List.not_mem_nil
    · rename_i column _
      obtain ⟨cs, heq⟩ := s.columnTaken_eq n column
      have hscale : (s.columnTaken n column).scale = s.scale := by rw [heq]; rfl
      rw [← hscale]
      exact refocusCorrections_small hk
  | moveColumnTo n =>
    unfold corrections at hk
    dsimp only at hk
    split at hk
    · rename_i column data hc _
      split at hk
      · exact absurd hk List.not_mem_nil
      · have hscale : (s.columnMoved n column data).scale = s.scale := by
          unfold columnMoved animateColumnMove cancelResizeForColumn
          rw [hc]
          dsimp only
          split
          · rfl
          · rfl
        rw [← hscale]
        exact activationCorrections_small hk
    · exact absurd hk List.not_mem_nil
  | activateColumn n => exact activationCorrections_small hk

/-- Columns do not jump, except when one is activated as it is inserted left of the active one, next
to which there is a column of another width. The active column does not move when others change. -/
theorem columns_stay_iff (hs : s.Inv) :
    (∀ op s', s.applyColumnOp op = some s' →
      ((Stays s s' (s.corrections op) ∧ ∀ k ∈ s.corrections op, k = 0 ∨ |k| < 1 / s.scale) ↔
        s.viewJump op = 0)) ∧
    (s.columns ≠ [] → s.viewOffset.isDndScroll = false → ∀ s', ChangesOther s s' →
      s'.activeColumn = s.activeColumn ∧ s'.viewOffset = s.viewOffset) := by
  refine ⟨fun op s' h => ?_, fun hne hdnd s' h => h.untouched hs hne hdnd⟩
  rw [← stays_iff hs h]
  exact and_iff_left fun k hk => corrections_small hk

/-- The column of a new window. -/
def testColumn (id : ℕ) : Column :=
  Column.newWithTile (testTile id) ⟨1280, 720⟩ ⟨⟨0, 0⟩, ⟨1280, 720⟩⟩ ⟨⟨0, 0⟩, ⟨1280, 720⟩⟩ 1
    (.proportion (1 / 2)) false

/-- A window commits a smaller size. -/
def smallCommit : Commit :=
  ⟨⟨500, 200⟩, ⟨0, 0⟩, ⟨0, 0⟩, .normal, ⟨⟨false, false, none⟩, none, none⟩, none⟩

theorem columns_stay_iff_removed : ∃ s s', run step testSpace [openOp 1, openOp 2] = some s ∧
    s.applyColumnOp (.removeColumnByIdx 0) = some s' ∧
    Stays s s' (s.corrections (.removeColumnByIdx 0)) := by
  have hrun : (run step testSpace [openOp 1, openOp 2]).any
      (fun s => (s.applyColumnOp (.removeColumnByIdx 0)).isSome) = true := by decide +kernel
  obtain ⟨s, hs, hop⟩ := (Option.any_eq_true _ _).mp hrun
  obtain ⟨s', hs'⟩ := Option.isSome_iff_exists.mp hop
  exact ⟨s, s', hs, hs', (((columns_stay_iff (inv_run inv_new hs)).1 _ _ hs').mpr rfl).1⟩

/-- A column of width 1000 is activated left of one of width 500. -/
theorem columns_jump : ∃ s s', run step testSpace
    [openOp 1, openOp 2, .updateWindow 1 smallCommit false] = some s ∧
    s.applyColumnOp (.addColumn (some 0) (testColumn 3) true) = some s' ∧
    ¬ Stays s s' (s.corrections (.addColumn (some 0) (testColumn 3) true)) := by
  have hrun : (run step testSpace [openOp 1, openOp 2, .updateWindow 1 smallCommit false]).any
      (fun s => (s.applyColumnOp (.addColumn (some 0) (testColumn 3) true)).isSome &&
        s.viewJump (.addColumn (some 0) (testColumn 3) true) == 500) = true := by decide +kernel
  obtain ⟨s, hs, hop⟩ := (Option.any_eq_true _ _).mp hrun
  obtain ⟨hop, hjump⟩ := Bool.and_eq_true_iff.mp hop
  obtain ⟨s', hs'⟩ := Option.isSome_iff_exists.mp hop
  refine ⟨s, s', hs, hs', fun hstays => ?_⟩
  have hzero := (stays_iff (inv_run inv_new hs) hs').mp hstays
  rw [beq_iff_eq.mp hjump] at hzero
  norm_num at hzero

end Macniri.Layout.ScrollingSpace
