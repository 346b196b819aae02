import Macniri.Lib.ListEdit
import Macniri.Scrolling.KeepsFocus
import Macniri.Scrolling.Swap

/-! A window that is sent into the neighbouring column, or out of its own, and back again. -/
namespace Macniri.Layout.ScrollingSpace

open Option List

variable {s s' t : ScrollingSpace} {window : Option ℕ} {i j k w : ℕ} {ws zs : List ℕ}

/-- The window that the argument of an operation stands for. -/
def Means (s : ScrollingSpace) (window : Option ℕ) (w : ℕ) : Prop :=
  window = some w ∨ window = none ∧ s.activeId = some w

/-- The window `w` is the tile `k` of the column `i`, which has the windows `ws`. -/
structure At (s : ScrollingSpace) (i k w : ℕ) (ws : List ℕ) : Prop where
  column : s.arrangement[i]? = some ws
  tile : ws[k]? = some w

theorem At.inj (hs : s.Inv) (h : s.At i k w ws) {i' k' : ℕ} {ws' : List ℕ} (h' : s.At i' k' w ws') :
    (i', k') = (i, k) := by
  have hnodup := pairwise_flatten.mp hs.ids
  have hsame : i' = i := by
    have hdisj {a b : ℕ} {as bs : List ℕ} (hlt : a < b) (ha : s.arrangement[a]? = some as)
        (hb : s.arrangement[b]? = some bs) (hwa : w ∈ as) (hwb : w ∈ bs) : False := by
      obtain ⟨hla, rfl⟩ := List.getElem?_eq_some_iff.mp ha
      obtain ⟨hlb, rfl⟩ := List.getElem?_eq_some_iff.mp hb
      exact pairwise_iff_getElem.mp hnodup.2 a b hla hlb hlt w hwa w hwb rfl
    have hw := mem_of_getElem? h.tile
    have hw' := mem_of_getElem? h'.tile
    obtain hlt | heq | hlt := Nat.lt_trichotomy i' i
    · exact absurd (hdisj hlt h'.column h.column hw' hw) not_false
    · exact heq
    · exact absurd (hdisj hlt h.column h'.column hw hw') not_false
  subst hsame
  obtain rfl := some.inj (h.column.symm.trans h'.column)
  have hcolumn := hnodup.1 ws (mem_of_getElem? h.column)
  have hidx := (getElem?_inj (lt_length_of_getElem? h'.tile) hcolumn).mp (h'.tile.trans h.tile.symm)
  rw [hidx]

theorem windowOrActive_at (hs : s.Inv) (hm : s.Means window w) (h : s.At i k w ws) :
    s.windowOrActive window = some (i, k) := by
  obtain ⟨c, hc, rfl⟩ := column_of_arrangement h.column
  have hcontains : c.contains w := Column.mem_windowIds.mp (mem_of_getElem? h.tile)
  obtain rfl | ⟨rfl, hactive⟩ := hm
  · obtain ⟨k', hk'⟩ := position_isSome hcontains
    have hfound : s.windowOrActive (some w) = some (i, k') := by
      rw [windowOrActive, findWindow_eq hs.ids hc hcontains, hk']
      rfl
    obtain ⟨c', tile, hc', ht, hid⟩ := findWindow_spec hfound
    have hat : s.At i k' w c'.windowIds := ⟨arrangement_getElem? hc', by simp [Column.windowIds, ht, hid]⟩
    rw [hfound, At.inj hs h hat]
  · have hne : s.columns ≠ [] := ne_nil_of_getElem? hc
    obtain ⟨a, ha⟩ : ∃ a, s.columns[s.activeColumnIdx]? = some a :=
      ⟨_, getElem?_eq_getElem (hs.active hne)⟩
    rw [activeId_of_getElem? ha] at hactive
    have hat : s.At s.activeColumnIdx a.activeTileIdx w a.windowIds := by
      refine ⟨arrangement_getElem? ha, ?_⟩
      simpa [Column.activeId, Column.windowIds] using hactive
    have hinj := At.inj hs h hat
    unfold windowOrActive activeColumn
    rw [ha]
    exact congrArg some hinj

/-! The arrangement after a tile is moved. -/

theorem arrangement_removeTileByIdx {r : RemovedTile} (h : s.At i k w ws)
    (hr : s.removeTileByIdx i k = some (r, t)) :
    r.tile.id = w ∧ t.arrangement = if ws.length = 1 then s.arrangement.eraseIdx i
      else s.arrangement.set i (ws.eraseIdx k) := by
  obtain ⟨r', t', hr', hid, harr⟩ := exists_removeTileByIdx h.column h.tile
  obtain ⟨rfl, rfl⟩ := pair_inj (hr.symm.trans hr')
  exact ⟨hid, harr⟩

theorem arrangement_addTile {tile : Tile} {activate isFullWidth : Bool} {width : ColumnWidth}
    (h : s.addTile (some j) tile activate width isFullWidth = some s') :
    s'.arrangement = s.arrangement.insertIdx j [tile.id] := by
  have hmap := map_addColumn windowIds_ignores_animation h
  have hids : (s.adopt (Column.newWithTile tile s.viewSize s.workingArea s.parentArea s.scale
      width isFullWidth)).windowIds = [tile.id] :=
    Column.windowIds_updateConfig.trans (Column.windowIds_newWithTile ..)
  rw [hids] at hmap
  exact hmap

theorem arrangement_addTileToColumn {tile : Tile} {activate : Bool}
    (h : s.addTileToColumn j none tile activate = some s') :
    ∃ zs, s.arrangement[j]? = some zs ∧ s'.arrangement = s.arrangement.set j (zs ++ [tile.id]) := by
  obtain ⟨c, hc, -, hmap⟩ := map_addTileToColumn windowIds_ignores_animation h
  have hlen : c.windowIds.length = c.tiles.length := length_map ..
  rw [Column.windowIds_insertTile, getD_none, ← hlen, insertIdx_length_self] at hmap
  exact ⟨c.windowIds, arrangement_getElem? hc, hmap⟩

/-! Sending a window to the left or to the right. -/

def consumeOrExpel (s : ScrollingSpace) (window : Option ℕ) : ScrollDirection → Option ScrollingSpace
  | .left => s.consumeOrExpelWindowLeft window
  | .right => s.consumeOrExpelWindowRight window

theorem inv_consumeOrExpel (hs : s.Inv) {direction : ScrollDirection}
    (h : s.consumeOrExpel window direction = some t) : t.Inv := by
  cases direction with
  | left =>
    have hstep : s.step (.consumeOrExpelWindowLeft window) = some t := h
    exact (effect_step hs hstep).inv
  | right =>
    have hstep : s.step (.consumeOrExpelWindowRight window) = some t := h
    exact (effect_step hs hstep).inv

theorem Means.mem (hm : s.Means window w) (h : s.At i k w ws) :
    ∀ v, window = some v → v ∈ s.windowIds := by
  rintro v rfl
  obtain heq | ⟨heq, -⟩ := hm
  · obtain rfl := some.inj heq
    exact mem_flatten.mpr ⟨ws, mem_of_getElem? h.column, mem_of_getElem? h.tile⟩
  · cases heq

theorem exists_consumeOrExpel (hs : s.Inv) (hm : s.Means window w) (h : s.At i k w ws)
    (direction : ScrollDirection) : ∃ t, s.consumeOrExpel window direction = some t ∧
      t.Inv ∧ t.activeId = s.activeId ∧ t.Means window w := by
  obtain ⟨t, ht, hactive⟩ : ∃ t, s.consumeOrExpel window direction = some t ∧
      t.activeId = s.activeId := by
    cases direction with
    | left => exact exists_consumeOrExpelWindowLeft hs window (hm.mem h)
    | right =>
      obtain ⟨t, ht, hactive, -⟩ := exists_consumeOrExpelWindowRight hs window (hm.mem h)
      exact ⟨t, ht, hactive⟩
  exact ⟨t, ht, inv_consumeOrExpel hs ht, hactive, hm.imp_right fun ⟨hnone, hw⟩ => ⟨hnone, hactive ▸ hw⟩⟩

theorem At.columns_ne (h : s.At i k w ws) : ¬ s.columns.isEmpty := by
  obtain ⟨c, hc, -⟩ := column_of_arrangement h.column
  simpa using ne_nil_of_getElem? hc

/-- A lone window in the column `i` has no neighbour to go to. -/
def AtEdge (s : ScrollingSpace) (i : ℕ) : ScrollDirection → Prop
  | .left => i = 0
  | .right => i + 1 = s.arrangement.length

/-- The neighbour of the column `i`, among the columns that are left without it. -/
def nextTo (i : ℕ) : ScrollDirection → ℕ
  | .left => i - 1
  | .right => i

/-- Where a window from the column `i` gets its own column. -/
def ownColumn (i : ℕ) : ScrollDirection → ℕ
  | .left => i
  | .right => i + 1

/-- What becomes of the arrangement: a lone window goes to the end of the neighbouring column, any
other one gets a column of its own. -/
inductive Sent (s t : ScrollingSpace) (direction : ScrollDirection) (i k w : ℕ) (ws : List ℕ) : Prop
  | stays (hlen : ws.length = 1) (hedge : s.AtEdge i direction) (ht : t = s)
  | consumed (hlen : ws.length = 1) (hedge : ¬ s.AtEdge i direction) (zs : List ℕ)
      (hcolumn : (s.arrangement.eraseIdx i)[nextTo i direction]? = some zs)
      (harr : t.arrangement = (s.arrangement.eraseIdx i).set (nextTo i direction) (zs ++ [w]))
  | expelled (hlen : ws.length ≠ 1)
      (harr : t.arrangement = (s.arrangement.set i (ws.eraseIdx k)).insertIdx (ownColumn i direction) [w])

/-- A lone window goes to the end of the column `j` of those that are left. -/
theorem arrangement_consumed {u v : ScrollingSpace} {r : RemovedTile} {activate : Bool}
    (hu : u.arrangement = s.arrangement) (hat : s.At i k w ws) (hlen : ws.length = 1)
    (hr : u.removeTileByIdx i 0 = some (r, v)) (ha : v.addTileToColumn j none r.tile activate = some t) :
    ∃ zs, (s.arrangement.eraseIdx i)[j]? = some zs ∧
      t.arrangement = (s.arrangement.eraseIdx i).set j (zs ++ [w]) := by
  obtain rfl : k = 0 := by
    have := lt_length_of_getElem? hat.tile
    omega
  have hatU : u.At i 0 w ws := ⟨hu ▸ hat.column, hat.tile⟩
  obtain ⟨hid, harr⟩ := arrangement_removeTileByIdx hatU hr
  rw [if_pos hlen, hu] at harr
  rw [← harr, ← hid]
  exact arrangement_addTileToColumn ha

/-- A window of a larger column becomes the column `j`. -/
theorem arrangement_expelled {v : ScrollingSpace} {r : RemovedTile} {activate isFullWidth : Bool}
    {width : ColumnWidth} (hat : s.At i k w ws) (hlen : ws.length ≠ 1)
    (hr : s.removeTileByIdx i k = some (r, v))
    (ha : v.addTile (some j) r.tile activate width isFullWidth = some t) :
    t.arrangement = (s.arrangement.set i (ws.eraseIdx k)).insertIdx j [w] := by
  obtain ⟨hid, harr⟩ := arrangement_removeTileByIdx hat hr
  rw [if_neg hlen] at harr
  rw [← harr, ← hid]
  exact arrangement_addTile ha

theorem sent_left (hs : s.Inv) (hm : s.Means window w) (hat : s.At i k w ws)
    (h : s.consumeOrExpelWindowLeft window = some t) : Sent s t .left i k w ws := by
  obtain ⟨c, hc, hids⟩ := column_of_arrangement hat.column
  have hlen : ws.length = c.tiles.length := hids ▸ length_map ..
  unfold consumeOrExpelWindowLeft at h
  rw [if_neg hat.columns_ne, windowOrActive_at hs hm hat] at h
  dsimp only [some_bind] at h
  rw [hc] at h
  dsimp only [some_bind] at h
  split at h
  · rename_i hone
    rw [← hlen] at hone
    split at h
    · rename_i hzero
      exact .stays hone hzero (some.inj h).symm
    · rename_i hpos
      obtain ⟨⟨r, v⟩, hr, ha⟩ := of_bind h
      obtain ⟨zs, hzs, harr⟩ := arrangement_consumed (by split <;> rfl) hat hone hr ha
      exact .consumed hone hpos zs hzs harr
  · rename_i hmany
    rw [← hlen] at hmany
    obtain ⟨⟨r, v⟩, hr, h⟩ := of_bind h
    obtain ⟨u, ha, h⟩ := of_bind h
    refine .expelled hmany (Eq.trans ?_ (arrangement_expelled hat hmany hr ha))
    rw [← some.inj h]
    split <;> rfl

theorem sent_right (hs : s.Inv) (hm : s.Means window w) (hat : s.At i k w ws)
    (h : s.consumeOrExpelWindowRight window = some t) : Sent s t .right i k w ws := by
  obtain ⟨c, hc, hids⟩ := column_of_arrangement hat.column
  have hlen : ws.length = c.tiles.length := hids ▸ length_map ..
  have hcolumns : s.arrangement.length = s.columns.length := length_map ..
  unfold consumeOrExpelWindowRight at h
  rw [if_neg hat.columns_ne, windowOrActive_at hs hm hat] at h
  dsimp only [some_bind] at h
  rw [hc] at h
  dsimp only [some_bind] at h
  split at h
  · rename_i hone
    rw [← hlen] at hone
    split at h
    · rename_i hlast
      exact .stays hone (hlast.trans hcolumns.symm) (some.inj h).symm
    · rename_i hmore
      obtain ⟨⟨r, v⟩, hr, ha⟩ := of_bind h
      obtain ⟨zs, hzs, harr⟩ := arrangement_consumed (by split <;> rfl) hat hone hr ha
      exact .consumed hone (fun hedge => hmore (Eq.trans hedge hcolumns)) zs hzs harr
  · rename_i hmany
    rw [← hlen] at hmany
    obtain ⟨⟨r, v⟩, hr, ha⟩ := of_bind h
    exact .expelled hmany (arrangement_expelled hat hmany hr ha)

theorem sent_consumeOrExpel (hs : s.Inv) (hm : s.Means window w) (hat : s.At i k w ws)
    {direction : ScrollDirection} (h : s.consumeOrExpel window direction = some t) :
    Sent s t direction i k w ws := by
  cases direction with
  | left => exact sent_left hs hm hat h
  | right => exact sent_right hs hm hat h

/-! And back. -/

theorem ownColumn_nextTo {direction : ScrollDirection} (hedge : ¬ s.AtEdge i direction) :
    ownColumn (nextTo i direction) direction.opposite = i := by
  cases direction with
  | left => exact Nat.sub_add_cancel (Nat.pos_of_ne_zero hedge)
  | right => rfl

theorem nextTo_ownColumn (i : ℕ) (direction : ScrollDirection) :
    nextTo (ownColumn i direction) direction.opposite = i := by
  cases direction with
  | left => rfl
  | right => rfl

theorem ownColumn_le (i : ℕ) (direction : ScrollDirection) : ownColumn i direction ≤ i + 1 := by
  cases direction with
  | left => exact Nat.le_succ i
  | right => exact le_rfl

theorem not_atEdge_ownColumn (hlen : t.arrangement.length = s.arrangement.length + 1)
    (hi : i < s.arrangement.length) (direction : ScrollDirection) :
    ¬ t.AtEdge (ownColumn i direction) direction.opposite := by
  cases direction with
  | left =>
    have hne : i + 1 ≠ t.arrangement.length := by omega
    exact hne
  | right => exact Nat.succ_ne_zero i

/-- A window that is taken from the end of its column and put there again. -/
theorem eraseIdx_append_eq_iff (hnodup : ws.Nodup) (hk : ws[k]? = some w) :
    ws.eraseIdx k ++ [w] = ws ↔ k + 1 = ws.length := by
  have hlt := lt_length_of_getElem? hk
  constructor
  · intro heq
    have hlast : ws[ws.length - 1]? = some w := by
      have hlen : (ws.eraseIdx k).length = ws.length - 1 := length_eraseIdx_of_lt hlt
      have hget : (ws.eraseIdx k ++ [w])[(ws.eraseIdx k).length]? = some w := getElem?_concat_length
      rwa [heq, hlen] at hget
    have hidx := (getElem?_inj hlt hnodup).mp (hk.trans hlast.symm)
    omega
  · intro hlast
    have hget : ws.getLast? = some w := by
      rw [getLast?_eq_getElem?, ← hlast]
      exact hk
    rw [eraseIdx_eq_dropLast hlast]
    exact dropLast_append_getLast? w hget

/-- When a window that was sent away comes back to where it was. -/
def Returns (s : ScrollingSpace) (direction : ScrollDirection) (i k : ℕ) (ws : List ℕ) : Prop :=
  if ws.length = 1 then ¬ s.AtEdge i direction ∨ s.arrangement.length = 1 else k + 1 = ws.length

theorem sent_back_of_atEdge (hat : s.At i k w ws) {direction : ScrollDirection} (hlen : ws.length = 1)
    (hedge : s.AtEdge i direction) (h : Sent s s' direction.opposite i k w ws) :
    s'.arrangement = s.arrangement ↔ s.arrangement.length = 1 := by
  have hi := lt_length_of_getElem? hat.column
  cases h with
  | stays _ hother ht =>
    refine iff_of_true (ht ▸ rfl) ?_
    cases direction with
    | left =>
      obtain rfl : i = 0 := hedge
      exact hother.symm
    | right =>
      obtain rfl : i = 0 := hother
      exact hedge.symm
  | consumed _ hother zs hcolumn harr =>
    refine iff_of_false (fun heq => ?_) fun hone => ?_
    · have hlen := congrArg List.length (heq.symm.trans harr)
      rw [length_set, length_eraseIdx_of_lt hi] at hlen
      omega
    · have hnil : (s.arrangement.eraseIdx i).length = 0 := by
        rw [length_eraseIdx_of_lt hi, hone]
      have hlt := lt_length_of_getElem? hcolumn
      omega
  | expelled hmany => exact absurd hlen hmany

theorem sent_back (hs : s.Inv) (hm : s.Means window w) (hat : s.At i k w ws)
    (direction : ScrollDirection) :
    ∃ t s', s.consumeOrExpel window direction = some t ∧
      t.consumeOrExpel window direction.opposite = some s' ∧ s'.activeId = s.activeId ∧
      (s'.arrangement = s.arrangement ↔ s.Returns direction i k ws) := by
  obtain ⟨t, ht, hinv, hactive, hmeans⟩ := exists_consumeOrExpel hs hm hat direction
  have hi := lt_length_of_getElem? hat.column
  have hthere : ∃ i' k' ws', t.At i' k' w ws' ∧ ∀ s', Sent t s' direction.opposite i' k' w ws' →
      (s'.arrangement = s.arrangement ↔ s.Returns direction i k ws) := by
    unfold Returns
    cases sent_consumeOrExpel hs hm hat ht with
    | stays hlen hedge heq =>
      subst heq
      refine ⟨i, k, ws, hat, fun s' hback => ?_⟩
      rw [if_pos hlen, sent_back_of_atEdge hat hlen hedge hback]
      exact (or_iff_right (not_not.mpr hedge)).symm
    | consumed hlen hedge zs hcolumn harr =>
      have hj := lt_length_of_getElem? hcolumn
      refine ⟨nextTo i direction, zs.length, zs ++ [w], ⟨?_, getElem?_concat_length⟩,
        fun s' hback => ?_⟩
      · rw [harr, getElem?_set_self hj]
      · rw [if_pos hlen]
        refine iff_of_true ?_ (.inl hedge)
        have hzs : zs ≠ [] := by
          have hmem := mem_of_mem_eraseIdx (mem_of_getElem? hcolumn)
          obtain ⟨c, hc, rfl⟩ := List.mem_map.mp hmem
          exact fun hnil => (hs.columns c hc).nonempty (map_eq_nil_iff.mp hnil)
        cases hback with
        | stays hone | consumed hone =>
          rw [length_append, length_singleton] at hone
          exact absurd (length_eq_zero_iff.mp (Nat.succ.inj hone)) hzs
        | expelled _ hback =>
          have hws : ws = [w] := by
            obtain ⟨v, rfl⟩ := length_eq_one_iff.mp hlen
            rw [mem_singleton.mp (mem_of_getElem? hat.tile)]
          have hcolumn' : s.arrangement[i]? = some [w] := hws ▸ hat.column
          have hkeep : (zs ++ [w]).eraseIdx zs.length = zs := by
            rw [eraseIdx_append_of_length_le le_rfl, Nat.sub_self, eraseIdx_cons_zero,
              append_nil]
          rw [hback, harr, List.set_set, hkeep, ownColumn_nextTo hedge,
            set_self_of_getElem? hcolumn, insertIdx_eraseIdx_eq_set hi, set_self_of_getElem? hcolumn']
    | expelled hmany harr =>
      have hle : ownColumn i direction ≤ (s.arrangement.set i (ws.eraseIdx k)).length := by
        rw [length_set]
        exact (ownColumn_le i direction).trans hi
      refine ⟨ownColumn i direction, 0, [w], ⟨?_, rfl⟩, fun s' hback => ?_⟩
      · rw [harr, getElem?_insertIdx_self, if_pos hle]
      · have hlen : t.arrangement.length = s.arrangement.length + 1 := by
          rw [harr, length_insertIdx_of_le_length hle, length_set]
        rw [if_neg hmany]
        cases hback with
        | stays _ hedge => exact absurd hedge (not_atEdge_ownColumn hlen hi direction)
        | consumed _ _ zs hcolumn hback =>
          have herase : t.arrangement.eraseIdx (ownColumn i direction) =
              s.arrangement.set i (ws.eraseIdx k) := by
            rw [harr, eraseIdx_insertIdx_self]
          rw [herase, nextTo_ownColumn, getElem?_set_self hi, some.injEq] at hcolumn
          rw [herase, nextTo_ownColumn, List.set_set, ← hcolumn] at hback
          have hnodup := (pairwise_flatten.mp hs.ids).1 ws (mem_of_getElem? hat.column)
          rw [hback, ← eraseIdx_append_eq_iff hnodup hat.tile]
          constructor
          · intro heq
            have hget := congrArg (·[i]?) heq
            simpa only [getElem?_set_self hi, hat.column, some.injEq] using hget
          · exact fun heq => heq.symm ▸ set_self_of_getElem? hat.column
        | expelled hmany => exact absurd rfl hmany
  obtain ⟨i', k', ws', hat', hback⟩ := hthere
  obtain ⟨s', hs', -, hactive', -⟩ := exists_consumeOrExpel hinv hmeans hat' direction.opposite
  exact ⟨t, s', ht, hs', hactive'.trans hactive, hback s' (sent_consumeOrExpel hinv hmeans hat' hs')⟩

variable {viewSize : Size} {parentArea : Rectangle} {scale now : ℚ} {options : Options} {ops : List Op}

/-- Sending a window to the left or to the right and back restores the columns exactly if it was the
last tile of its column, or alone in it with a neighbour to go to. The focus never moves. -/
theorem consumeOrExpel_back_iff (h : run step (new viewSize parentArea scale options now) ops = some s)
    (hm : s.Means window w) (hat : s.At i k w ws) (direction : ScrollDirection) :
    ∃ t s', s.consumeOrExpel window direction = some t ∧
      t.consumeOrExpel window direction.opposite = some s' ∧ s'.activeId = s.activeId ∧
      (s'.arrangement = s.arrangement ↔ s.Returns direction i k ws) :=
  sent_back (inv_run inv_new h) hm hat direction

theorem consumeOrExpel_back_alone : ∃ s t s', run step testSpace [openOp 1, openOp 2] = some s ∧
    s.consumeOrExpel none .left = some t ∧ t.consumeOrExpel none .right = some s' ∧
    t.arrangement = [[1, 2]] ∧ s'.arrangement = [[1], [2]] := by
  have hrun : (run step testSpace [openOp 1, openOp 2]).any (fun s =>
      s.arrangement == [[1], [2]] && s.activeId == some 2 &&
        (s.consumeOrExpel none .left).any (·.arrangement == [[1, 2]])) = true := by decide +kernel
  obtain ⟨s, hs, hspec⟩ := (Option.any_eq_true _ _).mp hrun
  obtain ⟨⟨harr, hactive⟩, hsent⟩ := by simpa [Option.any_eq_true] using hspec
  obtain ⟨t, ht, harr'⟩ := hsent
  have hat : s.At 1 0 2 [2] := ⟨by rw [harr]; rfl, rfl⟩
  obtain ⟨t', s', ht', hs', -, hback⟩ := consumeOrExpel_back_iff hs (.inr ⟨rfl, hactive⟩) hat .left
  obtain rfl := some.inj (ht.symm.trans ht')
  refine ⟨s, t, s', hs, ht, hs', harr', harr ▸ hback.mpr ?_⟩
  have hedge : ¬ s.AtEdge 1 .left := Nat.one_ne_zero
  simp [Returns, hedge]

end Macniri.Layout.ScrollingSpace
