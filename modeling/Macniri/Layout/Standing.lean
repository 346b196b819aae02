import Macniri.Layout.SoundOps
import Macniri.Scrolling.OwnColumn

/-! What is remembered of a window while it is fullscreen or maximized: whether its column is
maximized too, and whether it goes back to floating. -/
namespace Macniri.Layout

open Option List

/-- How a window stands on its workspace. -/
inductive Standing where
  | floating (mode : SizingMode)
  | scrolling (wishes : Wishes) (restoreToFloating : Bool)
  deriving DecidableEq, Repr

namespace Standing

def mode : Standing → SizingMode
  | floating mode => mode
  | scrolling wishes _ => wishes.mode

def isFloating : Standing → Bool
  | floating _ => true
  | scrolling _ _ => false

/-- A move to another workspace loses what the window goes back to: it is fullscreen over a maximized
or a floating one, or maximized over a floating one. A floating window that is not normal is tiled by
the move, and one that is in real and windowed fullscreen loses the latter. -/
def forgets (windowed : Bool) : Standing → Bool
  | floating mode => mode != .normal
  | scrolling wishes restore => wishes.fullscreen && (wishes.maximized || restore || windowed) ||
      wishes.maximized && restore

def unsetFullscreen : Standing → Standing
  | floating mode => floating mode
  | scrolling wishes restore =>
    if wishes.fullscreen && !wishes.maximized && restore then floating .normal
    else scrolling { wishes with fullscreen := false } restore

def unsetMaximized : Standing → Standing
  | floating mode => floating mode
  | scrolling wishes restore =>
    if wishes.mode == .maximized && restore then floating .normal
    else scrolling { wishes with maximized := false } restore

/-- A tile is moved like a new one, so only its mode is known. -/
def moved : Standing → Standing
  | floating mode => if mode = .normal then floating .normal else scrolling (.ofMode mode) true
  | scrolling wishes _ => scrolling (.ofMode wishes.mode) false

/-- What is seen of it: the pending mode and the space. -/
def seen (s : Standing) : SizingMode × Bool := (s.mode, s.isFloating)

variable {s : Standing} {wishes : Wishes} {restore : Bool}

theorem moved_floating {mode : SizingMode} (h : mode ≠ .normal) :
    (floating mode).moved = scrolling (.ofMode mode) true := if_neg h

theorem moved_scrolling (wishes : Wishes) (restore : Bool) :
    (scrolling wishes restore).moved = scrolling (.ofMode wishes.mode) false := rfl

/-- The ways around: unset the fullscreen or the maximized mode before or after the move. In windowed
fullscreen only that is left. -/
theorem moved_commutes_iff (s : Standing) (windowed : Bool) :
    (s.moved.seen = s.seen ∧
      (if s.mode != .fullscreen && windowed then s.moved else s.moved.unsetFullscreen).seen =
        (if windowed then s else s.unsetFullscreen).moved.seen ∧
      s.moved.unsetMaximized.seen = s.unsetMaximized.moved.seen) ↔ s.forgets windowed = false := by
  cases s with
  | floating mode => cases mode <;> cases windowed <;> decide
  | scrolling wishes restore =>
    obtain ⟨fullscreen, maximized⟩ := wishes
    cases fullscreen <;> cases maximized <;> cases restore <;> cases windowed <;> decide

end Standing

/-! In a column. -/

namespace Column

variable {c : Column} {t : Tile} {w : ℕ} {wishes : Wishes} {restore windowed : Bool}

/-- The wishes of the column of a window, and the marks of its tile. -/
structure Remembers (w : ℕ) (wishes : Wishes) (restore windowed : Bool) (c : Column) : Prop where
  wishes : c.wishes = wishes
  tile : ∃ t ∈ c.tiles, t.id = w ∧ t.restoreToFloating = restore ∧
    t.window.isPendingWindowedFullscreen = windowed

theorem exists_updateTileSizes (ht : t ∈ c.tiles) : ∃ t' ∈ c.updateTileSizes.tiles, t'.id = t.id ∧
    t'.restoreToFloating = t.restoreToFloating ∧ t'.window.isPendingWindowedFullscreen =
      (c.pendingSizingMode != .fullscreen && t.window.isPendingWindowedFullscreen) := by
  unfold updateTileSizes
  cases hmode : c.pendingSizingMode with
  | fullscreen => exact ⟨_, List.mem_map_of_mem ht, rfl, rfl, rfl⟩
  | maximized => exact ⟨_, List.mem_map_of_mem ht, rfl, rfl, rfl⟩
  | normal =>
    obtain ⟨i, hi, rfl⟩ := mem_iff_getElem.mp ht
    refine ⟨_, mem_mapIdx.mpr ⟨i, hi, rfl⟩, ?_⟩
    cases c.requestedHeights[i]? with
    | none => exact ⟨rfl, rfl, rfl⟩
    | some height => exact ⟨rfl, rfl, rfl⟩

theorem Remembers.updateTileSizes (h : c.Remembers w wishes restore windowed) :
    c.updateTileSizes.Remembers w wishes restore (wishes.mode != .fullscreen && windowed) := by
  obtain ⟨rfl, t, ht, rfl, rfl, rfl⟩ := h
  obtain ⟨t', ht', hid, hrestore, hwindowed⟩ := exists_updateTileSizes ht
  refine ⟨?_, t', ht', hid, hrestore, hwindowed⟩
  simp [Column.wishes]

theorem Remembers.map_tiles {f : Tile → Tile} (h : c.Remembers w wishes restore windowed)
    (hid : ∀ t, (f t).id = t.id) (hrestore : ∀ t, (f t).restoreToFloating = t.restoreToFloating)
    (hwindowed : ∀ t, (f t).window.isPendingWindowedFullscreen = t.window.isPendingWindowedFullscreen) :
    Remembers w wishes restore windowed { c with tiles := c.tiles.map f } := by
  obtain ⟨hwishes, t, ht, rfl, rfl, rfl⟩ := h
  exact ⟨hwishes, f t, List.mem_map_of_mem ht, hid t, hrestore t, hwindowed t⟩

theorem Remembers.cancelResize (h : c.Remembers w wishes restore windowed) :
    c.cancelResize.Remembers w wishes restore windowed :=
  h.map_tiles (fun _ => rfl) (fun _ => rfl) fun _ => rfl

theorem Remembers.setFullscreen (h : c.Remembers w wishes restore windowed) {v : Bool}
    (hv : wishes.fullscreen ≠ v) : (c.setFullscreen v).Remembers w { wishes with fullscreen := v } restore
      (Wishes.mode { wishes with fullscreen := v } != .fullscreen && windowed) := by
  obtain ⟨rfl, htile⟩ := h
  have hv : c.isPendingFullscreen ≠ v := hv
  have hset : Remembers w { c.wishes with fullscreen := v } restore windowed
      { c with isPendingFullscreen := v } := ⟨rfl, htile⟩
  unfold Column.setFullscreen
  rw [if_neg hv]
  exact hset.updateTileSizes

theorem Remembers.setMaximized (h : c.Remembers w wishes restore windowed) {v : Bool}
    (hv : wishes.maximized ≠ v) : (c.setMaximized v).Remembers w { wishes with maximized := v } restore
      (Wishes.mode { wishes with maximized := v } != .fullscreen && windowed) := by
  obtain ⟨rfl, htile⟩ := h
  have hv : c.isPendingMaximized ≠ v := hv
  have hset : Remembers w { c.wishes with maximized := v } restore windowed
      { c with isPendingMaximized := v } := ⟨rfl, htile⟩
  unfold Column.setMaximized
  rw [if_neg hv]
  exact hset.updateTileSizes

/-- A new column knows what the mode of its window tells. -/
theorem remembers_newWithTile (tile : Tile) (viewSize : Size) (workingArea parentArea : Rectangle)
    (scale : ℚ) (width : ColumnWidth) (isFullWidth : Bool) :
    (newWithTile tile viewSize workingArea parentArea scale width isFullWidth).Remembers tile.id
      (.ofMode tile.window.pendingSizingMode) tile.restoreToFloating
      (tile.window.pendingSizingMode != .fullscreen && tile.window.isPendingWindowedFullscreen) := by
  have hadd : ((emptyFor tile viewSize workingArea parentArea scale width isFullWidth).addTileAt 0
      tile).Remembers tile.id ⟨false, false⟩ tile.restoreToFloating
      tile.window.isPendingWindowedFullscreen := by
    unfold addTileAt
    cases ((emptyFor tile viewSize workingArea parentArea scale width isFullWidth).isTabbed)
    all_goals
      have hnew : ∀ c : Column, c.wishes = ⟨false, false⟩ →
          c.tiles = [tile.updateConfig viewSize scale tile.options] →
          c.Remembers tile.id ⟨false, false⟩ tile.restoreToFloating
            tile.window.isPendingWindowedFullscreen := fun c hwishes htiles =>
        ⟨hwishes, tile.updateConfig viewSize scale tile.options, by simp [htiles], rfl, rfl, rfl⟩
      exact (hnew _ rfl rfl).updateTileSizes
  unfold newWithTile
  cases tile.window.pendingSizingMode with
  | normal => exact hadd
  | maximized => exact hadd.setMaximized Bool.false_ne_true
  | fullscreen => exact hadd.setFullscreen Bool.false_ne_true

theorem Remembers.updateConfig (h : c.Remembers w wishes restore windowed)
    (hwindowed : wishes.mode = .fullscreen → windowed = false) (viewSize : Size)
    (workingArea parentArea : Rectangle) (scale : ℚ) (options : Options) :
    (c.updateConfig viewSize workingArea parentArea scale options).Remembers w wishes restore
      windowed := by
  obtain ⟨hwishes, htile⟩ : Remembers w wishes restore windowed
      { c with tiles := c.tiles.map (·.updateConfig viewSize scale options) } :=
    h.map_tiles (fun _ => rfl) (fun _ => rfl) fun _ => rfl
  have hkept : (wishes.mode != .fullscreen && windowed) = windowed := by
    cases hmode : wishes.mode with
    | fullscreen => exact (hwindowed hmode).symm
    | maximized => rfl
    | normal => rfl
  unfold Column.updateConfig
  dsimp only
  split
  · have hnew : ∀ d : Column, d.wishes = wishes →
        d.tiles = c.tiles.map (·.updateConfig viewSize scale options) →
        d.updateTileSizes.Remembers w wishes restore windowed := by
      intro d hd htiles
      have hsized := (show d.Remembers w wishes restore windowed from ⟨hd, htiles ▸ htile⟩).updateTileSizes
      rwa [hkept] at hsized
    exact hnew _ hwishes rfl
  · exact ⟨hwishes, htile⟩

theorem Remembers.contains (h : c.Remembers w wishes restore windowed) : c.contains w = true := by
  obtain ⟨-, t, ht, rfl, -, -⟩ := h
  exact List.any_eq_true.mpr ⟨t, ht, beq_self_eq_true t.id⟩

/-- The tile of the window is the one that is remembered. -/
theorem Remembers.of_mem (h : c.Remembers w wishes restore windowed) (hc : c.Wf) (ht : t ∈ c.tiles)
    (hid : t.id = w) : t.window.pendingSizingMode = wishes.mode ∧ t.restoreToFloating = restore ∧
      t.window.isPendingWindowedFullscreen = windowed := by
  have hmode := hc.modes t ht
  obtain ⟨rfl, u, hu, hsame, rfl, rfl⟩ := h
  obtain rfl : t = u := inj_on_of_nodup_map hc.ids ht hu (hid.trans hsame.symm)
  exact ⟨hmode, rfl, rfl⟩

end Column

/-! In the scrolling space. -/

namespace ScrollingSpace

variable {s s' : ScrollingSpace} {w : ℕ} {wishes wishes' : Wishes} {restore windowed : Bool} {t : Tile}

/-- The same for the column of the window. -/
def Remembers (w : ℕ) (wishes : Wishes) (restore windowed : Bool) (s : ScrollingSpace) : Prop :=
  ∃ c ∈ s.columns, c.Remembers w wishes restore windowed

theorem exists_remembers (hw : w ∈ s.windowIds) : ∃ wishes restore windowed,
    s.Remembers w wishes restore windowed := by
  obtain ⟨ids, hids, hw⟩ := mem_flatten.mp hw
  obtain ⟨c, hc, rfl⟩ := List.mem_map.mp hids
  obtain ⟨t, ht, rfl⟩ := List.mem_map.mp hw
  exact ⟨c.wishes, t.restoreToFloating, t.window.isPendingWindowedFullscreen, c, hc, rfl, t, ht, rfl, rfl, rfl⟩

theorem Remembers.mem (h : s.Remembers w wishes restore windowed) : w ∈ s.windowIds := by
  obtain ⟨c, hc, -, t, ht, rfl, -, -⟩ := h
  exact mem_flatten.mpr ⟨c.windowIds, List.mem_map_of_mem hc, List.mem_map_of_mem ht⟩

/-- The first column that has the window is the one that is remembered. -/
theorem Remembers.find? (h : s.Remembers w wishes restore windowed) (hs : s.Inv) :
    ∃ c, s.columns.find? (·.contains w) = some c ∧ c.Wf ∧ c.Remembers w wishes restore windowed := by
  obtain ⟨c, hc, hremembers⟩ := h
  obtain ⟨i, hi⟩ := mem_iff_getElem?.mp hc
  have hidx := findIdx?_contains_eq hs.ids hi hremembers.contains
  exact ⟨c, find?_of_findIdx? hidx hi, hs.columns c hc, hremembers⟩

/-- The tile of the window is pending what its column wants. -/
theorem Remembers.findTile (h : s.Remembers w wishes restore windowed) (hs : s.Inv)
    (ht : s.findTile w = some t) : t.window.pendingSizingMode = wishes.mode ∧
      t.restoreToFloating = restore ∧ t.window.isPendingWindowedFullscreen = windowed := by
  obtain ⟨c, hc, hwf, hremembers⟩ := h.find? hs
  have hid : t.id = w := beq_iff_eq.mp (by simpa using find?_some ht)
  have hfirst : s.findTile w = c.tiles.find? (·.id == w) := find?_flatMap hc
  exact hremembers.of_mem hwf (mem_of_find?_eq_some (hfirst.symm.trans ht)) hid

theorem mem_modify {α : Type} {l : List α} {a : α} (ha : a ∈ l) (i : ℕ) (f : α → α) :
    a ∈ l.modify i f ∨ f a ∈ l.modify i f := by
  obtain ⟨j, hj⟩ := mem_iff_getElem?.mp ha
  by_cases hij : i = j
  · exact .inr (mem_of_getElem? (i := j) (by simp [hj, hij]))
  · exact .inl (mem_of_getElem? (i := j) (by simp [hj, hij]))

/-- A change of a tile that keeps its id and its mark. -/
theorem Remembers.modifyTile (h : s.Remembers w wishes restore windowed) (window : ℕ) {f : Tile → Tile}
    (hid : ∀ t, (f t).id = t.id) (hrestore : ∀ t, (f t).restoreToFloating = t.restoreToFloating) :
    ∃ b, (s.modifyTile window f).Remembers w wishes restore b := by
  obtain ⟨c, hc, hwishes, t, ht, htid, htrestore, htwindowed⟩ := h
  unfold ScrollingSpace.modifyTile
  split
  · exact ⟨windowed, c, hc, hwishes, t, ht, htid, htrestore, htwindowed⟩
  · rename_i colIdx tileIdx _
    rcases mem_modify hc colIdx fun c => { c with tiles := c.tiles.modify tileIdx f } with hsame | hmodified
    · exact ⟨windowed, c, hsame, hwishes, t, ht, htid, htrestore, htwindowed⟩
    · rcases mem_modify ht tileIdx f with hsame | hchanged
      · exact ⟨windowed, _, hmodified, hwishes, t, hsame, htid, htrestore, htwindowed⟩
      · exact ⟨_, _, hmodified, hwishes, f t, hchanged, (hid t).trans htid, (hrestore t).trans htrestore, rfl⟩

/-- Nothing is extracted when a flag is unset. -/
theorem Remembers.unsetPending {isPending : Column → Bool} {set : Column → Bool → Column} (pending : Bool)
    (h : s.Remembers w wishes restore windowed) (hs : s.Inv) (hseen : ∀ (c : Column) v, c.Seen (set c v))
    (hpending : ∀ c : Column, c.wishes = wishes → isPending c = pending)
    (hset : ∀ c : Column, pending = true → c.Remembers w wishes restore windowed →
      ∃ b, (set c false).Remembers w wishes' restore b)
    (hself : pending = false → wishes' = wishes)
    (hs' : ScrollingSpace.setPending isPending set s w false = some s') :
    ∃ b, s'.Remembers w wishes' restore b := by
  obtain ⟨c, hc, hremembers⟩ := h
  obtain ⟨i, hi⟩ := mem_iff_getElem?.mp hc
  have hreplaced := replaced_setPending_false hseen hs.ids hi (hs.data_getElem? hi)
    hremembers.contains hs'
  have hnew := mem_of_getElem? hreplaced.new
  rw [hpending c hremembers.wishes] at hnew
  cases pending with
  | true =>
    obtain ⟨b, hb⟩ := hset _ rfl hremembers.cancelResize
    exact ⟨b, _, hnew, hb⟩
  | false => exact ⟨windowed, c, hnew, (hself rfl).symm ▸ hremembers⟩

theorem Remembers.unsetFullscreen (h : s.Remembers w wishes restore windowed) (hs : s.Inv)
    (hs' : s.setFullscreen w false = some s') :
    ∃ b, s'.Remembers w { wishes with fullscreen := false } restore b := by
  refine h.unsetPending wishes.fullscreen hs Column.seen_setFullscreen ?_ ?_ ?_ hs'
  · rintro c rfl
    rfl
  · intro c hpending hc
    exact ⟨_, hc.setFullscreen (v := false) (by rw [hpending]; exact Bool.false_ne_true.symm)⟩
  · intro hno
    rw [← hno]

theorem Remembers.unsetMaximized (h : s.Remembers w wishes restore windowed) (hs : s.Inv)
    (hs' : s.setMaximized w false = some s') :
    ∃ b, s'.Remembers w { wishes with maximized := false } restore b := by
  refine h.unsetPending wishes.maximized hs Column.seen_setMaximized ?_ ?_ ?_ hs'
  · rintro c rfl
    rfl
  · intro c hpending hc
    exact ⟨_, hc.setMaximized (v := false) (by rw [hpending]; exact Bool.false_ne_true.symm)⟩
  · intro hno
    rw [← hno]

theorem isFloating_removeTileByIdx {i k : ℕ} {r : RemovedTile} (h : s.removeTileByIdx i k = some (r, s')) :
    r.isFloating = false := by
  obtain ⟨c, -, h⟩ := of_bind h
  split at h
  · obtain ⟨p, -, h⟩ := of_bind h
    obtain ⟨tile, -, h⟩ := of_bind h
    obtain ⟨rfl, -⟩ := pair_inj h
    rfl
  · obtain ⟨tile, -, h⟩ := of_bind h
    obtain ⟨rfl, -⟩ := pair_inj h
    rfl

/-- The tile that is taken out. -/
theorem Remembers.removeTile (h : s.Remembers w wishes restore windowed) (hs : s.Inv) {r : RemovedTile}
    (hr : s.removeTile w = some (r, s')) : r.isFloating = false ∧
      r.tile.window.pendingSizingMode = wishes.mode ∧
      r.tile.window.isPendingWindowedFullscreen = windowed := by
  have hid := removeTile_id hr
  obtain ⟨⟨i, k⟩, -, hr⟩ := of_bind hr
  obtain ⟨c, hc, htile, -⟩ := removeTileByIdx_spec hr
  have hmem := mem_of_getElem? htile
  obtain ⟨c₀, hc₀, hremembers⟩ := h
  obtain ⟨j, hj⟩ := mem_iff_getElem?.mp hc₀
  have hthere : c.contains w = true := List.any_eq_true.mpr ⟨r.tile, hmem, beq_iff_eq.mpr hid⟩
  have hsame := (findIdx?_contains_eq hs.ids hc hthere).symm.trans
    (findIdx?_contains_eq hs.ids hj hremembers.contains)
  obtain rfl := some.inj hsame
  obtain rfl := some.inj (hc.symm.trans hj)
  obtain ⟨hmode, -, hwindowed⟩ := hremembers.of_mem (hs.columns c hc₀) hmem hid
  exact ⟨isFloating_removeTileByIdx hr, hmode, hwindowed⟩

theorem remembers_addTile {colIdx : Option ℕ} {tile : Tile} {activate isFullWidth : Bool}
    {width : ColumnWidth} (hs : s.addTile colIdx tile activate width isFullWidth = some s') :
    s'.Remembers tile.id (.ofMode tile.window.pendingSizingMode) tile.restoreToFloating
      (tile.window.pendingSizingMode != .fullscreen && tile.window.isPendingWindowedFullscreen) := by
  have hle : s.insertionIdx colIdx ≤ s.columns.length := by
    have hadd := hs
    unfold ScrollingSpace.addTile addColumn at hadd
    dsimp only at hadd
    split at hadd
    · cases hadd
    · rename_i hlt
      exact Nat.le_of_not_lt hlt
  have hnew := Column.remembers_newWithTile tile s.viewSize s.workingArea s.parentArea s.scale width
    isFullWidth
  have hadopted := hnew.updateConfig (fun hfull => by
    rw [Wishes.mode_ofMode] at hfull
    rw [hfull]
    rfl) s.viewSize s.workingArea s.parentArea s.scale s.options
  have hmap := map_addColumn (f := still) still_ignores_animation hs
  have hlen : s.insertionIdx colIdx ≤ (s.columns.map still).length := by simpa using hle
  have hmem : still (s.adopt (.newWithTile tile s.viewSize s.workingArea s.parentArea s.scale width
      isFullWidth)) ∈ s'.columns.map still := by
    rw [hmap]
    exact (mem_insertIdx hlen).mpr (.inl rfl)
  obtain ⟨c, hc, hstill⟩ := List.mem_map.mp hmem
  have hthere : (still c).Remembers tile.id (.ofMode tile.window.pendingSizingMode) tile.restoreToFloating
      (tile.window.pendingSizingMode != .fullscreen && tile.window.isPendingWindowedFullscreen) := by
    rw [hstill]
    exact ⟨hadopted.wishes, hadopted.tile⟩
  exact ⟨c, hc, hthere.wishes, hthere.tile⟩

end ScrollingSpace

/-! In the floating space. -/

namespace FloatingSpace

variable {s s' : FloatingSpace} {i : ℕ} {tile : Tile}

theorem tiles_raiseWindow {j : ℕ} (h : s.raiseWindow i j = some s') : s'.tiles.Perm s.tiles := by
  obtain ⟨tile, htile, h⟩ := of_bind h
  obtain ⟨data, -, h⟩ := of_bind h
  split at h
  · cases h
  · obtain rfl := some.inj h
    have hlt := lt_length_of_getElem? htile
    exact perm_move htile (by omega)

theorem tiles_raiseAll {js : List ℕ} (h : s.raiseAll i js = some s') : s'.tiles.Perm s.tiles := by
  induction js generalizing s i with
  | nil => exact some.inj h ▸ .refl _
  | cons j js ih =>
    obtain ⟨t, ht, h⟩ := of_bind h
    exact (ih h).trans (tiles_raiseWindow ht)

theorem tiles_bringUpDescendantsOf (h : s.bringUpDescendantsOf i = some s') : s'.tiles.Perm s.tiles := by
  obtain ⟨tile, -, h⟩ := of_bind h
  exact tiles_raiseAll h

/-- A tile that is added is asked for a floating size. -/
def asFloating (s : FloatingSpace) (tile : Tile) : Tile :=
  let tile := tile.updateConfig s.viewSize s.scale s.options
  { tile with window := requestFloatingSize tile.floatingWindowSize tile.window }

theorem tiles_addTileAt {activate : Bool} (h : s.addTileAt i tile activate = some s') :
    s'.tiles.Perm (s.asFloating tile :: s.tiles) := by
  refine (tiles_bringUpDescendantsOf h).trans ?_
  obtain ⟨t, ht, -⟩ := of_bind h
  have hlt := lt_length_of_getElem? ht
  refine perm_insertIdx _ _ ?_
  rw [length_insertIdx] at hlt
  split at hlt <;> omega

end FloatingSpace

/-! On a workspace. -/

namespace Workspace

variable {ws ws' : Workspace} {w : ℕ} {s : Standing} {windowed : Bool} {tile : Tile} {renderPos : Point}

/-- How a window stands on the workspace, and whether it is in windowed fullscreen. -/
inductive Stands (ws : Workspace) (w : ℕ) : Standing → Bool → Prop
  | floating (t : Tile) : t ∈ ws.floating.tiles → t.id = w →
    Stands ws w (.floating t.window.pendingSizingMode) t.window.isPendingWindowedFullscreen
  | scrolling {wishes : Wishes} {restore windowed : Bool} :
    ws.scrolling.Remembers w wishes restore windowed → Stands ws w (.scrolling wishes restore) windowed

theorem exists_stands (hw : w ∈ ws.windowIds) : ∃ s windowed, ws.Stands w s windowed := by
  rcases mem_append.mp hw with hw | hw
  · obtain ⟨wishes, restore, windowed, h⟩ := ScrollingSpace.exists_remembers hw
    exact ⟨_, windowed, .scrolling h⟩
  · obtain ⟨t, ht, hid⟩ := List.mem_map.mp hw
    exact ⟨_, _, .floating t ht hid⟩

theorem Stands.mem (h : ws.Stands w s windowed) : w ∈ ws.windowIds := by
  cases h with
  | floating t ht hid => exact mem_append_right _ (hid ▸ List.mem_map_of_mem ht)
  | scrolling h => exact mem_append_left _ h.mem

/-- A window of the scrolling space is not floating. -/
theorem not_floating_of_remembers (hws : ws.Ok) {wishes : Wishes} {restore : Bool}
    (h : ws.scrolling.Remembers w wishes restore windowed) : ws.floating.hasWindow w = false := by
  by_contra hne
  have hfloating := FloatingSpace.mem_windowIds_iff.mpr (Bool.eq_true_of_not_eq_false hne)
  exact (nodup_append'.mp hws.ids).2.2 h.mem hfloating

theorem Stands.hasWindow_floating (h : ws.Stands w s windowed) (hws : ws.Ok) :
    ws.floating.hasWindow w = s.isFloating := by
  cases h with
  | floating t ht hid => exact List.any_eq_true.mpr ⟨t, ht, beq_iff_eq.mpr hid⟩
  | scrolling h => exact not_floating_of_remembers hws h

theorem stands_addTileAt {f : FloatingSpace} {i : ℕ} {activate : Bool}
    (hf : ws.floating.addTileAt i tile activate = some f) {ws' : Workspace} (hws' : ws'.floating = f) :
    ws'.Stands tile.id (.floating .normal) tile.window.isPendingWindowedFullscreen := by
  have hmem : ws.floating.asFloating tile ∈ ws'.floating.tiles := by
    rw [hws']
    exact (FloatingSpace.tiles_addTileAt hf).mem_iff.mpr mem_cons_self
  have hwindowed : (ws.floating.asFloating tile).window.isPendingWindowedFullscreen =
      tile.window.isPendingWindowedFullscreen := rfl
  exact hwindowed ▸ .floating _ hmem rfl

/-- A window that goes back to floating is pending normal. -/
theorem stands_scrollingToFloating (hws : ws.Ok) {wishes : Wishes} {restore targetIsActive : Bool}
    (h : ws.scrolling.Remembers w wishes restore windowed)
    (hws' : ws.scrollingToFloating w targetIsActive renderPos = some ws') :
    ws'.Stands w (.floating .normal) windowed := by
  obtain ⟨⟨r, s⟩, hr, hws'⟩ := of_bind hws'
  obtain ⟨wt, hwt, hws'⟩ := of_bind hws'
  obtain ⟨f, hf, rfl⟩ := of_map hwt
  have hfloating : ws'.floating = f := by
    rw [← some.inj hws']
    split <;> rfl
  obtain ⟨-, -, hwindowed⟩ := h.removeTile hws.scrolling hr
  have hmarks (u : Workspace) : (u.withFloatingPos r.tile renderPos).id = w ∧
      (u.withFloatingPos r.tile renderPos).window.isPendingWindowedFullscreen = windowed := by
    unfold withFloatingPos
    split
    · exact ⟨ScrollingSpace.removeTile_id hr, hwindowed⟩
    · exact ⟨ScrollingSpace.removeTile_id hr, hwindowed⟩
  obtain ⟨hid, hwindowed⟩ := hmarks { ws with scrolling := s }
  have hstands := stands_addTileAt hf hfloating
  rwa [hid, hwindowed] at hstands

/-- A flag of the column is unset. The window was not normal before, so it keeps its mark. -/
theorem Stands.setScrollingPending {wishes wishes' : Wishes} {restore : Bool}
    {set : ScrollingSpace → Option ScrollingSpace} (h : ws.scrolling.Remembers w wishes restore windowed)
    (hws : ws.Ok) (hset : ∀ s, set ws.scrolling = some s → s.Inv ∧ ∃ b, s.Remembers w wishes' restore b)
    (hnormal : wishes.mode = .normal → wishes'.mode = .normal)
    (hws' : ws.setScrollingPending w false set = some ws') :
    ∃ b, ws'.Stands w (.scrolling wishes' restore) b := by
  obtain ⟨t, ht, hws'⟩ := of_bind hws'
  obtain ⟨s, hs, hws'⟩ := of_bind hws'
  obtain ⟨t', ht', rfl⟩ := of_bind_some hws'
  obtain ⟨hinv, b, hb⟩ := hset s hs
  obtain ⟨hmode, -, -⟩ := h.findTile hws.scrolling ht
  obtain ⟨hmode', -, -⟩ := hb.findTile hinv ht'
  have hkeeps : (t.window.pendingSizingMode == .normal && t'.window.pendingSizingMode != .normal) = false := by
    rw [hmode, hmode']
    by_cases hn : wishes.mode = .normal
    · rw [hnormal hn]
      simp
    · rw [beq_false_of_ne hn, Bool.false_and]
  rw [hkeeps, if_neg Bool.false_ne_true]
  exact ⟨b, .scrolling hb⟩

/-- What a request to unset a mode does to the window. -/
theorem Stands.unset {wishes wishes' : Wishes} {restore back : Bool}
    {set : ScrollingSpace → Bool → Option ScrollingSpace} {toFloating : Option Bool}
    (h : ws.scrolling.Remembers w wishes restore windowed) (hws : ws.Ok)
    (hto : ∀ b, toFloating = some b → b = back)
    (hset : ∀ s, set ws.scrolling false = some s → s.Inv ∧ ∃ b, s.Remembers w wishes' restore b)
    (hnormal : wishes.mode = .normal → wishes'.mode = .normal)
    (hws' : SetsPending ws w renderPos set toFloating false ws') :
    ∃ b, ws'.Stands w (if back then .floating .normal else .scrolling wishes' restore) b := by
  have htiled := not_floating_of_remembers hws h
  cases hws' with
  | floating hw =>
    rw [htiled] at hw
    cases hw
  | toFloating hw hback htoggle =>
    obtain rfl := hto true hback
    have htoggle : (if ws.floating.hasWindow w then
        ws.floatingToScrolling w (some w == ws.activeWindow.map (·.id))
      else ws.scrollingToFloating w (some w == ws.activeWindow.map (·.id)) renderPos) = some ws' := htoggle
    rw [htiled, if_neg Bool.false_ne_true] at htoggle
    exact ⟨windowed, stands_scrollingToFloating hws h htoggle⟩
  | tiled hw hback hpending =>
    obtain rfl := hto false (hback rfl)
    exact Stands.setScrollingPending h hws hset hnormal hpending

theorem Stands.unsetFullscreen (h : ws.Stands w s windowed) (hws : ws.Ok)
    (hws' : ws.setFullscreen w false renderPos = some ws') : ∃ b, ws'.Stands w s.unsetFullscreen b := by
  cases h with
  | floating t ht hid =>
    have hfloating : ws.floating.hasWindow w = true := List.any_eq_true.mpr ⟨t, ht, beq_iff_eq.mpr hid⟩
    unfold Workspace.setFullscreen at hws'
    rw [hfloating, if_pos rfl, if_neg Bool.false_ne_true] at hws'
    obtain rfl := some.inj hws'
    exact ⟨_, .floating t ht hid⟩
  | scrolling h =>
    rename_i wishes restore
    refine Stands.unset h hws ?_ (fun u hu => ⟨?_, h.unsetFullscreen hws.scrolling hu⟩) ?_
      (setFullscreen_cases hws')
    · intro b hb
      obtain ⟨c, hc, hb⟩ := of_bind hb
      obtain ⟨t, ht, hb⟩ := of_bind hb
      obtain ⟨c', hc', hwf, hremembers⟩ := h.find? hws.scrolling
      obtain rfl := some.inj (hc.symm.trans hc')
      have hid : t.id = w := beq_iff_eq.mp (by simpa using find?_some ht)
      obtain ⟨-, hrestore, -⟩ := hremembers.of_mem hwf (mem_of_find?_eq_some ht) hid
      rw [← some.inj hb, ← hremembers.wishes, hrestore]
      rfl
    · exact (kept_op hws (.setFullscreen w false) rfl hu).ok.scrolling
    · intro hnormal
      obtain ⟨fullscreen, maximized⟩ := wishes
      cases fullscreen
      · exact hnormal
      · cases hnormal

theorem Stands.unsetMaximized (h : ws.Stands w s windowed) (hws : ws.Ok)
    (hws' : ws.setMaximized w false renderPos = some ws') : ∃ b, ws'.Stands w s.unsetMaximized b := by
  cases h with
  | floating t ht hid =>
    have hfloating : ws.floating.hasWindow w = true := List.any_eq_true.mpr ⟨t, ht, beq_iff_eq.mpr hid⟩
    unfold Workspace.setMaximized at hws'
    rw [hfloating, if_pos rfl, if_neg Bool.false_ne_true] at hws'
    obtain rfl := some.inj hws'
    exact ⟨_, .floating t ht hid⟩
  | scrolling h =>
    rename_i wishes restore
    refine Stands.unset h hws ?_ (fun u hu => ⟨?_, h.unsetMaximized hws.scrolling hu⟩) ?_
      (setMaximized_cases hws')
    · intro b hb
      obtain ⟨t, ht, hb⟩ := of_bind hb
      obtain ⟨hmode, hrestore, -⟩ := h.findTile hws.scrolling ht
      rw [← some.inj hb, hmode, hrestore]
    · exact (kept_op hws (.setMaximized w false) rfl hu).ok.scrolling
    · intro hnormal
      obtain ⟨fullscreen, maximized⟩ := wishes
      cases fullscreen
      · rfl
      · cases hnormal

/-- A change of a window that its pending mode does not depend on. -/
theorem Stands.modifyWindow (h : ws.Stands w s windowed) (window : ℕ) {f : Window → Window}
    (hid : ∀ x, (f x).id = x.id) (hmode : ∀ x, (f x).pendingSizingMode = x.pendingSizingMode) :
    ∃ b, (ws.modifyWindow window f).Stands w s b := by
  cases h with
  | floating t ht htid =>
    have hthere : (if t.id = window then { t with window := f t.window } else t) ∈
        (ws.modifyWindow window f).floating.tiles := List.mem_map_of_mem ht
    split at hthere
    · have hstands := Stands.floating (w := w) _ hthere ((hid t.window).trans htid)
      rw [show ({ t with window := f t.window } : Tile).window.pendingSizingMode =
        t.window.pendingSizingMode from hmode t.window] at hstands
      exact ⟨_, hstands⟩
    · exact ⟨_, .floating t hthere htid⟩
  | scrolling h =>
    obtain ⟨b, hb⟩ := h.modifyTile window (f := fun t => { t with window := f t.window })
      (fun t => hid t.window) fun _ => rfl
    exact ⟨b, .scrolling hb⟩

/-- The tile of a window that is moved. -/
theorem Stands.removeTile (h : ws.Stands w s windowed) (hws : ws.Ok) {r : RemovedTile}
    (hr : ws.removeTile w = some (r, ws')) : r.isFloating = s.isFloating ∧
      r.tile.window.pendingSizingMode = s.mode ∧ r.tile.window.isPendingWindowedFullscreen = windowed := by
  cases h with
  | floating t ht hid =>
    have hfloating : ws.floating.hasWindow w = true := List.any_eq_true.mpr ⟨t, ht, beq_iff_eq.mpr hid⟩
    unfold Workspace.removeTile at hr
    rw [hfloating, if_pos rfl] at hr
    obtain ⟨⟨r', f⟩, hf, hr⟩ := of_bind hr
    obtain ⟨rfl, -⟩ := pair_inj hr
    obtain ⟨i, hi, hf⟩ := of_bind hf
    obtain ⟨u, hu, hf⟩ := of_bind hf
    obtain ⟨data, -, hf⟩ := of_bind hf
    obtain ⟨rfl, -⟩ := pair_inj hf
    obtain ⟨v, hv, hvid⟩ := FloatingSpace.idxOf_spec hi
    obtain rfl := some.inj (hu.symm.trans hv)
    obtain rfl : t = u := inj_on_of_nodup_map (nodup_append'.mp hws.ids).2.1 ht
      (mem_of_getElem? hu) (hid.trans hvid.symm)
    exact ⟨rfl, rfl, rfl⟩
  | scrolling h =>
    unfold Workspace.removeTile at hr
    rw [not_floating_of_remembers hws h, if_neg Bool.false_ne_true] at hr
    obtain ⟨⟨r', u⟩, hu, hr⟩ := of_bind hr
    obtain ⟨rfl, -⟩ := pair_inj hr
    exact h.removeTile hws.scrolling hu

theorem stands_addFloating {activate : Bool} (h : ws.addFloating tile activate = some ws') :
    ws'.Stands tile.id (.floating .normal) tile.window.isPendingWindowedFullscreen := by
  obtain ⟨wt, hwt, rfl⟩ := of_map h
  obtain ⟨f, hf, rfl⟩ := of_map hwt
  exact stands_addTileAt hf (floating_focusAddedFloating { ws with floating := f } activate)

theorem stands_addScrolling {colIdx : Option ℕ} {activate isFullWidth : Bool} {width : ColumnWidth}
    (h : ws.addScrolling colIdx tile activate width isFullWidth = some ws') :
    ws'.Stands tile.id (.scrolling (.ofMode tile.window.pendingSizingMode) tile.restoreToFloating)
      (tile.window.pendingSizingMode != .fullscreen && tile.window.isPendingWindowedFullscreen) := by
  obtain ⟨wt, hwt, rfl⟩ := of_map h
  obtain ⟨s, hs, rfl⟩ := of_map hwt
  have hremembers := ScrollingSpace.remembers_addTile hs
  refine .scrolling ?_
  rwa [scrolling_focusAddedScrolling]

/-- The tile of a window that was moved is added like a new one. -/
theorem stands_addTile {activate : ActivateWindow} {width : ColumnWidth} {isFullWidth : Bool}
    (hmode : tile.window.pendingSizingMode = s.mode)
    (h : ws.addTile tile .auto activate width isFullWidth s.isFloating renderPos = some ws') :
    ws'.Stands tile.id s.moved (s.mode != .fullscreen && tile.window.isPendingWindowedFullscreen) := by
  unfold Workspace.addTile at h
  dsimp only at h
  cases s with
  | floating mode =>
    obtain rfl : tile.window.pendingSizingMode = mode := hmode
    split at h
    · rename_i hnormal
      have hstands := stands_addFloating h
      rw [hnormal.2]
      exact hstands
    · rename_i hnormal
      rw [Standing.moved_floating fun hmode => hnormal ⟨rfl, hmode⟩]
      exact stands_addScrolling h
  | scrolling wishes restore =>
    rw [if_neg fun hfloating => Bool.false_ne_true hfloating.1] at h
    have hstands := stands_addScrolling h
    rw [Standing.moved_scrolling, ← hmode]
    have hmode : tile.window.pendingSizingMode = wishes.mode := hmode
    rw [← hmode]
    exact hstands

end Workspace

end Macniri.Layout
