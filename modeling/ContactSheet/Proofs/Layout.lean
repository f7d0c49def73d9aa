import ContactSheet.Cycle
import ContactSheet.Proofs.Fitting
import Mathlib.Algebra.Order.Group.Nat

/-!
# The layout of a sheet

A sampler picks places of the batch, each at most once per cell, and lays them out row by row. Two positions never share a cell,
and the cells of a grid are small enough that 32 bits count every corner and both sides of the sheet (`Sheet.Fits`): for a batch
of fewer than `2 ^ 32` items the counts of `Sheet.size` and `Sheet.corner` lose nothing.
-/

namespace ContactSheet

/-- A count below `2 ^ 32` is held as it is. -/
theorem narrow_of_lt {n : Nat} (h : n < 0x100000000) : narrow n = n := Nat.mod_eq_of_lt h

/-! ## Picks -/

/-- As many items are shown as there are, up to the limit. -/
theorem Sampler.size_plan (s : Sampler) (n : Nat) : (s.plan n).size = min n s.maxBatch := by
  simp only [Sampler.plan, Grid.size]
  split <;> simp

/-- A grid is laid out in the columns that the sampler allows, no more than there are items, and at least one. -/
theorem Sampler.columns_plan (s : Sampler) (n : Nat) :
    (s.plan n).columns = max (min s.maxColumns (min n s.maxBatch)) 1 := rfl

/-- A grid has a column. -/
theorem Sampler.one_le_columns (s : Sampler) (n : Nat) : 1 ≤ (s.plan n).columns := Nat.le_max_right _ 1

/-- Every pick is a place of the batch. -/
theorem Sampler.pick_lt (s : Sampler) {n i : Nat} (h : i ∈ (s.plan n).picks) : i < n := by
  simp only [Sampler.plan] at h
  split at h
  · rename_i hs
    obtain ⟨j, hj, rfl⟩ := List.mem_map.1 h
    rw [List.mem_range] at hj
    have hgaps : j ≤ min n s.maxBatch - 1 := by omega
    have hpick : nearestUp (j * (n - 1)) (min n s.maxBatch - 1) ≤ n - 1 := by
      refine nearestUp_le (by omega) ?_
      rw [Nat.mul_comm]
      exact Nat.mul_le_mul_left (n - 1) hgaps
    omega
  · rw [List.mem_range] at h
    omega

/-- The latents that the picks of a batch stand for. -/
def Batch.pickAll (b : Batch) (picks : List Nat) : List Latent := picks.filterMap b.get?

/-- Picks of places of the batch stand for one latent each. -/
theorem Batch.map_get?_pickAll (b : Batch) (picks : List Nat) (h : ∀ i ∈ picks, i < b.size) :
    picks.map b.get? = (b.pickAll picks).map some := by
  induction picks with
  | nil => rfl
  | cons i picks ih =>
    have hlt : i < b.items.size := h i List.mem_cons_self
    have hi : b.get? i = some b.items[i] := Array.getElem?_eq_getElem hlt
    have hp := ih fun j hj => h j (List.mem_cons_of_mem i hj)
    simp only [Batch.pickAll, List.map_cons, List.filterMap_cons, hi] at hp ⊢
    rw [hp]

/-- A batch has a first latent when it has any. -/
theorem Batch.dims?_eq_none_iff (b : Batch) : b.dims? = none ↔ b.size = 0 := by
  simp [Batch.dims?, Batch.get?, Batch.size]

/-- A batch whose latents have a size is not empty. -/
theorem Batch.size_ne_zero {b : Batch} {dims : Size} (h : b.dims? = some dims) : b.size ≠ 0 := by
  intro h0
  rw [b.dims?_eq_none_iff.2 h0] at h
  cases h

/-! ## Cells -/

/-- A row begins before the last item just when it is one of the rows that the items fill. -/
theorem Grid.lt_rows_iff (g : Grid) (hc : 1 ≤ g.columns) (row : Nat) : row < g.rows ↔ row * g.columns < g.size := by
  unfold Grid.rows
  rw [Nat.lt_iff_add_one_le, Nat.le_div_iff_mul_le hc, Nat.succ_mul]
  omega

/-- The items fill no more rows than there are items. -/
theorem Grid.rows_le_size (g : Grid) (hc : 1 ≤ g.columns) : g.rows ≤ g.size := by
  by_contra h
  have hrow : g.size * g.columns < g.size := (g.lt_rows_iff hc g.size).1 (Nat.not_le.1 h)
  exact Nat.not_lt.2 (Nat.le_mul_of_pos_right g.size hc) hrow

/-- The rows hold all items. -/
theorem Grid.size_le (g : Grid) (hc : 1 ≤ g.columns) : g.size ≤ g.columns * g.rows := by
  rw [Nat.mul_comm]
  exact Nat.not_lt.1 fun h => Nat.lt_irrefl g.rows ((g.lt_rows_iff hc g.rows).2 h)

/-- A grid of a batch with items has a row. -/
theorem Sampler.one_le_rows (s : Sampler) {n : Nat} (hn : 1 ≤ n) : 1 ≤ (s.plan n).rows := by
  have hsize := s.size_plan n
  have hbatch := s.maxBatch_pos
  refine ((s.plan n).lt_rows_iff (s.one_le_columns n) 0).2 ?_
  omega

/-- A position lies in a column of the grid. -/
theorem Grid.column_lt (g : Grid) (hc : 1 ≤ g.columns) (n : Nat) : (g.cell n).1 < g.columns := Nat.mod_lt n hc

/-- A position that the rows hold lies in one of them. -/
theorem Grid.row_lt (g : Grid) {n : Nat} (h : n < g.columns * g.rows) : (g.cell n).2 < g.rows := Nat.div_lt_of_lt_mul h

/-- A cell ends within the columns and rows of the grid. -/
theorem Grid.cell_le (g : Grid) (hc : 1 ≤ g.columns) {n : Nat} (hn : n < g.columns * g.rows) (cell : Size) :
    (g.cell n).1 * cell.width + cell.width ≤ g.columns * cell.width ∧
      (g.cell n).2 * cell.height + cell.height ≤ g.rows * cell.height := by
  have hwidth := Nat.mul_le_mul_right cell.width (show (g.cell n).1 + 1 ≤ g.columns from g.column_lt hc n)
  have hheight := Nat.mul_le_mul_right cell.height (show (g.cell n).2 + 1 ≤ g.rows from g.row_lt hn)
  rw [Nat.succ_mul] at hwidth hheight
  exact ⟨hwidth, hheight⟩

/-- A position counts the cells of the rows above it and those to its left. -/
theorem Grid.position_eq (g : Grid) (n : Nat) : n = (g.cell n).2 * g.columns + (g.cell n).1 := by
  simp only [Grid.cell]
  rw [Nat.mul_comm, Nat.div_add_mod]

/-- Two positions never share a cell. -/
theorem Grid.cell_injective (g : Grid) {n n' : Nat} (h : g.cell n = g.cell n') : n = n' := by
  rw [g.position_eq n, g.position_eq n', h]

/-- A fitted side is at least one pixel and within its bound. -/
theorem Fit.scaleSide_bounds (side scale bound : Nat) :
    1 ≤ Fit.scaleSide side scale bound ∧ Fit.scaleSide side scale bound ≤ max bound 1 := by
  unfold Fit.scaleSide
  omega

/-- A fitted size is at least one pixel each way and within the bound. -/
theorem Size.fitWithin_bounds (source bound : Size) :
    1 ≤ (source.fitWithin bound).width ∧ (source.fitWithin bound).width ≤ max bound.width 1 ∧
      1 ≤ (source.fitWithin bound).height ∧ (source.fitWithin bound).height ≤ max bound.height 1 :=
  have hw := Fit.scaleSide_bounds (max source.width 1)
  have hh := Fit.scaleSide_bounds (max source.height 1)
  ⟨(hw _ _).1, (hw _ _).2, (hh _ _).1, (hh _ _).2⟩

/-- A positive count below `2 ^ 32` is the divisor that it stands for. -/
theorem divisor_of_lt {count : Nat} (hc : 1 ≤ count) (hc' : count < 0x100000000) : divisor count = count := by
  unfold divisor
  rw [Nat.max_eq_left hc, narrow_of_lt hc']

/-- So many shares of a limit, each of at least one pixel, come to no more than the limit or one pixel each. -/
theorem mul_share_lt {count limit side : Nat} (hc : 1 ≤ count) (hc' : count < 0x100000000) (hl : limit < 0x100000000)
    (hs : side ≤ max (limit / divisor count) 1) : count * side < 0x100000000 := by
  rw [divisor_of_lt hc hc'] at hs
  rcases Nat.le_total (limit / count) 1 with h1 | h1
  · have : count * side ≤ count * 1 := Nat.mul_le_mul_left count (by omega)
    omega
  · have h2 : count * side ≤ count * (limit / count) := Nat.mul_le_mul_left count (by omega)
    have h3 := Nat.mul_div_le limit count
    omega

/-- The cells of a sheet are there, and 32 bits count all of their pixels along either axis. -/
structure Sheet.Fits (s : Sheet) : Prop where
  columns_pos : 1 ≤ s.grid.columns
  width_pos : 1 ≤ s.cell.width
  height_pos : 1 ≤ s.cell.height
  width_lt : s.grid.columns * s.cell.width < 0x100000000
  height_lt : s.grid.rows * s.cell.height < 0x100000000

/-- The sheet of a batch of fewer than `2 ^ 32` items fits. -/
theorem Previewer.sheet_fits (p : Previewer) {n : Nat} (hn : 1 ≤ n) (hn' : n < 0x100000000) (latent : Size) :
    (p.sheet (p.sampler.plan n) latent).Fits := by
  have hsize := p.sampler.size_plan n
  have hcols := p.sampler.columns_plan n
  have hc1 := p.sampler.one_le_columns n
  have hc2 : (p.sampler.plan n).columns < 0x100000000 := by omega
  have hr1 := p.sampler.one_le_rows hn
  have hr2 : (p.sampler.plan n).rows < 0x100000000 := by
    have := (p.sampler.plan n).rows_le_size hc1
    omega
  obtain ⟨hw1, hw2, hh1, hh2⟩ :=
    Size.fitWithin_bounds (p.stages.nativeSize latent 0) ((p.sampler.plan n).cellBound p.settings.limit)
  refine ⟨hc1, hw1, hh1, ?_, ?_⟩
  · refine mul_share_lt hc1 hc2 p.settings.maxWidth_lt (hw2.trans ?_)
    exact Nat.max_le.2 ⟨Nat.le_refl _, Nat.le_max_right _ _⟩
  · refine mul_share_lt hr1 hr2 p.settings.maxHeight_lt (hh2.trans ?_)
    exact Nat.max_le.2 ⟨Nat.le_refl _, Nat.le_max_right _ _⟩

/-- A count of cells, and a count of their pixels, of which 32 bits hold the second. -/
theorem narrow_mul_narrow {count side : Nat} (hs : 1 ≤ side) (h : count * side < 0x100000000) :
    narrow (narrow count * side) = count * side := by
  have hc : count ≤ count * side := Nat.le_mul_of_pos_right count hs
  rw [narrow_of_lt (n := count) (by omega), narrow_of_lt h]

/-- The sides of a sheet that fits are those of its cells, as often as there are columns and rows. -/
theorem Sheet.Fits.size_eq {s : Sheet} (h : s.Fits) :
    s.size = ⟨s.grid.columns * s.cell.width, s.grid.rows * s.cell.height⟩ := by
  simp only [Sheet.size, Nat.mul_comm _ (narrow _), narrow_mul_narrow h.width_pos h.width_lt,
    narrow_mul_narrow h.height_pos h.height_lt]

/-- 32 bits count the columns and the rows of a sheet that fits. -/
theorem Sheet.Fits.grid_lt {s : Sheet} (h : s.Fits) : s.grid.columns < 0x100000000 ∧ s.grid.rows < 0x100000000 :=
  ⟨(Nat.le_mul_of_pos_right _ h.width_pos).trans_lt h.width_lt, (Nat.le_mul_of_pos_right _ h.height_pos).trans_lt h.height_lt⟩

/-- A cell ends where the sheet does, or before. -/
theorem Sheet.Fits.cell_le {s : Sheet} (h : s.Fits) {n : Nat} (hn : n < s.grid.columns * s.grid.rows) :
    (s.grid.cell n).1 * s.cell.width + s.cell.width ≤ s.grid.columns * s.cell.width ∧
      (s.grid.cell n).2 * s.cell.height + s.cell.height ≤ s.grid.rows * s.cell.height :=
  s.grid.cell_le h.columns_pos hn s.cell

/-- The corner of a cell of a sheet that fits lies as many cells to the right and down as the cell has before it. -/
theorem Sheet.Fits.corner_eq {s : Sheet} (h : s.Fits) {n : Nat} (hn : n < s.grid.columns * s.grid.rows) :
    s.corner n = ((s.grid.cell n).1 * s.cell.width, (s.grid.cell n).2 * s.cell.height) := by
  obtain ⟨hc, hr⟩ := h.cell_le hn
  have hw := h.width_lt
  have hh := h.height_lt
  have hx : (s.grid.cell n).1 * s.cell.width < 0x100000000 := by omega
  have hy : (s.grid.cell n).2 * s.cell.height < 0x100000000 := by omega
  simp only [Sheet.corner, narrow_mul_narrow h.width_pos hx, narrow_mul_narrow h.height_pos hy]

end ContactSheet
