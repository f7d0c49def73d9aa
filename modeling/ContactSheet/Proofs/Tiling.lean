import ContactSheet.Proofs.Layout
import Mathlib.Data.Set.Function
import Mathlib.Data.Set.Prod
import Mathlib.Order.Interval.Set.Defs

/-!
# How positions fill a grid

The positions of a grid go through its cells row by row and leave none out, so each row is full but perhaps the last, and none is empty
(`Grid.lt_rows_iff`). A point of a sheet tells the cell that it lies in (`Grid.cell_of_mem_area`): whatever the size of a cell, two
positions have no point in common. `Grid.cells_tile` puts this together.
-/

namespace ContactSheet

variable (g : Grid)

/-! ## Positions -/

/-- The position of a cell. -/
theorem Grid.cell_position {column : Nat} (h : column < g.columns) (row : Nat) :
    g.cell (row * g.columns + column) = (column, row) := by
  have hc : 0 < g.columns := Nat.zero_lt_of_lt h
  simp only [Grid.cell, Prod.mk.injEq]
  constructor
  · rw [Nat.mul_add_mod_self_right, Nat.mod_eq_of_lt h]
  · rw [Nat.mul_comm, Nat.mul_add_div hc, Nat.div_eq_of_lt h, Nat.add_zero]

/-- What lies in an earlier row comes earlier. -/
theorem Grid.lt_of_row_lt {m n : Nat} (h : (g.cell m).2 < (g.cell n).2) : m < n :=
  lt_of_not_ge fun hle => Nat.not_lt.2 (Nat.div_le_div_right hle) h

/-- Positions go row by row, and in each row from the left. -/
theorem Grid.lt_iff (m n : Nat) :
    m < n ↔ (g.cell m).2 < (g.cell n).2 ∨ (g.cell m).2 = (g.cell n).2 ∧ (g.cell m).1 < (g.cell n).1 := by
  rcases Nat.lt_trichotomy (g.cell m).2 (g.cell n).2 with h | h | h
  · exact iff_of_true (g.lt_of_row_lt h) (Or.inl h)
  · have hm := g.position_eq m
    have hn := g.position_eq n
    rw [h] at hm
    omega
  · have hlt : n < m := g.lt_of_row_lt h
    omega

/-! ## Rows -/

/-- The items leave no row empty, and no more rows than that hold them. -/
theorem Grid.rows_bounds (hc : 1 ≤ g.columns) :
    (0 < g.size → (g.rows - 1) * g.columns < g.size ∧ g.size ≤ g.rows * g.columns) ∧ (g.size = 0 → g.rows = 0) := by
  have hfirst := g.lt_rows_iff hc 0
  have hlast := g.lt_rows_iff hc (g.rows - 1)
  have hend := g.lt_rows_iff hc g.rows
  omega

/-- A cell holds an item just when its row is one of those that the items fill, and its position one of theirs. -/
theorem Grid.exists_position_iff (hc : 1 ≤ g.columns) (column row : Nat) :
    (∃ n < g.size, g.cell n = (column, row)) ↔
      column < g.columns ∧ row < g.rows ∧ row * g.columns + column < g.size := by
  rw [g.lt_rows_iff hc]
  constructor
  · rintro ⟨n, hn, hcell⟩
    have hposition := g.position_eq n
    have hcolumn := g.column_lt hc n
    rw [hcell] at hposition hcolumn
    simp only at hposition hcolumn
    omega
  · rintro ⟨hcolumn, -, hposition⟩
    exact ⟨_, hposition, g.cell_position hcolumn row⟩

/-- The positions of the items are the first cells of the grid. -/
theorem Grid.bijOn_cell (hc : 1 ≤ g.columns) :
    Set.BijOn g.cell (Set.Iio g.size)
      {cell | cell.1 < g.columns ∧ cell.2 < g.rows ∧ cell.2 * g.columns + cell.1 < g.size} := by
  refine ⟨?_, ?_, ?_⟩
  · intro n hn
    exact (g.exists_position_iff hc _ _).1 ⟨n, hn, rfl⟩
  · intro m _ n _ hcell
    exact g.cell_injective hcell
  · rintro ⟨column, row⟩ hcell
    exact (g.exists_position_iff hc column row).2 hcell

/-! ## Areas -/

/-- The points of a sheet that a position takes up when all cells have one size. -/
def Grid.area (cell : Size) (n : Nat) : Set (Nat × Nat) :=
  Set.Ico ((g.cell n).1 * cell.width) ((g.cell n).1 * cell.width + cell.width) ×ˢ
    Set.Ico ((g.cell n).2 * cell.height) ((g.cell n).2 * cell.height + cell.height)

variable {g}

/-- A point tells the cell that it lies in. -/
theorem Grid.cell_of_mem_area {cell : Size} {n : Nat} {point : Nat × Nat} (h : point ∈ g.area cell n) :
    g.cell n = (point.1 / cell.width, point.2 / cell.height) := by
  obtain ⟨⟨hleft, hright⟩, htop, hbottom⟩ := h
  rw [← Nat.succ_mul] at hright hbottom
  exact Prod.ext (Nat.div_eq_of_lt_le hleft hright).symm (Nat.div_eq_of_lt_le htop hbottom).symm

/-- Two positions have no point in common. -/
theorem Grid.area_inter_area (cell : Size) {m n : Nat} (h : m ≠ n) : g.area cell m ∩ g.area cell n = ∅ := by
  apply Set.eq_empty_of_forall_notMem
  rintro point ⟨hm, hn⟩
  exact h (g.cell_injective ((Grid.cell_of_mem_area hm).trans (Grid.cell_of_mem_area hn).symm))

/-- The items take up points of the sheet. -/
theorem Grid.area_subset (hc : 1 ≤ g.columns) (cell : Size) {n : Nat} (hn : n < g.size) :
    g.area cell n ⊆ Set.Iio (g.columns * cell.width) ×ˢ Set.Iio (g.rows * cell.height) := by
  obtain ⟨hwidth, hheight⟩ := g.cell_le hc (hn.trans_le (g.size_le hc)) cell
  rintro point ⟨⟨-, hright⟩, -, hbottom⟩
  exact ⟨hright.trans_le hwidth, hbottom.trans_le hheight⟩

/-- The items of a grid with a column fill its cells from the first on, one each, row by row and each row from the left. No row is
empty, and each row is full but perhaps the last; without items there are no rows. So, whatever the size of a cell, what two items take
up of the sheet has no point in common, and lies within the columns and rows of the grid. -/
theorem Grid.cells_tile (hc : 1 ≤ g.columns) :
    Set.BijOn g.cell (Set.Iio g.size)
      {cell | cell.1 < g.columns ∧ cell.2 < g.rows ∧ cell.2 * g.columns + cell.1 < g.size} ∧
    (∀ n < g.size, (g.cell n).1 < g.columns ∧ (g.cell n).2 < g.rows ∧ n = (g.cell n).2 * g.columns + (g.cell n).1) ∧
    (∀ m n, m < n ↔ (g.cell m).2 < (g.cell n).2 ∨ (g.cell m).2 = (g.cell n).2 ∧ (g.cell m).1 < (g.cell n).1) ∧
    (0 < g.size → g.columns * (g.rows - 1) < g.size ∧ g.size ≤ g.columns * g.rows) ∧ (g.size = 0 → g.rows = 0) ∧
    (∀ row < g.rows, ∃ n < g.size, (g.cell n).2 = row) ∧
    (∀ row < g.rows, row ≠ g.rows - 1 → ∀ column < g.columns, ∃ n < g.size, g.cell n = (column, row)) ∧
    ∀ cell : Size,
      (∀ m < g.size, ∀ n < g.size, m ≠ n → g.area cell m ∩ g.area cell n = ∅) ∧
      ∀ n < g.size, g.area cell n ⊆ Set.Iio (g.columns * cell.width) ×ˢ Set.Iio (g.rows * cell.height) := by
  obtain ⟨hsome, hnone⟩ := g.rows_bounds hc
  refine ⟨g.bijOn_cell hc, ?_, g.lt_iff, ?_, hnone, ?_, ?_, ?_⟩
  · intro n hn
    obtain ⟨hcolumn, hrow, -⟩ := (g.exists_position_iff hc _ _).1 ⟨n, hn, rfl⟩
    exact ⟨hcolumn, hrow, g.position_eq n⟩
  · simpa only [Nat.mul_comm g.columns] using hsome
  · intro row hrow
    obtain ⟨n, hn, hcell⟩ := (g.exists_position_iff hc 0 row).2 ⟨hc, hrow, (g.lt_rows_iff hc row).1 hrow⟩
    exact ⟨n, hn, congrArg Prod.snd hcell⟩
  · intro row hrow hlast column hcolumn
    -- The row below begins after the cell and before the items end.
    have hnext := (g.lt_rows_iff hc (row + 1)).1 (by omega)
    rw [Nat.succ_mul] at hnext
    exact (g.exists_position_iff hc column row).2 ⟨hcolumn, hrow, by omega⟩
  · intro cell
    exact ⟨fun m _ n _ hne => Grid.area_inter_area cell hne, fun n hn => Grid.area_subset hc cell hn⟩

namespace Sample

/-- Seven items in three columns, the last of them alone in its row. -/
def seven : Grid := ⟨[0, 2, 4, 6, 8, 10, 12], 3⟩

theorem seven_tile : 1 ≤ seven.columns ∧ seven.cell 6 = (0, 2) ∧ seven.columns * (seven.rows - 1) < seven.size ∧
    seven.area ⟨40, 30⟩ 3 ∩ seven.area ⟨40, 30⟩ 6 = ∅ ∧
    seven.area ⟨40, 30⟩ 6 ⊆ Set.Iio (3 * 40) ×ˢ Set.Iio (3 * 30) := by
  have hc : 1 ≤ seven.columns := by decide
  obtain ⟨-, -, -, hsome, -, -, -, harea⟩ := Grid.cells_tile hc
  obtain ⟨hapart, hsubset⟩ := harea ⟨40, 30⟩
  exact ⟨hc, by decide, (hsome (by decide)).1, hapart 3 (by decide) 6 (by decide) (by decide), hsubset 6 (by decide)⟩

end Sample

end ContactSheet
