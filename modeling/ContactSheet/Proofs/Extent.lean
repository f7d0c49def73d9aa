import ContactSheet.Proofs.Composite

/-!
# How large a sheet is

The limits are shared out among the columns and the rows, and a share is raised to one pixel. So a sheet stays within a limit
exactly when it has no more columns or rows than the limit has pixels (`mul_share_le_iff`), and whatever the decoders give, it holds
the bytes that its sides ask for. `Ask.sheet_extent` says so for a step, with what 32 bits count on the way.
-/

namespace ContactSheet

variable {σ : Type}

/-- So many shares of a limit, each of at least one pixel, stay within it exactly when it has a pixel for each. -/
theorem mul_share_le_iff {count limit side : Nat} (hs : 1 ≤ side) (hle : side ≤ max 1 (limit / count)) :
    count * side ≤ limit ↔ count ≤ limit := by
  have hcount : count ≤ count * side := Nat.le_mul_of_pos_right count hs
  constructor
  · intro h
    exact hcount.trans h
  · intro h
    rcases Nat.eq_zero_or_pos count with rfl | hc
    · rw [Nat.zero_mul]
      exact Nat.zero_le limit
    · have hone : 1 ≤ limit / count := Nat.div_pos h hc
      have hside : side ≤ limit / count := by omega
      calc count * side ≤ count * (limit / count) := Nat.mul_le_mul_left count hside
        _ ≤ limit := Nat.mul_div_le limit count

/-- A cell takes no more than its share of the limits, or one pixel. -/
theorem Grid.cellSize_le (g : Grid) (hc : 1 ≤ g.columns) (hc' : g.columns < 0x100000000) (hr : 1 ≤ g.rows)
    (hr' : g.rows < 0x100000000) (settings : Settings) (stages : Stages) (latent : Size) :
    (g.cellSize settings stages latent).width ≤ max 1 (settings.maxWidth / g.columns) ∧
      (g.cellSize settings stages latent).height ≤ max 1 (settings.maxHeight / g.rows) := by
  have hbound : g.cellBound settings.limit = ⟨max (settings.maxWidth / g.columns) 1, max (settings.maxHeight / g.rows) 1⟩ := by
    simp only [Grid.cellBound, Settings.limit, divisor_of_lt hc hc', divisor_of_lt hr hr']
  rw [Grid.cellSize, hbound]
  obtain ⟨-, hw, -, hh⟩ := Size.fitWithin_bounds (stages.nativeSize latent 0)
    ⟨max (settings.maxWidth / g.columns) 1, max (settings.maxHeight / g.rows) 1⟩
  refine ⟨hw.trans ?_, hh.trans ?_⟩
  · show max (max (settings.maxWidth / g.columns) 1) 1 ≤ _
    omega
  · show max (max (settings.maxHeight / g.rows) 1) 1 ≤ _
    omega

/-- How large the sheet of a step is, whatever its decoders give. A cell has at least one pixel each way and, beyond that, no more
than its share of the limits. 32 bits count the columns and the rows, the sides of the sheet, and the corner of every cell, which
ends within the sheet. A sheet that the step makes has these sides and just the bytes that they ask for, and it stays within a limit
exactly when its columns or its rows are no more than the limit has pixels. -/
theorem Ask.sheet_extent (a : Ask σ) (hn : a.batch.size < 0x100000000) {dims : Size} (hdims : a.batch.dims? = some dims) :
    let settings := a.previewer.settings
    let grid := a.previewer.sampler.plan a.batch.size
    let cell := grid.cellSize settings a.previewer.stages dims
    (1 ≤ cell.width ∧ cell.width ≤ max 1 (settings.maxWidth / grid.columns)) ∧
    (1 ≤ cell.height ∧ cell.height ≤ max 1 (settings.maxHeight / grid.rows)) ∧
    (grid.columns < 0x100000000 ∧ grid.rows < 0x100000000) ∧
    (grid.columns * cell.width < 0x100000000 ∧ grid.rows * cell.height < 0x100000000) ∧
    (∀ n < grid.size,
      (a.previewer.sheet grid dims).corner n = ((grid.cell n).1 * cell.width, (grid.cell n).2 * cell.height) ∧
      (grid.cell n).1 * cell.width + cell.width ≤ grid.columns * cell.width ∧
      (grid.cell n).2 * cell.height + cell.height ≤ grid.rows * cell.height) ∧
    ∀ (s : Session) (m : σ) (image : Image), (a.report s m).result = .ok (.emitted image) →
      image.size = ⟨grid.columns * cell.width, grid.rows * cell.height⟩ ∧
      image.bytes.size = 4 * image.width * image.height ∧
      (image.width ≤ settings.maxWidth ↔ grid.columns ≤ settings.maxWidth) ∧
      (image.height ≤ settings.maxHeight ↔ grid.rows ≤ settings.maxHeight) := by
  intro settings grid cell
  have hsize : a.batch.size ≠ 0 := Batch.size_ne_zero hdims
  have hfits : (a.sheet dims).Fits := a.previewer.sheet_fits (Nat.pos_of_ne_zero hsize) hn dims
  have hrows : 1 ≤ grid.rows := a.previewer.sampler.one_le_rows (Nat.pos_of_ne_zero hsize)
  obtain ⟨hcolumns', hrows'⟩ := hfits.grid_lt
  obtain ⟨hw, hh⟩ := grid.cellSize_le hfits.columns_pos hcolumns' hrows hrows' settings a.previewer.stages dims
  refine ⟨⟨hfits.width_pos, hw⟩, ⟨hfits.height_pos, hh⟩, ⟨hcolumns', hrows'⟩, ⟨hfits.width_lt, hfits.height_lt⟩, ?_, ?_⟩
  · intro n hlt
    have hcell : n < grid.columns * grid.rows := hlt.trans_le (grid.size_le hfits.columns_pos)
    exact ⟨hfits.corner_eq hcell, hfits.cell_le hcell⟩
  · intro s m image h
    obtain ⟨dims', images, hr, -, rfl⟩ := a.emitted_eq s m h
    obtain rfl : dims = dims' := Option.some.inj (hdims.symm.trans hr.dims_eq)
    obtain ⟨hexact, hframe⟩ := (a.sheet dims).placeAll_frame images (Image.exact_blank (a.sheet dims).size) 0
    have himage := hframe.trans hfits.size_eq
    generalize (a.sheet dims).placeAll 0 (.blank (a.sheet dims).size) images = image at hexact himage
    obtain ⟨hwidth, hheight⟩ := Size.mk.inj himage
    refine ⟨himage, ?_, ?_, ?_⟩
    · rw [hexact, Size.byteCount, Nat.mul_comm, Nat.mul_assoc]
      rfl
    · rw [hwidth]
      exact mul_share_le_iff hfits.width_pos hw
    · rw [hheight]
      exact mul_share_le_iff hfits.height_pos hh

/-! Three latents of one pixel are shown in three columns though the sheet may be but two pixels wide, and the decoder gives images
that hold three bytes: each cell is one pixel, and the sheet is wider than its limit. -/

namespace Sample

/-- The primary decoder gives images that lack nearly all of their bytes. -/
def ragged : Decoders Unit := ⟨fun _ m => (⟨.ok ⟨5, 7, #[1, 2, 3]⟩, false⟩, m), fun _ _ m => (⟨.ok red, false⟩, m)⟩

/-- Three latents are asked for side by side. -/
def crowded : Ask Unit :=
  ⟨previewer { (default : Settings) with
      maxWidth := 2, maxColumns := 3, maxWidth_pos := Nat.zero_lt_two, maxWidth_lt := by decide, maxColumns_pos := by decide },
    ragged, batch 3, 0, true⟩

theorem crowded_extent : crowded.batch.size < 0x100000000 ∧ crowded.batch.dims? = some ⟨1, 1⟩ ∧
    ∃ image, (crowded.report (.withInterval 0) ()).result = .ok (.emitted image) ∧ image.size = ⟨3, 1⟩ ∧
      image.bytes.size = 4 * image.width * image.height ∧ ¬image.width ≤ 2 ∧ image.height ≤ 768 := by
  have hn : crowded.batch.size < 0x100000000 := by decide
  have hdims : crowded.batch.dims? = some ⟨1, 1⟩ := rfl
  obtain ⟨image, himage⟩ : ∃ image, (crowded.report (.withInterval 0) ()).result = .ok (.emitted image) := ⟨_, rfl⟩
  have hcell : (crowded.previewer.sampler.plan crowded.batch.size).cellSize crowded.previewer.settings
      crowded.previewer.stages ⟨1, 1⟩ = ⟨1, 1⟩ := by decide +kernel
  have hgrid : crowded.previewer.sampler.plan crowded.batch.size = ⟨[0, 1, 2], 3⟩ := by decide
  have h := crowded.sheet_extent hn hdims
  simp only [hcell] at h
  rw [hgrid] at h
  obtain ⟨-, -, -, -, -, hsheet⟩ := h
  obtain ⟨hsize, hbytes, hwidth, hheight⟩ := hsheet _ _ image himage
  exact ⟨hn, hdims, image, himage, hsize, hbytes, fun h => absurd (hwidth.1 h) (by decide), hheight.2 (by decide)⟩

end Sample

end ContactSheet
