import ContactSheet.Settings
import ContactSheet.Stages

/-!
# Grids: which items of a batch are shown, and where

A `Grid` lists the items shown, by their place in the batch, and how many columns they are laid out in, row by row. A `Sampler`
picks the items: the front of the batch, or a selection spread evenly over all of it. A grid without columns has no rows and no
cells to speak of, which the operations with a question mark say.
-/

namespace ContactSheet

/-- The items shown, in the order of their cells, and the number of columns. -/
structure Grid where
  picks : List Nat
  columns : Nat
  deriving DecidableEq, Repr

/-- How many items are shown. -/
def Grid.size (g : Grid) : Nat := g.picks.length

/-- No item is shown. -/
def Grid.isEmpty (g : Grid) : Bool := g.picks.isEmpty

/-- How many rows the items fill, the last perhaps in part. -/
def Grid.rows (g : Grid) : Nat := (g.size + g.columns - 1) / g.columns

/-- The column and the row of a position. -/
def Grid.cell (g : Grid) (position : Nat) : Nat × Nat := (position % g.columns, position / g.columns)

/-- How many rows the items fill, none without a column. -/
def Grid.rows? (g : Grid) : Option Nat := if g.columns = 0 then none else some g.rows

/-- The column and the row of a position, none without a column. -/
def Grid.cell? (g : Grid) (position : Nat) : Option (Nat × Nat) := if g.columns = 0 then none else some (g.cell position)

/-- A count as a divisor: at least one, and counted in 32 bits. -/
def divisor (count : Nat) : Nat := narrow (max count 1)

/-- The bound of one cell when the limits are divided among columns and rows; at least one pixel each way. -/
def Grid.cellBound (g : Grid) (limit : Size) : Size :=
  ⟨max (limit.width / divisor g.columns) 1, max (limit.height / divisor g.rows) 1⟩

/-- The bound of the whole sheet. -/
def Settings.limit (s : Settings) : Size := ⟨s.maxWidth, s.maxHeight⟩

/-- The size of one cell: that of a fully decoded latent, fitted into its share of the limits. -/
def Grid.cellSize (g : Grid) (settings : Settings) (stages : Stages) (latent : Size) : Size :=
  (stages.nativeSize latent 0).fitWithin (g.cellBound settings.limit)

/-- The size of one cell, none where the limits cannot be divided. -/
def Grid.cellSize? (g : Grid) (settings : Settings) (stages : Stages) (latent : Size) : Option Size :=
  if g.columns = 0 ∨ divisor g.columns = 0 ∨ divisor g.rows = 0 then none else some (g.cellSize settings stages latent)

/-- How the items of a batch are picked. -/
structure Sampler where
  maxBatch : Nat
  maxColumns : Nat
  spread : Bool
  maxBatch_pos : 1 ≤ maxBatch
  maxColumns_pos : 1 ≤ maxColumns

/-- A sampler that shows at least one item in at least one column. -/
def Sampler.ofLimits (maxBatch maxColumns : Nat) (spread : Bool) : Sampler where
  maxBatch := max maxBatch 1
  maxColumns := max maxColumns 1
  spread := spread
  maxBatch_pos := one_le_max_one maxBatch
  maxColumns_pos := one_le_max_one maxColumns

/-- The sampler that settings ask for. -/
def Settings.sampler (s : Settings) : Sampler := Sampler.ofLimits s.maxBatch s.maxColumns s.spread

/-- The grid of a batch of `n` items. A spread selection goes from the first item to the last in steps as even as can be. -/
def Sampler.plan (s : Sampler) (n : Nat) : Grid :=
  let shown := min n s.maxBatch
  let picks :=
    if s.spread ∧ 1 < shown ∧ shown < n then (List.range shown).map fun i => nearestUp (i * (n - 1)) (shown - 1)
    else List.range shown
  ⟨picks, max (min s.maxColumns shown) 1⟩

end ContactSheet
