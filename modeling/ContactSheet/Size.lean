import ContactSheet.Rounding

/-!
# Sizes and how they fit

`Size.fitWithin` scales a size down into a bound and keeps its shape. The scale is the smaller of the two ratios of bound to side,
and at most one; it and the scaled sides are rounded to 53 significant bits. All values are counted in units of `2 ^ -84`, which
no ratio of two 32-bit sides, once rounded, falls short of.
-/

namespace ContactSheet

/-- A width and a height, in pixels. -/
structure Size where
  width : Nat
  height : Nat
  deriving DecidableEq, Repr, Inhabited

/-- The largest side that 32 bits can count. -/
def maxSide : Nat := 0xffffffff

/-- A count as 32 bits hold it. -/
def narrow (n : Nat) : Nat := n % 0x100000000

/-- A count raised to one is at least one. -/
theorem one_le_max_one (n : Nat) : 1 ≤ max n 1 := Nat.le_max_right n 1

/-- Both sides are at least those of the other size. -/
def Size.reaches (s floor : Size) : Bool := floor.width ≤ s.width && floor.height ≤ s.height

namespace Fit

/-- One, in units of `2 ^ -84`. -/
def one : Nat := 1 <<< 84

/-- The ratio of a bound to a side. -/
def ratio (bound side : Nat) : Nat := significant 53 (bound * one) side

/-- A side scaled and rounded to whole pixels, half a pixel up; at least one pixel and at most the bound. -/
def scaleSide (side scale bound : Nat) : Nat :=
  min (max 1 (nearestUp (significant 53 (side * scale) 1) one)) (max bound 1)

end Fit

/-- The largest size of the same shape within a bound, never larger than the size itself; a side of zero counts as one pixel. -/
def Size.fitWithin (source bound : Size) : Size :=
  let width := max source.width 1
  let height := max source.height 1
  let scale := min (min (Fit.ratio bound.width width) (Fit.ratio bound.height height)) Fit.one
  ⟨Fit.scaleSide width scale bound.width, Fit.scaleSide height scale bound.height⟩

end ContactSheet
