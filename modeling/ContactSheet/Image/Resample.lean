import ContactSheet.Image

/-!
# Resampling images

`Image.resize` samples an image at evenly spread points, aligned at the centres, and blends the four source pixels around each
point, first along the rows and then between them. Positions, weights and blends are rounded to 24 significant bits after every
operation. Each of them is a whole multiple of a unit: a position of `2 ^ -57`, a weight of `2 ^ -24`, a blend of two bytes of
`2 ^ -24`, a blend of two such blends of `2 ^ -48`.
-/

namespace ContactSheet

/-- Rounded to 24 significant bits, ties to even. -/
def round24 (x : Nat) : Nat := if x < 0x1000000 then x else significant 24 x 1

namespace Resample

/-- One, as a weight. -/
def unit : Nat := 0x1000000

/-- The two neighbours of a sampling point along one axis, and the weight of the farther one. -/
structure Tap where
  near : Nat
  far : Nat
  weight : Nat
  deriving DecidableEq, Repr, Inhabited

/-- Half a pixel, as a position. -/
def halfPixel : Nat := 1 <<< 56

/-- Where sample `i` of `samples` lies along an axis of `pixels` pixels, in units of `2 ^ -57` pixels: the centre of its share of
the axis, less half a pixel, but not before the first pixel's centre. -/
def position (pixels samples i : Nat) : Nat :=
  let scale := significant 24 (round24 pixels <<< 56) (round24 samples)
  let halves := round24 (2 * round24 i + 1)
  round24 (round24 (halves * scale) - halfPixel)

/-- The neighbours of sample `i`; the last pixel is its own far neighbour. -/
def tap (pixels samples i : Nat) : Tap :=
  let p := position pixels samples i
  let near := min (p / (2 * halfPixel)) (pixels - 1)
  ⟨near, min (near + 1) (pixels - 1), p % (2 * halfPixel) / (1 <<< 33)⟩

/-- The sampling points of an axis. -/
def taps (pixels samples : Nat) : Vector Tap samples := Vector.ofFn fun i => tap pixels samples i.val

/-- The blend of two values by the weight of the second, in units finer than theirs by `2 ^ 24`. -/
def blend (a b weight : Nat) : Nat :=
  if a ≤ b then round24 (a * unit + round24 (round24 (b - a) * weight))
  else round24 (a * unit - round24 (round24 (a - b) * weight))

/-- The byte nearest to a blend of two blends of bytes. -/
def toByte (v : Nat) : UInt8 := UInt8.ofNat (min (nearestUp v (unit * unit)) 255)

end Resample

/-- The byte of one channel of a pixel, zero beyond the bytes. -/
def Image.byte (i : Image) (x y channel : Nat) : UInt8 := i.bytes.getD (i.offset x y + channel) 0

/-- The byte of one channel at the crossing of two sampling points. -/
def Image.sample (i : Image) (column row : Resample.Tap) (channel : Nat) : UInt8 :=
  let at_ (x y : Nat) : Nat := (i.byte x y channel).toNat
  let top := Resample.blend (at_ column.near row.near) (at_ column.far row.near) column.weight
  let bottom := Resample.blend (at_ column.near row.far) (at_ column.far row.far) column.weight
  Resample.toByte (Resample.blend top bottom row.weight)

/-- The image has a pixel, and all the bytes that its sides ask for. -/
def Image.isSampleable (i : Image) : Bool := 0 < i.width && 0 < i.height && i.size.byteCount ≤ i.bytes.size

/-- The image at another size. An image of that size is returned as it is, one that cannot be sampled gives a blank one. -/
def Image.resize (i : Image) (s : Size) : Image :=
  if i.size = s then i
  else if i.isSampleable then
    let columns := Resample.taps i.width s.width
    let rows := Resample.taps i.height s.height
    .generate s fun x y channel => i.sample columns[x] rows[y] channel
  else .blank s

end ContactSheet
