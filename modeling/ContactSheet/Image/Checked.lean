import ContactSheet.Image.Resample

/-!
# Images on a machine

Making, setting, copying and resizing images by operations that may break down: byte counts and offsets are words of 64 bits, a run of
bytes is cut out only where it is all there, and an image is made only if there is room for it. Below the limits that these checks
set, the results are those of `Image.blank`, `Image.put`, `Image.blit` and `Image.resize`. An image is resized in any arithmetic
(`Resample.Arithmetic`): which bytes are read, and where their blend goes, does not depend on what the arithmetic computes.
-/

namespace ContactSheet

variable (o : Overflow)

/-! ## Room and place -/

/-- How many bytes a machine gives to an image of a size. -/
def Size.bytes? (s : Size) : Option Nat := do
  let pixels ← o.word? (s.width * s.height)
  let count ← o.word? (pixels * 4)
  if hasRoom count then some count else none

/-- An image of transparent black. -/
def Image.blank? (s : Size) : Option Image :=
  (s.bytes? o).map fun count => ⟨s.width, s.height, Array.replicate count 0⟩

/-- Where the first byte of a pixel lies. -/
def Image.offset? (i : Image) (x y : Nat) : Option Nat := do
  let above ← o.word? (y * i.width)
  let before ← o.word? (above + x)
  o.word? (before * 4)

/-- The image with the pixel at a point set; a point outside the image or beyond its bytes changes nothing. -/
def Image.put? (i : Image) (x y : Nat) (p : Pixel) : Option Image :=
  if x < i.width ∧ y < i.height then do
    let start ← i.offset? o x y
    let stop ← o.word? (start + 4)
    if start ≤ stop ∧ stop ≤ i.bytes.size then
      let bytes ← replace? i.bytes start stop #[p.red, p.green, p.blue, p.alpha]
      return { i with bytes := bytes }
    else return i
  else some i

/-! ## Copying -/

/-- Copying row `row` of `source`, cut to `columns` pixels. A row that either image does not hold in full is passed over. -/
def Image.copyRow? (source : Image) (x y columns row : Nat) (target : Image) : Option Image := do
  let s ← source.offset? o 0 row
  let t ← target.offset? o x (y + row)
  let length ← o.word? (columns * 4)
  let sourceEnd ← o.word? (s + length)
  if sourceEnd ≤ source.bytes.size then
    let targetEnd ← o.word? (t + length)
    if targetEnd ≤ target.bytes.size then
      let part ← slice? source.bytes s sourceEnd
      let bytes ← replace? target.bytes t targetEnd part
      return { target with bytes := bytes }
    else return target
  else return target

/-- Copying an image, its upper left corner at a point, the top row first. -/
def Image.blit? (target source : Image) (x y : Nat) : Option Image :=
  if x < target.width ∧ y < target.height then do
    let right ← sub? target.width x
    let below ← sub? target.height y
    loop? (source.copyRow? o x y (min source.width right)) 0 (min source.height below) target
  else some target

/-! ## Resampling -/

/-- An arithmetic that images are resampled in: where a sample lies along an axis, the pixel before it and the weight of the next one,
the level of a byte, the blend of two levels by the weight of the second, and the byte of a level. -/
structure Resample.Arithmetic (α : Type) where
  position : Nat → Nat → Nat → α
  pixel : α → Nat
  weight : α → α
  level : UInt8 → α
  blend : α → α → α → α
  byte : α → UInt8

/-- A sampling point along an axis: its two neighbours and the weight of the farther one. -/
structure Resample.Point (α : Type) where
  near : Nat
  far : Nat
  weight : α

/-- Single precision, in the units that a position, a weight and a blend are multiples of. -/
def Resample.singlePrecision : Resample.Arithmetic Nat where
  position := position
  pixel p := p / (2 * halfPixel)
  weight p := p % (2 * halfPixel) / (1 <<< 33)
  level v := v.toNat
  blend := blend
  byte := toByte

variable {α : Type} (A : Resample.Arithmetic α)

/-- The last pixel of an axis bounds the neighbours of its samples; an axis without a pixel has none. -/
def Resample.Arithmetic.point? (pixels samples i : Nat) : Option (Resample.Point α) := do
  let last ← sub? pixels 1
  let p := A.position pixels samples i
  let near := min (A.pixel p) last
  return ⟨near, min (near + 1) last, A.weight p⟩

/-- The blend of four bytes around the crossing of two sampling points, along the rows and then between them. -/
def Resample.Arithmetic.crossing (column row : Resample.Point α) (a b c d : UInt8) : UInt8 :=
  let top := A.blend (A.level a) (A.level b) column.weight
  let bottom := A.blend (A.level c) (A.level d) column.weight
  A.byte (A.blend top bottom row.weight)

/-- The four bytes at the crossing of two sampling points, from the two rows around it. -/
def Resample.Arithmetic.pixel? (upper lower : Array UInt8) (row column : Resample.Point α) : Option (List UInt8) :=
  (List.range 4).mapM fun channel => do
    let a ← upper[column.near * 4 + channel]?
    let b ← upper[column.far * 4 + channel]?
    let c ← lower[column.near * 4 + channel]?
    let d ← lower[column.far * 4 + channel]?
    return A.crossing column row a b c d

/-- The bytes of a row of an image whose rows are `stride` bytes long. -/
def Image.row? (i : Image) (stride y : Nat) : Option (Array UInt8) := do
  let start ← o.word? (y * stride)
  let stop ← o.word? ((y + 1) * stride)
  slice? i.bytes start stop

/-- The bytes of a row of the resized image. -/
def Image.sampleRow? (i : Image) (stride : Nat) (columns : List (Resample.Point α)) (row : Resample.Point α) :
    Option (List UInt8) := do
  let upper ← i.row? o stride row.near
  let lower ← i.row? o stride row.far
  let pixels ← columns.mapM (A.pixel? upper lower row)
  return pixels.flatten

/-- The image at another size, row by row, column by column and channel by channel. No check goes with the bytes of one row: a side is
a word of 32 bits, and 64 bits hold four times as many. -/
def Image.resizeIn? (i : Image) (s : Size) : Option Image :=
  let stride := i.width * 4
  if i.size = s then some i
  else if stride = 0 ∨ i.height = 0 then Image.blank? o s
  else do
    let asked ← o.word? (stride * i.height)
    if i.bytes.size < asked then Image.blank? o s
    else
      let columns ← (List.range s.width).mapM (A.point? i.width s.width)
      let rows ← (List.range s.height).mapM (A.point? i.height s.height)
      let _ ← s.bytes? o
      let lines ← rows.mapM (i.sampleRow? o A stride columns)
      return ⟨s.width, s.height, lines.flatten.toArray⟩

/-- The image at another size, in single precision. -/
def Image.resize? (i : Image) (s : Size) : Option Image := i.resizeIn? o Resample.singlePrecision s

end ContactSheet
