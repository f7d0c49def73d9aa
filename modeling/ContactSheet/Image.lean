import ContactSheet.Size
import ContactSheet.Machine

/-!
# Images

An image is a row-major run of pixels of four bytes: red, green, blue, opacity. The run may be shorter or longer than its sides
ask for, as a decoder may return anything; a pixel that the run does not hold cannot be seen or set, and `Image.blit` passes over a
row that either run does not hold in full. Offsets and sizes have no limit here; `Image.blit?` and its like count them in words.
-/

namespace ContactSheet

/-- The four bytes of a pixel. -/
structure Pixel where
  red : UInt8
  green : UInt8
  blue : UInt8
  alpha : UInt8
  deriving DecidableEq, Repr, Inhabited

/-- The byte of one of the four channels. -/
def Pixel.channel (p : Pixel) : Nat → UInt8
  | 0 => p.red
  | 1 => p.green
  | 2 => p.blue
  | _ => p.alpha

/-- An image: its sides and the bytes of its pixels. -/
structure Image where
  width : Nat
  height : Nat
  bytes : Array UInt8
  deriving DecidableEq, Repr

/-- The size of an image. -/
def Image.size (i : Image) : Size := ⟨i.width, i.height⟩

/-- How many bytes the sides ask for. -/
def Size.byteCount (s : Size) : Nat := s.width * s.height * 4

/-- An image of transparent black. -/
def Image.blank (s : Size) : Image := ⟨s.width, s.height, Array.replicate s.byteCount 0⟩

/-- The column of a byte lies within the width. -/
theorem column_lt {s : Size} {k : Nat} (h : k < s.byteCount) : k / 4 % s.width < s.width := by
  refine Nat.mod_lt _ (Nat.pos_of_ne_zero fun hw => ?_)
  simp [Size.byteCount, hw] at h

/-- The row of a byte lies within the height. -/
theorem row_lt {s : Size} {k : Nat} (h : k < s.byteCount) : k / 4 / s.width < s.height := by
  unfold Size.byteCount at h
  exact Nat.div_lt_of_lt_mul (Nat.div_lt_of_lt_mul (by rw [Nat.mul_comm]; exact h))

/-- An image whose bytes are given by column, row and channel. -/
def Image.generate (s : Size) (byte : Fin s.width → Fin s.height → Nat → UInt8) : Image :=
  ⟨s.width, s.height, Array.ofFn fun (k : Fin s.byteCount) =>
    byte ⟨k.val / 4 % s.width, column_lt k.isLt⟩ ⟨k.val / 4 / s.width, row_lt k.isLt⟩ (k.val % 4)⟩

/-- An image of one colour. -/
def Image.solid (s : Size) (colour : Pixel) : Image := .generate s fun _ _ channel => colour.channel channel

/-- Where the first byte of a pixel lies. -/
def Image.offset (i : Image) (x y : Nat) : Nat := (y * i.width + x) * 4

/-- The pixel at a point, none outside the image or beyond its bytes. -/
def Image.get? (i : Image) (x y : Nat) : Option Pixel :=
  if x < i.width ∧ y < i.height then
    match i.bytes[i.offset x y]?, i.bytes[i.offset x y + 1]?, i.bytes[i.offset x y + 2]?, i.bytes[i.offset x y + 3]? with
    | some r, some g, some b, some a => some ⟨r, g, b, a⟩
    | _, _, _, _ => none
  else none

/-- The image with the pixel at a point set; a point outside the image or beyond its bytes changes nothing. -/
def Image.put (i : Image) (x y : Nat) (p : Pixel) : Image :=
  if x < i.width ∧ y < i.height ∧ i.offset x y + 4 ≤ i.bytes.size then
    let o := i.offset x y
    { i with bytes := (((i.bytes.setIfInBounds o p.red).setIfInBounds (o + 1) p.green).setIfInBounds (o + 2)
        p.blue).setIfInBounds (o + 3) p.alpha }
  else i

/-- Copies row `row` of `source`, cut to `columns` pixels, to the point of the target that many rows below `(x, y)`. A row that
either image does not hold in full is passed over. -/
def Image.copyRow (source : Image) (x y columns row : Nat) (target : Image) : Image :=
  let s := source.offset 0 row
  let t := target.offset x (y + row)
  if s + columns * 4 ≤ source.bytes.size ∧ t + columns * 4 ≤ target.bytes.size then
    { target with bytes := copyBytes source.bytes s t (columns * 4) target.bytes }
  else target

/-- Copies the first `rows` rows of `source` into the target, the top one first. -/
def Image.copyRows (source : Image) (x y columns : Nat) : Nat → Image → Image
  | 0, target => target
  | rows + 1, target => source.copyRow x y columns rows (source.copyRows x y columns rows target)

/-- The image with another one copied onto it, its upper left corner at a point; what would lie outside is cut off. -/
def Image.blit (target source : Image) (x y : Nat) : Image :=
  if x < target.width ∧ y < target.height then
    source.copyRows x y (min source.width (target.width - x)) (min source.height (target.height - y)) target
  else target

end ContactSheet
