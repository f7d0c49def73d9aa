import ContactSheet.Projection
import ContactSheet.Planes
import ContactSheet.Image.Checked

/-!
# Projecting on a machine

Projecting planes of values by operations that may break down: for each row and column of an image that starts out blank, the channels
at that point are summed up and the pixel there is set. Planes may lack values of their shape, and a value that is not there is a
breakdown. Planes are projected in any arithmetic (`Projection.Arithmetic`).
-/

namespace ContactSheet

/-- An arithmetic that latents are projected in: the number that a value, a factor or a bias stands for, sums and products of numbers,
and the byte of a number. -/
structure Projection.Arithmetic (α : Type) where
  number : Float32 → α
  add : α → α → α
  mul : α → α → α
  byte : α → UInt8

/-- One sum for each of the three colours. -/
structure Projection.Sums (α : Type) where
  red : α
  green : α
  blue : α

/-- Single precision. -/
def Projection.singlePrecision : Projection.Arithmetic Float32 where
  number := id
  add := (· + ·)
  mul := (· * ·)
  byte := colourByte

variable {α : Type} (A : Projection.Arithmetic α) (o : Overflow)

/-- The opaque pixel of three sums. -/
def Projection.Arithmetic.pixel (sums : Projection.Sums α) : Pixel := ⟨A.byte sums.red, A.byte sums.green, A.byte sums.blue, 255⟩

/-- The numbers that the sums of each point start from. -/
def Projection.Arithmetic.start (bias : Colours) : Projection.Sums α :=
  ⟨A.number bias.red, A.number bias.green, A.number bias.blue⟩

/-- Adds to the sums of a point what its value in a channel gives to them. -/
def Projection.Arithmetic.addValue (v : Float32) (row : Colours) (sums : Projection.Sums α) : Projection.Sums α :=
  ⟨A.add sums.red (A.mul (A.number v) (A.number row.red)), A.add sums.green (A.mul (A.number v) (A.number row.green)),
    A.add sums.blue (A.mul (A.number v) (A.number row.blue))⟩

/-- Adds to the sums of a point what its values give to them, channel by channel from `channel` on. -/
def Projection.Arithmetic.addChannels? (l : Planes) (x y : Nat) :
    Nat → List Colours → Projection.Sums α → Option (Projection.Sums α)
  | _, [], sums => some sums
  | channel, row :: rows, sums => do
    let v ← l.at? o channel x y
    Projection.Arithmetic.addChannels? l x y (channel + 1) rows (A.addValue v row sums)

/-- The pixel of planes at a point. -/
def Projection.pixelIn? (p : Projection) (l : Planes) (x y : Nat) : Option Pixel :=
  (A.addChannels? o l x y 0 p.factors (A.start p.bias)).map A.pixel

/-- Sets a pixel, which is worked out before. -/
def Image.paint? (pixel? : Nat → Nat → Option Pixel) (y x : Nat) (image : Image) : Option Image := do
  let p ← pixel? x y
  image.put? o x y p

/-- Sets the first pixels of the first rows, row by row and each row from the left. -/
def Image.paintRows? (pixel? : Nat → Nat → Option Pixel) (columns rows : Nat) (image : Image) : Option Image :=
  loop? (fun y => loop? (Image.paint? o pixel? y) 0 columns) 0 rows image

/-- The image of planes, row by row, column by column and channel by channel. -/
def Projection.projectIn? (p : Projection) (l : Planes) : Option (Except PreviewError Image) :=
  if l.channels = p.channels then do
    let blank ← Image.blank? o l.dims
    let image ← Image.paintRows? o (p.pixelIn? A o l) l.width l.height blank
    return .ok image
  else
    some (.error (.decode ("latent2rgb expects " ++ toString p.channels ++ " channels, latent has " ++ toString l.channels)))

/-- The image of planes, in single precision. -/
def Projection.project? (p : Projection) (l : Planes) : Option (Except PreviewError Image) :=
  p.projectIn? Projection.singlePrecision o l

/-- The image of planes at the size at which it is shown. -/
def Projection.decode? (p : Projection) (l : Planes) (target : Size) : Option (Except PreviewError Image) := do
  match ← p.project? o l with
  | .ok image => return .ok (← image.resize? o target)
  | .error e => return .error e

end ContactSheet
