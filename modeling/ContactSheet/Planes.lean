import ContactSheet.Latent
import ContactSheet.Machine

/-!
# Planes of values on a machine

`Planes` holds values and a shape that they are said to have. A `Latent` is planes whose values are as many as its shape asks for, and a
machine that makes latents from given values sees to that. One that makes planes of a single value, `Planes.filled?`, counts the values
itself: where the count wraps, the planes lack most of their values.
-/

namespace ContactSheet

/-- Values and a shape, whether or not they are as many as it asks for. -/
structure Planes where
  channels : Nat
  height : Nat
  width : Nat
  data : Array Float32

/-- The planes of a latent. -/
def Latent.planes (l : Latent) : Planes := ⟨l.channels, l.height, l.width, l.data⟩

/-- The size of each plane. -/
def Planes.dims (l : Planes) : Size := ⟨l.width, l.height⟩

variable (o : Overflow)

/-- Where the value of a channel at a point lies among the values. -/
def Planes.index? (l : Planes) (channel x y : Nat) : Option Nat := do
  let plane ← o.word? (l.height * l.width)
  let before ← o.word? (channel * plane)
  let above ← o.word? (y * l.width)
  let row ← o.word? (before + above)
  o.word? (row + x)

/-- The value of a channel at a point, none beyond the last value. -/
def Planes.at? (l : Planes) (channel x y : Nat) : Option Float32 := do
  let i ← l.index? o channel x y
  l.data[i]?

/-- Planes of one value; a zero in their shape counts as one. There must be room for the values, of four bytes each. -/
def Planes.filled? (channels height width : Nat) (value : Float32) : Option Planes := do
  let column ← o.word? (max channels 1 * max height 1)
  let count ← o.word? (column * max width 1)
  if hasRoom (4 * count) then some ⟨max channels 1, max height 1, max width 1, Array.replicate count value⟩ else none

end ContactSheet
