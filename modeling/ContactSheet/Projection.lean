import ContactSheet.Latent
import ContactSheet.Image.Resample

/-!
# Projecting latents onto colours

A `Projection` has a row of three factors for each channel and a bias. `Projection.project` turns a latent into an image of the
same sides: each colour of a pixel is the bias and, channel by channel, the value times the factor, in single precision and in
that order. It costs next to nothing and is as sharp as the latent itself, which is what it is for when the decoder cannot run.
-/

namespace ContactSheet

/-- One number for each of the three colours. -/
structure Colours where
  red : Float32
  green : Float32
  blue : Float32

/-- A linear map from the channels of a latent to colours. -/
structure Projection where
  factors : List Colours
  bias : Colours

/-- The map for latents of the first generation of models, with four channels. -/
def Projection.sd15 : Projection where
  factors := [⟨0.3512, 0.2297, 0.3227⟩, ⟨0.3250, 0.4974, 0.2350⟩, ⟨-0.2829, 0.1762, 0.2721⟩, ⟨-0.2120, -0.2616, -0.7177⟩]
  bias := ⟨0, 0, 0⟩

/-- The map for latents of the larger models, with four channels. -/
def Projection.sdxl : Projection where
  factors := [⟨0.3651, 0.4232, 0.4341⟩, ⟨-0.2533, -0.0042, 0.1068⟩, ⟨0.1076, 0.1111, -0.0362⟩, ⟨-0.3165, -0.2492, -0.2188⟩]
  bias := ⟨0.1084, -0.0175, -0.0011⟩

/-- Without a choice latents are taken for those of the first generation. -/
instance : Inhabited Projection := ⟨.sd15⟩

/-- How many channels a latent must have. -/
def Projection.channels (p : Projection) : Nat := p.factors.length

/-- The byte for a colour: -1 is dark and 1 bright, what lies beyond is cut off, and what is no number is dark. -/
def colourByte (v : Float32) : UInt8 :=
  let scaled := (v + 1) * 0.5
  let cut := if scaled < 0 then 0 else if 1 < scaled then 1 else scaled
  let x := cut * 255
  let whole := x.toUInt8
  if 0.5 ≤ x - whole.toFloat32 then whole + 1 else whole

/-- Adds to a sum of colours what a point of a latent gives to them, channel by channel from `channel` on. -/
def addChannels (l : Latent) (x y : Nat) : Nat → List Colours → Colours → Colours
  | _, [], sum => sum
  | channel, row :: rows, sum =>
    let v := l.value channel x y
    addChannels l x y (channel + 1) rows ⟨sum.red + v * row.red, sum.green + v * row.green, sum.blue + v * row.blue⟩

/-- The colours of a latent at a point. -/
def Projection.colours (p : Projection) (l : Latent) (x y : Nat) : Colours := addChannels l x y 0 p.factors p.bias

/-- The pixel of a latent at a point: its colours, opaque. -/
def Projection.pixel (p : Projection) (l : Latent) (x y : Nat) : Pixel :=
  let c := p.colours l x y
  ⟨colourByte c.red, colourByte c.green, colourByte c.blue, 255⟩

/-- The image of a latent; its channels must be as many as the rows of factors. -/
def Projection.project (p : Projection) (l : Latent) : Except PreviewError Image :=
  if l.channels = p.channels then .ok (.generate l.dims fun x y channel => (p.pixel l x y).channel channel)
  else
    .error (.decode ("latent2rgb expects " ++ toString p.channels ++ " channels, latent has " ++ toString l.channels))

/-- The image of a latent at the size at which it is shown. -/
def Projection.decode (p : Projection) (l : Latent) (target : Size) : Except PreviewError Image :=
  (p.project l).map (·.resize target)

end ContactSheet
