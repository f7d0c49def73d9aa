import ContactSheet.Settings
import ContactSheet.Latent
import ContactSheet.Image

/-!
# The two decoders

A preview is made by a primary decoder and a fallback decoder that the host supplies. What they answer may depend on anything
they remember, which is a state of the host's own type, and while one works the session may be cancelled. A `Call` records what a
decoder was asked and what it answered.
-/

namespace ContactSheet

/-- What the primary decoder is asked for one item. -/
structure Request where
  latent : Latent
  /-- The size at which the item is shown; the image may be of another one. -/
  target : Size
  /-- How many stages to leave out. -/
  skip : Nat
  device : Option String
  compile : CompileSetting

/-- What a decoder answers, and whether the session was cancelled meanwhile. -/
structure Answer where
  result : Except PreviewError Image
  cancels : Bool := false

/-- A primary and a fallback decoder that share what they remember. -/
structure Decoders (σ : Type) where
  primary : Request → σ → Answer × σ
  fallback : Latent → Size → σ → Answer × σ

/-- One use of a decoder. -/
inductive Call where
  | primary (request : Request) (answer : Answer)
  | fallback (latent : Latent) (target : Size) (answer : Answer)

/-- What the decoder answered. -/
def Call.answer : Call → Answer
  | .primary _ a => a
  | .fallback _ _ a => a

/-- The latent that the call was about. -/
def Call.latent : Call → Latent
  | .primary r _ => r.latent
  | .fallback l _ _ => l

/-- The primary decoder was used. -/
def Call.isPrimary : Call → Bool
  | .primary _ _ => true
  | .fallback _ _ _ => false

end ContactSheet
