import ContactSheet.Policy
import ContactSheet.Size

/-!
# Decoder stages and how many to skip

A decoder runs through a number of stages, each of which doubles both sides of its image; a size that 32 bits cannot count stops
at the largest that they can. Skipped stages make the decoded image smaller and the decode cheaper. `Stages.skip` says how many a
policy skips for a size to be shown.
-/

namespace ContactSheet

/-- By how much one stage enlarges each side. -/
def stageFactor : Nat := 2

/-- The stages of a decoder. -/
structure Stages where
  count : Nat
  deriving DecidableEq, Repr

/-- A decoder that enlarges eightfold. -/
instance : Inhabited Stages := ⟨⟨3⟩⟩

/-- A decoder must have a stage. -/
def Stages.check (s : Stages) : Except PreviewError { s : Stages // 1 ≤ s.count } :=
  if h : s.count = 0 then .error (.planner "decoder reports no upscale layers") else .ok ⟨s, Nat.pos_of_ne_zero h⟩

/-- By how much so many stages enlarge each side; 32 of them reach the largest countable factor. -/
def enlargement (stages : Nat) : Nat := min (Nat.pow stageFactor (min stages 32)) maxSide

/-- A size that so many stages have enlarged. -/
def Size.enlarged (s : Size) (stages : Nat) : Size :=
  ⟨min (s.width * enlargement stages) maxSide, min (s.height * enlargement stages) maxSide⟩

/-- The size of the image that the decoder makes of a latent when it skips so many stages. -/
def Stages.nativeSize (s : Stages) (latent : Size) (skip : Nat) : Size := latent.enlarged (s.count - skip)

/-- The most stages that may be skipped for the decoded size to reach a floor, none when even all stages do not reach it. Stages
beyond the 32nd do not enlarge any further, so no more need to be tried. -/
def Stages.mostSkipped (s : Stages) (latent floor : Size) : Nat :=
  match (List.range (min s.count 32 + 1)).find? fun active => (latent.enlarged active).reaches floor with
  | some active => s.count - active
  | none => 0

/-- Half a size, odd sides rounded up, at least one pixel each way. -/
def Size.half (s : Size) : Size := ⟨max ((s.width + 1) / 2) 1, max ((s.height + 1) / 2) 1⟩

/-- How many stages a policy skips for a latent that is shown at a size. -/
def Stages.skip (s : Stages) (target latent : Size) : SkipPolicy → Nat
  | .fixed n => min n s.count
  | .conservative => s.mostSkipped latent target
  | .aggressive => s.mostSkipped latent target.half

end ContactSheet
