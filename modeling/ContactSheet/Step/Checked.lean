import ContactSheet.Step
import ContactSheet.Image.Checked

/-!
# Steps on a machine

A step carried out by operations that may break down (`Previewer.attempt?`, `Previewer.step?`): the gate subtracts times, the sampler
spaces its picks, the limits are divided among columns and rows, the sheet is made, a pick is looked up, and the image of an item is
resized and copied into its cell.
-/

namespace ContactSheet

variable {σ : Type} (o : Overflow)

/-- What the gate says at a moment. -/
def Gate.check? (g : Gate) (now : Duration) : Option Verdict :=
  if g.interval = 0 then some .allow
  else
    match g.lastEmit with
    | none => some .allow
    | some last => if g.interval ≤ now - last then some .allow else (sub? g.interval (now - last)).map .suppress

/-- The grid of a batch of `n` items. -/
def Sampler.plan? (s : Sampler) (n : Nat) : Option Grid := do
  let shown := min n s.maxBatch
  let columns := max (min s.maxColumns shown) 1
  if s.spread ∧ 1 < shown ∧ shown < n then
    let span ← sub? n 1
    let gaps ← sub? shown 1
    let picks ← (List.range shown).mapM fun i => do
      let product ← o.word? (i * span)
      let sum ← o.word? (product + gaps / 2)
      div? sum gaps
    return ⟨picks, columns⟩
  else return ⟨List.range shown, columns⟩

/-- The sheet of a previewer for a grid of latents. -/
def Previewer.sheet? (p : Previewer) (grid : Grid) (latent : Size) : Option Sheet :=
  (grid.cellSize? p.settings p.stages latent).map fun cell => ⟨grid, cell, p.stages.skip cell latent p.settings.skip⟩

/-- The size of the whole sheet. -/
def Sheet.size? (s : Sheet) : Option Size := do
  let rows ← s.grid.rows?
  let width ← o.halfWord? (s.cell.width * narrow s.grid.columns)
  let height ← o.halfWord? (s.cell.height * narrow rows)
  return ⟨width, height⟩

/-- The sheet with the image of an item copied into its cell. -/
def Sheet.place? (s : Sheet) (composite : Image) (position : Nat) (image : Image) : Option Image := do
  let item ← image.resize? o s.cell
  let cell ← s.grid.cell? position
  let x ← o.halfWord? (narrow cell.1 * s.cell.width)
  let y ← o.halfWord? (narrow cell.2 * s.cell.height)
  composite.blit? o item x y

/-- Decoding the items from `position` on; a pick without an item in the batch counts as a breakdown. -/
def Cycle.tile? (ds : Decoders σ) (settings : Settings) (batch : Batch) (sheet : Sheet) :
    Nat → List Nat → Image → Cycle σ → Option (Except PreviewError Image × Cycle σ)
  | _, [], composite, c => some (.ok composite, c)
  | position, pick :: picks, composite, c =>
    if c.session.cancelled then some (.error .cancelled, c)
    else do
      let latent ← batch.get? pick
      match c.decode ds settings latent sheet.cell sheet.skip with
      | (.error e, c) => return (.error e, c)
      | (.ok image, c) =>
        let composite ← sheet.place? o composite position image
        Cycle.tile? ds settings batch sheet (position + 1) picks composite c

/-- A cycle for a batch. -/
def Previewer.render? (p : Previewer) (ds : Decoders σ) (batch : Batch) (session : Session) (memory : σ) :
    Option (Except PreviewError (Option Image) × Cycle σ) :=
  let givenUp := !p.settings.retry && session.degraded
  let c : Cycle σ := { session := session, memory := memory, onFallback := givenUp }
  if session.cancelled then some (.error .cancelled, c)
  else do
    let grid ← p.sampler.plan? o batch.size
    match batch.dims? with
    | none => return (.ok none, c)
    | some latent =>
      if grid.isEmpty then return (.ok none, c)
      else if givenUp ∧ p.settings.fallback = .absent then return (.ok none, c.report .noDecoder)
      else
        let sheet ← p.sheet? grid latent
        let size ← sheet.size? o
        let blank ← Image.blank? o size
        let (result, c) ← c.tile? o ds p.settings batch sheet 0 grid.picks blank
        return (result.map some, c)

/-- One step at a moment. An error of the cycle is handed to the caller. -/
def Previewer.attempt? (p : Previewer) (ds : Decoders σ) (batch : Batch) (now : Duration) (session : Session) (memory : σ) :
    Option (Report σ (Except PreviewError Outcome)) :=
  let session := session.invoked
  if !p.settings.enabled then some ⟨.ok .disabled, session, memory, [], []⟩
  else do
    match ← session.gate.check? now with
    | .suppress remaining => return ⟨.ok .throttled, session.heldBack, memory, [], [.throttled remaining]⟩
    | .allow => return Cycle.close now (← p.render? o ds batch session memory)

/-- One step at a moment. An error of the cycle is reported. -/
def Previewer.step? (p : Previewer) (ds : Decoders σ) (batch : Batch) (now : Duration) (session : Session) (memory : σ) :
    Option (Report σ Outcome) :=
  (p.attempt? o ds batch now session memory).map Report.told

end ContactSheet
