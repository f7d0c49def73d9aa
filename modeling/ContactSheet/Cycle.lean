import ContactSheet.Grid
import ContactSheet.Image.Resample
import ContactSheet.Session
import ContactSheet.Event
import ContactSheet.Decoders

/-!
# A preview cycle

A cycle decodes the items of a grid one after the other and copies each onto the sheet. An item goes to the primary decoder until
that runs out of memory; then, if there is a fallback, the same item and all after it go to the fallback. Before each item the
cycle looks whether the session was cancelled. `Cycle` is what changes on the way: the session, what the decoders remember, which
decoder is in use, and what has been called and reported so far.
-/

namespace ContactSheet

/-- Settings, a decoder's stages, of which there is at least one, and with them all that a cycle needs to know beforehand. -/
structure Previewer where
  settings : Settings
  stages : Stages
  stages_pos : 1 ≤ stages.count

/-- A previewer under settings for a decoder, which must have a stage. -/
def Previewer.make (settings : Settings) (stages : Stages) : Except PreviewError Previewer :=
  stages.check.map fun s => ⟨settings, s.val, s.property⟩

/-- The sampler of a previewer. -/
def Previewer.sampler (p : Previewer) : Sampler := p.settings.sampler

/-- What changes during a cycle. -/
structure Cycle (σ : Type) where
  session : Session
  memory : σ
  onFallback : Bool
  calls : List Call := []
  events : List Event := []

variable {σ : Type}

/-- The cycle after a decoder was called. -/
def Cycle.called (c : Cycle σ) (call : Call) (memory : σ) : Cycle σ :=
  { c with
    session := if call.answer.cancels then c.session.cancel else c.session
    memory := memory
    calls := c.calls ++ [call] }

/-- The cycle after something was reported. -/
def Cycle.report (c : Cycle σ) (e : Event) : Cycle σ := { c with events := c.events ++ [e] }

/-- The cycle after its session gave the primary decoder up, if it was still in use. -/
def Cycle.giveUp (c : Cycle σ) : Cycle σ :=
  if c.session.degraded then c else { c with session := { c.session with degraded := true } }.report .degraded

/-- The cycle after the primary decoder ran out of memory: without leave to try again the session gives it up. -/
def Cycle.outOfMemory (c : Cycle σ) (settings : Settings) (e : PreviewError) : Cycle σ :=
  let noted := { c with
    session := { c.session with stats := { c.session.stats with oomEvents := c.session.stats.oomEvents + 1 } } }
  let told := noted.report (.outOfMemory e)
  if settings.retry then told else told.giveUp

/-- Decodes an item by the fallback decoder. -/
def Cycle.decodeFallback (ds : Decoders σ) (latent : Latent) (target : Size) (c : Cycle σ) :
    Except PreviewError Image × Cycle σ :=
  let counted := { c with
    session := { c.session with
      stats := { c.session.stats with fallbackDecodes := c.session.stats.fallbackDecodes + 1 } } }
  let (answer, memory) := ds.fallback latent target c.memory
  (answer.result, counted.called (.fallback latent target answer) memory)

/-- What the primary decoder is asked for a latent. -/
def Settings.request (settings : Settings) (latent : Latent) (target : Size) (skip : Nat) : Request :=
  ⟨latent, target, skip, settings.device, settings.compile⟩

/-- Decodes an item: by the primary decoder, or by the fallback decoder if that is in use or comes into use. -/
def Cycle.decode (ds : Decoders σ) (settings : Settings) (latent : Latent) (target : Size) (skip : Nat) (c : Cycle σ) :
    Except PreviewError Image × Cycle σ :=
  if c.onFallback then c.decodeFallback ds latent target
  else
    let request := settings.request latent target skip
    let (answer, memory) := ds.primary request c.memory
    let c := c.called (.primary request answer) memory
    match answer.result with
    | .ok image => (.ok image, c)
    | .error e =>
      if e.isOutOfMemory then
        let c := c.outOfMemory settings e
        match settings.fallback with
        | .absent => (.error e, c)
        | .projection => { c with onFallback := true }.decodeFallback ds latent target
      else (.error e, c)

/-- Where the items of a cycle go: the grid, the size of its cells, and how many stages are skipped for an item. -/
structure Sheet where
  grid : Grid
  cell : Size
  skip : Nat

/-- The size of the whole sheet, counted in 32 bits. -/
def Sheet.size (s : Sheet) : Size :=
  ⟨narrow (s.cell.width * narrow s.grid.columns), narrow (s.cell.height * narrow s.grid.rows)⟩

/-- The upper left corner of the cell of a position, counted in 32 bits. -/
def Sheet.corner (s : Sheet) (position : Nat) : Nat × Nat :=
  (narrow (narrow (s.grid.cell position).1 * s.cell.width), narrow (narrow (s.grid.cell position).2 * s.cell.height))

/-- The sheet of a previewer for a grid of latents. -/
def Previewer.sheet (p : Previewer) (grid : Grid) (latent : Size) : Sheet :=
  let cell := grid.cellSize p.settings p.stages latent
  ⟨grid, cell, p.stages.skip cell latent p.settings.skip⟩

/-- Copies the image of an item into its cell, at the size of the cell. -/
def Sheet.place (s : Sheet) (composite : Image) (position : Nat) (image : Image) : Image :=
  composite.blit (image.resize s.cell) (s.corner position).1 (s.corner position).2

/-- Decodes the items from `position` on, given by their places in the batch, and copies each into its cell. -/
def Cycle.tile (ds : Decoders σ) (settings : Settings) (batch : Batch) (sheet : Sheet) :
    Nat → List Nat → Image → Cycle σ → Except PreviewError Image × Cycle σ
  | _, [], composite, c => (.ok composite, c)
  | position, pick :: picks, composite, c =>
    if c.session.cancelled then (.error .cancelled, c)
    else
      match batch.get? pick with
      | none => (.error (.decode ("batch index " ++ toString pick ++ " out of range")), c)
      | some latent =>
        match c.decode ds settings latent sheet.cell sheet.skip with
        | (.error e, c) => (.error e, c)
        | (.ok image, c) => Cycle.tile ds settings batch sheet (position + 1) picks (sheet.place composite position image) c

/-- Runs a cycle for a batch: the sheet, or nothing when the batch is empty or no decoder is left. -/
def Previewer.render (p : Previewer) (ds : Decoders σ) (batch : Batch) (session : Session) (memory : σ) :
    Except PreviewError (Option Image) × Cycle σ :=
  let givenUp := !p.settings.retry && session.degraded
  let c : Cycle σ := { session := session, memory := memory, onFallback := givenUp }
  if session.cancelled then (.error .cancelled, c)
  else
    let grid := p.sampler.plan batch.size
    match batch.dims? with
    | none => (.ok none, c)
    | some latent =>
      if grid.isEmpty then (.ok none, c)
      else if givenUp ∧ p.settings.fallback = .absent then (.ok none, c.report .noDecoder)
      else
        let sheet := p.sheet grid latent
        match c.tile ds p.settings batch sheet 0 grid.picks (.blank sheet.size) with
        | (.ok image, c) => (.ok (some image), c)
        | (.error e, c) => (.error e, c)

end ContactSheet
