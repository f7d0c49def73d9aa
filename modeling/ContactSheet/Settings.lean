import ContactSheet.Options
import ContactSheet.Duration

/-!
# Settings: an option mapping after its checks

`Settings.resolve` checks the options of a mapping in a fixed order and blames the first that lies outside its domain; what it
returns is within all limits by its type. Settings are also read straight from a text, in two ways that accept the same texts:
`Settings.ofText` words every refusal as an error, `Settings.decode` tells a text that cannot be read from options that are
refused. Decoding checks the options before it looks at what follows the mapping.
-/

namespace ContactSheet

/-- The bound of a preview on either axis when none is given, in pixels. -/
def defaultMaxSize : Nat := 768

/-- How many items of a batch a preview shows when nothing is said. -/
def defaultMaxBatch : Nat := 4

/-- How many columns the grid of a preview may have when nothing is said. -/
def defaultMaxColumns : Nat := 2

/-- The least time between two previews when none is given, in seconds. -/
def defaultThrottleSeconds : Float := 2.0

/-- The same time in nanoseconds. -/
def defaultInterval : Duration := Duration.ofParts 2 0

/-- What a preview is made by: options that lie within their domains, each with a value. -/
structure Settings where
  enabled : Bool := true
  /-- The bounds of the whole sheet, in pixels. -/
  maxWidth : Nat := defaultMaxSize
  maxHeight : Nat := defaultMaxSize
  /-- How many items of a batch are shown, in how many columns. -/
  maxBatch : Nat := defaultMaxBatch
  maxColumns : Nat := defaultMaxColumns
  /-- The least time between two previews. -/
  interval : Duration := defaultInterval
  /-- The items shown are spread over the whole batch instead of taken from its front. -/
  spread : Bool := false
  device : Option String := none
  skip : SkipPolicy := default
  compile : CompileSetting := .disabled
  fallback : Fallback := default
  /-- The decoder is tried again after it ran out of memory. -/
  retry : Bool := true
  maxWidth_pos : 1 ≤ maxWidth := by decide
  maxWidth_lt : maxWidth < 0x100000000 := by decide
  maxHeight_pos : 1 ≤ maxHeight := by decide
  maxHeight_lt : maxHeight < 0x100000000 := by decide
  maxBatch_pos : 1 ≤ maxBatch := by decide
  maxColumns_pos : 1 ≤ maxColumns := by decide

/-- The settings of a mapping that says nothing. -/
instance : Inhabited Settings := ⟨{}⟩

/-- A bound in pixels: positive, and below `2 ^ 32`. -/
def checkSide (option : OptionName) (given : Int) : Except PreviewError { side : Nat // 1 ≤ side ∧ side < 0x100000000 } :=
  if h : given ≤ 0 then .error (.config option.text ("must be > 0, got " ++ toString given))
  else if h' : given < 0x100000000 then .ok ⟨given.toNat, by omega⟩
  else .error (.config option.text (toString given ++ " is too large"))

/-- A number of items or columns: at least one. -/
def checkCount (option : OptionName) (given : Int) : Except PreviewError { count : Nat // 1 ≤ count } :=
  if h : given < 1 then .error (.config option.text ("must be >= 1, got " ++ toString given))
  else .ok ⟨given.toNat, by omega⟩

/-- A time in seconds that is one: a finite number, not negative, not beyond 64 bits of seconds. -/
def checkInterval (given : Float) : Except PreviewError Duration :=
  match Duration.ofSeconds? given with
  | some d => .ok d
  | none =>
    .error (.config OptionName.throttleSecs.text ("must be a finite number of seconds >= 0, got " ++ plainText given))

/-- The value of a check, or the default when the option is absent. -/
def orDefault {α β : Type} (check : α → Except PreviewError β) (fallback : β) : Option α → Except PreviewError β
  | none => .ok fallback
  | some a => check a

/-- The name of a device without the blanks around it, none when nothing else is left. -/
def deviceOf (given : Option String) : Option String := (given.map trim).filter (· ≠ "")

/-- The settings that options make up, or the error of the first option that lies outside its domain. A bound for both axes holds
for each axis that has none of its own. -/
def Settings.resolve (raw : RawOptions) : Except PreviewError Settings := do
  let size ← orDefault (checkSide .maxSize) ⟨defaultMaxSize, by decide⟩ raw.maxSize
  let width ← orDefault (checkSide .maxWidth) size raw.maxWidth
  let height ← orDefault (checkSide .maxHeight) size raw.maxHeight
  let batch ← orDefault (checkCount .maxBatch) ⟨defaultMaxBatch, by decide⟩ raw.maxBatch
  let columns ← orDefault (checkCount .maxBatchCols) ⟨defaultMaxColumns, by decide⟩ raw.maxBatchCols
  let interval ← orDefault checkInterval defaultInterval raw.throttleSecs
  let skip ← orDefault SkipPolicy.ofDirective default raw.skipUpscaleLayers
  let fallback ← orDefault Fallback.ofName default raw.oomFallback
  return {
    enabled := raw.enabled.getD true
    maxWidth := width.val
    maxHeight := height.val
    maxBatch := batch.val
    maxColumns := columns.val
    interval := interval
    spread := raw.maxedBatchStepMode.getD false
    device := deviceOf raw.previewDevice
    skip := skip
    compile := (raw.compilePreviewer.map CompileChoice.setting).getD .disabled
    fallback := fallback
    retry := raw.oomRetry.getD true
    maxWidth_pos := width.property.1
    maxWidth_lt := width.property.2
    maxHeight_pos := height.property.1
    maxHeight_lt := height.property.2
    maxBatch_pos := batch.property
    maxColumns_pos := columns.property }

/-- The settings of a mapping given as a text. -/
def Settings.ofText (text : String) : Except PreviewError Settings :=
  match RawOptions.ofText? text with
  | some raw => Settings.resolve raw
  | none => .error .json

/-- The settings of a mapping whose members have been read already. -/
def Settings.ofMembers (members : List (String × Json)) : Except PreviewError Settings :=
  match RawOptions.ofMembers? members with
  | some raw => Settings.resolve raw
  | none => .error .json

/-- Why a text does not decode to settings. -/
inductive DecodeError where
  /-- The text cannot be read as a mapping. -/
  | malformed
  /-- The options of the mapping are refused. -/
  | refused (error : PreviewError)
  deriving DecidableEq, Repr

/-- The settings that a text decodes to: the mapping at its head is read and checked, and only then what follows it. -/
def Settings.decode (text : String) : Except DecodeError Settings :=
  match Json.read? text.toList with
  | none => .error .malformed
  | some (v, left) =>
    match RawOptions.ofJson? v with
    | none => .error .malformed
    | some raw =>
      match Settings.resolve raw with
      | .error e => .error (.refused e)
      | .ok settings => if (Json.skipGap left).isEmpty then .ok settings else .error .malformed

end ContactSheet
