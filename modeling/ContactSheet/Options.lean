import ContactSheet.Policy
import ContactSheet.Json.Reader

/-!
# Option mappings

`RawOptions` holds the options of a mapping before they are checked, each absent or of its kind. A mapping that gives one option
twice, in whatever spelling, is refused, and names that are no option's are passed over. A mapping comes as a text
(`RawOptions.ofText?`) or as members that have been read already (`RawOptions.ofMembers?`).
-/

namespace ContactSheet

/-- The options of a mapping, before they are checked. -/
structure RawOptions where
  enabled : Option Bool := none
  maxSize : Option Int := none
  maxWidth : Option Int := none
  maxHeight : Option Int := none
  maxBatch : Option Int := none
  maxBatchCols : Option Int := none
  throttleSecs : Option Float := none
  maxedBatchStepMode : Option Bool := none
  previewDevice : Option String := none
  skipUpscaleLayers : Option Int := none
  compilePreviewer : Option CompileChoice := none
  oomFallback : Option String := none
  oomRetry : Option Bool := none
  deriving Inhabited

/-- The options that the values given for them make up, in the order of `OptionName.all`. `room` bounds the nesting of the compile
choice. -/
def RawOptions.ofFields? (room : Option Nat) : List (Option Json) → Option RawOptions
  | [enabled, maxSize, maxWidth, maxHeight, maxBatch, maxBatchCols, throttleSecs, maxedBatchStepMode, previewDevice,
      skipUpscaleLayers, compilePreviewer, oomFallback, oomRetry] => do
    return {
      enabled := ← Json.optional? Json.bool? enabled
      maxSize := ← Json.optional? Json.int? maxSize
      maxWidth := ← Json.optional? Json.int? maxWidth
      maxHeight := ← Json.optional? Json.int? maxHeight
      maxBatch := ← Json.optional? Json.int? maxBatch
      maxBatchCols := ← Json.optional? Json.int? maxBatchCols
      throttleSecs := ← Json.optional? Json.float? throttleSecs
      maxedBatchStepMode := ← Json.optional? Json.bool? maxedBatchStepMode
      previewDevice := ← Json.optional? Json.string? previewDevice
      skipUpscaleLayers := ← Json.optional? Json.int? skipUpscaleLayers
      compilePreviewer := ← Json.optional? (CompileChoice.ofJson? room) compilePreviewer
      oomFallback := ← Json.optional? Json.string? oomFallback
      oomRetry := ← Json.optional? Json.bool? oomRetry }
  | _ => none

/-- The spellings of all options, in order. -/
def RawOptions.fieldNames : List (List String) := OptionName.all.map OptionName.spellings

/-- The options of a mapping whose members have been read already. -/
def RawOptions.ofMembers? (members : List (String × Json)) : Option RawOptions :=
  (Json.memberFields? RawOptions.fieldNames members).bind (RawOptions.ofFields? none)

/-- Containers of a text may nest 127 deep where a value is taken in whole. -/
def nestingLimit : Nat := 127

/-- The options of a mapping that was read from a text, where the mapping itself is one container. -/
def RawOptions.ofJson? (v : Json) : Option RawOptions :=
  (v.fields? RawOptions.fieldNames).bind (RawOptions.ofFields? (some (nestingLimit - 1)))

/-- The options of a mapping given as a text. -/
def RawOptions.ofText? (text : String) : Option RawOptions := (Json.ofText? text).bind RawOptions.ofJson?

/-- Option values as a JSON value, in the order of `OptionName.all`. -/
def RawOptions.toJson (o : RawOptions) : Json :=
  .ofFields [
    (OptionName.enabled.text, .ofOption .bool o.enabled),
    (OptionName.maxSize.text, .ofOption .ofInt o.maxSize),
    (OptionName.maxWidth.text, .ofOption .ofInt o.maxWidth),
    (OptionName.maxHeight.text, .ofOption .ofInt o.maxHeight),
    (OptionName.maxBatch.text, .ofOption .ofInt o.maxBatch),
    (OptionName.maxBatchCols.text, .ofOption .ofInt o.maxBatchCols),
    (OptionName.throttleSecs.text, .ofOption .ofFloat o.throttleSecs),
    (OptionName.maxedBatchStepMode.text, .ofOption .bool o.maxedBatchStepMode),
    (OptionName.previewDevice.text, .ofOption .ofString o.previewDevice),
    (OptionName.skipUpscaleLayers.text, .ofOption .ofInt o.skipUpscaleLayers),
    (OptionName.compilePreviewer.text, .ofOption CompileChoice.toJson o.compilePreviewer),
    (OptionName.oomFallback.text, .ofOption .ofString o.oomFallback),
    (OptionName.oomRetry.text, .ofOption .bool o.oomRetry)]

end ContactSheet
