/-!
# The names of the options

An option is spelled by its name or by its name after `btp_`, the form in which a host's settings file holds it.
-/

namespace ContactSheet

/-- The options of a mapping. -/
inductive OptionName where
  | enabled | maxSize | maxWidth | maxHeight | maxBatch | maxBatchCols | throttleSecs | maxedBatchStepMode | previewDevice
  | skipUpscaleLayers | compilePreviewer | oomFallback | oomRetry
  deriving DecidableEq, Repr

/-- All options, in the order in which an array gives them. -/
def OptionName.all : List OptionName :=
  [.enabled, .maxSize, .maxWidth, .maxHeight, .maxBatch, .maxBatchCols, .throttleSecs, .maxedBatchStepMode, .previewDevice,
    .skipUpscaleLayers, .compilePreviewer, .oomFallback, .oomRetry]

/-- The name of an option in a mapping. -/
def OptionName.text : OptionName → String
  | .enabled => "enabled"
  | .maxSize => "max_size"
  | .maxWidth => "max_width"
  | .maxHeight => "max_height"
  | .maxBatch => "max_batch"
  | .maxBatchCols => "max_batch_cols"
  | .throttleSecs => "throttle_secs"
  | .maxedBatchStepMode => "maxed_batch_step_mode"
  | .previewDevice => "preview_device"
  | .skipUpscaleLayers => "skip_upscale_layers"
  | .compilePreviewer => "compile_previewer"
  | .oomFallback => "oom_fallback"
  | .oomRetry => "oom_retry"

/-- The two spellings of an option. -/
def OptionName.spellings (o : OptionName) : List String := [o.text, "btp_" ++ o.text]

end ContactSheet
