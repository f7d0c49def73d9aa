/-!
# What can go wrong

`PreviewError` lists the causes, `PreviewError.message` words them. Only running out of memory brings in the fallback decoder;
an error of the configuration stops the start and every other one costs a single cycle.
-/

namespace ContactSheet

/-- The causes of a refusal or of a cycle without a preview. -/
inductive PreviewError where
  /-- An option outside its domain. -/
  | config (key reason : String)
  /-- A decoder that cannot be planned for. -/
  | planner (reason : String)
  /-- A decode that failed for a reason other than memory. -/
  | decode (reason : String)
  /-- A device whose memory did not suffice. -/
  | outOfMemory (device message : String)
  /-- A generation that was interrupted. -/
  | cancelled
  /-- An option mapping that could not be read. -/
  | json
  deriving DecidableEq, Repr

/-- The full text of an error. Why a mapping could not be read is not kept. -/
def PreviewError.message : PreviewError → String
  | .config key reason => "Invalid config value for '" ++ key ++ "': " ++ reason
  | .planner reason => "Malformed decoder descriptor: " ++ reason
  | .decode reason => "Decode failed: " ++ reason
  | .outOfMemory device message => "Out of memory on " ++ device ++ ": " ++ message
  | .cancelled => "Preview cancelled"
  | .json => "Option mapping error"

/-- The error that brings in the fallback decoder. -/
def PreviewError.isOutOfMemory : PreviewError → Bool
  | .outOfMemory _ _ => true
  | _ => false

/-- An error that stops the start instead of costing one cycle. -/
def PreviewError.isFatal : PreviewError → Bool
  | .config _ _ => true
  | .planner _ => true
  | .json => true
  | _ => false

end ContactSheet
