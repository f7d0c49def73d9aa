import ContactSheet.Settings
import ContactSheet.Size

/-!
# The log

What the library reports while it works: an `Event` has a level, a message and fields, and is written on one line.
-/

namespace ContactSheet

/-- How much an event matters. -/
inductive Level where
  | debug | info | warn
  deriving DecidableEq, Repr

/-- Something worth reporting. -/
inductive Event where
  /-- Options were checked and accepted. -/
  | resolved (settings : Settings)
  /-- The gate held a step back. -/
  | throttled (remaining : Duration)
  /-- A step made a sheet. -/
  | emitted (size : Size)
  /-- A cycle was cancelled. -/
  | cancelled
  /-- An error ended a cycle. -/
  | failed (error : PreviewError)
  /-- The primary decoder ran out of memory. -/
  | outOfMemory (error : PreviewError)
  /-- The session gave the primary decoder up. -/
  | degraded
  /-- A cycle had no decoder left. -/
  | noDecoder

/-- How much an event matters. -/
def Event.level : Event → Level
  | .resolved _ => .info
  | .throttled _ => .debug
  | .emitted _ => .debug
  | .cancelled => .debug
  | .failed _ => .warn
  | .outOfMemory _ => .warn
  | .degraded => .info
  | .noDecoder => .debug

/-- What an event says. -/
def Event.message : Event → String
  | .resolved _ => "Resolved preview settings"
  | .throttled _ => "Preview throttled"
  | .emitted _ => "Emitted preview"
  | .cancelled => "Preview cycle cancelled"
  | .failed _ => "Preview cycle failed, keeping previous preview"
  | .outOfMemory _ => "Preview decoder ran out of memory"
  | .degraded => "Switching previews to fallback for the rest of this session"
  | .noDecoder => "Primary decoder disabled after out-of-memory and no fallback configured"

/-- A truth value as a word. -/
def boolText (b : Bool) : String := if b then "true" else "false"

/-- The fields of an event, each a name and a value. -/
def Event.fields : Event → List (String × String)
  | .resolved s =>
    [("enabled", boolText s.enabled), ("max_width", toString s.maxWidth), ("max_height", toString s.maxHeight),
      ("max_batch", toString s.maxBatch), ("throttle_ms", toString s.interval.milliseconds)]
  | .throttled remaining => [("remaining_ms", toString remaining.milliseconds)]
  | .emitted size => [("width", toString size.width), ("height", toString size.height)]
  | .failed error => [("error", error.message)]
  | .outOfMemory error => [("error", error.message)]
  | _ => []

/-- The word for a level. -/
def Level.text : Level → String
  | .debug => "DEBUG"
  | .info => "INFO"
  | .warn => "WARN"

/-- An event on one line, without its fields. -/
def Event.heading (e : Event) : String := e.level.text ++ " " ++ e.message

/-- An event on one line. -/
def Event.line (e : Event) : String := e.fields.foldl (fun line f => line ++ " " ++ f.1 ++ "=" ++ f.2) e.heading

/-- What checking options reports: settings that were accepted, and nothing about options that were refused. -/
def Event.ofResolution : Except PreviewError Settings → List Event
  | .ok settings => [.resolved settings]
  | .error _ => []

end ContactSheet
