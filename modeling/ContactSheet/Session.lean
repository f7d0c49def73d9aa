import ContactSheet.Settings
import ContactSheet.Gate

/-!
# Sessions

A session is what changes from one preview to the next during a generation: the gate, whether the decoder was given up for lack
of memory, whether the generation was cancelled, and the counters.
-/

namespace ContactSheet

/-- The counters of a session. -/
structure Stats where
  /-- Steps asked for. -/
  invocations : Nat := 0
  /-- Sheets made. -/
  emitted : Nat := 0
  /-- Steps that the gate held back. -/
  throttled : Nat := 0
  /-- Items that went to the fallback decoder. -/
  fallbackDecodes : Nat := 0
  /-- Times the primary decoder ran out of memory. -/
  oomEvents : Nat := 0
  /-- Cycles that an error ended. -/
  failures : Nat := 0
  /-- How long the last cycle that made a sheet took, in milliseconds, by the clock of the host, who keeps it. -/
  lastDecodeMs : Nat := 0
  deriving DecidableEq, Repr, Inhabited

/-- The share of the steps that made a sheet; none of none is zero. -/
def Stats.emitRate (s : Stats) : Float32 :=
  if s.invocations = 0 then 0 else s.emitted.toUInt64.toFloat32 / s.invocations.toUInt64.toFloat32

/-- The state of the previews of one generation. -/
structure Session where
  gate : Gate
  degraded : Bool := false
  cancelled : Bool := false
  stats : Stats := {}
  deriving DecidableEq, Repr

/-- A new session whose previews are an interval apart. -/
def Session.withInterval (interval : Duration) : Session := { gate := { interval := interval } }

/-- A new session under settings. -/
def Session.start (settings : Settings) : Session := .withInterval settings.interval

/-- The session after its generation was cancelled. -/
def Session.cancel (s : Session) : Session := { s with cancelled := true }

/-- The session after a cancellation was taken back. -/
def Session.resetCancel (s : Session) : Session := { s with cancelled := false }

end ContactSheet
