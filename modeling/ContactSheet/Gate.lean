import ContactSheet.Duration

/-!
# The gate that spaces previews

A `Gate` lets a preview pass when its interval has gone by since the last one that was shown, and tells otherwise how long is left.
Only `Gate.mark` notes a preview; asking changes nothing. A moment before the last preview counts as the same moment.
-/

namespace ContactSheet

/-- The least time between previews, and the moment of the last one. -/
structure Gate where
  interval : Duration
  lastEmit : Option Duration := none
  deriving DecidableEq, Repr

/-- What a gate says at a moment. -/
inductive Verdict where
  | allow
  /-- The gate opens when this much time has gone by. -/
  | suppress (remaining : Duration)
  deriving DecidableEq, Repr

/-- What the gate says at a moment. -/
def Gate.check (g : Gate) (now : Duration) : Verdict :=
  if g.interval = 0 then .allow
  else
    match g.lastEmit with
    | none => .allow
    | some last => if g.interval ≤ now - last then .allow else .suppress (g.interval - (now - last))

/-- The gate is open. -/
def Gate.ready (g : Gate) (now : Duration) : Bool := g.check now = .allow

/-- The gate after a preview was shown. -/
def Gate.mark (g : Gate) (now : Duration) : Gate := { g with lastEmit := some now }

/-- Passes the gate if it is open, which notes a preview. -/
def Gate.acquire (g : Gate) (now : Duration) : Bool × Gate := if g.ready now then (true, g.mark now) else (false, g)

end ContactSheet
