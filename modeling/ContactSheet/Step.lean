import ContactSheet.Cycle

/-!
# Preview steps

A host asks for a preview at every step of a generation. `Previewer.attempt` answers with an `Outcome`, or with the error that
ended the cycle; `Previewer.step` reports that error and makes it an outcome of its own. A preview is noted by the gate only when
a sheet was made, so a step that makes none does not put the next one off.
-/

namespace ContactSheet

/-- How a step ended. -/
inductive Outcome where
  /-- Previews are switched off. -/
  | disabled
  /-- The last preview was too short a time ago. -/
  | throttled
  /-- There was nothing to show, or nothing to show it with. -/
  | skipped
  /-- The generation was cancelled. -/
  | cancelled
  /-- An error ended the cycle. -/
  | failed (error : PreviewError)
  /-- A new sheet. -/
  | emitted (image : Image)
  deriving Repr

/-- The sheet of a step that made one. -/
def Outcome.image? : Outcome → Option Image
  | .emitted image => some image
  | _ => none

/-- The step made a sheet. -/
def Outcome.isEmitted (o : Outcome) : Bool := o.image?.isSome

/-- What a step leaves behind: its result, the session and what the decoders remember, the calls it made and what it reported. -/
structure Report (σ α : Type) where
  result : α
  session : Session
  memory : σ
  calls : List Call := []
  events : List Event := []

variable {σ : Type}

/-- What a cycle leaves behind, with a change to its session and one more event. -/
def Cycle.finish {α : Type} (c : Cycle σ) (result : α) (change : Session → Session) (events : List Event) : Report σ α :=
  ⟨result, change c.session, c.memory, c.calls, c.events ++ events⟩

/-- The session after one more step was asked for. -/
def Session.invoked (s : Session) : Session := { s with stats := { s.stats with invocations := s.stats.invocations + 1 } }

/-- The session after the gate held a step back. -/
def Session.heldBack (s : Session) : Session := { s with stats := { s.stats with throttled := s.stats.throttled + 1 } }

/-- The session after an error ended a cycle. -/
def Session.failed (s : Session) : Session := { s with stats := { s.stats with failures := s.stats.failures + 1 } }

/-- The session after a sheet was made at a moment. -/
def Session.showed (now : Duration) (s : Session) : Session :=
  { s with gate := s.gate.mark now, stats := { s.stats with emitted := s.stats.emitted + 1 } }

/-- What a step at a moment comes to after its cycle. -/
def Cycle.close (now : Duration) :
    Except PreviewError (Option Image) × Cycle σ → Report σ (Except PreviewError Outcome)
  | (.ok (some image), c) => c.finish (.ok (.emitted image)) (Session.showed now) [.emitted image.size]
  | (.ok none, c) => c.finish (.ok .skipped) id []
  | (.error .cancelled, c) => c.finish (.ok .cancelled) id [.cancelled]
  | (.error e, c) => c.finish (.error e) Session.failed []

/-- One step at a moment, counted from the start of the session. An error of the cycle is handed to the caller. -/
def Previewer.attempt (p : Previewer) (ds : Decoders σ) (batch : Batch) (now : Duration) (session : Session) (memory : σ) :
    Report σ (Except PreviewError Outcome) :=
  let session := session.invoked
  if !p.settings.enabled then ⟨.ok .disabled, session, memory, [], []⟩
  else
    match session.gate.check now with
    | .suppress remaining => ⟨.ok .throttled, session.heldBack, memory, [], [.throttled remaining]⟩
    | .allow => Cycle.close now (p.render ds batch session memory)

/-- What a step leaves behind when its error is reported instead. -/
def Report.told (r : Report σ (Except PreviewError Outcome)) : Report σ Outcome :=
  match r.result with
  | .ok outcome => { r with result := outcome }
  | .error e => { r with result := .failed e, events := r.events ++ [.failed e] }

/-- One step at a moment, counted from the start of the session. It never fails: an error of the cycle is reported. -/
def Previewer.step (p : Previewer) (ds : Decoders σ) (batch : Batch) (now : Duration) (session : Session) (memory : σ) :
    Report σ Outcome :=
  (p.attempt ds batch now session memory).told

end ContactSheet
