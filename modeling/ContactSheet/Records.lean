import ContactSheet.Grid
import ContactSheet.Session

/-!
# Records that are kept as JSON

The stages of a decoder, a grid and the counters of a session, each as a record with its fields in order. Reading one needs every
field.
-/

namespace ContactSheet

/-- A natural number of 32 bits. -/
def word32? : Option Json → Option Nat := Json.required? (Json.nat? 0x100000000)

/-- A natural number of 64 bits. -/
def word64? : Option Json → Option Nat := Json.required? (Json.nat? 0x10000000000000000)

/-- The stages of a decoder as a JSON value. -/
def Stages.toJson (s : Stages) : Json := .ofFields [("upscale_layers", .ofNat s.count)]

/-- The stages that a JSON record gives. -/
def Stages.ofJson? (v : Json) : Option Stages := do
  match ← v.fields? [["upscale_layers"]] with
  | [count] => return ⟨← word32? count⟩
  | _ => none

/-- A grid as a JSON value. -/
def Grid.toJson (g : Grid) : Json :=
  .ofFields [("selected_indices", .array (g.picks.map Json.ofNat)), ("columns", .ofNat g.columns)]

/-- The grid that a JSON record gives. -/
def Grid.ofJson? (v : Json) : Option Grid := do
  match ← v.fields? [["selected_indices"], ["columns"]] with
  | [picks, columns] => return ⟨← Json.required? (Json.list? (Json.nat? 0x10000000000000000)) picks, ← word64? columns⟩
  | _ => none

/-- Counters as a JSON value. -/
def Stats.toJson (s : Stats) : Json :=
  .ofFields [("invocations", .ofNat s.invocations), ("emitted", .ofNat s.emitted), ("throttled", .ofNat s.throttled),
    ("fallback_decodes", .ofNat s.fallbackDecodes), ("oom_events", .ofNat s.oomEvents), ("failures", .ofNat s.failures),
    ("last_decode_time_ms", .ofNat s.lastDecodeMs)]

/-- The counters that a JSON record gives. -/
def Stats.ofJson? (v : Json) : Option Stats := do
  match ← v.fields? [["invocations"], ["emitted"], ["throttled"], ["fallback_decodes"], ["oom_events"], ["failures"],
      ["last_decode_time_ms"]] with
  | [invocations, emitted, throttled, fallbackDecodes, oomEvents, failures, lastDecodeMs] =>
    return {
      invocations := ← word64? invocations
      emitted := ← word64? emitted
      throttled := ← word64? throttled
      fallbackDecodes := ← word64? fallbackDecodes
      oomEvents := ← word64? oomEvents
      failures := ← word64? failures
      lastDecodeMs := ← word32? lastDecodeMs }
  | _ => none

end ContactSheet
