import ContactSheet.Rounding
import ContactSheet.Decimal.Shortest

/-!
# Spans of time

A span of time is a whole number of nanoseconds. One given in seconds as a double is rounded to the nearest nanosecond, ties to
even; it must be a number, not negative, and of less than `2 ^ 64` seconds.
-/

namespace ContactSheet

/-- A span of time, in nanoseconds. A moment is the span since the start of its session. -/
abbrev Duration := Nat

/-- So many whole seconds and nanoseconds. -/
def Duration.ofParts (seconds nanoseconds : Nat) : Duration := seconds * 1000000000 + nanoseconds

/-- The whole seconds of a span, and the nanoseconds left. -/
def Duration.parts (d : Duration) : Nat × Nat := (d / 1000000000, d % 1000000000)

/-- The whole milliseconds of a span, counted in 64 bits. -/
def Duration.milliseconds (d : Duration) : Nat := d / 1000000 % 0x10000000000000000

/-- The span of so many seconds. -/
def Duration.ofSeconds? (seconds : Float) : Option Duration :=
  if seconds < 0 then none
  else
    match magnitude? seconds with
    | none => none
    | some m =>
      let whole := m.mantissa <<< m.exponent.toNat
      let part := 1 <<< (-m.exponent).toNat
      if whole < 0x10000000000000000 * part then some (nearest (whole * 1000000000) part) else none

end ContactSheet
