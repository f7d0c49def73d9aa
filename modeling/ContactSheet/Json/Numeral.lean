import ContactSheet.Json.Basic
import ContactSheet.Decimal.Shortest

/-!
# What a JSON number is worth

A number is an integer when it is written with a sign and digits alone and fits 64 bits, signed or unsigned; a minus before zero
makes it no integer. Any number is also worth a double, unless that would be infinite. Of a number that is no integer the double
is worked out in the reader's own way: digits are gathered while they fit 64 bits and the others only move the point, and the
gathered whole number is then multiplied or divided once by a power of ten. The result is the nearest double for numbers of
ordinary length and may be off by a last bit for longer ones.

In the other direction an integer is written by its digits and a double by the fewest digits that read back, ties to the even
digit, with a signed exponent outside `10 ^ -5 ≤ x < 10 ^ 16`.
-/

namespace ContactSheet

namespace Json

/-- The worth of a digit. -/
def digitValue (c : Char) : Nat := c.toNat - '0'.toNat

/-- The worth of a row of digits. -/
def digitsValue (ds : List Char) : Nat := Nat.ofDigitChars 10 ds 0

/-- The integer that a number is: unsigned up to 64 bits, negative down to `-2 ^ 63`. -/
def Number.integer? (n : Number) : Option Int :=
  if n.fraction.isNone ∧ n.exponent.isNone then
    let v := digitsValue n.whole
    if n.negative then (if 1 ≤ v ∧ v ≤ 0x8000000000000000 then some (-(v : Int)) else none)
    else if v < 0x10000000000000000 then some v
    else none
  else none

/-- Gathers digits onto a whole number for as long as it fits 64 bits, and returns it with the digits left over. -/
def gather : Nat → List Char → Nat × List Char
  | v, [] => (v, [])
  | v, d :: ds => if v * 10 + digitValue d < 0x10000000000000000 then gather (v * 10 + digitValue d) ds else (v, d :: ds)

/-- `x` times `10 ^ e`, none when that is too large; every power that occurs is taken from the table of doubles up to `10 ^ 308`, so
a smaller one is reached in steps. -/
def scale? (x : Float) (e : Int) : Option Float :=
  if e.natAbs ≤ 308 then
    let power := Float.ofScientific 1 false e.natAbs
    if 0 ≤ e then
      let y := x * power
      if y.isInf then none else some y
    else some (x / power)
  else if x == 0 then some x
  else if 0 ≤ e then none
  else scale? (x / Float.ofScientific 1 false 308) (e + 308)
termination_by e.natAbs
decreasing_by omega

/-- The size of the double that a number is worth, none when it is too large. An exponent of 32 bits or more counts as boundless. -/
def Number.size? (n : Number) : Option Float :=
  let whole := gather 0 n.whole
  let fraction := gather whole.1 (n.fraction.getD [])
  let taken : Nat := (n.fraction.getD []).length - fraction.2.length
  let start : Int := (whole.2.length : Int) - (taken : Int)
  let x := fraction.1.toUInt64.toFloat
  match n.exponent with
  | none => scale? x start
  | some (down, ds) =>
    let e := digitsValue ds
    if 0x80000000 ≤ e then (if fraction.1 ≠ 0 ∧ ¬ down then none else some 0)
    else scale? x (if down then start - (e : Int) else start + (e : Int))

/-- The double that a number is worth, none when it is too large. -/
def Number.float? (n : Number) : Option Float :=
  match n.integer? with
  | some v => some (if v < 0 then -v.natAbs.toUInt64.toFloat else v.natAbs.toUInt64.toFloat)
  | none => n.size?.map fun x => if n.negative then -x else x

/-- An integer as a number. -/
def Number.ofInt (v : Int) : Number := ⟨v < 0, Nat.toDigits 10 v.natAbs, none, none⟩

/-- A positive decimal as a number: with a point and at least one digit on either side of it for sizes from `10 ^ -5` up to
`10 ^ 16`, else with one digit before the point and an exponent of as few digits as it takes. -/
def Number.ofDecimal (negative : Bool) (d : Decimal) : Number :=
  let ds := Nat.toDigits 10 d.digits
  let point : Int := (ds.length : Int) + d.exponent
  if -5 < point ∧ point ≤ 16 then
    let parts := d.split
    ⟨negative, if parts.1.isEmpty then ['0'] else parts.1, some (if parts.2.isEmpty then ['0'] else parts.2), none⟩
  else
    ⟨negative, ds.take 1, if ds.length = 1 then none else some (ds.drop 1),
      some (point - 1 < 0, Nat.toDigits 10 (point - 1).natAbs)⟩

end Json

/-- A natural number as a JSON value. -/
def Json.ofNat (v : Nat) : Json := .number (.ofInt v)

/-- An integer as a JSON value. -/
def Json.ofInt (v : Int) : Json := .number (.ofInt v)

/-- A double as a JSON value, null when it is infinite or no number. -/
def Json.ofFloat (x : Float) : Json :=
  match magnitude? x with
  | none => .null
  | some m =>
    match m.shortest? .even with
    | some d => .number (.ofDecimal (signBit x) d)
    | none => .number ⟨signBit x, ['0'], some ['0'], none⟩

end ContactSheet
