/-!
# Shortest decimals: the fewest digits that read back as the same number

A finite double is exactly `mantissa · 2 ^ exponent`, and the reals that round to it form an interval around it, which holds its
ends when the mantissa is even. `Magnitude.shortest?` takes the coarsest power of ten with a multiple in that interval, and of its
multiples there the one nearest to the number; which of two equally near ones it takes is the choice of the format (`Tie`).
`plainText` writes the result without an exponent.
-/

namespace ContactSheet

/-- The size of a finite double: `mantissa · 2 ^ exponent`. -/
structure Magnitude where
  mantissa : Nat
  exponent : Int
  deriving DecidableEq, Repr

/-- A decimal: `digits · 10 ^ exponent`. -/
structure Decimal where
  digits : Nat
  exponent : Int
  deriving DecidableEq, Repr

/-- The sign bit, which a zero and a number that is none have as well. -/
def signBit (x : Float) : Bool := x.toBits.toNat >>> 63 = 1

/-- The size of a double, none when it is infinite or no number. -/
def magnitude? (x : Float) : Option Magnitude :=
  let bits := x.toBits.toNat
  let field : Nat := bits >>> 52 % 0x800
  let fraction : Nat := bits % 0x10000000000000
  if field = 2047 then none
  else if field = 0 then some ⟨fraction, -1074⟩
  else some ⟨0x10000000000000 + fraction, field - 1075⟩

/-- The number, the two ends of the interval that rounds to it, and the power of ten `10 ^ k`, all as multiples of one unit. -/
structure Magnitude.Scaled where
  value : Nat
  low : Nat
  high : Nat
  grid : Nat

/-- The interval ends half way to the next double on either side; below a power of two that one is half as far. -/
def Magnitude.scaled (m : Magnitude) (k : Int) : Magnitude.Scaled :=
  let unit := 1 <<< (m.exponent - 2).toNat * Nat.pow 10 (-k).toNat
  let below := if m.mantissa = 0x10000000000000 ∧ -1074 < m.exponent then 1 else 2
  { value := 4 * m.mantissa * unit
    low := (4 * m.mantissa - below) * unit
    high := (4 * m.mantissa + 2) * unit
    grid := Nat.pow 10 k.toNat * 1 <<< (2 - m.exponent).toNat }

/-- Which of two equally near decimals is taken: the larger one, or the one with an even last digit. -/
inductive Tie where
  | up | even
  deriving DecidableEq, Repr

/-- The multiple of `10 ^ k` that reads back as the number, the nearest one if there are several. -/
def Magnitude.onGrid? (m : Magnitude) (tie : Tie) (k : Int) : Option Nat :=
  let s := m.scaled k
  let inside (c : Nat) : Bool :=
    if m.mantissa % 2 = 0 then s.low ≤ c * s.grid ∧ c * s.grid ≤ s.high else s.low < c * s.grid ∧ c * s.grid < s.high
  let down := s.value / s.grid
  let middle := (2 * down + 1) * s.grid
  let downNearer := 2 * s.value < middle ∨ (2 * s.value = middle ∧ tie = .even ∧ down % 2 = 0)
  if inside down ∧ (¬ inside (down + 1) ∨ downNearer) then some down
  else if inside (down + 1) then some (down + 1)
  else none

/-- The shortest decimal that reads back as the number: the first hit from the coarsest power of ten down. Zero has none. -/
def Magnitude.shortest? (m : Magnitude) (tie : Tie) : Option Decimal :=
  if m.mantissa = 0 then none
  else (List.range 640).findSome? fun (i : Nat) => (m.onGrid? tie (310 - (i : Int))).map fun c => ⟨c, 310 - (i : Int)⟩

/-- The digits of a decimal before and after the point, without an exponent; no digit stands for zero before it. -/
def Decimal.split (d : Decimal) : List Char × List Char :=
  let digits := Nat.toDigits 10 d.digits
  let places := (-d.exponent).toNat
  (digits.take (digits.length - places) ++ List.replicate d.exponent.toNat '0',
    List.replicate (places - digits.length) '0' ++ digits.drop (digits.length - places))

/-- A decimal written without an exponent; a whole number has no point. -/
def Decimal.positional (d : Decimal) : List Char :=
  match d.split with
  | (whole, []) => whole
  | (whole, fraction) => (if whole.isEmpty then ['0'] else whole) ++ '.' :: fraction

/-- A double written with the fewest digits that read back, never with an exponent; ties go up. -/
def plainText (x : Float) : String :=
  match magnitude? x with
  | none => if x != x then "NaN" else if signBit x then "-inf" else "inf"
  | some m =>
    let body := match m.shortest? .up with
      | some d => d.positional
      | none => ['0']
    String.ofList (if signBit x then '-' :: body else body)

end ContactSheet
