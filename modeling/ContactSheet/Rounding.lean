/-!
# Rounding: the nearest whole number, and a fixed number of significant bits

Sizes and sampling positions are computed as a machine computes them, each result rounded to a fixed number of significant
bits. Every value that occurs is a whole multiple of a unit fine enough to lose nothing, so the rounding is a function on natural
numbers: `nearest` rounds a quotient to a whole number, `significant` rounds it to so many leading bits. In both a tie goes to
the even neighbour.
-/

namespace ContactSheet

/-- The whole number nearest to `n / d`; of two equally near ones the even one. -/
def nearest (n d : Nat) : Nat :=
  let q := n / d
  let r := n % d
  if 2 * r < d ∨ (2 * r = d ∧ q % 2 = 0) then q else q + 1

/-- The whole number nearest to `n / d`; of two equally near ones the larger one. -/
def nearestUp (n d : Nat) : Nat := (2 * n + d) / (2 * d)

/-- The powers of two that a sampling position or a blend asks for. -/
def powersOfTwo : Vector Nat 64 := Vector.ofFn fun k => 1 <<< k.val

/-- A power of two, taken from the table when it is there. -/
def powerOfTwo (k : Nat) : Nat := if h : k < 64 then powersOfTwo[k] else 1 <<< k

/-- The table holds what it says. -/
@[simp] theorem powerOfTwo_eq (k : Nat) : powerOfTwo k = 1 <<< k := by
  unfold powerOfTwo
  split
  · simp [powersOfTwo]
  · rfl

/-- The quotient `n / d` with its leading `p` bits kept, rounded to the nearest, ties to even. A quotient of fewer than `p` bits is
rounded to a whole number. -/
def significant (p n d : Nat) : Nat :=
  let step := powerOfTwo ((n / d).log2 + 1 - p)
  nearest n (d * step) * step

/-- The nearest whole number is less than one unit and at most half a unit away. -/
theorem nearest_bounds (n : Nat) {d : Nat} (hd : 0 < d) :
    2 * n ≤ 2 * d * nearest n d + d ∧ 2 * d * nearest n d ≤ 2 * n + d := by
  have hn := Nat.div_add_mod n d
  have hr := Nat.mod_lt n hd
  have e : 2 * d * (n / d) = 2 * (d * (n / d)) := by rw [Nat.mul_assoc]
  have e' : 2 * d * (n / d + 1) = 2 * (d * (n / d)) + 2 * d := by rw [Nat.mul_add, Nat.mul_assoc, Nat.mul_one]
  unfold nearest
  simp only []
  split
  · constructor <;> omega
  · constructor <;> omega

end ContactSheet
