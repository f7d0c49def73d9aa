import ContactSheet.Proofs.Fitting
import Mathlib.Algebra.Order.Round
import Mathlib.Data.Rat.Floor
import Mathlib.Tactic.FieldSimp
import Mathlib.Tactic.Linarith
import Mathlib.Tactic.Positivity

/-!
# How far rounding moves a number

A quotient rounded to so many significant bits is a multiple of a power of two, and it has all of these bits in front of that power
unless the power is one (`exists_significant_eq`). So it does not fall below a bound that these bits can hold (`le_significant`, the
other half of `significant_le`), and a quotient that has as many bits moves by no more than its share of them (`significant_error`).
-/

namespace ContactSheet

/-! ## Whole numbers -/

/-- The nearest whole number does not fall below a whole number. -/
theorem le_nearest {n d v : Nat} (hd : 0 < d) (hn : v * d ≤ n) : v ≤ nearest n d := by
  have hnear : 2 * n ≤ 2 * d * nearest n d + d := (nearest_bounds n hd).1
  have hlt : 2 * d * v < 2 * d * (nearest n d + 1) := by
    have e : 2 * d * v = 2 * (v * d) := by ring
    have e' : 2 * d * (nearest n d + 1) = 2 * d * nearest n d + 2 * d := by ring
    omega
  exact Nat.le_of_lt_succ (Nat.lt_of_mul_lt_mul_left hlt)

/-- The nearest whole number, ties upwards, does not fall below a whole number that is at most half a unit above. -/
theorem le_nearestUp {n d v : Nat} (hd : 0 < d) (hn : 2 * (v * d) ≤ 2 * n + d) : v ≤ nearestUp n d := by
  refine (Nat.le_div_iff_mul_le (by omega)).2 ?_
  have e : v * (2 * d) = 2 * (v * d) := by ring
  omega

/-- The nearest whole number, ties upwards, does not pass a whole number that is less than half a unit below. -/
theorem nearestUp_le_of_lt {n d v : Nat} (hn : 2 * n < 2 * (v * d) + d) : nearestUp n d ≤ v := by
  have e : 2 * d * (v + 1) = 2 * (v * d) + 2 * d := by ring
  exact Nat.le_of_lt_succ (Nat.div_lt_of_lt_mul (by rw [e]; omega))

/-- The nearest whole number, ties upwards, is the quotient rounded to a whole number, halves up. -/
theorem nearestUp_eq_round (n : Nat) {d : Nat} (hd : 0 < d) : (nearestUp n d : ℤ) = round ((n : ℚ) / d) := by
  have hd' : (d : ℚ) ≠ 0 := Nat.cast_ne_zero.2 (Nat.ne_of_gt hd)
  have hsum : (n : ℚ) / d + 1 / 2 = ((2 * n + d : ℕ) : ℚ) / ((2 * d : ℕ) : ℚ) := by
    push_cast
    field_simp
  rw [round_eq, hsum, Rat.floor_natCast_div_natCast, nearestUp, Int.natCast_ediv]

/-- The nearest whole number, ties upwards, is at most half a unit away. -/
theorem nearestUp_error (n : Nat) {d : Nat} (hd : 0 < d) : |(nearestUp n d : ℚ) - n / d| ≤ 1 / 2 := by
  have hround : (nearestUp n d : ℚ) = (round ((n : ℚ) / d) : ℤ) := by
    rw [← nearestUp_eq_round n hd, Int.cast_natCast]
  rw [hround, abs_sub_comm]
  exact abs_sub_round _

/-- The nearest whole number is at most half a unit away. -/
theorem nearest_error (n : Nat) {d : Nat} (hd : 0 < d) : |(nearest n d : ℚ) - n / d| ≤ 1 / 2 := by
  obtain ⟨hlow, hhigh⟩ := nearest_bounds n hd
  have hlow' : 2 * (n : ℚ) ≤ 2 * d * nearest n d + d := by exact_mod_cast hlow
  have hhigh' : 2 * d * (nearest n d : ℚ) ≤ 2 * n + d := by exact_mod_cast hhigh
  have hd' : (0 : ℚ) < d := Nat.cast_pos.2 hd
  rw [abs_sub_le_iff, sub_le_comm, le_div_iff₀ hd', sub_le_iff_le_add, div_le_iff₀ hd']
  constructor <;> linarith

/-! ## Significant bits -/

/-- A quotient rounded to `p` significant bits is a multiple of a power of two, and unless that is one the quotient has `p` bits in
front of it. -/
theorem exists_significant_eq {p : Nat} (hp : 0 < p) (n d : Nat) :
    ∃ j, significant p n d = nearest n (d * 2 ^ j) * 2 ^ j ∧ (j = 0 ∨ 2 ^ (p - 1 + j) * d ≤ n) := by
  refine ⟨(n / d).log2 + 1 - p, by simp only [significant, powerOfTwo_eq, Nat.one_shiftLeft], ?_⟩
  rcases Nat.eq_zero_or_pos ((n / d).log2 + 1 - p) with hj | hj
  · exact Or.inl hj
  · have hquotient : n / d ≠ 0 := by
      intro h0
      rw [h0, Nat.log2_zero] at hj
      omega
    have hbits : p - 1 + ((n / d).log2 + 1 - p) = (n / d).log2 := by omega
    rw [hbits]
    exact Or.inr (Nat.mul_le_of_le_div _ _ _ (Nat.log2_self_le hquotient))

/-- A quotient rounded to `p` significant bits does not fall below a number that has no more of them. -/
theorem le_significant {p n d t k : Nat} (hp : 0 < p) (hd : 0 < d) (ht : t < 2 ^ p) (hn : t * 2 ^ k * d ≤ n) :
    t * 2 ^ k ≤ significant p n d := by
  obtain ⟨j, hj, hbits⟩ := exists_significant_eq hp n d
  have hstep : 0 < d * 2 ^ j := Nat.mul_pos hd (Nat.two_pow_pos j)
  rw [hj]
  rcases Nat.lt_or_ge k j with hlt | hle
  · -- The quotient has more bits than the bound.
    have hmost : 2 ^ (p - 1 + j) * d ≤ n := hbits.resolve_left (by omega)
    have hnear : 2 ^ (p - 1) ≤ nearest n (d * 2 ^ j) := by
      refine le_nearest hstep ?_
      rwa [Nat.mul_comm d, ← Nat.mul_assoc, ← Nat.pow_add]
    calc t * 2 ^ k ≤ 2 ^ p * 2 ^ k := Nat.mul_le_mul_right _ ht.le
      _ = 2 ^ (p + k) := (Nat.pow_add 2 p k).symm
      _ ≤ 2 ^ (p - 1 + j) := Nat.pow_le_pow_right (by decide) (by omega)
      _ = 2 ^ (p - 1) * 2 ^ j := Nat.pow_add 2 _ j
      _ ≤ nearest n (d * 2 ^ j) * 2 ^ j := Nat.mul_le_mul_right _ hnear
  · -- The bound lies on the grid that is rounded to.
    have hgrid : t * 2 ^ k = t * 2 ^ (k - j) * 2 ^ j := by
      rw [Nat.mul_assoc, ← Nat.pow_add, Nat.sub_add_cancel hle]
    rw [hgrid] at hn ⊢
    refine Nat.mul_le_mul_right (2 ^ j) (le_nearest hstep ?_)
    rwa [Nat.mul_comm d, ← Nat.mul_assoc]

/-- A quotient of `p` bits or more, rounded to `p` significant bits, moves by no more than its `2 ^ p`-th part. -/
theorem significant_error {p n d : Nat} (hp : 0 < p) (hd : 0 < d) (h : 2 ^ (p - 1) * d ≤ n) :
    |(significant p n d : ℚ) - n / d| ≤ n / d / 2 ^ p := by
  obtain ⟨j, hj, hbits⟩ := exists_significant_eq hp n d
  have hd' : (0 : ℚ) < d := Nat.cast_pos.2 hd
  have hstep : (0 : ℚ) < 2 ^ j := by positivity
  have hmost : 2 ^ (p - 1 + j) * d ≤ n := by
    rcases hbits with rfl | hbits
    · exact h
    · exact hbits
  -- Half a step of the grid is no more than that part.
  have hpart : (2 : ℚ) ^ j / 2 ≤ n / d / 2 ^ p := by
    have hmost' : (2 : ℚ) ^ (p - 1 + j) * d ≤ n := by exact_mod_cast hmost
    have hpow : (2 : ℚ) ^ j * 2 ^ p = 2 ^ (p - 1 + j) * 2 := by
      rw [← pow_add, ← pow_succ]
      congr 1
      omega
    rw [div_div, div_le_div_iff₀ (by norm_num) (by positivity)]
    calc (2 : ℚ) ^ j * (d * 2 ^ p) = 2 ^ j * 2 ^ p * d := by ring
      _ = 2 ^ (p - 1 + j) * d * 2 := by rw [hpow]; ring
      _ ≤ n * 2 := by linarith
  have herror := nearest_error n (Nat.mul_pos hd (Nat.two_pow_pos j))
  rw [hj]
  push_cast at herror ⊢
  calc |(nearest n (d * 2 ^ j) : ℚ) * 2 ^ j - n / d| = |(nearest n (d * 2 ^ j) : ℚ) - n / (d * 2 ^ j)| * 2 ^ j := by
        rw [← abs_of_pos hstep, ← abs_mul, abs_of_pos hstep, sub_mul, ← div_div, div_mul_cancel₀ _ hstep.ne']
    _ ≤ 1 / 2 * 2 ^ j := mul_le_mul_of_nonneg_right herror hstep.le
    _ = 2 ^ j / 2 := by ring
    _ ≤ n / d / 2 ^ p := hpart

end ContactSheet
