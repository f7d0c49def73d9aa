import ContactSheet.Size
import Mathlib.Tactic.Ring

/-!
# What rounding does to a fitted size

A quotient rounded to so many significant bits does not pass a bound that these bits can hold (`significant_le`). A whole side is
such a bound, so a size is never fitted to a larger one, though its scale and its scaled sides are rounded: `Size.fitWithin_le`.
-/

namespace ContactSheet

/-! ## Rounding -/

/-- The nearest whole number does not pass a whole number. -/
theorem nearest_le {n d v : Nat} (hd : 0 < d) (hn : n ≤ v * d) : nearest n d ≤ v := by
  have hnear : 2 * d * nearest n d ≤ 2 * n + d := (nearest_bounds n hd).2
  have hlt : 2 * d * nearest n d < 2 * d * (v + 1) := by
    have e : 2 * d * (v + 1) = 2 * (v * d) + 2 * d := by ring
    omega
  exact Nat.le_of_lt_succ (Nat.lt_of_mul_lt_mul_left hlt)

/-- The nearest whole number, ties upwards, does not pass a whole number. -/
theorem nearestUp_le {n d v : Nat} (hd : 0 < d) (hn : n ≤ v * d) : nearestUp n d ≤ v := by
  have e : 2 * d * (v + 1) = 2 * (v * d) + 2 * d := by ring
  exact Nat.le_of_lt_succ (Nat.div_lt_of_lt_mul (by rw [e]; omega))

/-- Half of a divisor added before a division rounds to the nearest. -/
theorem nearestUp_eq (n d : Nat) : nearestUp n d = (n + d / 2) / d := by
  unfold nearestUp
  rcases Nat.eq_zero_or_pos d with rfl | hd
  · rw [Nat.mul_zero, Nat.div_zero, Nat.div_zero]
  · have h := Nat.div_add_mod (n + d / 2) d
    have hlt := Nat.mod_lt (n + d / 2) hd
    have e : 2 * d * ((n + d / 2) / d) = 2 * (d * ((n + d / 2) / d)) := Nat.mul_assoc 2 d _
    exact Nat.div_eq_of_lt_le (by rw [Nat.mul_comm]; omega) (by rw [Nat.add_mul, Nat.mul_comm ((n + d / 2) / d)]; omega)

/-- A quotient rounded to `p` significant bits does not pass a number that has no more of them. -/
theorem significant_le {p n d t k : Nat} (hp : 0 < p) (hd : 0 < d) (ht : t < 1 <<< p) (hn : n ≤ t * (1 <<< k) * d) :
    significant p n d ≤ t * (1 <<< k) := by
  have hk : (n / d).log2 + 1 - p ≤ k := by
    rcases Nat.eq_zero_or_pos (n / d) with h0 | h0
    · rw [h0, Nat.log2_zero]
      omega
    · have hle : n / d ≤ t * (1 <<< k) := Nat.div_le_of_le_mul (by rwa [Nat.mul_comm])
      rw [Nat.one_shiftLeft] at ht hle
      have hlt : n / d < 2 ^ (p + k) := by
        calc n / d ≤ t * 2 ^ k := hle
          _ < 2 ^ p * 2 ^ k := Nat.mul_lt_mul_of_pos_right ht (Nat.two_pow_pos k)
          _ = 2 ^ (p + k) := (Nat.pow_add 2 p k).symm
      have hlog : (n / d).log2 < p + k := (Nat.log2_lt (Nat.ne_of_gt h0)).2 hlt
      omega
  simp only [significant, powerOfTwo_eq]
  generalize (n / d).log2 + 1 - p = j at hk ⊢
  -- The bound lies on the grid that is rounded to.
  have hgrid : t * (1 <<< k) = t * (1 <<< (k - j)) * (1 <<< j) := by
    simp only [Nat.one_shiftLeft]
    rw [Nat.mul_assoc, ← Nat.pow_add, Nat.sub_add_cancel hk]
  have hstep : 0 < 1 <<< j := by
    rw [Nat.one_shiftLeft]
    exact Nat.two_pow_pos j
  rw [hgrid] at hn ⊢
  refine Nat.mul_le_mul_right (1 <<< j) (nearest_le (Nat.mul_pos hd hstep) ?_)
  rwa [Nat.mul_comm d, ← Nat.mul_assoc]

/-! ## Fitting -/

/-- A side that is scaled down does not grow. -/
theorem Fit.scaleSide_le {side scale : Nat} (bound : Nat) (hs : 1 ≤ side) (hs' : side < 0x100000000) (hscale : scale ≤ Fit.one) :
    Fit.scaleSide side scale bound ≤ side := by
  have hone : 0 < Fit.one := by decide
  have hscaled : significant 53 (side * scale) 1 ≤ side * Fit.one := by
    refine significant_le (k := 84) (by decide) Nat.one_pos (hs'.trans (by decide)) ?_
    rw [Nat.mul_one]
    exact Nat.mul_le_mul_left side hscale
  have hround : nearestUp (significant 53 (side * scale) 1) Fit.one ≤ side := nearestUp_le hone hscaled
  unfold Fit.scaleSide
  omega

/-- A size with sides of 32 bits is not fitted to a larger one. -/
theorem Size.fitWithin_le {source : Size} (bound : Size) (hw : 1 ≤ source.width) (hw' : source.width ≤ maxSide)
    (hh : 1 ≤ source.height) (hh' : source.height ≤ maxSide) :
    (source.fitWithin bound).width ≤ source.width ∧ (source.fitWithin bound).height ≤ source.height := by
  simp only [Size.fitWithin, Nat.max_eq_left hw, Nat.max_eq_left hh]
  constructor
  · exact Fit.scaleSide_le bound.width hw (Nat.lt_succ_of_le hw') (Nat.min_le_right _ _)
  · exact Fit.scaleSide_le bound.height hh (Nat.lt_succ_of_le hh') (Nat.min_le_right _ _)

end ContactSheet
