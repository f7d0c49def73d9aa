import ContactSheet.Proofs.Layout
import ContactSheet.Proofs.Precision

/-!
# The proportions of a fitted size

The scale of a size is the smallest of three numbers, each of which is rounded by no more than its `2 ^ 53`-th part, and so is their
minimum (`min_error`). Scaling a side of 32 bits by it and rounding again comes within three quarters of a pixel of the exact product
(`Fit.Near.scaled_error`). A whole product is met exactly, so the side that limits the scale fills its bound, and the other side keeps
the proportions to less than a pixel: `Size.fitWithin_largest`.
-/

namespace ContactSheet

/-! ## The scale -/

/-- Two rounded numbers, each within a share of its exact value, have a minimum within that share of the exact minimum. -/
theorem min_error {a b x y share : ℚ} (hshare : share ≤ 1) (ha : |a - x| ≤ x * share) (hb : |b - y| ≤ y * share) :
    |min a b - min x y| ≤ min x y * share := by
  obtain ⟨ha, ha'⟩ := abs_le.1 ha
  obtain ⟨hb, hb'⟩ := abs_le.1 hb
  have hrest : 0 ≤ 1 - share := by linarith
  rw [abs_le]
  rcases le_total x y with h | h
  · have hmono : x * (1 - share) ≤ y * (1 - share) := mul_le_mul_of_nonneg_right h hrest
    have hlow : x - x * share ≤ min a b := le_min (by linarith) (by linarith)
    have hhigh : min a b ≤ a := min_le_left a b
    rw [min_eq_left h]
    constructor <;> linarith
  · have hmono : y * (1 - share) ≤ x * (1 - share) := mul_le_mul_of_nonneg_right h hrest
    have hlow : y - y * share ≤ min a b := le_min (by linarith) (by linarith)
    have hhigh : min a b ≤ b := min_le_right a b
    rw [min_eq_right h]
    constructor <;> linarith

namespace Fit

/-- A scale has all of its bits and is within its `2 ^ 53`-th part of an exact one, which is at most one. -/
structure Near (scale : Nat) (exact : ℚ) : Prop where
  bits : 2 ^ 52 ≤ scale
  error : |(scale : ℚ) - exact * one| ≤ exact * one * (1 / 2 ^ 53)
  nonneg : 0 ≤ exact
  le_one : exact ≤ 1

/-- One, in units of `2 ^ -84`. -/
theorem one_eq : one = 2 ^ 84 := Nat.one_shiftLeft 84

/-- The ratio of a bound to a side of 32 bits has all of its bits. -/
theorem ratio_bits {bound side : Nat} (hb : 1 ≤ bound) (hs : 1 ≤ side) (hs' : side ≤ maxSide) :
    2 ^ 52 * side ≤ bound * one ∧ 2 ^ 52 ≤ ratio bound side := by
  have hside : side ≤ 2 ^ 32 := hs'.trans (by decide)
  have hquotient : 2 ^ 52 * side ≤ bound * one := by
    calc 2 ^ 52 * side ≤ 2 ^ 52 * 2 ^ 32 := Nat.mul_le_mul_left _ hside
      _ = 1 * one := by rw [one_eq, Nat.one_mul, ← Nat.pow_add]
      _ ≤ bound * one := Nat.mul_le_mul_right _ hb
  refine ⟨hquotient, ?_⟩
  have hbits : 1 * 2 ^ 52 ≤ significant 53 (bound * one) side :=
    le_significant (by decide) hs (by decide) (by rwa [Nat.one_mul])
  rwa [Nat.one_mul] at hbits

/-- The ratio of a bound to a side of 32 bits is within its `2 ^ 53`-th part of the exact one. -/
theorem ratio_error {bound side : Nat} (hb : 1 ≤ bound) (hs : 1 ≤ side) (hs' : side ≤ maxSide) :
    |(ratio bound side : ℚ) - (bound : ℚ) / side * one| ≤ (bound : ℚ) / side * one * (1 / 2 ^ 53) := by
  have h := significant_error (p := 53) (by decide) hs (ratio_bits hb hs hs').1
  have hquotient : ((bound * one : ℕ) : ℚ) / side = (bound : ℚ) / side * one := by
    rw [Nat.cast_mul, div_mul_eq_mul_div]
  rw [hquotient] at h
  rwa [mul_one_div]

/-- The exact scale of a size in a bound. -/
def exactScale (source bound : Size) : ℚ :=
  min (min ((bound.width : ℚ) / source.width) ((bound.height : ℚ) / source.height)) 1

/-- The scale of a size with sides of 32 bits is near the exact one. -/
theorem near_exactScale {source bound : Size} (hw : 1 ≤ source.width) (hw' : source.width ≤ maxSide) (hh : 1 ≤ source.height)
    (hh' : source.height ≤ maxSide) (hbw : 1 ≤ bound.width) (hbh : 1 ≤ bound.height) :
    Near (min (min (ratio bound.width source.width) (ratio bound.height source.height)) one) (exactScale source bound) where
  bits := by
    have hone : 2 ^ 52 ≤ one := by decide
    exact le_min (le_min (ratio_bits hbw hw hw').2 (ratio_bits hbh hh hh').2) hone
  error := by
    have hshare : (1 : ℚ) / 2 ^ 53 ≤ 1 := by norm_num
    have hpos : (0 : ℚ) ≤ one := Nat.cast_nonneg one
    have hone : |(one : ℚ) - 1 * one| ≤ 1 * one * (1 / 2 ^ 53) := by
      rw [one_mul, sub_self, abs_zero]
      positivity
    have h := min_error hshare (min_error hshare (ratio_error hbw hw hw') (ratio_error hbh hh hh')) hone
    rw [← min_mul_of_nonneg _ _ hpos, ← min_mul_of_nonneg _ _ hpos] at h
    exact_mod_cast h
  nonneg := by
    unfold exactScale
    positivity
  le_one := min_le_right _ _

/-! ## A scaled side -/

/-- A side scaled and rounded to whole pixels, half a pixel up. -/
def scaled (side scale : Nat) : Nat := nearestUp (significant 53 (side * scale) 1) one

/-- A scaled side is raised to one pixel and cut to its bound. -/
theorem scaleSide_eq (side scale bound : Nat) : scaleSide side scale bound = min (max 1 (scaled side scale)) (max bound 1) := rfl

/-- A side times a scale is within the `2 ^ 53`-th part of the exact product. -/
theorem Near.product_error {scale : Nat} {exact : ℚ} (h : Near scale exact) (side : Nat) :
    |(side : ℚ) * scale - side * exact * 2 ^ 84| ≤ side * exact * 2 ^ 84 / 2 ^ 53 := by
  have hside : (0 : ℚ) ≤ side := Nat.cast_nonneg side
  have hone : ((one : ℕ) : ℚ) = 2 ^ 84 := by exact_mod_cast one_eq
  have herror := h.error
  rw [hone] at herror
  calc |(side : ℚ) * scale - side * exact * 2 ^ 84| = (side : ℚ) * |(scale : ℚ) - exact * 2 ^ 84| := by
        rw [mul_assoc, ← mul_sub, abs_mul, abs_of_nonneg hside]
    _ ≤ side * (exact * 2 ^ 84 * (1 / 2 ^ 53)) := mul_le_mul_of_nonneg_left herror hside
    _ = side * exact * 2 ^ 84 / 2 ^ 53 := by ring

/-- A side of 32 bits that is scaled and rounded to whole pixels is less than a pixel off the exact product. -/
theorem Near.scaled_error {scale : Nat} {exact : ℚ} (h : Near scale exact) {side : Nat} (hs : 1 ≤ side) (hs' : side ≤ maxSide) :
    |(scaled side scale : ℚ) - side * exact| < 3 / 4 := by
  have hbits : 2 ^ 52 * 1 ≤ side * scale := by
    rw [Nat.mul_one]
    exact h.bits.trans (Nat.le_mul_of_pos_left scale hs)
  have hwhole := nearestUp_error (significant 53 (side * scale) 1) (show 0 < one by decide)
  have hscaled := significant_error (p := 53) (by decide) Nat.one_pos hbits
  have hproduct := h.product_error side
  unfold scaled
  rw [one_eq] at hwhole ⊢
  push_cast at hwhole hscaled
  rw [div_one] at hscaled
  -- The exact product is below `2 ^ 32`, so that the errors of the product are tiny against one pixel.
  have hside : (side : ℚ) ≤ 2 ^ 32 := by exact_mod_cast hs'.trans (show maxSide ≤ 2 ^ 32 by decide)
  have hsmall : (side : ℚ) * exact ≤ 2 ^ 32 := (mul_le_of_le_one_right (Nat.cast_nonneg side) h.le_one).trans hside
  have hsmall' : 0 ≤ (side : ℚ) * exact := mul_nonneg (Nat.cast_nonneg side) h.nonneg
  generalize (side : ℚ) * exact = product at *
  generalize (side : ℚ) * scale = product' at *
  obtain ⟨hwhole, hwhole'⟩ := abs_le.1 hwhole
  obtain ⟨hscaled, hscaled'⟩ := abs_le.1 hscaled
  obtain ⟨hproduct, hproduct'⟩ := abs_le.1 hproduct
  rw [abs_lt]
  constructor <;> linarith

/-- A product that is a whole number is met exactly. -/
theorem Near.scaled_eq {scale : Nat} {exact : ℚ} (h : Near scale exact) {side whole : Nat} (hs : 1 ≤ side) (hs' : side ≤ maxSide)
    (hproduct : (side : ℚ) * exact = whole) : scaled side scale = whole := by
  have herror := h.scaled_error hs hs'
  rw [hproduct] at herror
  generalize scaled side scale = pixels at herror ⊢
  obtain ⟨hlow, hhigh⟩ := abs_lt.1 herror
  have hlow' : whole < pixels + 1 := by
    have hlt : (whole : ℚ) < pixels + 1 := by linarith
    exact_mod_cast hlt
  have hhigh' : pixels < whole + 1 := by
    have hlt : (pixels : ℚ) < whole + 1 := by linarith
    exact_mod_cast hlt
  omega

/-- A side of a size that fits stays as it is. -/
theorem Near.scaleSide_one {scale : Nat} (h : Near scale 1) {side bound : Nat} (hs : 1 ≤ side) (hs' : side ≤ maxSide)
    (hfits : side ≤ bound) : scaleSide side scale bound = side := by
  rw [scaleSide_eq, h.scaled_eq hs hs' (mul_one (side : ℚ))]
  omega

/-- A number of pixels that is less than a side off a product stays so when it is raised to one pixel and cut to a bound that the product
does not pass. -/
theorem clamp_error {pixels side product bound : Nat} (hproduct : 0 < product) (hfits : product ≤ bound * side)
    (hlow : product < pixels * side + side) (hhigh : pixels * side < product + side) :
    |((min (max 1 pixels) (max bound 1) : ℕ) : ℤ) * side - product| < side := by
  have hbound : 1 ≤ bound := by
    refine Nat.pos_of_ne_zero fun h0 => ?_
    rw [h0, Nat.zero_mul] at hfits
    omega
  rw [abs_lt]
  rcases Nat.eq_zero_or_pos pixels with rfl | hpixels
  · have hone : min (max 1 0) (max bound 1) = 1 := by omega
    rw [hone]
    omega
  · rcases Nat.le_total pixels bound with hle | hle
    · have hkept : min (max 1 pixels) (max bound 1) = pixels := by omega
      rw [hkept]
      zify at hlow hhigh
      constructor <;> linarith
    · have hcut : min (max 1 pixels) (max bound 1) = bound := by omega
      have hless : bound * side ≤ pixels * side := Nat.mul_le_mul_right side hle
      rw [hcut]
      zify at hfits hless hhigh
      constructor <;> linarith

section Limiting

variable {scale side bound : Nat} (h : Near scale ((bound : ℚ) / side)) (hs : 1 ≤ side)

include h hs

/-- A side fills its bound when their ratio is the scale. -/
theorem Near.scaleSide_self (hs' : side ≤ maxSide) (hb : 1 ≤ bound) : scaleSide side scale bound = bound := by
  have hproduct : (side : ℚ) * ((bound : ℚ) / side) = bound := mul_div_cancel₀ _ (Nat.cast_ne_zero.2 (Nat.ne_of_gt hs))
  rw [scaleSide_eq, h.scaled_eq hs hs' hproduct]
  omega

/-- Another side keeps its proportion to the one whose ratio to its bound is the scale, to less than a pixel. -/
theorem Near.scaleSide_other (hb : 1 ≤ bound) {other otherBound : Nat} (ho : 1 ≤ other) (ho' : other ≤ maxSide)
    (hfits : bound * other ≤ otherBound * side) :
    |(scaleSide other scale otherBound : ℤ) * side - other * bound| < side := by
  have herror := h.scaled_error ho ho'
  rw [scaleSide_eq]
  generalize scaled other scale = pixels at herror ⊢
  have hside : (0 : ℚ) < side := Nat.cast_pos.2 hs
  have hscaled : |(pixels : ℚ) * side - other * bound| < side := by
    have hproduct : (pixels : ℚ) * side - other * bound = (pixels - other * ((bound : ℚ) / side)) * side := by
      rw [sub_mul, mul_assoc, div_mul_cancel₀ _ hside.ne']
    rw [hproduct, abs_mul, abs_of_pos hside]
    calc |(pixels : ℚ) - other * ((bound : ℚ) / side)| * side < 3 / 4 * side := mul_lt_mul_of_pos_right herror hside
      _ ≤ side := by linarith
  obtain ⟨hlow, hhigh⟩ := abs_lt.1 hscaled
  have hlow' : other * bound < pixels * side + side := by
    have hlt : (other : ℚ) * bound < pixels * side + side := by linarith
    exact_mod_cast hlt
  have hhigh' : pixels * side < other * bound + side := by
    have hlt : (pixels : ℚ) * side < other * bound + side := by linarith
    exact_mod_cast hlt
  rw [Nat.mul_comm] at hfits
  exact_mod_cast clamp_error (Nat.mul_pos ho hb) hfits hlow' hhigh'

end Limiting

/-! ## Which side limits the scale -/

variable {source bound : Size}

/-- The exact scale is the ratio of the widths when it is the smaller one, and the width is cut. -/
theorem exactScale_eq_width (hw : 1 ≤ source.width) (hh : 1 ≤ source.height)
    (hlimit : bound.width * source.height ≤ bound.height * source.width) (hcut : bound.width ≤ source.width) :
    exactScale source bound = (bound.width : ℚ) / source.width := by
  have hw' : (0 : ℚ) < source.width := Nat.cast_pos.2 hw
  have hh' : (0 : ℚ) < source.height := Nat.cast_pos.2 hh
  have hless : (bound.width : ℚ) / source.width ≤ bound.height / source.height := by
    rw [div_le_div_iff₀ hw' hh']
    exact_mod_cast hlimit
  have hone : (bound.width : ℚ) / source.width ≤ 1 := (div_le_one hw').2 (Nat.cast_le.2 hcut)
  rw [exactScale, min_eq_left hless, min_eq_left hone]

/-- The exact scale is the same for width and height the other way round. -/
theorem exactScale_transpose : exactScale ⟨source.height, source.width⟩ ⟨bound.height, bound.width⟩ = exactScale source bound := by
  rw [exactScale, exactScale, min_comm ((bound.height : ℚ) / source.height)]

/-- The exact scale of a size that fits is one. -/
theorem exactScale_eq_one (hw : 1 ≤ source.width) (hh : 1 ≤ source.height) (hfits : source.width ≤ bound.width)
    (hfits' : source.height ≤ bound.height) : exactScale source bound = 1 := by
  have hwidth : 1 ≤ (bound.width : ℚ) / source.width := (one_le_div (Nat.cast_pos.2 hw)).2 (Nat.cast_le.2 hfits)
  have hheight : 1 ≤ (bound.height : ℚ) / source.height := (one_le_div (Nat.cast_pos.2 hh)).2 (Nat.cast_le.2 hfits')
  rw [exactScale, min_eq_right (le_min hwidth hheight)]

/-- A size that does not fit, and whose width has no more room than its height, gets the width of the bound, and a height in
proportion. -/
theorem cut_width {scale : Nat} (hscale : Near scale (exactScale source bound)) (hw : 1 ≤ source.width)
    (hw' : source.width ≤ maxSide) (hh : 1 ≤ source.height) (hh' : source.height ≤ maxSide) (hb : 1 ≤ bound.width)
    (hlimit : bound.width * source.height ≤ bound.height * source.width)
    (hcut : ¬(source.width ≤ bound.width ∧ source.height ≤ bound.height)) :
    scaleSide source.width scale bound.width = bound.width ∧
      |(scaleSide source.height scale bound.height : ℤ) * source.width - source.height * bound.width| < source.width := by
  have hless : bound.width ≤ source.width := by
    refine Nat.le_of_not_le fun hfits => hcut ⟨hfits, ?_⟩
    refine Nat.le_of_mul_le_mul_right ?_ hw
    calc source.height * source.width ≤ source.height * bound.width := Nat.mul_le_mul_left _ hfits
      _ = bound.width * source.height := Nat.mul_comm _ _
      _ ≤ bound.height * source.width := hlimit
  rw [exactScale_eq_width hw hh hlimit hless] at hscale
  exact ⟨hscale.scaleSide_self hw hw' hb, hscale.scaleSide_other hw hb hh hh' hlimit⟩

/-- A size that does not fit, and whose height has no more room than its width, gets the height of the bound, and a width in
proportion. -/
theorem cut_height {scale : Nat} (hscale : Near scale (exactScale source bound)) (hw : 1 ≤ source.width)
    (hw' : source.width ≤ maxSide) (hh : 1 ≤ source.height) (hh' : source.height ≤ maxSide) (hb : 1 ≤ bound.height)
    (hlimit : bound.height * source.width ≤ bound.width * source.height)
    (hcut : ¬(source.width ≤ bound.width ∧ source.height ≤ bound.height)) :
    scaleSide source.height scale bound.height = bound.height ∧
      |(scaleSide source.width scale bound.width : ℤ) * source.height - source.width * bound.height| < source.height := by
  rw [← exactScale_transpose] at hscale
  -- Held against the goal at once, the scaled sides would be computed.
  exact (cut_width hscale hh hh' hw hw' hb hlimit fun hfits => hcut hfits.symm :)

end Fit

/-! ## A fitted size -/

/-- What a size with sides of 32 bits is fitted to in a bound of at least one pixel each way, if a side of zero counts as one pixel.
Each side has at least one pixel, and no more than the bound or the size itself. A size that fits stays as it is, and no other does. Of
any other size the side that has the smaller share of room, or the width if both have the same, fills its bound, and the other side
keeps the proportions to less than a pixel. -/
theorem Size.fitWithin_largest {source bound : Size} (hw : source.width ≤ maxSide) (hh : source.height ≤ maxSide)
    (hbw : 1 ≤ bound.width) (hbh : 1 ≤ bound.height) :
    let w := max source.width 1
    let h := max source.height 1
    let fitted := source.fitWithin bound
    (1 ≤ fitted.width ∧ fitted.width ≤ min w bound.width) ∧
    (1 ≤ fitted.height ∧ fitted.height ≤ min h bound.height) ∧
    (fitted = ⟨w, h⟩ ↔ w ≤ bound.width ∧ h ≤ bound.height) ∧
    (¬(w ≤ bound.width ∧ h ≤ bound.height) →
      if bound.width * h ≤ bound.height * w then
        fitted.width = bound.width ∧ |(fitted.height : ℤ) * w - h * bound.width| < w
      else fitted.height = bound.height ∧ |(fitted.width : ℤ) * h - w * bound.height| < h) := by
  intro w h fitted
  have hw1 : 1 ≤ w := one_le_max_one source.width
  have hh1 : 1 ≤ h := one_le_max_one source.height
  have hw' : w ≤ maxSide := max_le hw (by decide)
  have hh' : h ≤ maxSide := max_le hh (by decide)
  obtain ⟨scale, hscale, hone, hfitted⟩ : ∃ scale, Fit.Near scale (Fit.exactScale ⟨w, h⟩ bound) ∧ scale ≤ Fit.one ∧
      fitted = ⟨Fit.scaleSide w scale bound.width, Fit.scaleSide h scale bound.height⟩ :=
    ⟨_, Fit.near_exactScale hw1 hw' hh1 hh' hbw hbh, min_le_right _ _, rfl⟩
  obtain ⟨hpixel, hwidth, hpixel', hheight⟩ : 1 ≤ fitted.width ∧ fitted.width ≤ max bound.width 1 ∧
      1 ≤ fitted.height ∧ fitted.height ≤ max bound.height 1 := source.fitWithin_bounds bound
  rw [max_eq_left hbw] at hwidth
  rw [max_eq_left hbh] at hheight
  clear_value w h fitted
  subst hfitted
  have hless : Fit.scaleSide w scale bound.width ≤ w := Fit.scaleSide_le bound.width hw1 (Nat.lt_succ_of_le hw') hone
  have hless' : Fit.scaleSide h scale bound.height ≤ h := Fit.scaleSide_le bound.height hh1 (Nat.lt_succ_of_le hh') hone
  refine ⟨⟨hpixel, le_min hless hwidth⟩, ⟨hpixel', le_min hless' hheight⟩, ⟨?_, ?_⟩, ?_⟩
  · intro hsame
    obtain ⟨hw0, hh0⟩ := Size.mk.inj hsame
    exact ⟨hw0 ▸ hwidth, hh0 ▸ hheight⟩
  · rintro ⟨hfits, hfits'⟩
    rw [Fit.exactScale_eq_one hw1 hh1 hfits hfits'] at hscale
    rw [hscale.scaleSide_one hw1 hw' hfits, hscale.scaleSide_one hh1 hh' hfits']
  · intro hcut
    split
    · rename_i hlimit
      exact (Fit.cut_width hscale hw1 hw' hh1 hh' hbw hlimit hcut :)
    · rename_i hlimit
      exact (Fit.cut_height hscale hw1 hw' hh1 hh' hbh (Nat.le_of_not_le hlimit) hcut :)

namespace Sample

/-- A size whose two ratios to the bound differ by less than one part in `2 ^ 64`: the height limits it. -/
theorem nearlySquare_largest : 0xffffffff ≤ maxSide ∧
    ((⟨0xffffffff, 0xfffffffe⟩ : Size).fitWithin ⟨0xfffffffe, 0xfffffffd⟩).height = 0xfffffffd ∧
    ((⟨0xffffffff, 0xfffffffe⟩ : Size).fitWithin ⟨0xfffffffe, 0xfffffffd⟩).width ≤ 0xfffffffe := by
  have hw : (⟨0xffffffff, 0xfffffffe⟩ : Size).width ≤ maxSide := by decide
  have hh : (⟨0xffffffff, 0xfffffffe⟩ : Size).height ≤ maxSide := by decide
  have hbw : 1 ≤ (⟨0xfffffffe, 0xfffffffd⟩ : Size).width := by decide
  have hbh : 1 ≤ (⟨0xfffffffe, 0xfffffffd⟩ : Size).height := by decide
  obtain ⟨⟨-, hwidth⟩, -, -, hcut⟩ := Size.fitWithin_largest hw hh hbw hbh
  have hlimit := hcut (by decide)
  rw [if_neg (by decide)] at hlimit
  exact ⟨hw, hlimit.1, hwidth.trans (by decide)⟩

end Sample

/-- The shorter side of an extreme size stays at one pixel. -/
example : (⟨4096, 8⟩ : Size).fitWithin ⟨64, 64⟩ = ⟨64, 1⟩ := by decide +kernel

end ContactSheet
