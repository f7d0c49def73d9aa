import ContactSheet.Proofs.Precision
import ContactSheet.Proofs.Resampling
import Mathlib.Order.Lattice.Nat

/-!
# The levels of a resized image

A blend of two bytes is rounded so that it stays between them (`Resample.blend_bytes`). A blend of two such blends may pass them by a
rounding error, but by less than half a level, so that its byte does not (`Resample.blend_levels`). So resizing an image brings no level
into a channel that lies outside of those the channel has: `Image.resize_levels`.
-/

namespace ContactSheet

/-! ## Rounding to 24 bits -/

theorem round24_of_lt {x : Nat} (h : x < 2 ^ 24) : round24 x = x := if_pos h

/-- A number rounded to 24 bits does not pass one that has no more of them. -/
theorem round24_le {x t k : Nat} (ht : t < 2 ^ 24) (h : x ≤ t * 2 ^ k) : round24 x ≤ t * 2 ^ k := by
  unfold round24
  split
  · exact h
  · rw [← Nat.one_shiftLeft] at ht h ⊢
    exact significant_le (by decide) Nat.one_pos ht (by rwa [Nat.mul_one])

/-- A number rounded to 24 bits does not fall below one that has no more of them. -/
theorem le_round24 {x t k : Nat} (ht : t < 2 ^ 24) (h : t * 2 ^ k ≤ x) : t * 2 ^ k ≤ round24 x := by
  unfold round24
  split
  · exact h
  · exact le_significant (by decide) Nat.one_pos ht (by rwa [Nat.mul_one])

/-- A number rounded to 24 bits moves by no more than its `2 ^ 24`-th part. -/
theorem round24_error (x : Nat) :
    2 ^ 24 * round24 x ≤ 2 ^ 24 * x + x ∧ 2 ^ 24 * x ≤ 2 ^ 24 * round24 x + x := by
  unfold round24
  split
  · omega
  · rename_i hx
    have hbits : 2 ^ (24 - 1) * 1 ≤ x := by omega
    have h := significant_error (p := 24) (by decide) Nat.one_pos hbits
    rw [Nat.cast_one, div_one] at h
    obtain ⟨hlow, hhigh⟩ := abs_le.1 h
    generalize significant 24 x 1 = rounded at hlow hhigh ⊢
    constructor
    · have hle : (2 : ℚ) ^ 24 * rounded ≤ 2 ^ 24 * x + x := by linarith
      exact_mod_cast hle
    · have hle : (2 : ℚ) ^ 24 * x ≤ 2 ^ 24 * rounded + x := by linarith
      exact_mod_cast hle

/-! ## Blends -/

namespace Resample

theorem unit_eq : unit = 2 ^ 24 := by decide

/-- A byte is that of the nearest whole number. -/
theorem toNat_toByte {v : Nat} (h : nearestUp v (unit * unit) ≤ 255) : (toByte v).toNat = nearestUp v (unit * unit) := by
  rw [toByte, Nat.min_eq_left h]
  exact UInt8.toNat_ofNat_of_lt' (Nat.lt_succ_of_le h)

/-- A step over a share of a distance passes the distance by a rounding error at most. -/
theorem step_error {weight : Nat} (hw : weight ≤ unit) (d : Nat) :
    2 ^ 48 * round24 (round24 d * weight) ≤ (2 ^ 24 + 1) ^ 2 * (d * unit) := by
  obtain ⟨hd, -⟩ := round24_error d
  obtain ⟨hstep, -⟩ := round24_error (round24 d * weight)
  have hproduct : round24 d * weight ≤ round24 d * unit := Nat.mul_le_mul_left _ hw
  rw [unit_eq] at hproduct ⊢
  omega

/-- The neighbours of a sampling point are pixels of an axis that has one. -/
theorem tap_lt {pixels : Nat} (h : 0 < pixels) (samples i : Nat) :
    (tap pixels samples i).near < pixels ∧ (tap pixels samples i).far < pixels := by
  unfold tap
  simp only []
  constructor <;> omega

/-- The farther neighbour of a sampling point weighs one at most. -/
theorem tap_weight_le (pixels samples i : Nat) : (tap pixels samples i).weight ≤ unit := by
  have hpixel : 0 < 2 * halfPixel := by decide
  have hlt : position pixels samples i % (2 * halfPixel) < unit * (1 <<< 33) := Nat.mod_lt _ hpixel
  exact (Nat.div_lt_of_lt_mul (by rwa [Nat.mul_comm])).le

variable {lo hi weight : Nat} (hhi : hi ≤ 255) (hw : weight ≤ unit)

include hhi hw

/-- A blend of two bytes stays within what holds them. -/
theorem blend_bytes {a b : Nat} (ha : lo ≤ a) (ha' : a ≤ hi) (hb : lo ≤ b) (hb' : b ≤ hi) :
    lo * unit ≤ blend a b weight ∧ blend a b weight ≤ hi * unit := by
  -- A step from one byte towards another does not pass it.
  have hstep : ∀ d ≤ 255, round24 (round24 d * weight) ≤ d * 2 ^ 24 := by
    intro d hd
    rw [round24_of_lt (show d < 2 ^ 24 by omega)]
    exact round24_le (by omega) (Nat.mul_le_mul_left d (unit_eq ▸ hw))
  unfold blend
  rw [unit_eq]
  split
  · have h := hstep (b - a) (by omega)
    exact ⟨le_round24 (by omega) (by omega), round24_le (by omega) (by omega)⟩
  · have h := hstep (a - b) (by omega)
    exact ⟨le_round24 (by omega) (by omega), round24_le (by omega) (by omega)⟩

/-- A blend of two blends passes what holds these by less than half a level. -/
theorem blend_error {top bottom : Nat} (ht : lo * unit ≤ top) (ht' : top ≤ hi * unit) (hb : lo * unit ≤ bottom)
    (hb' : bottom ≤ hi * unit) :
    2 * (lo * (unit * unit)) ≤ 2 * blend top bottom weight + unit * unit ∧
      2 * blend top bottom weight < 2 * (hi * (unit * unit)) + unit * unit := by
  have hup := step_error hw (bottom - top)
  have hdown := step_error hw (top - bottom)
  obtain ⟨hsum, hsum'⟩ := round24_error (top * unit + round24 (round24 (bottom - top) * weight))
  obtain ⟨hdifference, hdifference'⟩ := round24_error (top * unit - round24 (round24 (top - bottom) * weight))
  unfold blend
  rw [unit_eq] at *
  split
  · omega
  · omega

/-- The byte of a blend of two blends stays within what holds these. -/
theorem blend_levels {top bottom : Nat} (ht : lo * unit ≤ top) (ht' : top ≤ hi * unit) (hb : lo * unit ≤ bottom)
    (hb' : bottom ≤ hi * unit) :
    lo ≤ (toByte (blend top bottom weight)).toNat ∧ (toByte (blend top bottom weight)).toNat ≤ hi := by
  obtain ⟨hlow, hhigh⟩ := blend_error hhi hw ht ht' hb hb'
  have hlevel : nearestUp (blend top bottom weight) (unit * unit) ≤ hi := nearestUp_le_of_lt hhigh
  rw [toNat_toByte (hlevel.trans hhi)]
  exact ⟨le_nearestUp (by decide) hlow, hlevel⟩

end Resample

/-! ## Levels -/

/-- The levels that the bytes of a channel have. -/
def Image.levels (i : Image) (channel : Nat) : Set Nat :=
  {level | ∃ k byte, k % 4 = channel ∧ i.bytes[k]? = some byte ∧ byte.toNat = level}

/-- A level is that of a byte. -/
theorem Image.le_of_mem_levels {i : Image} {channel level : Nat} (h : level ∈ i.levels channel) : level ≤ 255 := by
  obtain ⟨k, byte, -, -, rfl⟩ := h
  exact Nat.le_of_lt_succ byte.toNat_lt

section Sampling

variable {i : Image} (h : i.isSampleable = true)

include h

/-- Each pixel of an image that can be sampled has a level of each channel. -/
theorem Image.byte_mem_levels {x y channel : Nat} (hx : x < i.width) (hy : y < i.height) (hc : channel < 4) :
    (i.byte x y channel).toNat ∈ i.levels channel :=
  ⟨(y * i.width + x) * 4 + channel, _, by omega, Image.getElem?_byte h hx hy hc, rfl⟩

variable {channel lo hi : Nat} (hc : channel < 4) (hhi : hi ≤ 255) (hlevels : ∀ level ∈ i.levels channel, lo ≤ level ∧ level ≤ hi)

include hc hhi hlevels

/-- A sample stays within what holds the levels of its channel. -/
theorem Image.sample_levels {column row : Resample.Tap} (hcolumn : column.near < i.width ∧ column.far < i.width)
    (hcolumn' : column.weight ≤ Resample.unit) (hrow : row.near < i.height ∧ row.far < i.height)
    (hrow' : row.weight ≤ Resample.unit) :
    lo ≤ (i.sample column row channel).toNat ∧ (i.sample column row channel).toNat ≤ hi := by
  have hline : ∀ y < i.height,
      lo * Resample.unit ≤
        Resample.blend (i.byte column.near y channel).toNat (i.byte column.far y channel).toNat column.weight ∧
      Resample.blend (i.byte column.near y channel).toNat (i.byte column.far y channel).toNat column.weight ≤
        hi * Resample.unit := by
    intro y hy
    obtain ⟨hleft, hleft'⟩ := hlevels _ (Image.byte_mem_levels h hcolumn.1 hy hc)
    obtain ⟨hright, hright'⟩ := hlevels _ (Image.byte_mem_levels h hcolumn.2 hy hc)
    exact Resample.blend_bytes hhi hcolumn' hleft hleft' hright hright'
  obtain ⟨htop, htop'⟩ := hline row.near hrow.1
  obtain ⟨hbottom, hbottom'⟩ := hline row.far hrow.2
  exact Resample.blend_levels hhi hrow' htop htop' hbottom hbottom'

/-- The levels of a resized image stay within what holds those of the image. -/
theorem Image.levels_resize (s : Size) : ∀ level ∈ (i.resize s).levels channel, lo ≤ level ∧ level ≤ hi := by
  by_cases hs : i.size = s
  · rw [Image.resize, if_pos hs]
    exact hlevels
  · rintro level ⟨k, byte, rfl, hk, rfl⟩
    rw [Image.resize, if_neg hs, if_pos h, Image.generate] at hk
    simp only [Array.getElem?_ofFn, Resample.taps, Fin.getElem_fin, Vector.getElem_ofFn] at hk
    split at hk
    · obtain ⟨hw, hh, -⟩ := Image.isSampleable_iff.1 h
      obtain rfl := Option.some.inj hk
      exact Image.sample_levels h hc hhi hlevels (Resample.tap_lt hw _ _) (Resample.tap_weight_le _ _ _) (Resample.tap_lt hh _ _)
        (Resample.tap_weight_le _ _ _)
    · cases hk

end Sampling

/-- Resizing an image that has a pixel each way, and just the bytes that its sides ask for, keeps each of its channels between its least
and its greatest level, whatever the size that it is resized to; a channel that is level stays so. -/
theorem Image.resize_levels {i : Image} (hw : 1 ≤ i.width) (hh : 1 ≤ i.height) (hi : i.bytes.size = 4 * i.width * i.height) (s : Size)
    {channel : Nat} (hc : channel < 4) :
    (i.resize s).bytes.size = 4 * s.width * s.height ∧
    (∃ lo hi, IsLeast (i.levels channel) lo ∧ IsGreatest (i.levels channel) hi ∧
      ∀ level ∈ (i.resize s).levels channel, lo ≤ level ∧ level ≤ hi) ∧
    ∀ level, (∀ level' ∈ i.levels channel, level' = level) → ∀ level' ∈ (i.resize s).levels channel, level' = level := by
  have hexact : i.Exact := hi.trans i.size.byteCount_eq.symm
  have hsample : i.isSampleable = true := Image.isSampleable_iff.2 ⟨hw, hh, hexact.ge⟩
  have hsome : (i.levels channel).Nonempty := ⟨_, Image.byte_mem_levels hsample hw hh hc⟩
  have hbounded : BddAbove (i.levels channel) := ⟨255, fun _ hlevel => Image.le_of_mem_levels hlevel⟩
  have hleast : IsLeast (i.levels channel) (sInf (i.levels channel)) :=
    ⟨Nat.sInf_mem hsome, fun _ hlevel => Nat.sInf_le hlevel⟩
  have hgreatest : IsGreatest (i.levels channel) (sSup (i.levels channel)) :=
    ⟨Nat.sSup_mem hsome hbounded, fun _ hlevel => le_csSup hbounded hlevel⟩
  have hresize := Image.levels_resize hsample hc (Image.le_of_mem_levels hgreatest.1)
    (fun _ hlevel => ⟨hleast.2 hlevel, hgreatest.2 hlevel⟩) s
  refine ⟨?_, ⟨_, _, hleast, hgreatest, hresize⟩, ?_⟩
  · obtain ⟨hresized, hsize⟩ := hexact.resize s
    rw [hresized, hsize, Size.byteCount_eq]
  · intro level hlevel level' hlevel'
    obtain ⟨hlow, hhigh⟩ := hresize level' hlevel'
    rw [hlevel _ hleast.1] at hlow
    rw [hlevel _ hgreatest.1] at hhigh
    exact Nat.le_antisymm hhigh hlow

namespace Sample

theorem duo_levels : 1 ≤ duo.width ∧ 1 ≤ duo.height ∧ duo.bytes.size = 4 * duo.width * duo.height ∧
    ∀ level ∈ (duo.resize ⟨5, 3⟩).levels 3, level = 255 := by
  have hw : 1 ≤ duo.width := by decide
  have hh : 1 ≤ duo.height := by decide
  have hbytes : duo.bytes.size = 4 * duo.width * duo.height := by decide
  obtain ⟨-, -, hconstant⟩ := duo.resize_levels hw hh hbytes ⟨5, 3⟩ (show 3 < 4 by decide)
  refine ⟨hw, hh, hbytes, hconstant 255 ?_⟩
  rintro level ⟨k, byte, hk, hbyte, rfl⟩
  obtain ⟨hlt, rfl⟩ := Array.getElem?_eq_some_iff.1 hbyte
  have hlt' : k < 8 := hlt
  have hcases : k = 3 ∨ k = 7 := by omega
  rcases hcases with rfl | rfl <;> rfl

end Sample

end ContactSheet
