import ContactSheet.Image.Resample
import Mathlib.Tactic.Ring

/-!
# Copying images

What `Image.blit` does to a pixel, for images that hold all the bytes their sides ask for (`Image.Exact`): inside the rectangle
that the source covers it becomes the source's pixel, outside it stays. The bytes are followed through `copyBytes`, one row
through `Image.copyRow`, all rows through `Image.copyRows`.
-/

namespace ContactSheet

/-- The image holds exactly the bytes that its sides ask for. -/
def Image.Exact (i : Image) : Prop := i.bytes.size = i.size.byteCount

/-! ## Pixels -/

/-- The bytes of a run of pixels of a row lie among the bytes that the sides ask for. -/
theorem Image.run_le (i : Image) {x y columns : Nat} (hx : x + columns ≤ i.width) (hy : y < i.height) :
    i.offset x y + columns * 4 ≤ i.size.byteCount := by
  have h : (y + 1) * i.width ≤ i.height * i.width := Nat.mul_le_mul_right i.width hy
  have e : (y + 1) * i.width = y * i.width + i.width := by ring
  have e' : i.size.byteCount = i.height * i.width * 4 := by
    simp only [Size.byteCount, Image.size]
    ring
  unfold Image.offset
  omega

/-- The four bytes of a point, zero beyond the bytes. -/
def Image.pixel (i : Image) (x y : Nat) : Pixel := ⟨i.byte x y 0, i.byte x y 1, i.byte x y 2, i.byte x y 3⟩

/-- An exact image of a size has a pixel at each point of that size. -/
theorem Image.Exact.get?_eq {i : Image} (h : i.Exact) {s : Size} (hs : i.size = s) {x y : Nat} (hx : x < s.width)
    (hy : y < s.height) : i.get? x y = some (i.pixel x y) := by
  subst hs
  simp only [Image.size] at hx hy
  have ho : i.offset x y + 1 * 4 ≤ i.size.byteCount := i.run_le hx hy
  rw [← h] at ho
  have hb : ∀ k < 4, i.bytes[i.offset x y + k]? = some (i.byte x y k) := by
    intro k hk
    have hlt : i.offset x y + k < i.bytes.size := by omega
    simp [Image.byte, hlt]
  have h0 := hb 0 (by omega)
  rw [Nat.add_zero] at h0
  simp only [Image.get?, hx, hy, and_self, if_true, h0, hb 1 (by omega), hb 2 (by omega), hb 3 (by omega), Image.pixel]

/-- A blank image is exact. -/
theorem Image.exact_blank (s : Size) : (Image.blank s).Exact := by
  simp [Image.Exact, Image.blank, Image.size]

/-- A blank image is transparent black at each of its points. -/
theorem Image.pixel_blank (s : Size) (x y : Nat) : (Image.blank s).pixel x y = ⟨0, 0, 0, 0⟩ := by
  have hb : ∀ k, (Image.blank s).byte x y k = 0 := by
    intro k
    simp only [Image.byte, Image.blank, Array.getD_eq_getD_getElem?, Array.getElem?_replicate]
    split <;> rfl
  simp only [Image.pixel, hb]

/-- An image given byte by byte is exact. -/
theorem Image.exact_generate (s : Size) (byte : Fin s.width → Fin s.height → Nat → UInt8) : (Image.generate s byte).Exact := by
  simp [Image.Exact, Image.generate, Image.size]

/-- A resized image is of the size asked for. -/
theorem Image.size_resize (i : Image) (s : Size) : (i.resize s).size = s := by
  unfold Image.resize
  split
  · assumption
  · split <;> rfl

/-- A resized exact image is exact and of the size asked for. -/
theorem Image.Exact.resize {i : Image} (h : i.Exact) (s : Size) : (i.resize s).Exact ∧ (i.resize s).size = s := by
  refine ⟨?_, i.size_resize s⟩
  unfold Image.resize
  split
  · exact h
  · split
    · exact Image.exact_generate s _
    · exact Image.exact_blank s

/-! ## Bytes -/

/-- Copying bytes keeps the number of bytes. -/
theorem size_copyBytes (source : Array UInt8) (n s t : Nat) (target : Array UInt8) :
    (copyBytes source s t n target).size = target.size := by
  induction n generalizing s t target with
  | zero => rfl
  | succ n ih => rw [copyBytes, ih, Array.size_setIfInBounds]

/-- A byte after one byte was set. -/
theorem getD_setIfInBounds (bytes : Array UInt8) {i : Nat} (hi : i < bytes.size) (v : UInt8) (k : Nat) :
    (bytes.setIfInBounds i v).getD k 0 = if k = i then v else bytes.getD k 0 := by
  by_cases hk : k = i
  · subst hk
    simp [Array.getD_eq_getD_getElem?, hi]
  · simp [Array.getD_eq_getD_getElem?, hk, Ne.symm hk]

/-- A byte after copying: the source's where bytes were copied, the old one elsewhere. -/
theorem getD_copyBytes (source : Array UInt8) (n s t : Nat) (target : Array UInt8) (ht : t + n ≤ target.size) (k : Nat) :
    (copyBytes source s t n target).getD k 0 =
      if t ≤ k ∧ k < t + n then source.getD (s + (k - t)) 0 else target.getD k 0 := by
  induction n generalizing s t target with
  | zero => rw [copyBytes, if_neg (by omega)]
  | succ n ih =>
    rw [copyBytes, ih _ _ _ (by rw [Array.size_setIfInBounds]; omega), getD_setIfInBounds target (by omega)]
    by_cases hk : k = t
    · subst hk
      rw [if_neg (by omega), if_pos rfl, if_pos (by omega), Nat.sub_self, Nat.add_zero]
    · by_cases hk' : t ≤ k ∧ k < t + (n + 1)
      · rw [if_pos (by omega), if_pos hk', show s + 1 + (k - (t + 1)) = s + (k - t) by omega]
      · rw [if_neg (by omega), if_neg hk, if_neg hk']

/-! ## Rows -/

/-- Where a byte of a point lies relative to the first byte of a run of pixels of a row: within the run exactly when the point
does. -/
theorem Image.offset_mem_run (i : Image) {x px columns channel : Nat} (y py : Nat) (hpx : px < i.width)
    (hc : x + columns ≤ i.width) (hch : channel < 4) :
    (i.offset x y ≤ i.offset px py + channel ∧ i.offset px py + channel < i.offset x y + columns * 4) ↔
      py = y ∧ x ≤ px ∧ px < x + columns := by
  unfold Image.offset
  rcases Nat.lt_trichotomy py y with h | h | h
  · have := Nat.mul_le_mul_right i.width (show py + 1 ≤ y from h)
    rw [Nat.add_mul, Nat.one_mul] at this
    omega
  · subst h
    omega
  · have := Nat.mul_le_mul_right i.width (show y + 1 ≤ py from h)
    rw [Nat.add_mul, Nat.one_mul] at this
    omega

/-- Copying a row keeps the sides of the target and the number of its bytes. -/
theorem Image.copyRow_frame (source target : Image) (x y columns row : Nat) :
    (source.copyRow x y columns row target).size = target.size ∧
      (source.copyRow x y columns row target).bytes.size = target.bytes.size := by
  simp only [Image.copyRow]
  split
  · exact ⟨rfl, size_copyBytes ..⟩
  · exact ⟨rfl, rfl⟩

/-- A byte after a row was copied: the source's in the pixels of the row that were covered, the old one elsewhere. -/
theorem Image.Exact.byte_copyRow {source target : Image} (hs : source.Exact) (ht : target.Exact) {x y columns row : Nat}
    (hc : columns ≤ source.width) (hx : x + columns ≤ target.width) (hr : row < source.height)
    (hy : y + row < target.height) {px : Nat} (hpx : px < target.width) (py : Nat) {channel : Nat} (hch : channel < 4) :
    (source.copyRow x y columns row target).byte px py channel =
      if py = y + row ∧ x ≤ px ∧ px < x + columns then source.byte (px - x) row channel else target.byte px py channel := by
  have hsb : source.offset 0 row + columns * 4 ≤ source.bytes.size := by
    rw [hs]
    exact source.run_le (by omega) hr
  have htb : target.offset x (y + row) + columns * 4 ≤ target.bytes.size := by
    rw [ht]
    exact target.run_le hx hy
  have hrun := target.offset_mem_run (y + row) py hpx hx hch
  simp only [Image.copyRow, hsb, htb, and_self, if_true]
  show (copyBytes ..).getD (target.offset px py + channel) 0 = _
  rw [getD_copyBytes _ _ _ _ _ htb]
  by_cases hin : py = y + row ∧ x ≤ px ∧ px < x + columns
  · rw [if_pos (hrun.2 hin), if_pos hin, Image.byte]
    obtain ⟨rfl, hx1, hx2⟩ := hin
    congr 1
    unfold Image.offset
    omega
  · rw [if_neg fun h => hin (hrun.1 h), if_neg hin]
    rfl

/-- Copying rows keeps the sides of the target and the number of its bytes. -/
theorem Image.copyRows_frame (source target : Image) (x y columns rows : Nat) :
    (source.copyRows x y columns rows target).size = target.size ∧
      (source.copyRows x y columns rows target).bytes.size = target.bytes.size := by
  induction rows with
  | zero => exact ⟨rfl, rfl⟩
  | succ rows ih =>
    have h := source.copyRow_frame (source.copyRows x y columns rows target) x y columns rows
    exact ⟨h.1.trans ih.1, h.2.trans ih.2⟩

/-- Copying rows keeps an exact target exact. -/
theorem Image.Exact.copyRows {target : Image} (ht : target.Exact) (source : Image) (x y columns rows : Nat) :
    (source.copyRows x y columns rows target).Exact := by
  have h := source.copyRows_frame target x y columns rows
  rw [Image.Exact, h.1, h.2]
  exact ht

/-- A byte after rows were copied: the source's in the rectangle that was covered, the old one elsewhere. -/
theorem Image.Exact.byte_copyRows {source target : Image} (hs : source.Exact) (ht : target.Exact) {x y columns rows : Nat}
    (hc : columns ≤ source.width) (hx : x + columns ≤ target.width) (hr : rows ≤ source.height)
    (hy : y + rows ≤ target.height) {px : Nat} (hpx : px < target.width) (py : Nat) {channel : Nat} (hch : channel < 4) :
    (source.copyRows x y columns rows target).byte px py channel =
      if (y ≤ py ∧ py < y + rows) ∧ x ≤ px ∧ px < x + columns then source.byte (px - x) (py - y) channel
      else target.byte px py channel := by
  induction rows with
  | zero => rw [Image.copyRows, if_neg (by omega)]
  | succ rows ih =>
    obtain ⟨hsz, -⟩ := source.copyRows_frame target x y columns rows
    simp only [Image.size, Size.mk.injEq] at hsz
    rw [Image.copyRows, hs.byte_copyRow (ht.copyRows source x y columns rows) hc (by omega) (by omega) (by omega)
      (by omega) py hch, ih (by omega) (by omega)]
    by_cases hlast : py = y + rows ∧ x ≤ px ∧ px < x + columns
    · rw [if_pos hlast, if_pos (by omega), show py - y = rows by omega]
    · rw [if_neg hlast]
      by_cases hin : (y ≤ py ∧ py < y + rows) ∧ x ≤ px ∧ px < x + columns
      · rw [if_pos hin, if_pos (by omega)]
      · rw [if_neg hin, if_neg (by omega)]

/-! ## Images -/

/-- Copying an image keeps the sides of the target and the number of its bytes. -/
theorem Image.blit_frame (target source : Image) (x y : Nat) :
    (target.blit source x y).size = target.size ∧ (target.blit source x y).bytes.size = target.bytes.size := by
  unfold Image.blit
  split
  · exact source.copyRows_frame target x y _ _
  · exact ⟨rfl, rfl⟩

/-- Copying an image keeps an exact target exact. -/
theorem Image.Exact.blit {target : Image} (ht : target.Exact) (source : Image) (x y : Nat) :
    (target.blit source x y).Exact := by
  have h := target.blit_frame source x y
  rw [Image.Exact, h.1, h.2]
  exact ht

/-- A pixel after an image was copied: the source's in the rectangle that the source covers, the old one elsewhere. -/
theorem Image.Exact.pixel_blit {source target : Image} (hs : source.Exact) (ht : target.Exact) (x y : Nat) {px py : Nat}
    (hpx : px < target.width) (hpy : py < target.height) :
    (target.blit source x y).pixel px py =
      if (x ≤ px ∧ px - x < source.width) ∧ y ≤ py ∧ py - y < source.height then source.pixel (px - x) (py - y)
      else target.pixel px py := by
  have hb : ∀ channel < 4, (target.blit source x y).byte px py channel =
      if (x ≤ px ∧ px - x < source.width) ∧ y ≤ py ∧ py - y < source.height then source.byte (px - x) (py - y) channel
      else target.byte px py channel := by
    intro channel hch
    unfold Image.blit
    by_cases hin : x < target.width ∧ y < target.height
    · rw [if_pos hin, hs.byte_copyRows ht (by omega) (by omega) (by omega) (by omega) hpx py hch]
      exact if_congr (by omega) rfl rfl
    · rw [if_neg hin, if_neg (by omega)]
  simp only [Image.pixel, hb 0 (by omega), hb 1 (by omega), hb 2 (by omega), hb 3 (by omega)]
  split <;> rfl

end ContactSheet
