import ContactSheet.Image.Checked
import ContactSheet.Proofs.Blit

/-!
# Images within the limits of a machine

Below the limits of their checks the operations of a machine have the results of those without a limit. `2 ^ 64` bytes are the limit
of what an image asks for that is copied, copied onto, set or sampled (`Image.blit?_eq`, `Image.put?_eq`), `2 ^ 63` of one that is made
(`Image.blank?_eq`).
-/

namespace ContactSheet

variable (o : Overflow)

/-- What has a result for each member of a list has one for the list. -/
theorem mapM_eq_some_map {α β : Type} {f : α → Option β} {g : α → β} {xs : List α} (h : ∀ x ∈ xs, f x = some (g x)) :
    xs.mapM f = some (xs.map g) := by
  induction xs with
  | nil => rfl
  | cons x xs ih =>
    rw [List.mapM_cons, h x List.mem_cons_self, ih fun y hy => h y (List.mem_cons_of_mem x hy)]
    rfl

/-! ## Room and place -/

/-- A size asks for as many bytes as 64 bits count when they do. -/
theorem Size.bytes?_eq_ite {s : Size} (h : s.byteCount < 0x10000000000000000) :
    s.bytes? o = if hasRoom s.byteCount then some s.byteCount else none := by
  have hpixels : s.width * s.height < 0x10000000000000000 := by
    unfold Size.byteCount at h
    omega
  have hcount : s.width * s.height * 4 < 0x10000000000000000 := h
  simp only [Size.bytes?, o.word?_eq hpixels, Option.bind_eq_bind, Option.bind_some, o.word?_eq hcount]
  rfl

/-- There is room for an image of fewer than `2 ^ 63` bytes. -/
theorem Size.bytes?_eq {s : Size} (h : s.byteCount < 0x8000000000000000) : s.bytes? o = some s.byteCount := by
  rw [Size.bytes?_eq_ite o (by omega), if_pos (hasRoom_iff.2 h)]

/-- There is no room for an image of more bytes that 64 bits count. -/
theorem Size.bytes?_eq_none {s : Size} (h : 0x8000000000000000 ≤ s.byteCount) (h' : s.byteCount < 0x10000000000000000) :
    s.bytes? o = none := by
  rw [Size.bytes?_eq_ite o h', if_neg]
  exact fun hroom => Nat.not_lt.2 h (hasRoom_iff.1 hroom)

/-- A blank image is made where there is room for it. -/
theorem Image.blank?_eq {s : Size} (h : s.byteCount < 0x8000000000000000) : Image.blank? o s = some (.blank s) := by
  rw [Image.blank?, Size.bytes?_eq o h]
  rfl

/-- The place of a pixel, when 64 bits count it. -/
theorem Image.offset?_eq {i : Image} {x y : Nat} (h : i.offset x y < 0x10000000000000000) :
    i.offset? o x y = some (i.offset x y) := by
  unfold Image.offset at h
  have habove : y * i.width < 0x10000000000000000 := by omega
  have hbefore : y * i.width + x < 0x10000000000000000 := by omega
  simp only [Image.offset?, o.word?_eq habove, o.word?_eq hbefore, Option.bind_eq_bind, Option.bind_some, o.word?_eq h]
  rfl

/-- Setting a pixel of an image whose bytes 64 bits count. -/
theorem Image.put?_eq {i : Image} (h : i.size.byteCount < 0x10000000000000000) {x y : Nat} (hx : x < i.width) (hy : y < i.height)
    (p : Pixel) : i.put? o x y p = some (i.put x y p) := by
  have hend : i.offset x y + 1 * 4 ≤ i.size.byteCount := i.run_le hx hy
  have hplace : i.offset? o x y = some (i.offset x y) := Image.offset?_eq o (by omega)
  have hstop : o.word? (i.offset x y + 4) = some (i.offset x y + 4) := o.word?_eq (by omega)
  have hstart := Nat.le_add_right (i.offset x y) 4
  rw [Image.put?, if_pos ⟨hx, hy⟩]
  simp only [hplace, hstop, Option.bind_eq_bind, Option.bind_some]
  by_cases hbytes : i.offset x y + 4 ≤ i.bytes.size
  · have hpart : #[p.red, p.green, p.blue, p.alpha].size = i.offset x y + 4 - i.offset x y := by simp
    rw [if_pos ⟨hstart, hbytes⟩, replace?_eq hstart hbytes hpart, Nat.add_sub_cancel_left, Image.put, if_pos ⟨hx, hy, hbytes⟩]
    rfl
  · rw [if_neg fun h' => hbytes h'.2, Image.put, if_neg fun h' => hbytes h'.2.2]
    rfl

/-! ## Copying -/

/-- Copying bytes that were cut out first. -/
theorem copyBytes_extract (source : Array UInt8) {s stop : Nat} (hstop : stop ≤ source.size) (n k t : Nat)
    (hn : s + k + n ≤ stop) (target : Array UInt8) :
    copyBytes (source.extract s stop) k t n target = copyBytes source (s + k) t n target := by
  induction n generalizing k t target with
  | zero => rfl
  | succ n ih =>
    have hbyte : (source.extract s stop).getD k 0 = source.getD (s + k) 0 := by
      rw [Array.getD_eq_getD_getElem?, Array.getElem?_extract, if_pos (by omega), Array.getD_eq_getD_getElem?]
    rw [copyBytes, copyBytes, ih (k + 1) (t + 1) (by omega), hbyte, Nat.add_assoc]

/-- Copying a row that 64 bits count in both images. -/
theorem Image.copyRow?_eq {source target : Image} {x y columns row : Nat}
    (hs : source.offset 0 row + columns * 4 < 0x10000000000000000)
    (ht : target.offset x (y + row) + columns * 4 < 0x10000000000000000) :
    source.copyRow? o x y columns row target = some (source.copyRow x y columns row target) := by
  have hs' : source.offset? o 0 row = some (source.offset 0 row) := Image.offset?_eq o (by omega)
  have ht' : target.offset? o x (y + row) = some (target.offset x (y + row)) := Image.offset?_eq o (by omega)
  have hcolumns : o.word? (columns * 4) = some (columns * 4) := o.word?_eq (by omega)
  simp only [Image.copyRow?, hs', ht', hcolumns, Option.bind_eq_bind, Option.bind_some, o.word?_eq hs, o.word?_eq ht,
    Image.copyRow]
  by_cases hsource : source.offset 0 row + columns * 4 ≤ source.bytes.size
  · by_cases htarget : target.offset x (y + row) + columns * 4 ≤ target.bytes.size
    · have hpart : (source.bytes.extract (source.offset 0 row) (source.offset 0 row + columns * 4)).size =
          target.offset x (y + row) + columns * 4 - target.offset x (y + row) := by
        rw [Array.size_extract]
        omega
      have hcopy := copyBytes_extract source.bytes hsource (columns * 4) 0 (target.offset x (y + row))
        (show source.offset 0 row + 0 + columns * 4 ≤ _ from Nat.le_refl _) target.bytes
      rw [Nat.add_zero] at hcopy
      rw [if_pos hsource, if_pos htarget, if_pos ⟨hsource, htarget⟩, slice?_eq (Nat.le_add_right _ _) hsource, Option.bind_some,
        replace?_eq (Nat.le_add_right _ _) htarget hpart, Option.bind_some, Nat.add_sub_cancel_left, hcopy]
      rfl
    · rw [if_pos hsource, if_neg htarget, if_neg fun h => htarget h.2]
      rfl
  · rw [if_neg hsource, if_neg fun h => hsource h.1]
    rfl

/-- The rows that are copied, cut to the columns that are copied, end among the bytes that the sides of either image ask for. -/
theorem Image.copied_rows_le (target source : Image) {x y row : Nat} (hx : x < target.width)
    (hrow : row < min source.height (target.height - y)) :
    source.offset 0 row + min source.width (target.width - x) * 4 ≤ source.size.byteCount ∧
      target.offset x (y + row) + min source.width (target.width - x) * 4 ≤ target.size.byteCount :=
  ⟨source.run_le (by omega) (by omega), target.run_le (by omega) (by omega)⟩

/-- Copying an image onto another, when 64 bits count the bytes that the sides of both ask for. -/
theorem Image.blit?_eq {target source : Image} (hs : source.size.byteCount < 0x10000000000000000)
    (ht : target.size.byteCount < 0x10000000000000000) (x y : Nat) :
    target.blit? o source x y = some (target.blit source x y) := by
  unfold Image.blit? Image.blit
  by_cases hcorner : x < target.width ∧ y < target.height
  · rw [if_pos hcorner, if_pos hcorner, sub?_eq hcorner.1.le]
    simp only [Option.bind_eq_bind, Option.bind_some, sub?_eq hcorner.2.le]
    -- The rows copied so far leave the sides of the target, and so the places of the rows to come, as they are.
    have hstep : ∀ row image, 0 ≤ row → row < 0 + min source.height (target.height - y) →
        image = source.copyRows x y (min source.width (target.width - x)) row target →
        ∃ copied, source.copyRow? o x y (min source.width (target.width - x)) row image = some copied ∧
          copied = source.copyRows x y (min source.width (target.width - x)) (row + 1) target := by
      rintro row _ - hrow rfl
      rw [Nat.zero_add] at hrow
      obtain ⟨hsource, htarget⟩ := target.copied_rows_le source hcorner.1 hrow
      obtain ⟨hsize, -⟩ := source.copyRows_frame target x y (min source.width (target.width - x)) row
      have hoffset : (source.copyRows x y (min source.width (target.width - x)) row target).offset x (y + row) =
          target.offset x (y + row) := by
        rw [Image.offset, (Size.mk.inj hsize).1, Image.offset]
      exact ⟨_, Image.copyRow?_eq o (by omega) (by omega), rfl⟩
    have hnone : target = source.copyRows x y (min source.width (target.width - x)) 0 target := rfl
    obtain ⟨copied, hcopied, rfl⟩ := loop?_run hstep hnone
    rw [hcopied, Nat.zero_add]
  · rw [if_neg hcorner, if_neg hcorner]

/-! ## Sampling -/

/-- An image that can be sampled has a pixel each way, and all the bytes that its sides ask for. -/
theorem Image.isSampleable_iff {i : Image} :
    i.isSampleable = true ↔ 0 < i.width ∧ 0 < i.height ∧ i.size.byteCount ≤ i.bytes.size := by
  simp only [Image.isSampleable, Bool.and_eq_true, decide_eq_true_eq, and_assoc]

/-- An image that can be sampled has each of its rows, and the row each of its bytes. -/
theorem Image.row?_eq {i : Image} (h : i.isSampleable = true) (hcount : i.size.byteCount < 0x10000000000000000) {y : Nat}
    (hy : y < i.height) :
    ∃ row, i.row? o (i.width * 4) y = some row ∧
      ∀ x < i.width, ∀ channel < 4, row[x * 4 + channel]? = some (i.byte x y channel) := by
  obtain ⟨-, -, hbytes⟩ := Image.isSampleable_iff.1 h
  have hrow : (y + 1) * (i.width * 4) = y * (i.width * 4) + i.width * 4 := by ring
  have hoffset : i.offset 0 y = y * (i.width * 4) := by
    unfold Image.offset
    ring
  have hend : i.offset 0 y + i.width * 4 ≤ i.size.byteCount := i.run_le (by omega) hy
  have hstop : (y + 1) * (i.width * 4) ≤ i.bytes.size := by omega
  refine ⟨i.bytes.extract (y * (i.width * 4)) ((y + 1) * (i.width * 4)), ?_, ?_⟩
  · rw [Image.row?, o.word?_eq (by omega), o.word?_eq (by omega)]
    simp only [Option.bind_eq_bind, Option.bind_some]
    exact slice?_eq (by omega) hstop
  · intro x hx channel hchannel
    have hplace : y * (i.width * 4) + (x * 4 + channel) = i.offset x y + channel := by
      unfold Image.offset
      ring
    have hlt : i.offset x y + channel < i.bytes.size := by omega
    rw [Array.getElem?_extract, if_pos (by omega), hplace, Image.byte, Array.getD_eq_getD_getElem?,
      Array.getElem?_eq_getElem hlt, Option.getD_some]

end ContactSheet
