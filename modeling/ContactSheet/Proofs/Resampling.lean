import ContactSheet.Proofs.Checked.Image
import Mathlib.Data.List.FinRange

/-!
# What a resized image is made of

An image is resized by three loops, over the rows, the columns and the channels, each byte a blend of four bytes of the source. A
machine carries them out (`Image.resizeIn?`), in any arithmetic, if it has room for the new image, and `Image.resize` is the same in
single precision. `Image.resize_samples` gives each byte of a resized image as a blend of the bytes around its sampling point; an image
of `2 ^ 63` bytes or more is not made (`Sample.hollow_breaks_down`).
-/

namespace ContactSheet

/-! ## Loops -/

section Loops

variable {β : Type}

/-- Two loops, one within the other, are one loop whose steps are numbered through. -/
theorem flatten_map_range (m n : Nat) (f : Nat → Nat → β) :
    ((List.range m).map fun i => (List.range n).map (f i)).flatten = (List.range (m * n)).map fun k => f (k / n) (k % n) := by
  induction m with
  | zero => rw [Nat.zero_mul, List.range_zero, List.map_nil, List.flatten_nil, List.map_nil]
  | succ m ih =>
    have hlast : (List.range n).map (f m) = (List.range n).map ((fun k => f (k / n) (k % n)) ∘ (m * n + ·)) := by
      refine List.map_congr_left fun j hj => ?_
      have hj : j < n := List.mem_range.1 hj
      have hplace : m * n + j = j + n * m := by ring
      show f m j = f ((m * n + j) / n) ((m * n + j) % n)
      rw [hplace, Nat.add_mul_div_left _ _ (Nat.zero_lt_of_lt hj), Nat.add_mul_mod_self_left, Nat.div_eq_of_lt hj,
        Nat.mod_eq_of_lt hj, Nat.zero_add]
    rw [List.range_succ, List.map_append, List.map_singleton, List.flatten_append, ih, List.flatten_singleton, Nat.succ_mul,
      List.range_add, List.map_append, List.map_map, hlast]

end Loops

/-- A size asks for four bytes a pixel. -/
theorem Size.byteCount_eq (s : Size) : s.byteCount = 4 * s.width * s.height := by
  unfold Size.byteCount
  ring

/-- A byte of an image given byte by byte. -/
theorem Image.getElem?_generate {s : Size} (byte : Fin s.width → Fin s.height → Nat → UInt8) {x y channel : Nat} (hx : x < s.width)
    (hy : y < s.height) (hc : channel < 4) :
    (Image.generate s byte).bytes[(y * s.width + x) * 4 + channel]? = some (byte ⟨x, hx⟩ ⟨y, hy⟩ channel) := by
  have hend : (Image.generate s byte).offset x y + 1 * 4 ≤ s.byteCount := (Image.generate s byte).run_le hx hy
  have hlt : (y * s.width + x) * 4 + channel < s.byteCount := by
    simp only [Image.offset, Image.generate] at hend
    omega
  have hpoint : ((y * s.width + x) * 4 + channel) / 4 = x + s.width * y := by
    rw [Nat.mul_comm s.width]
    omega
  have hchannel : ((y * s.width + x) * 4 + channel) % 4 = channel := by omega
  have hcolumn : (x + s.width * y) % s.width = x := by rw [Nat.add_mul_mod_self_left, Nat.mod_eq_of_lt hx]
  have hrow : (x + s.width * y) / s.width = y := by
    rw [Nat.add_mul_div_left _ _ (Nat.zero_lt_of_lt hx), Nat.div_eq_of_lt hx, Nat.zero_add]
  simp only [Image.generate, Array.getElem?_ofFn, dif_pos hlt, hpoint, hchannel, hcolumn, hrow]

/-- The bytes of an image given byte by byte are those that loops over its rows, columns and channels put out. -/
theorem Image.bytes_generate (s : Size) (byte : Nat → Nat → Nat → UInt8) :
    (Image.generate s fun x y channel => byte x y channel).bytes.toList =
      ((List.range s.height).map fun y =>
        ((List.range s.width).map fun x => (List.range 4).map (byte x y)).flatten).flatten := by
  have hcount : s.byteCount = s.height * (s.width * 4) := by
    rw [Size.byteCount_eq]
    ring
  have hline (y : Nat) : ((List.range s.width).map fun x => (List.range 4).map (byte x y)).flatten =
      (List.range (s.width * 4)).map fun k => byte (k / 4) y (k % 4) :=
    flatten_map_range s.width 4 fun x channel => byte x y channel
  simp only [hline]
  rw [flatten_map_range s.height (s.width * 4) fun y k => byte (k / 4) y (k % 4), ← hcount]
  simp only [Image.generate, Array.toList_ofFn]
  rw [List.ofFn_eq_map, ← List.map_coe_finRange_eq_range, List.map_map]
  refine List.map_congr_left fun k _ => ?_
  show byte (k.val / 4 % s.width) (k.val / 4 / s.width) (k.val % 4) = byte (k.val % (s.width * 4) / 4) (k.val / (s.width * 4))
    (k.val % (s.width * 4) % 4)
  rw [Nat.mod_mul_left_div_self, Nat.mod_mul_left_mod, Nat.div_div_eq_div_mul, Nat.mul_comm 4]

/-! ## Sampling in any arithmetic -/

section Arithmetic

variable {α : Type} (A : Resample.Arithmetic α) (o : Overflow)

/-- Sample `i` of an axis; the last pixel is its own far neighbour. -/
def Resample.Arithmetic.point (pixels samples i : Nat) : Resample.Point α :=
  let p := A.position pixels samples i
  let near := min (A.pixel p) (pixels - 1)
  ⟨near, min (near + 1) (pixels - 1), A.weight p⟩

/-- The byte of one channel at the crossing of two sampling points. -/
def Image.sampleIn (i : Image) (column row : Resample.Point α) (channel : Nat) : UInt8 :=
  A.crossing column row (i.byte column.near row.near channel) (i.byte column.far row.near channel)
    (i.byte column.near row.far channel) (i.byte column.far row.far channel)

/-- The image of the samples at the crossings of the sampling points of a size. -/
def Image.samples (i : Image) (s : Size) : Image :=
  .generate s fun x y channel => i.sampleIn A (A.point i.width s.width x) (A.point i.height s.height y) channel

/-- The neighbours of a sample follow each other along the axis, but at its end, where they are one. -/
theorem Resample.Arithmetic.point_bounds {pixels : Nat} (h : 0 < pixels) (samples i : Nat) :
    (A.point pixels samples i).near ≤ (A.point pixels samples i).far ∧
      (A.point pixels samples i).far ≤ (A.point pixels samples i).near + 1 ∧ (A.point pixels samples i).far < pixels := by
  unfold Resample.Arithmetic.point
  simp only []
  omega

/-- An axis with a pixel has sampling points. -/
theorem Resample.Arithmetic.point?_eq {pixels : Nat} (h : 0 < pixels) (samples i : Nat) :
    A.point? pixels samples i = some (A.point pixels samples i) := by
  unfold Resample.Arithmetic.point?
  rw [sub?_eq h]
  rfl

variable {i : Image}

/-- A row of the resized image has the four bytes of each column's crossing with it, if the image can be sampled. -/
theorem Image.sampleRow?_eq (h : i.isSampleable = true) (hcount : i.size.byteCount < 0x10000000000000000)
    (columns : List (Resample.Point α)) (row : Resample.Point α)
    (hcolumns : ∀ column ∈ columns, column.near < i.width ∧ column.far < i.width)
    (hrow : row.near < i.height ∧ row.far < i.height) :
    i.sampleRow? o A (i.width * 4) columns row =
      some (columns.map fun column => (List.range 4).map (i.sampleIn A column row)).flatten := by
  obtain ⟨upper, hupper, hup⟩ := Image.row?_eq o h hcount hrow.1
  obtain ⟨lower, hlower, hlow⟩ := Image.row?_eq o h hcount hrow.2
  have hpixel : ∀ column ∈ columns, A.pixel? upper lower row column = some ((List.range 4).map (i.sampleIn A column row)) := by
    intro column hmem
    obtain ⟨hnear, hfar⟩ := hcolumns column hmem
    refine mapM_eq_some_map fun channel hchannel => ?_
    have hc : channel < 4 := List.mem_range.1 hchannel
    simp only [hup _ hnear _ hc, hup _ hfar _ hc, hlow _ hnear _ hc, hlow _ hfar _ hc, Option.bind_eq_bind, Option.bind_some,
      Option.pure_def, Image.sampleIn]
  simp only [Image.sampleRow?, hupper, hlower, mapM_eq_some_map hpixel, Option.bind_eq_bind, Option.bind_some, Option.pure_def]

variable {s : Size} (hcount : i.size.byteCount < 0x10000000000000000) (hs : i.size ≠ s)

include hcount hs

/-- An image that can be sampled is resized to what its samples make, if there is room for them. -/
theorem Image.resizeIn?_of_isSampleable (h : i.isSampleable = true) :
    i.resizeIn? o A s = (s.bytes? o).map fun _ => i.samples A s := by
  obtain ⟨hw, hh, hbytes⟩ := Image.isSampleable_iff.1 h
  have hasked : i.width * 4 * i.height = i.size.byteCount := Nat.mul_right_comm i.width 4 i.height
  have hstride : i.width * 4 ≤ i.width * 4 * i.height := Nat.le_mul_of_pos_right _ hh
  have hcolumns := mapM_eq_some_map fun x (_ : x ∈ List.range s.width) => A.point?_eq hw s.width x
  have hrows := mapM_eq_some_map fun y (_ : y ∈ List.range s.height) => A.point?_eq hh s.height y
  have hlines : ∀ row ∈ (List.range s.height).map (A.point i.height s.height),
      i.sampleRow? o A (i.width * 4) ((List.range s.width).map (A.point i.width s.width)) row = some (((List.range s.width).map
        (A.point i.width s.width)).map fun column => (List.range 4).map (i.sampleIn A column row)).flatten := by
    intro row hrow
    obtain ⟨y, -, rfl⟩ := List.mem_map.1 hrow
    obtain ⟨hnear, hfar, hlt⟩ := A.point_bounds hh s.height y
    refine Image.sampleRow?_eq A o h hcount _ _ ?_ ⟨hnear.trans_lt hlt, hlt⟩
    intro column hcolumn
    obtain ⟨x, -, rfl⟩ := List.mem_map.1 hcolumn
    obtain ⟨hnear', hfar', hlt'⟩ := A.point_bounds hw s.width x
    exact ⟨hnear'.trans_lt hlt', hlt'⟩
  have hpixels := (Image.bytes_generate s fun x y channel =>
    i.sampleIn A (A.point i.width s.width x) (A.point i.height s.height y) channel).symm
  rw [Image.resizeIn?, if_neg hs, if_neg (by omega), o.word?_eq (by omega)]
  simp only [Option.bind_eq_bind, Option.bind_some]
  rw [if_neg (by omega), hcolumns, hrows]
  simp only [Option.bind_some, mapM_eq_some_map hlines, Option.pure_def, List.map_map]
  rw [Option.map_eq_bind]
  refine congrArg (Option.bind (s.bytes? o)) (funext fun _ => congrArg some (congrArg (Image.mk s.width s.height) ?_))
  exact Array.ext' hpixels

/-- An image that cannot be sampled gives a blank one, if there is room for it. -/
theorem Image.resizeIn?_of_not_isSampleable (h : i.isSampleable = false) : i.resizeIn? o A s = Image.blank? o s := by
  have hasked : i.width * 4 * i.height = i.size.byteCount := Nat.mul_right_comm i.width 4 i.height
  have hlacks := Image.isSampleable_iff.not.1 (ne_true_of_eq_false h)
  rw [Image.resizeIn?, if_neg hs]
  by_cases hside : i.width * 4 = 0 ∨ i.height = 0
  · rw [if_pos hside]
  · have hshort : i.bytes.size < i.width * 4 * i.height := by
      by_contra hle
      exact hlacks ⟨by omega, by omega, by omega⟩
    rw [if_neg hside, o.word?_eq (by omega)]
    simp only [Option.bind_eq_bind, Option.bind_some]
    rw [if_pos hshort]

/-- No image is resized to one that there is no room for. -/
theorem Image.resizeIn?_eq_none (hroom : s.bytes? o = none) : i.resizeIn? o A s = none := by
  cases hi : i.isSampleable with
  | true => rw [Image.resizeIn?_of_isSampleable A o hcount hs hi, hroom, Option.map_none]
  | false => rw [Image.resizeIn?_of_not_isSampleable A o hcount hs hi, Image.blank?, hroom, Option.map_none]

end Arithmetic

/-! ## The bytes that a sample depends on -/

section Congr

variable {i : Image}

/-- The byte of a channel at a pixel of an image that can be sampled is one of its bytes. -/
theorem Image.getElem?_byte (h : i.isSampleable = true) {x y channel : Nat} (hx : x < i.width) (hy : y < i.height)
    (hc : channel < 4) : i.bytes[(y * i.width + x) * 4 + channel]? = some (i.byte x y channel) := by
  have hend : i.offset x y + 1 * 4 ≤ i.size.byteCount := i.run_le hx hy
  obtain ⟨-, -, hbytes⟩ := Image.isSampleable_iff.1 h
  have hlt : i.offset x y + channel < i.bytes.size := by omega
  rw [Image.byte, Array.getD_eq_getD_getElem?, Array.getElem?_eq_getElem hlt, Option.getD_some]
  exact Array.getElem?_eq_getElem hlt

variable {i' : Image} (hsize : i'.size = i.size) (hbytes : ∀ k < i.size.byteCount, i'.bytes[k]? = i.bytes[k]?)

include hsize hbytes

/-- Another image of the same sides that begins with the same bytes can be sampled too. -/
theorem Image.isSampleable_congr (h : i.isSampleable = true) : i'.isSampleable = true := by
  obtain ⟨hw, hh, hcount⟩ := Image.isSampleable_iff.1 h
  obtain ⟨hwidth, hheight⟩ := Size.mk.inj hsize
  refine Image.isSampleable_iff.2 ⟨hwidth ▸ hw, hheight ▸ hh, ?_⟩
  -- The other image has the last of the bytes that the sides ask for.
  have hpos : 0 < i.size.byteCount := Nat.mul_pos (Nat.mul_pos hw hh) (by decide)
  have hlast : i'.bytes[i.size.byteCount - 1]? = some i.bytes[i.size.byteCount - 1] := by
    rw [hbytes _ (by omega), Array.getElem?_eq_getElem]
  obtain ⟨hlt, -⟩ := Array.getElem?_eq_some_iff.1 hlast
  rw [hsize]
  omega

variable {α : Type} (A : Resample.Arithmetic α)

/-- Another image of the same sides that begins with the same bytes has the same samples. -/
theorem Image.sampleIn_congr {column row : Resample.Point α} (hcolumn : column.near < i.width ∧ column.far < i.width)
    (hrow : row.near < i.height ∧ row.far < i.height) {channel : Nat} (hc : channel < 4) :
    i'.sampleIn A column row channel = i.sampleIn A column row channel := by
  obtain ⟨hwidth, -⟩ := Size.mk.inj hsize
  have hbyte : ∀ x < i.width, ∀ y < i.height, i'.byte x y channel = i.byte x y channel := by
    intro x hx y hy
    have hend : i.offset x y + 1 * 4 ≤ i.size.byteCount := i.run_le hx hy
    have hoffset : i'.offset x y = i.offset x y := by rw [Image.offset, hwidth, Image.offset]
    rw [Image.byte, hoffset, Array.getD_eq_getD_getElem?, hbytes _ (by omega), Image.byte, Array.getD_eq_getD_getElem?]
  simp only [Image.sampleIn, hbyte _ hcolumn.1 _ hrow.1, hbyte _ hcolumn.2 _ hrow.1, hbyte _ hcolumn.1 _ hrow.2,
    hbyte _ hcolumn.2 _ hrow.2]

/-- The samples of an image that can be sampled make the same image as those of another that begins with the same bytes. -/
theorem Image.samples_congr (h : i.isSampleable = true) (s : Size) : i'.samples A s = i.samples A s := by
  obtain ⟨hw, hh, -⟩ := Image.isSampleable_iff.1 h
  obtain ⟨hwidth, hheight⟩ := Size.mk.inj hsize
  rw [Image.samples, Image.samples, hwidth, hheight]
  refine congrArg (Image.mk s.width s.height) (congrArg Array.ofFn (funext fun k => ?_))
  have hcolumn := A.point_bounds hw s.width (k / 4 % s.width)
  have hrow := A.point_bounds hh s.height (k / 4 / s.width)
  exact Image.sampleIn_congr hsize hbytes A ⟨hcolumn.1.trans_lt hcolumn.2.2, hcolumn.2.2⟩ ⟨hrow.1.trans_lt hrow.2.2, hrow.2.2⟩
    (Nat.mod_lt _ (by decide))

end Congr

/-! ## Single precision -/

/-- The samples of an image in single precision. -/
theorem Image.sampleIn_singlePrecision (i : Image) (s : Size) (x y channel : Nat) :
    i.sampleIn Resample.singlePrecision (Resample.singlePrecision.point i.width s.width x)
      (Resample.singlePrecision.point i.height s.height y) channel =
        i.sample (Resample.tap i.width s.width x) (Resample.tap i.height s.height y) channel := by
  simp only [Image.sampleIn, Image.sample, Resample.Arithmetic.crossing, Resample.Arithmetic.point, Resample.singlePrecision,
    Resample.tap]

/-- Resizing an image whose bytes 64 bits count, to its own size or to one that there is room for. -/
theorem Image.resize?_eq (o : Overflow) {i : Image} {s : Size} (hi : i.size.byteCount < 0x10000000000000000)
    (hs : i.size = s ∨ s.byteCount < 0x8000000000000000) : i.resize? o s = some (i.resize s) := by
  rw [Image.resize?]
  by_cases heq : i.size = s
  · rw [Image.resizeIn?, if_pos heq, Image.resize, if_pos heq]
  · have hroom := Size.bytes?_eq o (hs.resolve_left heq)
    rw [Image.resize, if_neg heq]
    cases h : i.isSampleable with
    | false =>
      rw [Image.resizeIn?_of_not_isSampleable _ o hi heq h, Image.blank?_eq o (hs.resolve_left heq), if_neg Bool.false_ne_true]
    | true =>
      rw [Image.resizeIn?_of_isSampleable _ o hi heq h, hroom, Option.map_some, if_pos rfl, Image.samples]
      simp only [Resample.taps, Fin.getElem_fin, Vector.getElem_ofFn, Image.sampleIn_singlePrecision]

/-- What an image is resized to whose sides ask for fewer than `2 ^ 64` bytes, on any machine and in any arithmetic. At a size that is
not its own and asks for `2 ^ 63` bytes or more, for which there is no room, nothing is made. Otherwise the machine does not break down;
in single precision it makes the image that `Image.resize` gives. An image of that size stays as it is. One that lacks a pixel either
way, or bytes that its sides ask for, gives a blank image. Any other gives an image of that size with just the bytes that it asks for; the
byte of a channel at a point is that of the blend, along the rows and then between them, of four bytes of the same channel: those at the
neighbours of the point along both axes, which are pixels of the source, the farther one next to the nearer or the same. Bytes beyond
those that the sides of the source ask for make no difference. -/
theorem Image.resize_samples (i : Image) (s : Size) (hi : 4 * i.width * i.height < 0x10000000000000000)
    (hs : 4 * s.width * s.height < 0x10000000000000000) :
    (i.size ≠ s → 0x8000000000000000 ≤ 4 * s.width * s.height →
      ∀ (o : Overflow) (α : Type) (A : Resample.Arithmetic α), i.resizeIn? o A s = none) ∧
    (i.size = s ∨ 4 * s.width * s.height < 0x8000000000000000 →
      (∀ o : Overflow, i.resizeIn? o Resample.singlePrecision s = some (i.resize s)) ∧
      ∀ (α : Type) (A : Resample.Arithmetic α), ∃ resized, (∀ o : Overflow, i.resizeIn? o A s = some resized) ∧
        (i.size = s → resized = i) ∧
        (i.size ≠ s → i.width = 0 ∨ i.height = 0 ∨ i.bytes.size < 4 * i.width * i.height → resized = .blank s) ∧
        (i.size ≠ s → 0 < i.width → 0 < i.height → 4 * i.width * i.height ≤ i.bytes.size →
          resized.size = s ∧ resized.bytes.size = 4 * s.width * s.height ∧
          (∀ x < s.width, ∀ y < s.height,
            let column := A.point i.width s.width x
            let row := A.point i.height s.height y
            (column.near ≤ column.far ∧ column.far ≤ column.near + 1 ∧ column.far < i.width) ∧
            (row.near ≤ row.far ∧ row.far ≤ row.near + 1 ∧ row.far < i.height) ∧
            ∀ channel < 4, ∃ a b c d,
              i.bytes[(row.near * i.width + column.near) * 4 + channel]? = some a ∧
              i.bytes[(row.near * i.width + column.far) * 4 + channel]? = some b ∧
              i.bytes[(row.far * i.width + column.near) * 4 + channel]? = some c ∧
              i.bytes[(row.far * i.width + column.far) * 4 + channel]? = some d ∧
              resized.bytes[(y * s.width + x) * 4 + channel]? =
                some (A.byte (A.blend (A.blend (A.level a) (A.level b) column.weight)
                  (A.blend (A.level c) (A.level d) column.weight) row.weight))) ∧
          ∀ i' : Image, i'.size = i.size → (∀ k < 4 * i.width * i.height, i'.bytes[k]? = i.bytes[k]?) →
            ∀ o : Overflow, i'.resizeIn? o A s = some resized)) := by
  have hcount : 4 * i.width * i.height = i.size.byteCount := i.size.byteCount_eq.symm
  have hcount' : 4 * s.width * s.height = s.byteCount := s.byteCount_eq.symm
  rw [hcount'] at hs
  rw [hcount] at hi ⊢
  rw [hcount']
  refine ⟨fun hne hmany o α A => Image.resizeIn?_eq_none A o hi hne (Size.bytes?_eq_none o hmany hs), fun hroom =>
    ⟨fun o => Image.resize?_eq o hi hroom, fun α A => ?_⟩⟩
  by_cases heq : i.size = s
  · exact ⟨i, fun _ => if_pos heq, fun _ => rfl, fun hne => absurd heq hne, fun hne => absurd heq hne⟩
  have hroom' : ∀ o, s.bytes? o = some s.byteCount := fun o => Size.bytes?_eq o (hroom.resolve_left heq)
  by_cases hsample : i.isSampleable = true
  · obtain ⟨hw, hh, hbytes⟩ := Image.isSampleable_iff.1 hsample
    have hmade : ∀ o, i.resizeIn? o A s = some (i.samples A s) := by
      intro o
      rw [Image.resizeIn?_of_isSampleable A o hi heq hsample, hroom' o, Option.map_some]
    refine ⟨i.samples A s, hmade, fun h => absurd h heq, fun _ hlacks => by omega, fun _ _ _ _ => ⟨rfl, ?_, ?_, ?_⟩⟩
    · exact Image.exact_generate s _
    · intro x hx y hy column row
      have hcolumn := A.point_bounds hw s.width x
      have hrow := A.point_bounds hh s.height y
      have hleft : column.near < i.width := hcolumn.1.trans_lt hcolumn.2.2
      have hupper : row.near < i.height := hrow.1.trans_lt hrow.2.2
      refine ⟨hcolumn, hrow, fun channel hc => ?_⟩
      exact ⟨_, _, _, _, Image.getElem?_byte hsample hleft hupper hc, Image.getElem?_byte hsample hcolumn.2.2 hupper hc,
        Image.getElem?_byte hsample hleft hrow.2.2 hc, Image.getElem?_byte hsample hcolumn.2.2 hrow.2.2 hc,
        Image.getElem?_generate _ hx hy hc⟩
    · intro i' hsize hsame o
      rw [Image.resizeIn?_of_isSampleable A o (hsize ▸ hi) (hsize ▸ heq) (Image.isSampleable_congr hsize hsame hsample), hroom' o,
        Option.map_some, Image.samples_congr hsize hsame A hsample s]
  · refine ⟨.blank s, fun o => ?_, fun h => absurd h heq, fun _ _ => rfl, fun _ hw hh hbytes => ?_⟩
    · rw [Image.resizeIn?_of_not_isSampleable A o hi heq (Bool.eq_false_iff.2 hsample),
        Image.blank?_eq o (hroom.resolve_left heq)]
    · exact absurd (Image.isSampleable_iff.2 ⟨hw, hh, hbytes⟩) hsample

namespace Sample

/-- Two opaque pixels side by side, a black and an orange one. -/
def duo : Image := ⟨2, 1, #[0, 0, 0, 255, 200, 100, 50, 255]⟩

/-- Two pixels become four: the outer two stay as they are, the inner two are blends of both. -/
theorem duo_samples : duo.resizeIn? .wraps Resample.singlePrecision ⟨4, 1⟩ = some (duo.resize ⟨4, 1⟩) ∧
    (duo.resize ⟨4, 1⟩).bytes = #[0, 0, 0, 255, 50, 25, 13, 255, 150, 75, 38, 255, 200, 100, 50, 255] := by
  obtain ⟨-, hmade⟩ := duo.resize_samples ⟨4, 1⟩ (by decide) (by decide)
  exact ⟨(hmade (.inr (by decide))).1 .wraps, by decide +kernel⟩

/-- No pixel, five rows of them. -/
def hollow : Image := ⟨0, 5, #[]⟩

/-- A blank image of 1600000000 pixels each way asks for more bytes than there is room for, and for fewer than `2 ^ 64`. -/
theorem hollow_breaks_down : 4 * 1600000000 * 1600000000 < 0x10000000000000000 ∧
    hollow.resize? .wraps ⟨1600000000, 1600000000⟩ = none ∧ hollow.resize? .breaks ⟨1600000000, 1600000000⟩ = none := by
  decide

end Sample

end ContactSheet
