import ContactSheet.Projection.Checked
import ContactSheet.Proofs.Checked.Planes
import ContactSheet.Proofs.Clipping
import ContactSheet.Proofs.Resampling

/-!
# What a projected latent shows

Latents are projected by loops: for each row and column of an image that starts out blank, the channels at that point are summed up and
the pixel there is set. A machine carries them out on planes of values (`Projection.projectIn?`), in any arithmetic, and
`Projection.project` is the same in single precision, for a latent in memory. `Projection.project_pixels` says what comes of it, pixel by
pixel; planes that lack values of their shape are not projected (`Sample.endless_breaks_down`).
-/

namespace ContactSheet

/-! ## Setting pixels -/

section Pixels

variable {i : Image}

/-- An image of one pixel. -/
def Image.dot (p : Pixel) : Image := ⟨1, 1, #[p.red, p.green, p.blue, p.alpha]⟩

theorem Image.exact_dot (p : Pixel) : (Image.dot p).Exact := rfl

/-- Setting a pixel is copying an image of one pixel. -/
theorem Image.put_eq_blit {x y : Nat} (hx : x < i.width) (hy : y < i.height) (p : Pixel) :
    i.put x y p = i.blit (.dot p) x y := by
  have hcolumns : min (Image.dot p).width (i.width - x) = 1 := by
    simp only [Image.dot]
    omega
  have hrows : min (Image.dot p).height (i.height - y) = 1 := by
    simp only [Image.dot]
    omega
  have hsource : (Image.dot p).offset 0 0 + 1 * 4 ≤ (Image.dot p).bytes.size := by simp [Image.dot, Image.offset]
  rw [Image.blit, if_pos ⟨hx, hy⟩, hcolumns, hrows]
  show i.put x y p = (Image.dot p).copyRow x y 1 0 i
  unfold Image.put Image.copyRow
  by_cases htarget : i.offset x y + 4 ≤ i.bytes.size
  · rw [if_pos ⟨hx, hy, htarget⟩, if_pos ⟨hsource, htarget⟩]
    rfl
  · rw [if_neg fun h => htarget h.2.2, if_neg fun h => htarget h.2]

/-- A pixel of an exact image after one was set. -/
theorem Image.Exact.get?_put (h : i.Exact) {x y : Nat} (hx : x < i.width) (hy : y < i.height) (p : Pixel) {px py : Nat}
    (hpx : px < i.width) (hpy : py < i.height) :
    (i.put x y p).get? px py = if px = x ∧ py = y then some p else i.get? px py := by
  rw [Image.put_eq_blit hx hy, (Image.exact_dot p).get?_blit h x y hpx hpy]
  by_cases hp : px = x ∧ py = y
  · obtain ⟨rfl, rfl⟩ := hp
    simp [Image.dot, Image.get?, Image.offset]
  · rw [if_neg hp, if_neg]
    simp only [Image.dot]
    omega

/-- One image is another with the points of an area painted. -/
structure Image.Painted (pixel : Nat → Nat → Pixel) (area : Nat → Nat → Prop) (i j : Image) : Prop where
  exact : j.Exact
  size_eq : j.size = i.size
  get?_of_mem : ∀ x < i.width, ∀ y < i.height, area x y → j.get? x y = some (pixel x y)
  get?_of_not_mem : ∀ x < i.width, ∀ y < i.height, ¬area x y → j.get? x y = i.get? x y

variable {pixel : Nat → Nat → Pixel} {area area' : Nat → Nat → Prop} {j k : Image}

/-- Nothing is painted of no area. -/
theorem Image.Painted.refl (h : i.Exact) : i.Painted pixel (fun _ _ => False) i where
  exact := h
  size_eq := rfl
  get?_of_mem _ _ _ _ hp := hp.elim
  get?_of_not_mem _ _ _ _ _ := rfl

/-- What was painted after an image was painted is painted with it. -/
theorem Image.Painted.trans (h : i.Painted pixel area j) (h' : j.Painted pixel area' k) :
    i.Painted pixel (fun x y => area x y ∨ area' x y) k := by
  obtain ⟨hwidth, hheight⟩ := Size.mk.inj h.size_eq
  refine ⟨h'.exact, h'.size_eq.trans h.size_eq, ?_, ?_⟩
  · intro x hx y hy harea
    by_cases hlater : area' x y
    · exact h'.get?_of_mem x (hwidth ▸ hx) y (hheight ▸ hy) hlater
    · rw [h'.get?_of_not_mem x (hwidth ▸ hx) y (hheight ▸ hy) hlater]
      exact h.get?_of_mem x hx y hy (harea.resolve_right hlater)
  · intro x hx y hy harea
    rw [h'.get?_of_not_mem x (hwidth ▸ hx) y (hheight ▸ hy) fun hlater => harea (Or.inr hlater)]
    exact h.get?_of_not_mem x hx y hy fun hearlier => harea (Or.inl hearlier)

/-- An area may be said in other words. -/
theorem Image.Painted.congr (h : i.Painted pixel area j) (harea : ∀ x y, area x y ↔ area' x y) : i.Painted pixel area' j where
  exact := h.exact
  size_eq := h.size_eq
  get?_of_mem x hx y hy hp := h.get?_of_mem x hx y hy ((harea x y).2 hp)
  get?_of_not_mem x hx y hy hp := h.get?_of_not_mem x hx y hy fun h' => hp ((harea x y).1 h')

/-- Setting a pixel paints its point. -/
theorem Image.Painted.put (pixel : Nat → Nat → Pixel) (h : i.Exact) {x y : Nat} (hx : x < i.width) (hy : y < i.height) :
    i.Painted pixel (fun px py => px = x ∧ py = y) (i.put x y (pixel x y)) where
  exact := by
    rw [Image.put_eq_blit hx hy]
    exact h.blit _ _ _
  size_eq := by
    rw [Image.put_eq_blit hx hy]
    exact (i.blit_frame _ _ _).1
  get?_of_mem px hpx py hpy hp := by
    rw [h.get?_put hx hy _ hpx hpy, if_pos hp, hp.1, hp.2]
  get?_of_not_mem px hpx py hpy hp := by
    rw [h.get?_put hx hy _ hpx hpy, if_neg hp]

/-! ## Loops -/

section Loops

variable (o : Overflow) {pixel? : Nat → Nat → Option Pixel} (pixel : Nat → Nat → Pixel) (h : i.Exact)
  (hcount : i.size.byteCount < 0x10000000000000000)

include h hcount

/-- A row of which each pixel can be worked out is painted. -/
theorem Image.paintRow?_paints {columns y : Nat} (hc : columns ≤ i.width) (hy : y < i.height)
    (hpixel : ∀ x < columns, pixel? x y = some (pixel x y)) :
    ∃ painted, loop? (Image.paint? o pixel? y) 0 columns i = some painted ∧
      i.Painted pixel (fun px py => px < columns ∧ py = y) painted := by
  have hstep : ∀ x before, 0 ≤ x → x < 0 + columns → i.Painted pixel (fun px py => px < x ∧ py = y) before →
      ∃ after, Image.paint? o pixel? y x before = some after ∧ i.Painted pixel (fun px py => px < x + 1 ∧ py = y) after := by
    intro x before _ hx hpainted
    have hx : x < columns := by omega
    obtain ⟨hwidth, hheight⟩ := Size.mk.inj hpainted.size_eq
    have hx' : x < before.width := hwidth ▸ hx.trans_le hc
    have hy' : y < before.height := hheight ▸ hy
    refine ⟨before.put x y (pixel x y), ?_, (hpainted.trans (Painted.put pixel hpainted.exact hx' hy')).congr fun px py => ?_⟩
    · rw [Image.paint?, bind_eq_of_eq_some (hpixel x hx)]
      exact Image.put?_eq o (hpainted.size_eq ▸ hcount) hx' hy' (pixel x y)
    · omega
  obtain ⟨painted, hloop, hpainted⟩ := loop?_run hstep ((Painted.refl h).congr fun px py => by simp)
  exact ⟨painted, hloop, hpainted.congr fun px py => by rw [Nat.zero_add]⟩

/-- Rows of which each pixel can be worked out are painted. -/
theorem Image.paintRows?_paints {columns rows : Nat} (hc : columns ≤ i.width) (hr : rows ≤ i.height)
    (hpixel : ∀ y < rows, ∀ x < columns, pixel? x y = some (pixel x y)) :
    ∃ painted, Image.paintRows? o pixel? columns rows i = some painted ∧
      i.Painted pixel (fun px py => px < columns ∧ py < rows) painted := by
  have hstep : ∀ y before, 0 ≤ y → y < 0 + rows → i.Painted pixel (fun px py => px < columns ∧ py < y) before →
      ∃ after, loop? (Image.paint? o pixel? y) 0 columns before = some after ∧
        i.Painted pixel (fun px py => px < columns ∧ py < y + 1) after := by
    intro y before _ hy hpainted
    have hy : y < rows := by omega
    obtain ⟨hwidth, hheight⟩ := Size.mk.inj hpainted.size_eq
    obtain ⟨after, hafter, hpainted'⟩ := Image.paintRow?_paints o pixel hpainted.exact (hpainted.size_eq ▸ hcount)
      (hwidth ▸ hc) (hheight ▸ hy.trans_le hr) (hpixel y hy)
    refine ⟨after, hafter, (hpainted.trans hpainted').congr fun px py => ?_⟩
    omega
  obtain ⟨painted, hloop, hpainted⟩ := loop?_run hstep ((Painted.refl h).congr fun px py => by simp)
  exact ⟨painted, hloop, hpainted.congr fun px py => by rw [Nat.zero_add]⟩

end Loops

/-- Nothing is painted where the pixel of one point cannot be worked out. -/
theorem Image.paintRows?_eq_none (o : Overflow) {pixel? : Nat → Nat → Option Pixel} {columns rows x y : Nat} (hx : x < columns)
    (hy : y < rows) (hpixel : pixel? x y = none) (i : Image) : Image.paintRows? o pixel? columns rows i = none := by
  have hpaint (before : Image) : Image.paint? o pixel? y x before = none := by rw [Image.paint?, hpixel]; rfl
  have hrow : ∀ before, loop? (Image.paint? o pixel? y) 0 columns before = none :=
    loop?_eq_none (Nat.zero_le x) ((Nat.zero_add columns).symm ▸ hx) hpaint
  exact loop?_eq_none (Nat.zero_le y) ((Nat.zero_add rows).symm ▸ hy) hrow i

/-! ## Exact images -/

/-- A channel of the pixel at a point is a byte of the image. -/
theorem Image.channel_pixel (i : Image) (x y : Nat) {channel : Nat} (hc : channel < 4) :
    (i.pixel x y).channel channel = i.byte x y channel := by
  match channel with
  | 0 | 1 | 2 | 3 => rfl

/-- Exact images of one size are the same when their pixels are. -/
theorem Image.Exact.ext (hi : i.Exact) (hj : j.Exact) (hs : j.size = i.size)
    (h : ∀ x < i.width, ∀ y < i.height, i.get? x y = j.get? x y) : i = j := by
  obtain ⟨hwidth, hheight⟩ := Size.mk.inj hs
  have hbyte : ∀ k < i.size.byteCount, i.bytes.getD k 0 = j.bytes.getD k 0 := by
    intro k hk
    have hx : k / 4 % i.width < i.width := column_lt hk
    have hy : k / 4 / i.width < i.height := row_lt hk
    have hpixel := h _ hx _ hy
    rw [hi.get?_eq rfl hx hy, hj.get?_eq hs hx hy, Option.some.injEq] at hpixel
    have hchannel := congrArg (·.channel (k % 4)) hpixel
    simp only [Image.channel_pixel _ _ _ (Nat.mod_lt k (by decide : 0 < 4)), Image.byte, Image.offset, hwidth, Nat.div_add_mod']
      at hchannel
    exact hchannel
  have hsize : i.bytes.size = j.bytes.size := by rw [hi, hj, hs]
  have hbytes : i.bytes = j.bytes := by
    refine Array.ext hsize fun k hk hk' => ?_
    have hk'' := hbyte k (hi ▸ hk)
    rwa [Array.getD_eq_getD_getElem?, Array.getD_eq_getD_getElem?, Array.getElem?_eq_getElem hk, Array.getElem?_eq_getElem hk',
      Option.getD_some, Option.getD_some] at hk''
  cases i
  cases j
  simp_all

/-- A pixel of an image given byte by byte. -/
theorem Image.get?_generate {s : Size} (pixel : Nat → Nat → Pixel) {x y : Nat} (hx : x < s.width) (hy : y < s.height) :
    (Image.generate s fun x y channel => (pixel x y).channel channel).get? x y = some (pixel x y) := by
  have hbyte : ∀ channel < 4, (Image.generate s fun x y channel => (pixel x y).channel channel).byte x y channel =
      (pixel x y).channel channel := by
    intro channel hc
    have hget := Image.getElem?_generate (fun x y channel => (pixel x y).channel channel) hx hy hc
    rw [Image.byte, Array.getD_eq_getD_getElem?]
    exact congrArg (·.getD 0) hget
  rw [(Image.exact_generate s _).get?_eq rfl hx hy, Image.pixel, hbyte 0 (by decide), hbyte 1 (by decide), hbyte 2 (by decide),
    hbyte 3 (by decide)]
  rfl

end Pixels

/-! ## Projecting in any arithmetic -/

section Arithmetic

variable {α : Type} (A : Projection.Arithmetic α) (o : Overflow)

/-- A bias and, one after the other, the products of values and factors. -/
def Projection.Arithmetic.weigh (values factors : List Float32) (bias : α) : α :=
  (values.zipWith (fun v f => A.mul (A.number v) (A.number f)) factors).foldl A.add bias

/-- The three sums of the values at a point. -/
def Projection.Arithmetic.weighAll (values : List Float32) (rows : List Colours) (sums : Projection.Sums α) : Projection.Sums α :=
  ⟨A.weigh values (rows.map Colours.red) sums.red, A.weigh values (rows.map Colours.green) sums.green,
    A.weigh values (rows.map Colours.blue) sums.blue⟩

/-- The values of a latent at a point, channel by channel from one on. -/
def Latent.valuesFrom (l : Latent) (x y channel count : Nat) : List Float32 :=
  (List.range' channel count).map fun c => l.value c x y

/-- The values of a latent at a point, channel by channel. -/
def Latent.valuesAt (l : Latent) (x y : Nat) : List Float32 := l.valuesFrom x y 0 l.channels

/-- The pixel of a latent at a point: that of the weighted values there. -/
def Projection.pixelIn (p : Projection) (l : Latent) (x y : Nat) : Pixel :=
  A.pixel (A.weighAll (l.valuesAt x y) p.factors (A.start p.bias))

/-- The image of a latent, pixel by pixel. -/
def Projection.imageIn (p : Projection) (l : Latent) : Image :=
  .generate l.dims fun x y channel => (p.pixelIn A l x y).channel channel

section Points

variable {l : Latent} (h : 4 * l.data.size < 0x8000000000000000) {x y : Nat} (hx : x < l.width) (hy : y < l.height)

include h hx hy

/-- Channel by channel the sums become the weighted values. -/
theorem Projection.Arithmetic.addChannels?_eq {rows : List Colours} {channel : Nat} (hc : channel + rows.length ≤ l.channels)
    (sums : Projection.Sums α) :
    A.addChannels? o l.planes x y channel rows sums =
      some (A.weighAll (l.valuesFrom x y channel rows.length) rows sums) := by
  induction rows generalizing channel sums with
  | nil => rfl
  | cons row rows ih =>
    rw [List.length_cons] at hc
    have hvalue : l.planes.at? o channel x y = some (l.value channel x y) := Latent.at?_planes o h (by omega) hx hy
    have hnext : channel + 1 + rows.length ≤ l.channels := by omega
    have hrest := ih hnext (A.addValue (l.value channel x y) row sums)
    rw [Projection.Arithmetic.addChannels?, bind_eq_of_eq_some hvalue, hrest]
    rfl

/-- The pixel of a latent that has as many channels as there are factors. -/
theorem Projection.pixelIn?_eq {p : Projection} (hc : l.channels = p.channels) :
    p.pixelIn? A o l.planes x y = some (p.pixelIn A l x y) := by
  have hc' : p.factors.length = l.channels := hc.symm
  rw [Projection.pixelIn?, A.addChannels?_eq o h hx hy (by omega), Option.map_some, Projection.pixelIn, Latent.valuesAt, hc']

end Points

/-- The values of a latent at a point are those that lie there. -/
theorem Latent.getElem?_valuesAt (l : Latent) {channel x y : Nat} (hc : channel < l.channels) (hx : x < l.width)
    (hy : y < l.height) : (l.valuesAt x y)[channel]? = l.at? channel x y := by
  have hlt := l.index_lt hc hx hy
  simp [Latent.valuesAt, Latent.valuesFrom, Latent.value, Latent.at?, hc, hlt]

theorem Latent.length_valuesAt (l : Latent) (x y : Nat) : (l.valuesAt x y).length = l.channels := by
  simp [Latent.valuesAt, Latent.valuesFrom]

/-- Latents with the same values at a point of each have the same values there. -/
theorem Latent.valuesAt_congr {l l' : Latent} (hc : l'.channels = l.channels) {x y x' y' : Nat}
    (h : ∀ channel < l.channels, l'.at? channel x' y' = l.at? channel x y) : l'.valuesAt x' y' = l.valuesAt x y := by
  unfold Latent.valuesAt Latent.valuesFrom
  rw [hc]
  refine List.map_congr_left fun channel hmem => ?_
  obtain ⟨-, hlt⟩ := List.mem_range'_1.1 hmem
  rw [Latent.value, h channel (by omega), Latent.value]

/-- A latent in memory that has as many channels as there are factors is projected. -/
theorem Projection.projectIn?_eq_ok {p : Projection} {l : Latent} (h : 4 * l.data.size < 0x8000000000000000)
    (hc : l.channels = p.channels) : p.projectIn? A o l.planes = some (.ok (p.imageIn A l)) := by
  have hplane : l.dims.byteCount ≤ 4 * l.data.size := by
    rw [l.size_data, Size.byteCount_eq, Nat.mul_assoc, Nat.mul_assoc, Nat.mul_comm l.dims.width]
    exact Nat.mul_le_mul_left 4 (Nat.le_mul_of_pos_left _ l.channels_pos)
  have hcount : l.dims.byteCount < 0x10000000000000000 := by omega
  obtain ⟨painted, hrows, hpainted⟩ := Image.paintRows?_paints o (p.pixelIn A l) (Image.exact_blank l.dims) hcount
    (Nat.le_refl l.width) (Nat.le_refl l.height) fun y hy x hx => p.pixelIn?_eq A o h hx hy hc
  have hsame : painted = p.imageIn A l := by
    refine hpainted.exact.ext (Image.exact_generate l.dims _) hpainted.size_eq.symm fun x hx y hy => ?_
    obtain ⟨hwidth, hheight⟩ : painted.width = l.width ∧ painted.height = l.height := Size.mk.inj hpainted.size_eq
    have hx' : x < l.width := hwidth ▸ hx
    have hy' : y < l.height := hheight ▸ hy
    rw [hpainted.get?_of_mem x hx' y hy' ⟨hx', hy'⟩]
    exact (Image.get?_generate (s := l.dims) (p.pixelIn A l) hx' hy').symm
  rw [hsame] at hrows
  have hblank : Image.blank? o l.dims = some (.blank l.dims) := Image.blank?_eq o (by omega)
  have hchannels : l.planes.channels = p.channels := hc
  rw [Projection.projectIn?, if_pos hchannels]
  exact (bind_eq_of_eq_some hblank _).trans (bind_eq_of_eq_some hrows _)

/-- Planes with another number of channels are refused. -/
theorem Projection.projectIn?_eq_error {p : Projection} {t : Planes} (hc : t.channels ≠ p.channels) :
    ∃ reason, ∀ o : Overflow, p.projectIn? A o t = some (.error (.decode reason)) := ⟨_, fun _ => if_neg hc⟩

/-- Planes that are not refused have as many channels as there are factors. -/
theorem Projection.channels_of_projectIn? {p : Projection} {t : Planes} {image : Image}
    (h : p.projectIn? A o t = some (.ok image)) : t.channels = p.channels := by
  by_contra hc
  obtain ⟨reason, hreason⟩ := Projection.projectIn?_eq_error A hc
  rw [hreason] at h
  cases h

/-- The sums of a point cannot be worked out when a value is missing there. -/
theorem Projection.Arithmetic.addChannels?_eq_none {t : Planes} {channel x y : Nat} (hvalue : t.at? o channel x y = none)
    {rows : List Colours} {start : Nat} (hstart : start ≤ channel) (hend : channel < start + rows.length)
    (sums : Projection.Sums α) : A.addChannels? o t x y start rows sums = none := by
  induction rows generalizing start sums with
  | nil =>
    rw [List.length_nil] at hend
    omega
  | cons row rows ih =>
    rw [List.length_cons] at hend
    by_cases hfirst : start = channel
    · rw [Projection.Arithmetic.addChannels?, hfirst, hvalue]
      rfl
    · rw [Projection.Arithmetic.addChannels?]
      cases t.at? o start x y with
      | none => rfl
      | some v => exact ih (by omega) (by omega) _

/-- Planes that lack a value are not projected. -/
theorem Projection.projectIn?_eq_none {p : Projection} {t : Planes} (hc : t.channels = p.channels) {channel x y : Nat}
    (hchannel : channel < t.channels) (hx : x < t.width) (hy : y < t.height) (hvalue : t.at? o channel x y = none) :
    p.projectIn? A o t = none := by
  have hrows : channel < 0 + p.factors.length := by
    rw [Nat.zero_add]
    exact hchannel.trans_eq hc
  have hpixel : p.pixelIn? A o t x y = none := by
    rw [Projection.pixelIn?, A.addChannels?_eq_none o hvalue (Nat.zero_le channel) hrows, Option.map_none]
  rw [Projection.projectIn?, if_pos hc]
  cases Image.blank? o t.dims with
  | none => rfl
  | some blank =>
    rw [bind_eq_of_eq_some rfl, Image.paintRows?_eq_none o hx hy hpixel]
    rfl

end Arithmetic

/-! ## Single precision -/

/-- Three colours, as sums. -/
def Colours.sums (c : Colours) : Projection.Sums Float32 := ⟨c.red, c.green, c.blue⟩

/-- The colours of a point are its weighted values. -/
theorem sums_addChannels (l : Latent) (x y : Nat) (rows : List Colours) (channel : Nat) (sum : Colours) :
    (addChannels l x y channel rows sum).sums =
      Projection.singlePrecision.weighAll (l.valuesFrom x y channel rows.length) rows sum.sums := by
  induction rows generalizing channel sum with
  | nil => rfl
  | cons row rows ih =>
    rw [addChannels, ih]
    rfl

/-- Projecting a latent in memory is projecting it in single precision. -/
theorem Projection.project?_eq (o : Overflow) (p : Projection) {l : Latent} (h : 4 * l.data.size < 0x8000000000000000) :
    p.project? o l.planes = some (p.project l) := by
  rw [Projection.project?]
  by_cases hc : l.channels = p.channels
  · have hpixel : ∀ x y, p.pixelIn Projection.singlePrecision l x y = p.pixel l x y := by
      intro x y
      have hcolours : Projection.singlePrecision.weighAll (l.valuesAt x y) p.factors
          (Projection.singlePrecision.start p.bias) = (p.colours l x y).sums := by
        rw [Projection.colours, sums_addChannels, Latent.valuesAt, hc]
        rfl
      rw [Projection.pixelIn, hcolours]
      rfl
    rw [Projection.projectIn?_eq_ok Projection.singlePrecision o h hc, Projection.project, if_pos hc, Projection.imageIn]
    simp only [hpixel]
  · rw [Projection.projectIn?, Projection.project, if_neg hc]
    exact if_neg hc

/-- What latents and planes of one value are projected to, on any machine and in any arithmetic, by loops over the rows, the columns and
the channels.

A latent in memory is projected without a breakdown; in single precision it gives what `Projection.project` does. It is refused, with an
error of the decoder, just when it does not have as many channels as there are rows of factors. Otherwise it gives an image of its sides
with just the bytes that they ask for, each pixel of it opaque, and each colour of a pixel the byte of the bias and, channel by channel,
the value at the point times the factor. So latents with the same values at a point have the same pixel there.

Planes of one value are those of a latent in memory if 64 bits count the values that their shape asks for. If not, only a machine that
wraps makes any, and they lack a value: they are refused for their channels or break the projection down. -/
theorem Projection.project_pixels (p : Projection) :
    (∀ l : Latent, 4 * l.data.size < 0x8000000000000000 →
      (∀ o : Overflow, p.project? o l.planes = some (p.project l)) ∧
      ∀ (α : Type) (A : Projection.Arithmetic α), ∃ result, (∀ o : Overflow, p.projectIn? A o l.planes = some result) ∧
        ((∃ e, result = .error e) ↔ l.channels ≠ p.factors.length) ∧
        (∀ e, result = .error e → ∃ reason, e = .decode reason) ∧
        ∀ image, result = .ok image →
          image.size = l.dims ∧ image.bytes.size = 4 * l.width * l.height ∧
          (∀ x < l.width, ∀ y < l.height, ∃ values : List Float32,
            values.length = p.factors.length ∧
            (∀ channel < l.channels, ∃ v, l.data[channel * (l.height * l.width) + y * l.width + x]? = some v ∧
              values[channel]? = some v) ∧
            image.get? x y = some
              ⟨A.byte (A.weigh values (p.factors.map Colours.red) (A.number p.bias.red)),
                A.byte (A.weigh values (p.factors.map Colours.green) (A.number p.bias.green)),
                A.byte (A.weigh values (p.factors.map Colours.blue) (A.number p.bias.blue)), 255⟩) ∧
          ∀ (l' : Latent) (o : Overflow) (image' : Image), 4 * l'.data.size < 0x8000000000000000 →
            p.projectIn? A o l'.planes = some (.ok image') →
            ∀ x < l.width, ∀ y < l.height, ∀ x' < l'.width, ∀ y' < l'.height,
              (∀ channel < l.channels, l'.at? channel x' y' = l.at? channel x y) → image'.get? x' y' = image.get? x y) ∧
    ∀ (o : Overflow) (channels height width : Nat) (value : Float32) (t : Planes),
      Planes.filled? o channels height width value = some t →
      (max channels 1 * max height 1 * max width 1 < 0x10000000000000000 →
        t = (Latent.filled channels height width value).planes ∧
          4 * (Latent.filled channels height width value).data.size < 0x8000000000000000) ∧
      (0x10000000000000000 ≤ max channels 1 * max height 1 * max width 1 →
        o = .wraps ∧ ∀ (o' : Overflow) (α : Type) (A : Projection.Arithmetic α),
          if max channels 1 = p.factors.length then p.projectIn? A o' t = none
          else ∃ reason, p.projectIn? A o' t = some (.error (.decode reason))) := by
  refine ⟨fun l h => ⟨fun o => p.project?_eq o h, fun α A => ?_⟩, fun o channels height width value t ht =>
    ⟨Planes.eq_planes_of_filled? ht, fun hcount => ⟨Planes.wraps_of_filled? ht hcount, fun o' α A => ?_⟩⟩⟩
  · by_cases hc : l.channels = p.channels
    · refine ⟨.ok (p.imageIn A l), fun o => Projection.projectIn?_eq_ok A o h hc, ?_, ?_, ?_⟩
      · constructor
        · rintro ⟨e, he⟩
          cases he
        · exact fun hne => absurd hc hne
      · intro e he
        cases he
      · intro image himage
        obtain rfl : p.imageIn A l = image := Except.ok.inj himage
        have hpixels : ∀ x < l.width, ∀ y < l.height, (p.imageIn A l).get? x y = some (p.pixelIn A l x y) :=
          fun x hx y hy => Image.get?_generate (s := l.dims) (p.pixelIn A l) hx hy
        refine ⟨rfl, (Image.exact_generate l.dims _).trans l.dims.byteCount_eq, ?_, ?_⟩
        · intro x hx y hy
          refine ⟨l.valuesAt x y, (l.length_valuesAt x y).trans hc, fun channel hchannel => ?_, hpixels x hx y hy⟩
          have hvalue : l.at? channel x y = some _ := Array.getElem?_eq_getElem (l.index_lt hchannel hx hy)
          exact ⟨_, hvalue, (l.getElem?_valuesAt hchannel hx hy).trans hvalue⟩
        · intro l' o image' h' himage' x hx y hy x' hx' y' hy' hvalues
          have hc' : l'.channels = p.channels := Projection.channels_of_projectIn? A o himage'
          rw [Projection.projectIn?_eq_ok A o h' hc'] at himage'
          obtain rfl : p.imageIn A l' = image' := Except.ok.inj (Option.some.inj himage')
          have hpixel' : (p.imageIn A l').get? x' y' = some (p.pixelIn A l' x' y') :=
            Image.get?_generate (s := l'.dims) (p.pixelIn A l') hx' hy'
          rw [hpixel', hpixels x hx y hy, Projection.pixelIn, Projection.pixelIn,
            Latent.valuesAt_congr (hc'.trans hc.symm) hvalues]
    · obtain ⟨reason, hreason⟩ := Projection.projectIn?_eq_error A (t := l.planes) hc
      refine ⟨.error (.decode reason), hreason, ⟨fun _ => hc, fun _ => ⟨_, rfl⟩⟩, ?_, ?_⟩
      · intro e he
        exact ⟨reason, (Except.error.inj he).symm⟩
      · intro image himage
        cases himage
  · obtain ⟨hchannels, -⟩ := Planes.shape_of_filled? ht
    rw [← hchannels]
    split
    · rename_i hc
      obtain ⟨channel, hchannel, x, hx, y, hy, hvalue⟩ := Planes.lacks_of_filled? ht hcount
      exact Projection.projectIn?_eq_none A o' hc hchannel hx hy (hvalue o')
    · rename_i hc
      obtain ⟨reason, hreason⟩ := Projection.projectIn?_eq_error A hc
      exact ⟨reason, hreason o'⟩

namespace Sample

/-- A latent of one channel, one row and two columns. -/
def beam : Latent := ⟨1, 1, 2, #[1, -1], Nat.le_refl 1, Nat.le_refl 1, Nat.zero_lt_two, rfl⟩

/-- What is bright in red is dark in green. -/
def contrast : Projection := ⟨[⟨1, -1, 0⟩], ⟨0, 0, 0⟩⟩

/-- What is bright in one colour at the first point of the latent is dark in it at the second. -/
theorem beam_pixels : 4 * beam.data.size < 0x8000000000000000 ∧
    (contrast.project? .wraps beam.planes).bind Except.toOption =
      some ⟨2, 1, #[255, 0, 128, 255, 0, 255, 128, 255]⟩ := by
  have hheld : 4 * beam.data.size < 0x8000000000000000 := by decide
  obtain ⟨hmachine, -⟩ := contrast.project_pixels.1 beam hheld
  refine ⟨hheld, ?_⟩
  rw [hmachine .wraps]
  decide +kernel

/-- A shape of `2 ^ 64` values: a machine that wraps counts none, makes planes that hold none, and breaks down when it projects them. -/
theorem endless_breaks_down : ∃ t, Planes.filled? .wraps 4 0x80000000 0x80000000 0 = some t ∧ t.data = #[] ∧
    t.channels = Projection.sd15.channels ∧ Projection.sd15.project? .wraps t = none := by
  refine ⟨⟨4, 0x80000000, 0x80000000, #[]⟩, rfl, rfl, rfl, ?_⟩
  exact Projection.projectIn?_eq_none Projection.singlePrecision .wraps rfl (show 0 < 4 by decide)
    (show 0 < 0x80000000 by decide) (show 0 < 0x80000000 by decide) rfl

end Sample

end ContactSheet
