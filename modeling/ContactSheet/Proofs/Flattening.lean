import ContactSheet.Latent
import Mathlib.Tactic.Ring

/-!
# The values of a batch, one latent after the other

A run of values is cut into equal shares, one for each latent of a batch. Nothing is lost on the way and nothing left over: the shares
put together again are the run (`flatten_shares`), and latents of one shape are the shares of their values (`shares_flatten`).
`Batch.ofFlat_inverts` says when a run can be cut, what comes of it, and that the values of any latents of one shape give back these
latents.
-/

namespace ContactSheet

/-! ## Shares of a list -/

section Shares

variable {α : Type}

/-- So many shares from the front of a list, each of so many members. -/
def shares (each : Nat) : Nat → List α → List (List α)
  | 0, _ => []
  | count + 1, xs => xs.take each :: shares each count (xs.drop each)

theorem length_shares (each count : Nat) (xs : List α) : (shares each count xs).length = count := by
  induction count generalizing xs with
  | zero => rfl
  | succ count ih => rw [shares, List.length_cons, ih]

/-- A share starts where those before it end. -/
theorem getElem?_shares (each : Nat) {count i : Nat} (hi : i < count) (xs : List α) :
    (shares each count xs)[i]? = some ((xs.drop (i * each)).take each) := by
  induction count generalizing i xs with
  | zero => exact absurd hi (Nat.not_lt_zero i)
  | succ count ih =>
    cases i with
    | zero => rw [shares, List.getElem?_cons_zero, Nat.zero_mul, List.drop_zero]
    | succ i =>
      rw [shares, List.getElem?_cons_succ, ih (Nat.lt_of_succ_lt_succ hi), List.drop_drop, Nat.succ_mul, Nat.add_comm each]

/-- The shares of a list that comes out even are all of it. -/
theorem flatten_shares {each count : Nat} {xs : List α} (h : xs.length = each * count) : (shares each count xs).flatten = xs := by
  induction count generalizing xs with
  | zero => exact (List.eq_nil_of_length_eq_zero h).symm
  | succ count ih =>
    have hrest : (xs.drop each).length = each * count := by
      rw [List.length_drop, h, Nat.mul_succ, Nat.add_sub_cancel]
    rw [shares, List.flatten_cons, ih hrest, List.take_append_drop]

/-- Lists of one length are the shares of what they make together. -/
theorem shares_flatten {each : Nat} {xss : List (List α)} (h : ∀ xs ∈ xss, xs.length = each) :
    shares each xss.length xss.flatten = xss := by
  induction xss with
  | nil => rfl
  | cons xs xss ih =>
    have hxs : xs.length = each := h xs List.mem_cons_self
    rw [List.length_cons, shares, List.flatten_cons, List.take_left' hxs, List.drop_left' hxs,
      ih fun ys hys => h ys (List.mem_cons_of_mem xs hys)]

/-- Lists of one length make together as many members as there are lists, times that length. -/
theorem length_flatten_of_length {each : Nat} {xss : List (List α)} (h : ∀ xs ∈ xss, xs.length = each) :
    xss.flatten.length = each * xss.length := by
  induction xss with
  | nil => rfl
  | cons xs xss ih =>
    rw [List.flatten_cons, List.length_append, h xs List.mem_cons_self, ih fun ys hys => h ys (List.mem_cons_of_mem xs hys),
      List.length_cons, Nat.mul_succ, Nat.add_comm]

end Shares

/-! ## Latents -/

/-- The values of latents, one latent after the other. -/
def valuesOf (items : Array Latent) : Array Float32 := items.flatMap Latent.data

/-- The values of each of some latents. -/
def valueLists (items : Array Latent) : List (List Float32) := items.toList.map fun l => l.data.toList

theorem toList_valuesOf (items : Array Latent) : (valuesOf items).toList = (valueLists items).flatten := by
  rw [valuesOf, Array.toList_flatMap, valueLists, List.flatMap_def]

theorem length_valueLists (items : Array Latent) : (valueLists items).length = items.size := by
  rw [valueLists, List.length_map, Array.length_toList]

theorem length_of_mem_valueLists {items : Array Latent} {each : Nat} (h : ∀ item ∈ items, item.data.size = each)
    {values : List Float32} (hvalues : values ∈ valueLists items) : values.length = each := by
  obtain ⟨item, hitem, rfl⟩ := List.mem_map.1 hvalues
  rw [Array.length_toList]
  exact h item (Array.mem_toList_iff.1 hitem)

/-- A latent is made anew from its values as it is, if 64 bits hold the counts that its shape asks for. -/
theorem Latent.make_eq_ok (l : Latent) (hplane : l.channels * l.height < 0x10000000000000000)
    (hcount : l.channels * l.height * l.width < 0x10000000000000000) :
    Latent.make l.channels l.height l.width l.data = .ok l := by
  have hvalues : valueCount l.channels l.height l.width = .ok (l.channels * l.height * l.width) := if_pos ⟨hplane, hcount⟩
  unfold Latent.make
  rw [hvalues]
  show dite _ _ _ = _
  rw [dif_pos ⟨l.channels_pos, l.height_pos, l.width_pos⟩, dif_pos l.size_data]
  rfl

/-- Each channel, row and column of a latent has its value among the values. -/
theorem Latent.index_lt (l : Latent) {channel x y : Nat} (hc : channel < l.channels) (hx : x < l.width) (hy : y < l.height) :
    l.index channel x y < l.data.size := by
  have hplanes : (channel + 1) * (l.height * l.width) ≤ l.channels * (l.height * l.width) := Nat.mul_le_mul_right _ hc
  have hrows : (y + 1) * l.width ≤ l.height * l.width := Nat.mul_le_mul_right _ hy
  rw [Nat.succ_mul] at hplanes hrows
  rw [l.size_data, Nat.mul_assoc, Latent.index]
  omega

/-- Two latents of one shape with the same values are the same. -/
theorem Latent.eq_of_toList {a b : Latent} (hc : a.channels = b.channels) (hd : a.dims = b.dims)
    (hv : a.data.toList = b.data.toList) : a = b := by
  obtain ⟨channels, height, width, data, hc1, hh1, hw1, hs1⟩ := a
  obtain ⟨channels', height', width', data', hc2, hh2, hw2, hs2⟩ := b
  obtain ⟨rfl, rfl⟩ := Size.mk.inj hd
  obtain rfl : channels = channels' := hc
  obtain rfl : data = data' := Array.toList_inj.1 hv
  rfl

/-- Latents of a shape, each made anew from its values, are made as they are. -/
theorem mapM_make {channels height width : Nat} (hplane : channels * height < 0x10000000000000000)
    (hcount : channels * height * width < 0x10000000000000000) {items : List Latent}
    (hshape : ∀ item ∈ items, item.channels = channels ∧ item.height = height ∧ item.width = width) :
    ((items.map fun l => l.data.toList).mapM fun values => Latent.make channels height width values.toArray) = .ok items := by
  induction items with
  | nil => rfl
  | cons item items ih =>
    obtain ⟨rfl, rfl, rfl⟩ := hshape item List.mem_cons_self
    have hrest := ih fun l hl => hshape l (List.mem_cons_of_mem item hl)
    rw [List.map_cons, List.mapM_cons, Array.toArray_toList, item.make_eq_ok hplane hcount, hrest]
    rfl

/-- Latents of one shape form a batch as they are. -/
theorem Batch.ofItems_of_uniform {items : Array Latent} (h : Uniform items) : Batch.ofItems items = .ok ⟨items, h⟩ := by
  unfold Batch.ofItems
  split
  · rfl
  · rename_i odd hodd
    obtain ⟨hlt, hshape, -⟩ := Array.findIdx?_eq_some_iff_getElem.1 hodd
    have hpos : 0 < items.size := Nat.lt_of_le_of_lt (Nat.zero_le odd) hlt
    have hsame := h items[odd] (Array.getElem_mem hlt) items[0] (Array.getElem_mem hpos)
    simp [Array.getElem?_eq_getElem hpos, Latent.sameShape, hsame] at hshape

/-! ## Batches -/

/-- A run of values can be cut into `count` latents of a shape: 64 bits hold the counts, only a batch of nothing has latents without
a value, and there are as many values as the latents ask for. -/
structure Batch.Cuttable (count channels height width : Nat) (data : Array Float32) : Prop where
  plane_lt : channels * height < 0x10000000000000000
  each_lt : channels * height * width < 0x10000000000000000
  each_pos : 0 < channels * height * width ∨ count = 0
  total_lt : count * (channels * height * width) < 0x10000000000000000
  size_data : data.size = count * (channels * height * width)

variable {count channels height width : Nat} {data : Array Float32}

/-- A run of values that can be cut is: each latent has the shape, and a share of the values. -/
theorem Batch.ofFlat_of_cuttable (h : Batch.Cuttable count channels height width data) :
    ∃ b, Batch.ofFlat count channels height width data = .ok b ∧
      (∀ item ∈ b.items, item.channels = channels ∧ item.height = height ∧ item.width = width) ∧
      valueLists b.items = shares (channels * height * width) count data.toList := by
  have hvalues : valueCount channels height width = .ok (channels * height * width) := if_pos ⟨h.plane_lt, h.each_lt⟩
  have hpos : ¬(0 < count ∧ channels * height * width = 0) := by
    have := h.each_pos
    omega
  have htotal : ¬0x10000000000000000 ≤ channels * height * width * count := by
    rw [Nat.mul_comm]
    exact Nat.not_le.2 h.total_lt
  have hdata : data.size = channels * height * width * count := by
    rw [Nat.mul_comm]
    exact h.size_data
  unfold Batch.ofFlat
  rw [hvalues]
  show ∃ b, dite _ _ _ = _ ∧ _
  rw [dif_neg hpos, if_neg htotal, dif_pos hdata]
  refine ⟨_, rfl, ?_, ?_⟩
  · intro item hitem
    obtain ⟨i, rfl⟩ := Array.mem_ofFn.1 hitem
    exact ⟨rfl, rfl, rfl⟩
  · apply List.ext_getElem?
    intro i
    rcases Nat.lt_or_ge i count with hi | hi
    · rw [getElem?_shares _ hi]
      simp [valueLists, hi]
    · have hshares : (shares (channels * height * width) count data.toList)[i]? = none :=
        List.getElem?_eq_none (by rwa [length_shares])
      rw [hshares]
      simp [valueLists, hi]

/-- A run of values that cannot be cut is refused. -/
theorem Batch.ofFlat_of_not_cuttable (h : ¬Batch.Cuttable count channels height width data) :
    ∃ reason, Batch.ofFlat count channels height width data = .error (.decode reason) := by
  unfold Batch.ofFlat valueCount
  split
  · rename_i hvalues
    show ∃ reason, dite _ _ _ = _
    split
    · exact ⟨_, rfl⟩
    · rename_i hpos
      split
      · exact ⟨_, rfl⟩
      · rename_i htotal
        split
        · rename_i hdata
          rw [Nat.mul_comm] at htotal hdata
          exact absurd ⟨hvalues.1, hvalues.2, by omega, Nat.not_le.1 htotal, hdata⟩ h
        · exact ⟨_, rfl⟩
  · exact ⟨_, rfl⟩

/-- The latents of a run of values that was cut, each with its share. -/
theorem getElem?_of_valueLists {items : Array Latent} {each : Nat} (h : valueLists items = shares each count data.toList) {i : Nat}
    (hi : i < count) : ∃ item, items[i]? = some item ∧ item.data.toList = (data.toList.drop (i * each)).take each := by
  have hshare := getElem?_shares each hi data.toList
  rw [← h, valueLists, List.getElem?_map, Array.getElem?_toList, Option.map_eq_some_iff] at hshare
  exact hshare

/-- The values of latents of one shape, cut into shares, give the values of each of them back. -/
theorem shares_valuesOf {items : Array Latent} {each : Nat} (h : ∀ item ∈ items, item.data.size = each) :
    shares each items.size (valuesOf items).toList = valueLists items := by
  rw [toList_valuesOf, ← length_valueLists]
  exact shares_flatten fun values hvalues => length_of_mem_valueLists h hvalues

/-- Latents of one shape have so many values as one of them, times their number. -/
theorem size_valuesOf {items : Array Latent} {each : Nat} (h : ∀ item ∈ items, item.data.size = each) :
    (valuesOf items).size = items.size * each := by
  rw [← Array.length_toList, toList_valuesOf, ← length_valueLists, Nat.mul_comm]
  exact length_flatten_of_length fun values hvalues => length_of_mem_valueLists h hvalues

/-- Latents of one shape are the same when their values are, latent by latent. -/
theorem eq_of_valueLists {as bs : Array Latent} (hshape : ∀ a ∈ as, ∀ b ∈ bs, a.channels = b.channels ∧ a.dims = b.dims)
    (h : valueLists as = valueLists bs) : as = bs := by
  apply Array.ext
  · have hlength := congrArg List.length h
    rwa [length_valueLists, length_valueLists] at hlength
  · intro i hi hi'
    have hvalues := congrArg (fun values => values[i]?) h
    simp only [valueLists, List.getElem?_map, Array.getElem?_toList, Array.getElem?_eq_getElem hi, Array.getElem?_eq_getElem hi',
      Option.map_some, Option.some.injEq] at hvalues
    obtain ⟨hc, hd⟩ := hshape _ (Array.getElem_mem hi) _ (Array.getElem_mem hi')
    exact Latent.eq_of_toList hc hd hvalues

/-- What a run of values is cut into. -/
theorem Batch.cuttable_of_ofFlat {b : Batch} (hb : Batch.ofFlat count channels height width data = .ok b) :
    Batch.Cuttable count channels height width data ∧
      (∀ item ∈ b.items, item.channels = channels ∧ item.height = height ∧ item.width = width) ∧
      valueLists b.items = shares (channels * height * width) count data.toList := by
  by_cases h : Batch.Cuttable count channels height width data
  · obtain ⟨b', hb', hshape, hvalues⟩ := Batch.ofFlat_of_cuttable h
    obtain rfl : b' = b := Except.ok.inj (hb'.symm.trans hb)
    exact ⟨h, hshape, hvalues⟩
  · obtain ⟨reason, hreason⟩ := Batch.ofFlat_of_not_cuttable h
    rw [hreason] at hb
    cases hb

/-- The value of a channel at a point of a latent that was cut from a run lies in the run after those of the latents, channels, rows and
columns before it. -/
theorem Latent.at?_of_share {item : Latent} {i : Nat}
    (hvalues : item.data.toList =
      (data.toList.drop (i * (item.channels * item.height * item.width))).take (item.channels * item.height * item.width))
    {c x y : Nat} (hc : c < item.channels) (hx : x < item.width) (hy : y < item.height) :
    ∃ v, item.at? c x y = some v ∧ data[((i * item.channels + c) * item.height + y) * item.width + x]? = some v := by
  have hlt : item.index c x y < item.data.size := item.index_lt hc hx hy
  have hplace : ((i * item.channels + c) * item.height + y) * item.width + x =
      i * (item.channels * item.height * item.width) + item.index c x y := by
    unfold Latent.index
    ring
  have hsome : item.at? c x y = some item.data[item.index c x y] := Array.getElem?_eq_getElem hlt
  refine ⟨_, hsome, ?_⟩
  rw [← hsome, hplace, Latent.at?, ← Array.getElem?_toList, ← Array.getElem?_toList, hvalues,
    List.getElem?_take_of_lt (by rwa [← item.size_data]), List.getElem?_drop]

/-- The values of latents of one shape can be cut, and are cut into these latents. -/
theorem Batch.ofFlat_valuesOf {items : Array Latent} {first : Latent} (hfirst : items[0]? = some first) (h : Uniform items)
    (hsize : (valuesOf items).size < 0x10000000000000000) :
    ∃ b, Batch.ofFlat items.size first.channels first.height first.width (valuesOf items) = .ok b ∧ b.items = items := by
  obtain ⟨hpos, rfl⟩ := Array.getElem?_eq_some_iff.1 hfirst
  have hshape : ∀ item ∈ items, item.channels = items[0].channels ∧ item.dims = items[0].dims :=
    fun item hitem => h item hitem _ (Array.getElem_mem hpos)
  generalize items[0] = first at hshape ⊢
  have heach : ∀ item ∈ items, item.data.size = first.channels * first.height * first.width := by
    intro item hitem
    obtain ⟨hc, hd⟩ := hshape item hitem
    obtain ⟨hw, hh⟩ := Size.mk.inj hd
    rw [item.size_data, hc, hw, hh]
  have htotal := size_valuesOf heach
  have hplane : first.channels * first.height ≤ first.channels * first.height * first.width :=
    Nat.le_mul_of_pos_right _ first.width_pos
  have hone : first.channels * first.height * first.width ≤ items.size * (first.channels * first.height * first.width) :=
    Nat.le_mul_of_pos_left _ hpos
  have hcuttable : Batch.Cuttable items.size first.channels first.height first.width (valuesOf items) :=
    { plane_lt := by omega
      each_lt := by omega
      each_pos := Or.inl (Nat.mul_pos (Nat.mul_pos first.channels_pos first.height_pos) first.width_pos)
      total_lt := by omega
      size_data := htotal }
  obtain ⟨b, hb, hbshape, hvalues⟩ := Batch.ofFlat_of_cuttable hcuttable
  rw [shares_valuesOf heach] at hvalues
  refine ⟨b, hb, eq_of_valueLists ?_ hvalues⟩
  intro item hitem item' hitem'
  obtain ⟨hc, hh, hw⟩ := hbshape item hitem
  obtain ⟨hc', hd'⟩ := hshape item' hitem'
  refine ⟨hc.trans hc'.symm, ?_⟩
  rw [hd', Latent.dims, hh, hw]
  rfl

/-- Cutting a run of values into latents and putting the values of latents together undo each other. A run of values is cut into
`count` latents of a shape just when 64 bits hold the counts that the shape asks for, the shape has a value or there are no latents,
and there are as many values as the latents hold; otherwise it is refused with an error of the decoder. The latents that it is cut into
are `count` of that shape, each made of its share of the values; the value of a channel at a point lies where four indices in a row
put it; together they hold the values that were given, and they form the same batch when they are given one by one. Any latents of one
shape, of which there is one, are what the values of all of them are cut into. -/
theorem Batch.ofFlat_inverts :
    (∀ (count channels height width : Nat) (data : Array Float32),
      ((∃ b, Batch.ofFlat count channels height width data = .ok b) ↔
        channels * height < 0x10000000000000000 ∧ channels * height * width < 0x10000000000000000 ∧
        (0 < channels * height * width ∨ count = 0) ∧ count * (channels * height * width) < 0x10000000000000000 ∧
        data.size = count * (channels * height * width)) ∧
      (∀ e, Batch.ofFlat count channels height width data = .error e → ∃ reason, e = .decode reason) ∧
      ∀ b, Batch.ofFlat count channels height width data = .ok b →
        b.size = count ∧
        (∀ item ∈ b.items, item.channels = channels ∧ item.height = height ∧ item.width = width) ∧
        (shares (channels * height * width) count data.toList).mapM
          (fun share => Latent.make channels height width share.toArray) = .ok b.items.toList ∧
        (∀ i < count, ∃ item, b.get? i = some item ∧ ∀ c < channels, ∀ y < height, ∀ x < width,
          ∃ v, item.at? c x y = some v ∧ data[((i * channels + c) * height + y) * width + x]? = some v) ∧
        valuesOf b.items = data ∧ Batch.ofItems b.items = .ok b) ∧
    ∀ (items : Array Latent) (first : Latent), items[0]? = some first → Uniform items →
      (valuesOf items).size < 0x10000000000000000 →
      ∃ b, Batch.ofFlat items.size first.channels first.height first.width (valuesOf items) = .ok b ∧
        Batch.ofItems items = .ok b ∧ b.items = items := by
  refine ⟨fun count channels height width data => ⟨?_, ?_, ?_⟩, ?_⟩
  · constructor
    · rintro ⟨b, hb⟩
      obtain ⟨h, -, -⟩ := Batch.cuttable_of_ofFlat hb
      exact ⟨h.plane_lt, h.each_lt, h.each_pos, h.total_lt, h.size_data⟩
    · rintro ⟨hplane, heach, hpos, htotal, hsize⟩
      obtain ⟨b, hb, -, -⟩ := Batch.ofFlat_of_cuttable ⟨hplane, heach, hpos, htotal, hsize⟩
      exact ⟨b, hb⟩
  · intro e he
    by_cases h : Batch.Cuttable count channels height width data
    · obtain ⟨b, hb, -, -⟩ := Batch.ofFlat_of_cuttable h
      rw [hb] at he
      cases he
    · obtain ⟨reason, hreason⟩ := Batch.ofFlat_of_not_cuttable h
      exact ⟨reason, Except.error.inj (he.symm.trans hreason)⟩
  · intro b hb
    obtain ⟨h, hshape, hvalues⟩ := Batch.cuttable_of_ofFlat hb
    refine ⟨?_, hshape, ?_, ?_, ?_, Batch.ofItems_of_uniform b.uniform⟩
    · have hlength := congrArg List.length hvalues
      rwa [length_valueLists, length_shares] at hlength
    · rw [← hvalues]
      exact mapM_make h.plane_lt h.each_lt fun item hitem => hshape item (Array.mem_toList_iff.1 hitem)
    · intro i hi
      obtain ⟨item, hitem, hshare⟩ := getElem?_of_valueLists hvalues hi
      obtain ⟨rfl, rfl, rfl⟩ := hshape item (Array.mem_of_getElem? hitem)
      exact ⟨item, hitem, fun c hc y hy x hx => Latent.at?_of_share hshare hc hx hy⟩
    · apply Array.toList_inj.1
      rw [toList_valuesOf, hvalues, flatten_shares]
      rw [Array.length_toList, h.size_data, Nat.mul_comm]
  · intro items first hfirst huniform hsize
    obtain ⟨b, hb, rfl⟩ := Batch.ofFlat_valuesOf hfirst huniform hsize
    exact ⟨b, hb, Batch.ofItems_of_uniform b.uniform, rfl⟩

/-- Latents without a value are refused, but for none of them. -/
example : (Batch.ofFlat 0 3 0 7 #[]).isOk = true ∧ (Batch.ofFlat 1 3 0 7 #[]).isOk = false := by decide

end ContactSheet
