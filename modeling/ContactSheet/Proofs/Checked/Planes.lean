import ContactSheet.Planes
import ContactSheet.Proofs.Flattening

/-!
# Planes within the limits of a machine

A latent in memory, whose values of four bytes fill fewer than `2 ^ 63`, has each of its values at its place on every machine
(`Latent.at?_planes`). Planes of one value are those of a latent if 64 bits count their values. Beyond that a machine that wraps makes
planes of which a value is missing (`Planes.lacks_of_filled?`).
-/

namespace ContactSheet

/-! ## Places -/

/-- A place among the values, counted on any machine, is the place counted without a limit or its rest modulo `2 ^ 64`. -/
theorem Planes.eq_mod_of_index? {t : Planes} {o : Overflow} {channel x y i : Nat} (h : t.index? o channel x y = some i) :
    i = (channel * (t.height * t.width) + y * t.width + x) % 0x10000000000000000 := by
  simp only [Planes.index?, Option.bind_eq_bind, Option.bind_eq_some_iff] at h
  obtain ⟨plane, hplane, before, hbefore, above, habove, row, hrow, hi⟩ := h
  rw [Overflow.word?_eq_some hi, Overflow.word?_eq_some hrow, Overflow.word?_eq_some habove, Overflow.word?_eq_some hbefore,
    Overflow.word?_eq_some hplane]
  simp only [Nat.mod_add_mod, Nat.add_mod_mod, Nat.mul_mod_mod]

section Latents

variable (o : Overflow) {l : Latent} (h : 4 * l.data.size < 0x8000000000000000) {channel x y : Nat} (hc : channel < l.channels)
  (hx : x < l.width) (hy : y < l.height)

include h hc hx hy

/-- 64 bits count the places of the values of a latent in memory. -/
theorem Latent.index?_planes : l.planes.index? o channel x y = some (l.index channel x y) := by
  have hlt := l.index_lt hc hx hy
  have hplane : l.height * l.width ≤ l.data.size := by
    rw [l.size_data, Nat.mul_assoc]
    exact Nat.le_mul_of_pos_left _ l.channels_pos
  unfold Latent.index at hlt
  simp only [Planes.index?, Latent.planes]
  rw [bind_eq_of_eq_some (o.word?_eq (by omega)), bind_eq_of_eq_some (o.word?_eq (by omega)),
    bind_eq_of_eq_some (o.word?_eq (by omega)), bind_eq_of_eq_some (o.word?_eq (by omega)), o.word?_eq (by omega), Latent.index]

/-- A latent in memory has a value in each channel at each point. -/
theorem Latent.at?_planes : l.planes.at? o channel x y = some (l.value channel x y) := by
  have hlt := l.index_lt hc hx hy
  rw [Planes.at?, bind_eq_of_eq_some (Latent.index?_planes o h hc hx hy), Latent.value, Latent.at?]
  show l.data[l.index channel x y]? = _
  rw [Array.getElem?_eq_getElem hlt, Option.getD_some]

end Latents

/-! ## Planes of one value -/

section Filled

variable {o : Overflow} {channels height width : Nat} {value : Float32} {t : Planes}
  (h : Planes.filled? o channels height width value = some t)

include h

/-- Planes of one value have the shape that was asked for, as many values as a word makes of their number, and there is room for them. -/
theorem Planes.shape_of_filled? :
    t.channels = max channels 1 ∧ t.height = max height 1 ∧ t.width = max width 1 ∧ 4 * t.data.size < 0x8000000000000000 ∧
      t.data = Array.replicate (max channels 1 * max height 1 * max width 1 % 0x10000000000000000) value := by
  simp only [Planes.filled?, Option.bind_eq_bind, Option.bind_eq_some_iff] at h
  obtain ⟨column, hcolumn, count, hcount, ht⟩ := h
  split at ht
  · rename_i hroom
    obtain rfl := Option.some.inj ht
    have hrest := Overflow.word?_eq_some hcount
    rw [Overflow.word?_eq_some hcolumn, Nat.mod_mul_mod] at hrest
    refine ⟨rfl, rfl, rfl, ?_, congrArg (Array.replicate · value) hrest⟩
    rw [Array.size_replicate]
    exact hasRoom_iff.1 hroom
  · cases ht

/-- Planes of one value are those of a latent in memory if 64 bits count their values. -/
theorem Planes.eq_planes_of_filled? (hcount : max channels 1 * max height 1 * max width 1 < 0x10000000000000000) :
    t = (Latent.filled channels height width value).planes ∧
      4 * (Latent.filled channels height width value).data.size < 0x8000000000000000 := by
  obtain ⟨hchannels, hheight, hwidth, hroom, hdata⟩ := Planes.shape_of_filled? h
  rw [Nat.mod_eq_of_lt hcount] at hdata
  obtain ⟨channels', height', width', data⟩ := t
  obtain rfl : channels' = max channels 1 := hchannels
  obtain rfl : height' = max height 1 := hheight
  obtain rfl : width' = max width 1 := hwidth
  obtain rfl : data = _ := hdata
  exact ⟨rfl, hroom⟩

variable (hcount : 0x10000000000000000 ≤ max channels 1 * max height 1 * max width 1)

include hcount

/-- Only a machine that wraps makes planes of one value of which 64 bits do not count the values. -/
theorem Planes.wraps_of_filled? : o = .wraps := by
  simp only [Planes.filled?, Option.bind_eq_bind, Option.bind_eq_some_iff] at h
  obtain ⟨column, hcolumn, count, hword, -⟩ := h
  by_cases hlt : max channels 1 * max height 1 < 0x10000000000000000
  · obtain rfl : _ = column := Option.some.inj ((o.word?_eq hlt).symm.trans hcolumn)
    exact Overflow.eq_wraps_of_word? hcount hword
  · exact Overflow.eq_wraps_of_word? (Nat.le_of_not_lt hlt) hcolumn

/-- Of these planes a value is missing, on every machine. -/
theorem Planes.lacks_of_filled? :
    ∃ channel < t.channels, ∃ x < t.width, ∃ y < t.height, ∀ o' : Overflow, t.at? o' channel x y = none := by
  obtain ⟨hchannels, hheight, hwidth, hroom, hdata⟩ := Planes.shape_of_filled? h
  have hsize : t.data.size < t.channels * (t.height * t.width) := by
    rw [hchannels, hheight, hwidth, ← Nat.mul_assoc]
    omega
  have hplane : 0 < t.height * t.width := Nat.pos_of_mul_pos_left (Nat.zero_lt_of_lt hsize)
  have hside : 0 < t.width := Nat.pos_of_mul_pos_left hplane
  -- The point of the first value beyond those there are.
  refine ⟨t.data.size / (t.height * t.width), Nat.div_lt_of_lt_mul (by rwa [Nat.mul_comm]),
    t.data.size % (t.height * t.width) % t.width, Nat.mod_lt _ hside, t.data.size % (t.height * t.width) / t.width,
    Nat.div_lt_of_lt_mul ((Nat.mod_lt _ hplane).trans_eq (Nat.mul_comm _ _)), fun o' => ?_⟩
  rw [Planes.at?]
  cases hindex : t.index? o' (t.data.size / (t.height * t.width)) (t.data.size % (t.height * t.width) % t.width)
    (t.data.size % (t.height * t.width) / t.width) with
  | none => rfl
  | some i =>
    have hi := Planes.eq_mod_of_index? hindex
    rw [Nat.add_assoc, Nat.div_add_mod', Nat.div_add_mod', Nat.mod_eq_of_lt (by omega)] at hi
    show t.data[i]? = none
    rw [hi, Array.getElem?_eq_none_iff]

end Filled

end ContactSheet
