import ContactSheet.Error
import ContactSheet.Size

/-!
# Latents and batches of them

A `Latent` holds the values of its channels one plane after the other, each plane row by row; its sides are positive and its
values as many as its shape asks for. A `Batch` holds latents of one shape. Both are so by their types: `Latent.make`,
`Batch.ofItems` and `Batch.ofFlat` refuse what does not match.
-/

namespace ContactSheet

/-- What a decoder decodes: a grid of values in several channels. -/
structure Latent where
  channels : Nat
  height : Nat
  width : Nat
  data : Array Float32
  channels_pos : 1 ≤ channels
  height_pos : 1 ≤ height
  width_pos : 1 ≤ width
  size_data : data.size = channels * height * width

/-- A shape as words. -/
def shapeText (channels height width : Nat) : String :=
  toString channels ++ "x" ++ toString height ++ "x" ++ toString width

/-- How many values a shape holds; the count and the count of one row of planes must fit 64 bits. -/
def valueCount (channels height width : Nat) : Except PreviewError Nat :=
  if channels * height < 0x10000000000000000 ∧ channels * height * width < 0x10000000000000000 then .ok (channels * height * width)
  else .error (.decode ("latent shape " ++ shapeText channels height width ++ " is too large"))

/-- A latent of a shape, from its values. -/
def Latent.make (channels height width : Nat) (data : Array Float32) : Except PreviewError Latent := do
  let _ ← valueCount channels height width
  if h : 1 ≤ channels ∧ 1 ≤ height ∧ 1 ≤ width then
    if hs : data.size = channels * height * width then
      return ⟨channels, height, width, data, h.1, h.2.1, h.2.2, hs⟩
    else
      throw (.decode ("latent " ++ shapeText channels height width ++ " needs " ++
        toString (channels * height * width) ++ " values, got " ++ toString data.size))
  else throw (.decode ("empty latent shape " ++ shapeText channels height width))

/-- A latent of one value; a zero in its shape counts as one. `Planes.filled?` counts the values in words. -/
def Latent.filled (channels height width : Nat) (value : Float32) : Latent :=
  { channels := max channels 1
    height := max height 1
    width := max width 1
    data := Array.replicate (max channels 1 * max height 1 * max width 1) value
    channels_pos := one_le_max_one channels
    height_pos := one_le_max_one height
    width_pos := one_le_max_one width
    size_data := Array.size_replicate }

/-- The size of each plane. -/
def Latent.dims (l : Latent) : Size := ⟨l.width, l.height⟩

/-- Where the value of a channel at a point lies among the values. -/
def Latent.index (l : Latent) (channel x y : Nat) : Nat := channel * (l.height * l.width) + y * l.width + x

/-- The value of a channel at a point, none beyond the last value. -/
def Latent.at? (l : Latent) (channel x y : Nat) : Option Float32 := l.data[l.index channel x y]?

/-- The value of a channel at a point, zero beyond the last value. -/
def Latent.value (l : Latent) (channel x y : Nat) : Float32 := (l.at? channel x y).getD 0

/-- The first value. -/
def Latent.first (l : Latent) : Float32 := l.value 0 0 0

/-- Two latents have as many channels and the same sides. -/
def Latent.sameShape (a b : Latent) : Bool := a.channels = b.channels && a.dims = b.dims

/-- The latents all have one shape. -/
def Uniform (items : Array Latent) : Prop := ∀ a ∈ items, ∀ b ∈ items, a.channels = b.channels ∧ a.dims = b.dims

/-- Latents of one shape that are previewed together. -/
structure Batch where
  items : Array Latent
  uniform : Uniform items

/-- A batch of nothing. -/
instance : Inhabited Batch := ⟨#[], nofun⟩

/-- Latents that all have the shape of the first have one shape. -/
theorem uniform_of_findIdx? {items : Array Latent}
    (h : items.findIdx? (fun l => !items[0]?.all l.sameShape) = none) : Uniform items := by
  have hs : ∀ l ∈ items, items[0]?.all l.sameShape = true := by
    intro l hl
    have := Array.findIdx?_eq_none_iff.1 h l hl
    simpa using this
  intro a ha b hb
  have hpos : 0 < items.size := Array.size_pos_of_mem ha
  have h0 : items[0]? = some items[0] := by simp [hpos]
  have hsa := hs a ha
  have hsb := hs b hb
  simp only [h0, Option.all_some, Latent.sameShape, Bool.and_eq_true, decide_eq_true_eq] at hsa hsb
  exact ⟨hsa.1.trans hsb.1.symm, hsa.2.trans hsb.2.symm⟩

/-- A batch of latents, which must all have the shape of the first. -/
def Batch.ofItems (items : Array Latent) : Except PreviewError Batch :=
  match h : items.findIdx? fun l => !items[0]?.all l.sameShape with
  | none => .ok ⟨items, uniform_of_findIdx? h⟩
  | some odd => .error (.decode ("batch item " ++ toString odd ++ " shape differs from item 0"))

/-- A share of a run of values has as many values as it should. -/
theorem size_share {data : Array Float32} {each count i : Nat} (h : data.size = each * count) (hi : i < count) :
    (data.extract (i * each) (i * each + each)).size = each := by
  have : i * each + each ≤ data.size := by
    rw [h, Nat.mul_comm each count, ← Nat.succ_mul]
    exact Nat.mul_le_mul_right _ hi
  simp only [Array.size_extract]
  omega

/-- A shape that holds a value has no zero in it. -/
theorem pos_of_valueCount {channels height width : Nat} (h : channels * height * width ≠ 0) :
    1 ≤ channels ∧ 1 ≤ height ∧ 1 ≤ width := by
  rcases Nat.eq_zero_or_pos channels with rfl | hc
  · simp at h
  · rcases Nat.eq_zero_or_pos height with rfl | hh
    · simp at h
    · rcases Nat.eq_zero_or_pos width with rfl | hw
      · simp at h
      · exact ⟨hc, hh, hw⟩

/-- A batch of `count` latents of one shape, from their values one latent after the other. -/
def Batch.ofFlat (count channels height width : Nat) (data : Array Float32) : Except PreviewError Batch := do
  let _ ← valueCount channels height width
  let each := channels * height * width
  if hz : 0 < count ∧ each = 0 then throw (.decode ("empty latent shape " ++ shapeText channels height width))
  else if 0x10000000000000000 ≤ each * count then
    throw (.decode ("batch of " ++ toString count ++ " latents of " ++ shapeText channels height width ++ " is too large"))
  else if hs : data.size = each * count then
    have pos (i : Fin count) : 1 ≤ channels ∧ 1 ≤ height ∧ 1 ≤ width :=
      pos_of_valueCount fun he => hz ⟨Nat.lt_of_le_of_lt (Nat.zero_le _) i.isLt, he⟩
    let item (i : Fin count) : Latent :=
      ⟨channels, height, width, data.extract (i.val * each) (i.val * each + each), (pos i).1, (pos i).2.1, (pos i).2.2,
        size_share hs i.isLt⟩
    return ⟨Array.ofFn item, by
      intro a ha b hb
      obtain ⟨i, rfl⟩ := Array.mem_ofFn.1 ha
      obtain ⟨j, rfl⟩ := Array.mem_ofFn.1 hb
      exact ⟨rfl, rfl⟩⟩
  else
    throw (.decode ("batch of " ++ toString count ++ " latents needs " ++ toString (each * count) ++ " values, got " ++
      toString data.size))

/-- How many latents a batch holds. -/
def Batch.size (b : Batch) : Nat := b.items.size

/-- A batch of nothing. -/
def Batch.isEmpty (b : Batch) : Bool := b.items.isEmpty

/-- The latent at a place in the batch. -/
def Batch.get? (b : Batch) (i : Nat) : Option Latent := b.items[i]?

/-- The size of each plane of the first latent. -/
def Batch.dims? (b : Batch) : Option Size := (b.get? 0).map Latent.dims

end ContactSheet
