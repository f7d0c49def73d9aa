import ContactSheet.Proofs.Layout
import ContactSheet.Proofs.Precision

/-!
# Which items of a batch are picked

A batch that is shown whole, or by its front, is picked from in its own order. A spread selection strides over the batch: its picks
are the multiples of a fractional stride, rounded to whole places (`Sampler.Spreads.getElem_picks`). So it starts at the first item,
ends at the last, and moves on by the stride rounded down or up each time. `Sampler.selection` says which items are picked and in how
many columns they are laid out.
-/

namespace ContactSheet

/-! ## Rounding -/

/-- Adding a stride to a number moves its rounding on by the stride rounded down or up. -/
theorem round_add_sub_round (x stride : ℚ) :
    round (x + stride) - round x = ⌊stride⌋ ∨ round (x + stride) - round x = ⌈stride⌉ := by
  have hsum : round (x + stride) = ⌊x + 1 / 2 + stride⌋ := by
    rw [round_eq]
    congr 1
    ring
  have hlow : ⌊x + 1 / 2⌋ + ⌊stride⌋ ≤ ⌊x + 1 / 2 + stride⌋ := Int.le_floor_add _ _
  have hhigh : ⌊x + 1 / 2 + stride⌋ ≤ ⌊x + 1 / 2⌋ + ⌈stride⌉ := by
    rw [← Int.floor_add_intCast]
    exact Int.floor_le_floor (add_le_add_right (Int.le_ceil stride) _)
  have hceil : ⌈stride⌉ ≤ ⌊stride⌋ + 1 := Int.ceil_le_floor_add_one stride
  rw [hsum, round_eq]
  omega

/-! ## Picks -/

/-- How far a spread selection goes on from one pick to the next, as a fraction of places. -/
def Sampler.stride (s : Sampler) (n : Nat) : ℚ := ((n : ℚ) - 1) / ((min n s.maxBatch : ℕ) - 1)

/-- A sampler spreads its picks over a batch: it is to do so, and it picks more than one item but not all of them. -/
structure Sampler.Spreads (s : Sampler) (n : Nat) : Prop where
  spread : s.spread = true
  many : 2 ≤ min n s.maxBatch
  few : min n s.maxBatch < n

/-- How far each pick lies behind the one before it. -/
def Grid.gaps (g : Grid) : List ℤ := g.picks.tail.zipWith (fun (next pick : Nat) => (next : ℤ) - pick) g.picks

variable {s : Sampler} {n : Nat}

/-- A sampler that has no choice picks the front of a batch; any other spreads its picks. -/
theorem Sampler.front_or_spread (s : Sampler) (n : Nat) :
    (s.spread = false ∨ min n s.maxBatch ≤ 1 ∨ min n s.maxBatch = n) ∨ s.Spreads n := by
  cases hspread : s.spread with
  | false => exact Or.inl (Or.inl rfl)
  | true =>
    by_cases h : 2 ≤ min n s.maxBatch ∧ min n s.maxBatch < n
    · exact Or.inr ⟨hspread, h.1, h.2⟩
    · exact Or.inl (Or.inr (by omega))

/-- Without a spread selection the front of a batch is picked; so is all of it, or its only item. -/
theorem Sampler.picks_front (h : s.spread = false ∨ min n s.maxBatch ≤ 1 ∨ min n s.maxBatch = n) :
    (s.plan n).picks = List.range (min n s.maxBatch) := by
  refine if_neg ?_
  rintro ⟨hspread, hmany, hfew⟩
  rcases h with h | h | h
  · rw [h] at hspread
    cases hspread
  · omega
  · omega

/-- A spread selection picks the whole numbers nearest to fractions of the batch. -/
theorem Sampler.Spreads.picks_eq (h : s.Spreads n) :
    (s.plan n).picks = (List.range (min n s.maxBatch)).map fun i => nearestUp (i * (n - 1)) (min n s.maxBatch - 1) :=
  if_pos ⟨h.spread, h.many, h.few⟩

/-- The picks of a spread selection are the multiples of its stride, rounded to whole places. -/
theorem Sampler.Spreads.getElem_picks (h : s.Spreads n) (i : Nat) (hi : i < (s.plan n).picks.length) :
    ((s.plan n).picks[i] : ℤ) = round (i * s.stride n) := by
  have hmany := h.many
  have hfew := h.few
  have hstride : (i : ℚ) * s.stride n = ((i * (n - 1) : ℕ) : ℚ) / ((min n s.maxBatch - 1 : ℕ) : ℚ) := by
    rw [Sampler.stride, Nat.cast_mul, Nat.cast_sub (by omega), Nat.cast_sub (by omega), Nat.cast_one, mul_div_assoc]
  simp only [h.picks_eq, List.getElem_map, List.getElem_range]
  rw [hstride, nearestUp_eq_round _ (by omega)]

/-- The stride of a spread selection is at least one place, as no more items are picked than there are. -/
theorem Sampler.Spreads.one_le_stride (h : s.Spreads n) : 1 ≤ s.stride n := by
  have hmany' : (2 : ℚ) ≤ (min n s.maxBatch : ℕ) := by exact_mod_cast h.many
  have hfew' : ((min n s.maxBatch : ℕ) : ℚ) < n := by exact_mod_cast h.few
  rw [Sampler.stride, le_div_iff₀ (by linarith)]
  linarith

/-- A spread selection goes on by its stride, rounded down or up. -/
theorem Sampler.Spreads.gap (h : s.Spreads n) (i : Nat) (hi : i + 1 < (s.plan n).picks.length) :
    ((s.plan n).picks[i + 1] : ℤ) - (s.plan n).picks[i] = ⌊s.stride n⌋ ∨
      ((s.plan n).picks[i + 1] : ℤ) - (s.plan n).picks[i] = ⌈s.stride n⌉ := by
  rw [h.getElem_picks, h.getElem_picks]
  have hnext : ((i + 1 : ℕ) : ℚ) * s.stride n = i * s.stride n + s.stride n := by
    push_cast
    ring
  rw [hnext]
  exact round_add_sub_round _ _

/-- The gaps of a spread selection are its stride, rounded down or up. -/
theorem Sampler.Spreads.mem_gaps (h : s.Spreads n) : ∀ gap ∈ (s.plan n).gaps, gap = ⌊s.stride n⌋ ∨ gap = ⌈s.stride n⌉ := by
  intro gap hgap
  obtain ⟨i, hi, rfl⟩ := List.getElem_of_mem hgap
  simp only [Grid.gaps, List.length_zipWith, List.length_tail] at hi
  simp only [Grid.gaps, List.getElem_zipWith, List.getElem_tail]
  exact h.gap i (by omega)

/-- The last pick of a spread selection is the last item. -/
theorem Sampler.Spreads.getLast?_picks (h : s.Spreads n) : (s.plan n).picks.getLast? = some (n - 1) := by
  have hmany := h.many
  have hfew := h.few
  have hsize : (s.plan n).picks.length = min n s.maxBatch := s.size_plan n
  have hlast : (s.plan n).picks.length - 1 < (s.plan n).picks.length := by omega
  have hpick := h.getElem_picks _ hlast
  have hmany' : (2 : ℚ) ≤ (min n s.maxBatch : ℕ) := by exact_mod_cast h.many
  have hend : (((s.plan n).picks.length - 1 : ℕ) : ℚ) * s.stride n = (n - 1 : ℕ) := by
    rw [hsize, Sampler.stride, Nat.cast_sub (by omega), Nat.cast_sub (by omega), Nat.cast_one]
    exact mul_div_cancel₀ _ (by linarith)
  rw [hend, round_natCast] at hpick
  rw [List.getLast?_eq_getElem?, List.getElem?_eq_getElem hlast, Option.some.injEq]
  exact_mod_cast hpick

/-- The picks are places of the batch in its order, none of them twice. -/
theorem Sampler.pairwise_picks (s : Sampler) (n : Nat) : (s.plan n).picks.Pairwise (· < ·) := by
  rcases s.front_or_spread n with hfront | h
  · rw [Sampler.picks_front hfront]
    exact List.pairwise_lt_range
  · rw [← List.isChain_iff_pairwise, List.isChain_iff_getElem]
    intro i hi
    -- The stride is at least one place, and so is each gap.
    have hfloor : 1 ≤ ⌊s.stride n⌋ := Int.le_floor.2 (by exact_mod_cast h.one_le_stride)
    have hceil : ⌊s.stride n⌋ ≤ ⌈s.stride n⌉ := Int.floor_le_ceil _
    have hgap := h.gap i hi
    omega

/-- The first pick is the first item. -/
theorem Sampler.head?_picks (s : Sampler) {n : Nat} (hn : 0 < min n s.maxBatch) : (s.plan n).picks.head? = some 0 := by
  rcases s.front_or_spread n with hfront | h
  · rw [Sampler.picks_front hfront, List.head?_range, if_neg (Nat.ne_of_gt hn)]
  · have hsize : (s.plan n).picks.length = min n s.maxBatch := s.size_plan n
    have hfirst : 0 < (s.plan n).picks.length := by omega
    have hpick := h.getElem_picks 0 hfirst
    rw [Nat.cast_zero, zero_mul, round_zero] at hpick
    rw [List.head?_eq_getElem?, List.getElem?_eq_getElem hfirst, Option.some.injEq]
    exact_mod_cast hpick

/-- A pick of a spread selection as 64-bit words compute it. -/
def pickWord (i span gaps : UInt64) : UInt64 := (i * span + gaps / 2) / gaps

/-- 64-bit words compute the picks of a spread selection when they hold the number of picks times that of the items. -/
theorem Sampler.Spreads.getElem_word (h : s.Spreads n) (hwords : min n s.maxBatch * n < 0x10000000000000000) (i : Nat)
    (hi : i < (s.plan n).picks.length) :
    (s.plan n).picks[i] = (pickWord i.toUInt64 (n - 1).toUInt64 (min n s.maxBatch - 1).toUInt64).toNat := by
  have hmany := h.many
  have hfew := h.few
  have hpicks := h.picks_eq
  have hsize : (s.plan n).picks.length = min n s.maxBatch := s.size_plan n
  simp only [hpicks, List.getElem_map, List.getElem_range]
  generalize min n s.maxBatch = shown at *
  -- The dividend is largest for the last pick.
  have hplace : i * (n - 1) ≤ (shown - 1) * (n - 1) := Nat.mul_le_mul_right (n - 1) (by omega)
  have hall : shown * n = (shown - 1) * (n - 1) + (n - 1) + shown := by
    obtain ⟨k, rfl⟩ : ∃ k, shown = k + 1 := ⟨shown - 1, by omega⟩
    obtain ⟨m, rfl⟩ : ∃ m, n = m + 1 := ⟨n - 1, by omega⟩
    simp only [Nat.add_sub_cancel]
    ring
  have hword : ∀ m < 0x10000000000000000, m.toUInt64.toNat = m := fun m hm => UInt64.toNat_ofNat_of_lt' hm
  have hi' : i.toUInt64.toNat = i := hword i (by omega)
  have hspan : (n - 1).toUInt64.toNat = n - 1 := hword (n - 1) (by omega)
  have hgaps : (shown - 1).toUInt64.toNat = shown - 1 := hword (shown - 1) (by omega)
  have hhalf : (2 : UInt64).toNat = 2 := rfl
  simp only [pickWord, UInt64.toNat_div, UInt64.toNat_add, UInt64.toNat_mul, hi', hspan, hgaps, hhalf]
  rw [Nat.mod_eq_of_lt (show i * (n - 1) < 2 ^ 64 by omega), Nat.mod_eq_of_lt (by omega), nearestUp_eq]

/-- Which items are picked of a batch of `n`, when so many may be shown in so many columns. As many are picked as there are, up to the
limit, in the order of the batch and none twice, the first item first. Without a spread selection, or when it has no choice, they are
the front of the batch. Otherwise the last item is among them, each pick is a multiple of the stride rounded to a whole place, halves
up, and neighbours lie apart by the stride rounded down or up; 64-bit words compute these picks when they hold the number of picks
times that of the items. -/
theorem Sampler.selection (maxBatch maxColumns : Nat) (spread : Bool) (n : Nat) :
    let grid := (Sampler.ofLimits maxBatch maxColumns spread).plan n
    let shown := min n (max maxBatch 1)
    let stride : ℚ := ((n : ℚ) - 1) / ((shown : ℚ) - 1)
    grid.picks.length = shown ∧ grid.picks.Pairwise (· < ·) ∧ (∀ pick ∈ grid.picks, pick < n) ∧
    (0 < shown → grid.picks.head? = some 0) ∧
    (spread = false ∨ shown ≤ 1 ∨ shown = n → grid.picks = List.range shown) ∧
    (spread = true → 2 ≤ shown → shown < n →
      grid.picks.getLast? = some (n - 1) ∧
      (∀ (i : Nat) (hi : i < grid.picks.length), (grid.picks[i] : ℤ) = round (i * stride)) ∧
      (∀ gap ∈ grid.gaps, gap = ⌊stride⌋ ∨ gap = ⌈stride⌉) ∧ (∀ gap ∈ grid.gaps, ∀ gap' ∈ grid.gaps, gap ≤ gap' + 1) ∧
      (shown * n < 0x10000000000000000 → ∀ (i : Nat) (hi : i < grid.picks.length),
        grid.picks[i] = (pickWord i.toUInt64 (n - 1).toUInt64 (shown - 1).toUInt64).toNat)) ∧
    grid.columns = max 1 (min (max maxColumns 1) shown) := by
  intro grid shown stride
  refine ⟨Sampler.size_plan _ n, Sampler.pairwise_picks _ n, fun pick hpick => Sampler.pick_lt _ hpick,
    fun hpos => Sampler.head?_picks _ hpos, fun hfront => Sampler.picks_front hfront, ?_, Nat.max_comm _ _⟩
  intro hspread hmany hfew
  have hspreads : (Sampler.ofLimits maxBatch maxColumns spread).Spreads n := ⟨hspread, hmany, hfew⟩
  have hgaps : ∀ gap ∈ grid.gaps, gap = ⌊stride⌋ ∨ gap = ⌈stride⌉ := hspreads.mem_gaps
  refine ⟨hspreads.getLast?_picks, hspreads.getElem_picks, hgaps, ?_, hspreads.getElem_word⟩
  intro gap hgap gap' hgap'
  have hfloor : ⌊stride⌋ ≤ ⌈stride⌉ := Int.floor_le_ceil _
  have hceil : ⌈stride⌉ ≤ ⌊stride⌋ + 1 := Int.ceil_le_floor_add_one _
  have h := hgaps gap hgap
  have h' := hgaps gap' hgap'
  omega

/-- Four of five items cannot lie evenly: the gaps are one or two. -/
example : ((Sampler.ofLimits 4 4 true).plan 5).picks = [0, 1, 3, 4] := by decide

end ContactSheet
