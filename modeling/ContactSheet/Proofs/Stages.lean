import ContactSheet.Stages
import Mathlib.Algebra.Order.Floor.Div
import Mathlib.Order.Bounds.Basic

/-!
# How many stages may be skipped

Each stage that is left doubles the decoded size, until 32 bits count no further (`Size.enlarged_eq`). So when so many stages may be
skipped for the decoded size to reach a floor, any fewer may be (`Stages.MaySkip.mono`), and a policy that chooses the number chooses
the greatest: `Stages.skip_greatest`. The aggressive policy, whose floor is half the size shown, skips just one stage more than the
conservative one, unless there is none left or not even all stages reach the size shown: `Stages.aggressive_skip`.
-/

namespace ContactSheet

/-! ## Sizes that stages make -/

/-- What it means that a size reaches another. -/
theorem Size.reaches_iff {s floor : Size} : s.reaches floor = true ↔ floor.width ≤ s.width ∧ floor.height ≤ s.height := by
  simp [Size.reaches]

/-- Stages enlarge by one at least, and by no more than 32 bits can count. -/
theorem enlargement_bounds (stages : Nat) : 1 ≤ enlargement stages ∧ enlargement stages ≤ maxSide := by
  refine ⟨?_, Nat.min_le_right _ _⟩
  exact Nat.le_min.2 ⟨Nat.pow_pos Nat.zero_lt_two, by decide⟩

/-- Stages beyond the 32nd do not enlarge any further. -/
theorem Size.enlarged_min (s : Size) (stages : Nat) : s.enlarged (min stages 32) = s.enlarged stages := by
  simp [Size.enlarged, enlargement]

/-- A side that is cut to what 32 bits can count may be enlarged by a factor that is cut so, or by the factor itself. -/
theorem min_mul_enlargement (side stages : Nat) : min (side * enlargement stages) maxSide = min (side * 2 ^ stages) maxSide := by
  rcases Nat.eq_zero_or_pos side with rfl | hside
  · rw [Nat.zero_mul, Nat.zero_mul]
  · rcases Nat.lt_or_ge stages 32 with hlt | hge
    · have hpow : 2 ^ stages ≤ 2 ^ 31 := Nat.pow_le_pow_right Nat.two_pos (Nat.le_of_lt_succ hlt)
      have henlargement : enlargement stages = 2 ^ stages := by
        rw [enlargement, Nat.min_eq_left (Nat.le_of_lt hlt)]
        exact Nat.min_eq_left (hpow.trans (by decide))
      rw [henlargement]
    · -- The factor is cut, and either way so is the side.
      have hpow : 2 ^ 32 ≤ 2 ^ stages := Nat.pow_le_pow_right Nat.two_pos hge
      have henlargement : enlargement stages = maxSide := by
        rw [enlargement, Nat.min_eq_right hge]
        rfl
      have hcut : maxSide ≤ side * maxSide := Nat.le_mul_of_pos_left maxSide hside
      have hlarge : 2 ^ stages ≤ side * 2 ^ stages := Nat.le_mul_of_pos_left _ hside
      have hmax : maxSide ≤ 2 ^ 32 := by decide
      rw [henlargement, Nat.min_eq_right hcut, Nat.min_eq_right (by omega)]

/-- Each stage doubles both sides, until they are the largest that 32 bits can count. -/
theorem Size.enlarged_eq (s : Size) (stages : Nat) :
    s.enlarged stages = ⟨min (s.width * 2 ^ stages) maxSide, min (s.height * 2 ^ stages) maxSide⟩ := by
  rw [Size.enlarged, min_mul_enlargement, min_mul_enlargement]

/-- More stages make no smaller size, nor does a larger size to start from. -/
theorem Size.enlarged_mono {s s' : Size} {stages stages' : Nat} (hw : s.width ≤ s'.width) (hh : s.height ≤ s'.height)
    (h : stages ≤ stages') :
    (s.enlarged stages).width ≤ (s'.enlarged stages').width ∧ (s.enlarged stages).height ≤ (s'.enlarged stages').height := by
  have hpow : 2 ^ stages ≤ 2 ^ stages' := Nat.pow_le_pow_right Nat.two_pos h
  rw [Size.enlarged_eq, Size.enlarged_eq]
  exact ⟨min_le_min_right maxSide (Nat.mul_le_mul hw hpow), min_le_min_right maxSide (Nat.mul_le_mul hh hpow)⟩

/-! ## Stages that may be skipped -/

/-- So many of the stages may be skipped: the others decode the latent to a floor at least, on both axes. -/
structure Stages.MaySkip (s : Stages) (latent floor : Size) (skip : Nat) : Prop where
  le_count : skip ≤ s.count
  width_le : floor.width ≤ (s.nativeSize latent skip).width
  height_le : floor.height ≤ (s.nativeSize latent skip).height

variable {s : Stages} {latent latent' floor floor' : Size}

/-- Any fewer stages may be skipped, for a larger latent and a lower floor too. -/
theorem Stages.MaySkip.mono {skip fewer : Nat} (h : s.MaySkip latent floor skip) (hle : fewer ≤ skip)
    (hlatent : latent.width ≤ latent'.width ∧ latent.height ≤ latent'.height)
    (hfloor : floor'.width ≤ floor.width ∧ floor'.height ≤ floor.height) : s.MaySkip latent' floor' fewer := by
  obtain ⟨hcount, hwidth, hheight⟩ := h
  obtain ⟨hw, hh⟩ : (s.nativeSize latent skip).width ≤ (s.nativeSize latent' fewer).width ∧
      (s.nativeSize latent skip).height ≤ (s.nativeSize latent' fewer).height :=
    Size.enlarged_mono hlatent.1 hlatent.2 (Nat.sub_le_sub_left hle s.count)
  exact ⟨hle.trans hcount, hfloor.1.trans (hwidth.trans hw), hfloor.2.trans (hheight.trans hh)⟩

/-- Any fewer stages may be skipped. -/
theorem Stages.MaySkip.of_le {skip fewer : Nat} (h : s.MaySkip latent floor skip) (hle : fewer ≤ skip) :
    s.MaySkip latent floor fewer :=
  h.mono hle ⟨Nat.le_refl _, Nat.le_refl _⟩ ⟨Nat.le_refl _, Nat.le_refl _⟩

/-- The search over the stages that are left leaves out so many at least just when so many may be skipped, or none is meant. -/
theorem Stages.le_mostSkipped_iff (s : Stages) (latent floor : Size) (skip : Nat) :
    skip ≤ s.mostSkipped latent floor ↔ skip = 0 ∨ s.MaySkip latent floor skip := by
  have htried : s.MaySkip latent floor skip → min (s.count - skip) 32 ∈ List.range (min s.count 32 + 1) ∧
      (latent.enlarged (min (s.count - skip) 32)).reaches floor = true := by
    intro h
    rw [List.mem_range, Size.enlarged_min, Size.reaches_iff]
    exact ⟨by omega, h.width_le, h.height_le⟩
  unfold Stages.mostSkipped
  cases hfind : (List.range (min s.count 32 + 1)).find? fun active => (latent.enlarged active).reaches floor with
  | none =>
    show skip ≤ 0 ↔ _
    constructor
    · intro h
      exact Or.inl (Nat.le_zero.1 h)
    · rintro (rfl | h)
      · exact Nat.le_refl 0
      · obtain ⟨hmem, hreaches⟩ := htried h
        exact absurd hreaches (List.find?_eq_none.1 hfind _ hmem)
  | some active =>
    obtain ⟨hreaches, hmem, hleast⟩ := List.find?_range_eq_some.1 hfind
    rw [List.mem_range] at hmem
    show skip ≤ s.count - active ↔ _
    constructor
    · intro h
      obtain ⟨hwidth, hheight⟩ := Size.reaches_iff.1 hreaches
      have hkept : s.MaySkip latent floor (s.count - active) := by
        refine ⟨Nat.sub_le _ _, ?_, ?_⟩
        all_goals
          unfold Stages.nativeSize
          rwa [Nat.sub_sub_self (by omega)]
      exact Or.inr (hkept.of_le h)
    · rintro (rfl | h)
      · exact Nat.zero_le _
      · obtain ⟨-, hother⟩ := htried h
        have hle : active ≤ min (s.count - skip) 32 := by
          by_contra hlt
          have hno := hleast _ (Nat.lt_of_not_le hlt)
          rw [hother] at hno
          nomatch hno
        have hcount := h.le_count
        omega

/-- The most stages that may be skipped are skipped when any number of them may be. -/
theorem Stages.mostSkipped_isGreatest (h : ∃ skip, s.MaySkip latent floor skip) :
    IsGreatest { skip | s.MaySkip latent floor skip } (s.mostSkipped latent floor) := by
  obtain ⟨skip, hskip⟩ := h
  constructor
  · rcases (s.le_mostSkipped_iff latent floor _).1 (Nat.le_refl _) with h0 | hmost
    · rw [h0]
      exact hskip.of_le (Nat.zero_le skip)
    · exact hmost
  · intro skip' hskip'
    exact (s.le_mostSkipped_iff latent floor skip').2 (Or.inr hskip')

/-- No stage is skipped when no number of them may be. -/
theorem Stages.mostSkipped_eq_zero (h : ¬∃ skip, s.MaySkip latent floor skip) : s.mostSkipped latent floor = 0 := by
  rcases (s.le_mostSkipped_iff latent floor _).1 (Nat.le_refl _) with h0 | hmost
  · exact h0
  · exact absurd ⟨_, hmost⟩ h

/-- No fewer stages are skipped for a larger latent or a lower floor. -/
theorem Stages.mostSkipped_mono (s : Stages) (hlatent : latent.width ≤ latent'.width ∧ latent.height ≤ latent'.height)
    (hfloor : floor'.width ≤ floor.width ∧ floor'.height ≤ floor.height) :
    s.mostSkipped latent floor ≤ s.mostSkipped latent' floor' := by
  refine (s.le_mostSkipped_iff latent' floor' _).2 ?_
  rcases (s.le_mostSkipped_iff latent floor _).1 (Nat.le_refl _) with h0 | hmost
  · exact Or.inl h0
  · exact Or.inr (hmost.mono (Nat.le_refl _) hlatent hfloor)

/-- When all stages reach a floor, so do those that are left when as many as possible are skipped, and no more can be skipped. -/
theorem Stages.mostSkipped_spec (s : Stages) {latent floor : Size} (h : (s.nativeSize latent 0).reaches floor = true) :
    s.mostSkipped latent floor ≤ s.count ∧ (s.nativeSize latent (s.mostSkipped latent floor)).reaches floor = true ∧
      ∀ skip ≤ s.count, (s.nativeSize latent skip).reaches floor = true → skip ≤ s.mostSkipped latent floor := by
  obtain ⟨hwidth, hheight⟩ := Size.reaches_iff.1 h
  obtain ⟨hmost, hleast⟩ := Stages.mostSkipped_isGreatest ⟨0, Nat.zero_le s.count, hwidth, hheight⟩
  refine ⟨hmost.le_count, Size.reaches_iff.2 ⟨hmost.width_le, hmost.height_le⟩, ?_⟩
  intro skip hskip hreaches
  obtain ⟨hw, hh⟩ := Size.reaches_iff.1 hreaches
  exact hleast ⟨hskip, hw, hh⟩

/-! ## Policies -/

/-- The size that the decoded one must reach under a policy, for a size that is shown. A fixed number of stages asks for none. -/
def SkipPolicy.floor? (target : Size) : SkipPolicy → Option Size
  | .fixed _ => none
  | .conservative => some target
  | .aggressive => some ⟨max 1 (target.width ⌈/⌉ 2), max 1 (target.height ⌈/⌉ 2)⟩

/-- A policy with a floor skips the most stages that may be skipped above it. -/
theorem Stages.skip_eq_mostSkipped (s : Stages) {policy : SkipPolicy} {target : Size} (h : policy.floor? target = some floor)
    (latent : Size) : s.skip target latent policy = s.mostSkipped latent floor := by
  cases policy with
  | fixed => cases h
  | conservative =>
    cases h
    rfl
  | aggressive =>
    cases h
    rw [Nat.max_comm 1, Nat.max_comm 1]
    rfl

/-- The floor of a policy does not fall when the size shown grows. -/
theorem SkipPolicy.floor?_mono {policy : SkipPolicy} {target target' : Size} (h : policy.floor? target = some floor)
    (hw : target.width ≤ target'.width) (hh : target.height ≤ target'.height) :
    ∃ floor', policy.floor? target' = some floor' ∧ floor.width ≤ floor'.width ∧ floor.height ≤ floor'.height := by
  cases policy with
  | fixed => cases h
  | conservative =>
    cases h
    exact ⟨target', rfl, hw, hh⟩
  | aggressive =>
    cases h
    refine ⟨_, rfl, ?_, ?_⟩
    · exact max_le_max_left 1 (Nat.div_le_div_right (by omega))
    · exact max_le_max_left 1 (Nat.div_le_div_right (by omega))

/-- How many stages a policy with a floor skips: the greatest number, up to all, for which the decoded size is no smaller than the
floor on either axis, and none when there is no such number. With a number any smaller one may be skipped. No more stages are skipped
when the size shown grows, and no fewer when the latent does. -/
theorem Stages.skip_greatest (s : Stages) {policy : SkipPolicy} {target floor : Size} (hfloor : policy.floor? target = some floor)
    (latent : Size) :
    ((∃ skip, s.MaySkip latent floor skip) →
      IsGreatest { skip | s.MaySkip latent floor skip } (s.skip target latent policy)) ∧
    ((¬∃ skip, s.MaySkip latent floor skip) → s.skip target latent policy = 0) ∧
    (∀ skip, s.MaySkip latent floor skip → ∀ fewer ≤ skip, s.MaySkip latent floor fewer) ∧
    (∀ target' : Size, target.width ≤ target'.width → target.height ≤ target'.height →
      s.skip target' latent policy ≤ s.skip target latent policy) ∧
    ∀ latent' : Size, latent.width ≤ latent'.width → latent.height ≤ latent'.height →
      s.skip target latent policy ≤ s.skip target latent' policy := by
  rw [s.skip_eq_mostSkipped hfloor]
  refine ⟨Stages.mostSkipped_isGreatest, Stages.mostSkipped_eq_zero, fun skip h fewer hle => h.of_le hle, ?_, ?_⟩
  · intro target' hw hh
    obtain ⟨floor', hfloor', hgrown⟩ := SkipPolicy.floor?_mono hfloor hw hh
    rw [s.skip_eq_mostSkipped hfloor']
    exact s.mostSkipped_mono ⟨Nat.le_refl _, Nat.le_refl _⟩ hgrown
  · intro latent' hw hh
    rw [s.skip_eq_mostSkipped hfloor]
    exact s.mostSkipped_mono ⟨hw, hh⟩ ⟨Nat.le_refl _, Nat.le_refl _⟩

/-! Of forty stages, all but the last few enlarge beyond what 32 bits can count. A latent three pixels wide is shown at the largest
width that they can: half of that width takes thirty stages, and the whole of it one more. -/

namespace Sample

/-- A decoder that enlarges beyond what 32 bits can count. -/
def deep : Stages := ⟨40⟩

theorem deep_greatest : SkipPolicy.aggressive.floor? ⟨0xffffffff, 2⟩ = some ⟨0x80000000, 1⟩ ∧
    IsGreatest { skip | deep.MaySkip ⟨3, 1⟩ ⟨0x80000000, 1⟩ skip } 10 := by
  have hfloor : SkipPolicy.aggressive.floor? ⟨0xffffffff, 2⟩ = some ⟨0x80000000, 1⟩ := by decide
  have hskip : deep.skip ⟨0xffffffff, 2⟩ ⟨3, 1⟩ .aggressive = 10 := by decide +kernel
  obtain ⟨hgreatest, -⟩ := deep.skip_greatest hfloor ⟨3, 1⟩
  rw [hskip] at hgreatest
  exact ⟨hfloor, hgreatest ⟨0, by decide, by decide, by decide⟩⟩

end Sample

/-! ## One stage more -/

/-- One stage less reaches half a side just when the stage reaches the side, if 32 bits can count it. -/
theorem half_le_iff {side decoded : Nat} (hside : side ≤ maxSide) (hdecoded : 1 ≤ decoded) :
    max ((side + 1) / 2) 1 ≤ min decoded maxSide ↔ side ≤ min (decoded * 2) maxSide := by
  unfold maxSide at *
  omega

/-- One stage more may be skipped for half a size just when so many may be for the size. -/
theorem Stages.maySkip_half_iff {target : Size} (hw : target.width ≤ maxSide) (hh : target.height ≤ maxSide)
    (hlw : 1 ≤ latent.width) (hlh : 1 ≤ latent.height) {skip : Nat} (hskip : skip < s.count) :
    s.MaySkip latent target.half (skip + 1) ↔ s.MaySkip latent target skip := by
  obtain ⟨left, hleft⟩ : ∃ left, s.count = left + (skip + 1) := ⟨s.count - (skip + 1), by omega⟩
  have hmore : s.nativeSize latent (skip + 1) = latent.enlarged left := by
    rw [Stages.nativeSize, hleft, Nat.add_sub_cancel]
  have hone : s.nativeSize latent skip = latent.enlarged (left + 1) := by
    rw [Stages.nativeSize, hleft, ← Nat.add_assoc, Nat.add_right_comm, Nat.add_sub_cancel]
  have hpow : 1 ≤ 2 ^ left := Nat.two_pow_pos left
  have hwidth := half_le_iff hw (Nat.mul_pos hlw hpow)
  have hheight := half_le_iff hh (Nat.mul_pos hlh hpow)
  rw [Nat.mul_assoc, ← Nat.pow_succ] at hwidth hheight
  constructor
  · rintro ⟨-, hw', hh'⟩
    rw [hmore, Size.enlarged_eq] at hw' hh'
    refine ⟨hskip.le, ?_, ?_⟩
    all_goals rw [hone, Size.enlarged_eq]
    · exact hwidth.1 hw'
    · exact hheight.1 hh'
  · rintro ⟨-, hw', hh'⟩
    rw [hone, Size.enlarged_eq] at hw' hh'
    refine ⟨hskip, ?_, ?_⟩
    all_goals rw [hmore, Size.enlarged_eq]
    · exact hwidth.2 hw'
    · exact hheight.2 hh'

/-- When all stages reach a size, one stage more than for the size is skipped for half of it, if there is one. -/
theorem Stages.mostSkipped_half {target : Size} (hw : target.width ≤ maxSide) (hh : target.height ≤ maxSide)
    (hlw : 1 ≤ latent.width) (hlh : 1 ≤ latent.height) (hreached : s.MaySkip latent target 0) :
    s.mostSkipped latent target.half = min s.count (s.mostSkipped latent target + 1) := by
  refine eq_of_forall_le_iff fun k => ?_
  cases k with
  | zero => exact iff_of_true (Nat.zero_le _) (Nat.zero_le _)
  | succ k =>
    rw [le_mostSkipped_iff, Nat.le_min, Nat.add_le_add_iff_right, le_mostSkipped_iff]
    constructor
    · rintro (h0 | hhalf)
      · cases h0
      · have hk : k < s.count := hhalf.le_count
        exact ⟨hk, Or.inr ((Stages.maySkip_half_iff hw hh hlw hlh hk).1 hhalf)⟩
    · rintro ⟨hk, h⟩
      refine Or.inr ((Stages.maySkip_half_iff hw hh hlw hlh hk).2 ?_)
      rcases h with rfl | hsize
      · exact hreached
      · exact hsize

/-- When not even all stages reach a size, none is skipped for it, nor for half of it. -/
theorem Stages.mostSkipped_unreached {target : Size} (hw : target.width ≤ maxSide) (hh : target.height ≤ maxSide)
    (hlw : 1 ≤ latent.width) (hlh : 1 ≤ latent.height) (hunreached : ¬s.MaySkip latent target 0) :
    s.mostSkipped latent target.half = 0 ∧ s.mostSkipped latent target = 0 := by
  have hnone : ∀ skip, ¬s.MaySkip latent target skip := fun skip h => hunreached (h.of_le (Nat.zero_le skip))
  refine ⟨?_, Stages.mostSkipped_eq_zero fun ⟨skip, h⟩ => hnone skip h⟩
  rcases (s.le_mostSkipped_iff latent target.half _).1 (Nat.le_refl _) with h0 | hmost
  · exact h0
  · cases hskip : s.mostSkipped latent target.half with
    | zero => rfl
    | succ k =>
      rw [hskip] at hmost
      exact absurd ((Stages.maySkip_half_iff hw hh hlw hlh hmost.le_count).1 hmost) (hnone k)

/-- What the two policies that choose a number have to do with each other, for a latent with pixels and a size that 32 bits can count.
When the decoder reaches the size shown with all of its stages, the aggressive policy skips one stage more than the conservative one,
or all; when it does not, neither skips any. So the aggressive policy skips no fewer stages, and keeps no more than one stage fewer. -/
theorem Stages.aggressive_skip (s : Stages) {target latent : Size} (hw : target.width ≤ maxSide) (hh : target.height ≤ maxSide)
    (hlw : 1 ≤ latent.width) (hlh : 1 ≤ latent.height) :
    let native := s.nativeSize latent 0
    let conservative := s.skip target latent .conservative
    let aggressive := s.skip target latent .aggressive
    (target.width ≤ native.width ∧ target.height ≤ native.height → aggressive = min s.count (conservative + 1)) ∧
    (¬(target.width ≤ native.width ∧ target.height ≤ native.height) → aggressive = 0 ∧ conservative = 0) ∧
    conservative ≤ aggressive ∧ s.count - conservative ≤ s.count - aggressive + 1 := by
  intro native conservative aggressive
  by_cases h : target.width ≤ native.width ∧ target.height ≤ native.height
  · have hreached : s.MaySkip latent target 0 := ⟨Nat.zero_le _, h.1, h.2⟩
    have heq : aggressive = min s.count (conservative + 1) := Stages.mostSkipped_half hw hh hlw hlh hreached
    have hcount : conservative ≤ s.count := (Stages.mostSkipped_isGreatest ⟨0, hreached⟩).1.le_count
    exact ⟨fun _ => heq, fun hno => absurd h hno, by omega, by omega⟩
  · have hunreached : ¬s.MaySkip latent target 0 := fun h0 => h ⟨h0.width_le, h0.height_le⟩
    have heq : aggressive = 0 ∧ conservative = 0 := Stages.mostSkipped_unreached hw hh hlw hlh hunreached
    exact ⟨fun hyes => absurd hyes h, fun _ => heq, by omega, by omega⟩

namespace Sample

theorem deep_aggressive : 0xffffffff ≤ maxSide ∧ deep.skip ⟨0xffffffff, 2⟩ ⟨3, 1⟩ .conservative = 9 ∧
    deep.skip ⟨0xffffffff, 2⟩ ⟨3, 1⟩ .aggressive = 10 := by
  have hw : (⟨0xffffffff, 2⟩ : Size).width ≤ maxSide := by decide
  have hh : (⟨0xffffffff, 2⟩ : Size).height ≤ maxSide := by decide
  have hlw : 1 ≤ (⟨3, 1⟩ : Size).width := by decide
  have hlh : 1 ≤ (⟨3, 1⟩ : Size).height := by decide
  have hconservative : deep.skip ⟨0xffffffff, 2⟩ ⟨3, 1⟩ .conservative = 9 := by decide +kernel
  obtain ⟨heq, -⟩ := deep.aggressive_skip hw hh hlw hlh
  have haggressive := heq ⟨by decide, by decide⟩
  rw [hconservative] at haggressive
  exact ⟨hw, hconservative, haggressive⟩

end Sample

end ContactSheet
