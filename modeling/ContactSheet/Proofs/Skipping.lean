import ContactSheet.Proofs.StepRun
import ContactSheet.Proofs.Fitting
import ContactSheet.Proofs.Stages
import Mathlib.Tactic.IntervalCases

/-!
# How many stages are skipped

Under the conservative policy the primary decoder is never asked for less than is shown: with the stages that it is told to skip it
still reaches the size of the cell on both axes, and with one more it would not. A cell is no larger than a fully decoded latent,
so there always is such a number of stages (`Stages.mostSkipped_spec`). `Ask.conservative_skip` says so of every call that a step
makes.
-/

namespace ContactSheet

variable {σ : Type}

/-! ## Sizes -/

/-- A latent is decoded to sides of at least one pixel that 32 bits can count. -/
theorem Stages.nativeSize_bounds (s : Stages) (latent : Latent) (skip : Nat) :
    (1 ≤ (s.nativeSize latent.dims skip).width ∧ (s.nativeSize latent.dims skip).width ≤ maxSide) ∧
      (1 ≤ (s.nativeSize latent.dims skip).height ∧ (s.nativeSize latent.dims skip).height ≤ maxSide) := by
  obtain ⟨hpos, -⟩ := enlargement_bounds (s.count - skip)
  have hwidth : 1 ≤ latent.width * enlargement (s.count - skip) := Nat.mul_pos latent.width_pos hpos
  have hheight : 1 ≤ latent.height * enlargement (s.count - skip) := Nat.mul_pos latent.height_pos hpos
  have hmax : 1 ≤ maxSide := by decide
  exact ⟨⟨Nat.le_min.2 ⟨hwidth, hmax⟩, Nat.min_le_right _ _⟩, Nat.le_min.2 ⟨hheight, hmax⟩, Nat.min_le_right _ _⟩

/-- A cell is no larger than a fully decoded latent. -/
theorem Grid.nativeSize_reaches_cellSize (g : Grid) (settings : Settings) (stages : Stages) (latent : Latent) :
    (stages.nativeSize latent.dims 0).reaches (g.cellSize settings stages latent.dims) = true := by
  obtain ⟨⟨hw, hw'⟩, hh, hh'⟩ := stages.nativeSize_bounds latent 0
  exact Size.reaches_iff.2 (Size.fitWithin_le (g.cellBound settings.limit) hw hw' hh hh')

/-! ## Calls -/

/-- The primary decoder is asked for an item as the sheet has it. -/
theorem ItemRun.request_eq {ds : Decoders σ} {settings : Settings} {sheet : Sheet} {latent : Latent} {f f' : Bool} {m m' : σ}
    {calls : List Call} {result : Except PreviewError Image} (h : ItemRun ds settings sheet latent f m calls result f' m')
    {request : Request} {answer : Answer} (hc : Call.primary request answer ∈ calls) :
    request = settings.request latent sheet.cell sheet.skip := by
  cases h with
  | primary => exact (Call.primary.inj (List.mem_singleton.1 hc)).1
  | fallback => cases List.mem_singleton.1 hc
  | rescued =>
    rcases List.mem_cons.1 hc with hc | hc
    · exact (Call.primary.inj hc).1
    · cases List.mem_singleton.1 hc

/-- The primary decoder is asked for items of the sheet, as the sheet has them. -/
theorem SheetRun.request_eq {ds : Decoders σ} {settings : Settings} {sheet : Sheet} {f k : Bool} {m m' : σ} {latents : List Latent}
    {calls : List Call} {result : Except PreviewError (List Image)} (h : SheetRun ds settings sheet f k m latents calls result m')
    {request : Request} {answer : Answer} (hc : Call.primary request answer ∈ calls) :
    ∃ latent ∈ latents, request = settings.request latent sheet.cell sheet.skip := by
  induction h with
  | done => cases hc
  | stopped => cases hc
  | failed hi => exact ⟨_, List.mem_cons_self, hi.request_eq hc⟩
  | decoded hi hs ih =>
    rcases List.mem_append.1 hc with hc | hc
    · exact ⟨_, List.mem_cons_self, hi.request_eq hc⟩
    · obtain ⟨latent, hmem, heq⟩ := ih hc
      exact ⟨latent, List.mem_cons_of_mem _ hmem, heq⟩

/-- The latents of a step all have the size of the batch. -/
theorem Ask.dims_of_mem {a : Ask σ} {dims : Size} (hdims : a.batch.dims? = some dims) {latent : Latent} (h : latent ∈ a.latents) :
    latent.dims = dims := by
  obtain ⟨first, hfirst, rfl⟩ := Option.map_eq_some_iff.1 hdims
  obtain ⟨i, -, hi⟩ := List.mem_filterMap.1 h
  exact (a.batch.uniform latent (Array.mem_of_getElem? hi) first (Array.mem_of_getElem? hfirst)).2

/-- Under the conservative policy, what a step asks the primary decoder for is shown at the size of a cell, and the stages that are
left when so many are skipped decode it to that size at least, on both axes; no more of the stages could be skipped. -/
theorem Ask.conservative_skip (a : Ask σ) (hpolicy : a.settings.skip = .conservative) (s : Session) (m : σ) {request : Request}
    {answer : Answer} (hcall : Call.primary request answer ∈ (a.report s m).calls) :
    let stages := a.previewer.stages
    let dims := request.latent.dims
    a.batch.dims? = some dims ∧
    request.target = (a.previewer.sampler.plan a.batch.size).cellSize a.settings stages dims ∧
    request.skip ≤ stages.count ∧
    (request.target.width ≤ (stages.nativeSize dims request.skip).width ∧
      request.target.height ≤ (stages.nativeSize dims request.skip).height) ∧
    ∀ skip ≤ stages.count, request.target.width ≤ (stages.nativeSize dims skip).width →
      request.target.height ≤ (stages.nativeSize dims skip).height → skip ≤ request.skip := by
  intro stages dims
  rcases (a.report_run s m).serves with hnil | ⟨dims', result, m', hready, hserves⟩
  · rw [hnil] at hcall
    cases hcall
  · obtain ⟨latent, hmem, rfl⟩ := SheetRun.request_eq hserves hcall
    obtain rfl : latent.dims = dims' := Ask.dims_of_mem hready.dims_eq hmem
    have hskip : stages.mostSkipped latent.dims (a.grid.cellSize a.settings stages latent.dims) = (a.sheet latent.dims).skip := by
      show _ = stages.skip _ _ a.settings.skip
      rw [hpolicy]
      rfl
    obtain ⟨hcount, hreaches, hmost⟩ := stages.mostSkipped_spec (a.grid.nativeSize_reaches_cellSize a.settings stages latent)
    rw [hskip] at hcount hreaches hmost
    exact ⟨hready.dims_eq, rfl, hcount, Size.reaches_iff.1 hreaches,
      fun skip hle hw hh => hmost skip hle (Size.reaches_iff.2 ⟨hw, hh⟩)⟩

/-! A latent of one pixel is shown at four by four pixels: of the three stages of the decoder, two make just that of it, so one is
skipped. -/

namespace Sample

/-- One latent is asked for under the conservative policy, on a sheet of four by six pixels. -/
def miniature : Ask Unit where
  previewer :=
    ⟨{ (default : Settings) with
        skip := .conservative, maxWidth := 4, maxHeight := 6, maxWidth_pos := by decide, maxWidth_lt := by decide,
        maxHeight_pos := by decide, maxHeight_lt := by decide }, ⟨3⟩, by decide⟩
  decoders := steady
  batch := batch 1
  now := 0
  handsOver := true

theorem miniature_skip : miniature.settings.skip = .conservative ∧
    ∃ request answer, Call.primary request answer ∈ (miniature.report (.withInterval 0) ()).calls ∧ request.target = ⟨4, 4⟩ ∧
      request.skip = 1 := by
  have hprimary : (miniature.report (.withInterval 0) ()).calls.any Call.isPrimary = true := by decide +kernel
  obtain ⟨call, hcall, hp⟩ := List.any_eq_true.1 hprimary
  cases call with
  | fallback => cases hp
  | primary request answer =>
    obtain ⟨hdims, htarget, hcount, ⟨hreached, -⟩, hmost⟩ := miniature.conservative_skip rfl (.withInterval 0) () hcall
    have hsize : miniature.batch.dims? = some ⟨1, 1⟩ := rfl
    have hlatent : request.latent.dims = ⟨1, 1⟩ := Option.some.inj (hdims.symm.trans hsize)
    have hcell : (miniature.previewer.sampler.plan miniature.batch.size).cellSize miniature.settings miniature.previewer.stages
        ⟨1, 1⟩ = ⟨4, 4⟩ := by decide +kernel
    rw [hlatent, hcell] at htarget
    rw [htarget, hlatent] at hreached hmost
    have hone : 1 ≤ request.skip := hmost 1 (by decide) (by decide) (by decide)
    refine ⟨rfl, request, answer, hcall, htarget, ?_⟩
    generalize request.skip = skip at hcount hreached hone ⊢
    have hle : skip ≤ 3 := hcount
    interval_cases skip
    · rfl
    · exact absurd hreached (by decide)
    · exact absurd hreached (by decide)

end Sample

end ContactSheet
