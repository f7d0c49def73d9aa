import ContactSheet.Proofs.Checked.Image
import ContactSheet.Proofs.Resampling
import ContactSheet.Proofs.StepRun
import ContactSheet.Step.Checked

/-!
# Steps within the limits of a machine

`Previewer.never_breaks_down` says when a step of a machine does not break down: its batch has fewer than `2 ^ 32` items, 64 bits count
the bytes that the sides of each decoded image ask for, and there is room for the sheet. The only errors that end it are then those
that a decoder gave last. Without room for the sheet a machine breaks down (`Sample.colossal_breaks_down`).
-/

namespace ContactSheet

variable {σ : Type} (o : Overflow)

/-! ## Nothing breaks down -/

/-- The gate subtracts only from what is larger. -/
theorem Gate.check?_eq (g : Gate) (now : Duration) : g.check? now = some (g.check now) := by
  unfold Gate.check? Gate.check
  by_cases hi : g.interval = 0
  · rw [if_pos hi, if_pos hi]
  · rw [if_neg hi, if_neg hi]
    cases g.lastEmit with
    | none => rfl
    | some last =>
      simp only []
      by_cases hle : g.interval ≤ now - last
      · rw [if_pos hle, if_pos hle]
      · rw [if_neg hle, if_neg hle, sub?_eq (Nat.le_of_not_le hle)]
        rfl

/-- The sampler subtracts and divides only where more than one item is picked, and 64 bits count the products of two places of a batch
of fewer than `2 ^ 32` items. -/
theorem Sampler.plan?_eq (s : Sampler) {n : Nat} (hn : n < 0x100000000) : s.plan? o n = some (s.plan n) := by
  unfold Sampler.plan? Sampler.plan
  simp only []
  by_cases hs : s.spread = true ∧ 1 < min n s.maxBatch ∧ min n s.maxBatch < n
  · have hpicks : ((List.range (min n s.maxBatch)).mapM fun i => do
        let product ← o.word? (i * (n - 1))
        let sum ← o.word? (product + (min n s.maxBatch - 1) / 2)
        div? sum (min n s.maxBatch - 1)) =
          some ((List.range (min n s.maxBatch)).map fun i => nearestUp (i * (n - 1)) (min n s.maxBatch - 1)) := by
      refine mapM_eq_some_map fun i hi => ?_
      have hi : i < min n s.maxBatch := List.mem_range.1 hi
      have hproduct : i * (n - 1) ≤ 0xfffffffe * 0xfffffffe := Nat.mul_le_mul (by omega) (by omega)
      rw [o.word?_eq (by omega)]
      simp only [Option.bind_eq_bind, Option.bind_some]
      rw [o.word?_eq (by omega), Option.bind_some, div?_eq (by omega), nearestUp_eq]
    rw [if_pos hs, if_pos hs, sub?_eq (by omega), sub?_eq (by omega)]
    simp only [Option.bind_eq_bind, Option.bind_some, Option.pure_def] at hpicks ⊢
    rw [hpicks, Option.bind_some]
  · rw [if_neg hs, if_neg hs]
    rfl

/-- The limits can be divided among the columns and the rows of a sheet that fits. -/
theorem Previewer.sheet?_eq (p : Previewer) {grid : Grid} {latent : Size} (h : (p.sheet grid latent).Fits)
    (hr : 1 ≤ grid.rows) : p.sheet? grid latent = some (p.sheet grid latent) := by
  have hc : 1 ≤ grid.columns := h.columns_pos
  obtain ⟨hc', hr'⟩ : grid.columns < 0x100000000 ∧ grid.rows < 0x100000000 := h.grid_lt
  unfold Previewer.sheet? Grid.cellSize?
  rw [divisor_of_lt hc hc', divisor_of_lt hr hr', if_neg (by omega)]
  rfl

/-- Of `2 ^ 32` columns 32 bits count none, and a division by them breaks down. -/
example : ((Sample.previewer default).sheet? ⟨[0], 0x100000000⟩ ⟨1, 1⟩).isNone = true := by decide

section Sheets

variable {s : Sheet} (h : s.Fits)

include h

/-- 32 bits count the sides of a sheet that fits. -/
theorem Sheet.Fits.size?_eq : s.size? o = some s.size := by
  have hwidth : s.cell.width * narrow s.grid.columns < 0x100000000 := by
    rw [narrow_of_lt h.grid_lt.1, Nat.mul_comm]
    exact h.width_lt
  have hheight : s.cell.height * narrow s.grid.rows < 0x100000000 := by
    rw [narrow_of_lt h.grid_lt.2, Nat.mul_comm]
    exact h.height_lt
  have hrows : s.grid.rows? = some s.grid.rows := if_neg (Nat.ne_of_gt h.columns_pos)
  simp only [Sheet.size?, hrows, o.halfWord?_eq hwidth, o.halfWord?_eq hheight, Option.bind_eq_bind, Option.bind_some,
    Option.pure_def, Sheet.size, narrow_of_lt hwidth, narrow_of_lt hheight]

variable {position : Nat} (hposition : position < s.grid.columns * s.grid.rows)

include hposition

/-- 32 bits count the corner of a cell of a sheet that fits. -/
theorem Sheet.Fits.corner_lt :
    narrow (s.grid.cell position).1 * s.cell.width < 0x100000000 ∧
      narrow (s.grid.cell position).2 * s.cell.height < 0x100000000 := by
  obtain ⟨hx, hy⟩ := h.cell_le hposition
  have hcolumn : (s.grid.cell position).1 < s.grid.columns := s.grid.column_lt h.columns_pos position
  have hrow : (s.grid.cell position).2 < s.grid.rows := s.grid.row_lt hposition
  have hwidth := h.width_lt
  have hheight := h.height_lt
  rw [narrow_of_lt (hcolumn.trans h.grid_lt.1), narrow_of_lt (hrow.trans h.grid_lt.2)]
  omega

/-- A cell asks for no more bytes than the sheet that it is a part of. -/
theorem Sheet.Fits.byteCount_cell_le : s.cell.byteCount ≤ s.size.byteCount := by
  have hrows : 0 < s.grid.rows := Nat.pos_of_mul_pos_left (Nat.zero_lt_of_lt hposition)
  rw [h.size_eq]
  exact Nat.mul_le_mul_right 4
    (Nat.mul_le_mul (Nat.le_mul_of_pos_left _ h.columns_pos) (Nat.le_mul_of_pos_left _ hrows))

variable (hroom : s.size.byteCount < 0x8000000000000000) {composite : Image} (hcomposite : composite.size = s.size)

include hroom hcomposite

/-- An image with any number of bytes can be copied into a cell of a sheet that there is room for. -/
theorem Sheet.Fits.place?_eq {image : Image} (hi : image.size.byteCount < 0x10000000000000000) :
    s.place? o composite position image = some (s.place composite position image) := by
  obtain ⟨hx, hy⟩ := h.corner_lt hposition
  have hcell := h.byteCount_cell_le hposition
  have hsize : (image.resize s.cell).size = s.cell := image.size_resize s.cell
  have hresize := Image.resize?_eq o hi (.inr (hcell.trans_lt hroom))
  have hplace : s.grid.cell? position = some (s.grid.cell position) := if_neg (Nat.ne_of_gt h.columns_pos)
  simp only [Sheet.place?, hresize, hplace, o.halfWord?_eq hx, o.halfWord?_eq hy, Option.bind_eq_bind, Option.bind_some]
  rw [Image.blit?_eq o (by rw [hsize]; omega) (by rw [hcomposite]; omega), Sheet.place, Sheet.corner, narrow_of_lt hx,
    narrow_of_lt hy]

end Sheets

/-- Decoding items does not break down when each pick stands for one, each has a cell, and there is room for the sheet. -/
theorem Cycle.tile?_eq {ds : Decoders σ} (hd : ds.OnlyGive fun image => image.size.byteCount < 0x10000000000000000)
    (settings : Settings) (batch : Batch) {sheet : Sheet} (h : sheet.Fits) (hroom : sheet.size.byteCount < 0x8000000000000000)
    (picks : List Nat) (hpicks : ∀ pick ∈ picks, ∃ latent, batch.get? pick = some latent) {position : Nat}
    (hposition : position + picks.length ≤ sheet.grid.columns * sheet.grid.rows) {composite : Image}
    (hcomposite : composite.size = sheet.size) (c : Cycle σ) :
    c.tile? o ds settings batch sheet position picks composite =
      some (c.tile ds settings batch sheet position picks composite) := by
  induction picks generalizing position composite c with
  | nil => rfl
  | cons pick picks ih =>
    rw [List.length_cons] at hposition
    obtain ⟨latent, hlatent⟩ := hpicks pick List.mem_cons_self
    unfold Cycle.tile? Cycle.tile
    cases hk : c.session.cancelled with
    | true => rfl
    | false =>
      obtain ⟨calls, hrun, -⟩ := c.decode_run ds settings sheet latent
      rcases hdecode : c.decode ds settings latent sheet.cell sheet.skip with ⟨e | image, c'⟩
      · simp only [Bool.false_eq_true, if_false, hlatent, hdecode, Option.bind_eq_bind, Option.bind_some, Option.pure_def]
      · have himage : image.size.byteCount < 0x10000000000000000 := hrun.image_of_onlyGive hd (by rw [hdecode])
        have hcell : position < sheet.grid.columns * sheet.grid.rows := by omega
        have hplace := h.place?_eq o hcell hroom hcomposite himage
        have hsize : (sheet.place composite position image).size = sheet.size :=
          (composite.blit_frame _ _ _).1.trans hcomposite
        simp only [Bool.false_eq_true, if_false, hlatent, hdecode, Option.bind_eq_bind, Option.bind_some, hplace]
        exact ih (fun p hp => hpicks p (List.mem_cons_of_mem pick hp)) (by omega) hsize c'

section Steps

variable (p : Previewer) {ds : Decoders σ} {batch : Batch} (hn : batch.size < 0x100000000)
  (hd : ds.OnlyGive fun image => image.size.byteCount < 0x10000000000000000)
  (hroom : ∀ dims, batch.dims? = some dims →
    (p.sheet (p.sampler.plan batch.size) dims).size.byteCount < 0x8000000000000000)

include hn hd hroom

/-- A cycle does not break down. -/
theorem Previewer.render?_eq (session : Session) (memory : σ) :
    p.render? o ds batch session memory = some (p.render ds batch session memory) := by
  unfold Previewer.render? Previewer.render
  cases hk : session.cancelled with
  | true => rfl
  | false =>
    -- Each result is rewritten in place: to unfold a check that its limit decides would count up to that limit.
    rw [if_neg Bool.false_ne_true, if_neg Bool.false_ne_true, bind_eq_of_eq_some (p.sampler.plan?_eq o hn)]
    cases hdims : batch.dims? with
    | none => rfl
    | some latent =>
      show (if _ then _ else _) = some (if _ then _ else _)
      cases he : (p.sampler.plan batch.size).isEmpty with
      | true => rfl
      | false =>
        rw [if_neg Bool.false_ne_true, if_neg Bool.false_ne_true]
        by_cases hu : (!p.settings.retry && session.degraded) = true ∧ p.settings.fallback = .absent
        · rw [if_pos hu, if_pos hu]
          rfl
        · have hsize : 1 ≤ batch.size := Nat.pos_of_ne_zero (Batch.size_ne_zero hdims)
          have hfits := p.sheet_fits hsize hn latent
          have hpicks : ∀ pick ∈ (p.sampler.plan batch.size).picks, ∃ latent, batch.get? pick = some latent :=
            fun pick hpick => ⟨_, Array.getElem?_eq_getElem (p.sampler.pick_lt hpick)⟩
          have hcells : 0 + (p.sampler.plan batch.size).picks.length ≤
              (p.sampler.plan batch.size).columns * (p.sampler.plan batch.size).rows := by
            rw [Nat.zero_add]
            exact (p.sampler.plan batch.size).size_le hfits.columns_pos
          have hblank : (Image.blank (p.sheet (p.sampler.plan batch.size) latent).size).size =
              (p.sheet (p.sampler.plan batch.size) latent).size := rfl
          have htile := Cycle.tile?_eq o hd p.settings batch hfits (hroom latent hdims) _ hpicks hcells hblank
          rw [if_neg hu, if_neg hu, bind_eq_of_eq_some (p.sheet?_eq hfits (p.sampler.one_le_rows hsize)),
            bind_eq_of_eq_some (hfits.size?_eq o), bind_eq_of_eq_some (Image.blank?_eq o (hroom latent hdims)),
            bind_eq_of_eq_some (htile _)]
          simp only []
          generalize Cycle.tile _ _ _ _ _ _ _ _ = tiled
          rcases tiled with ⟨e | image, c⟩
          · rfl
          · rfl

/-- An attempt does not break down. -/
theorem Previewer.attempt?_eq (now : Duration) (session : Session) (memory : σ) :
    p.attempt? o ds batch now session memory = some (p.attempt ds batch now session memory) := by
  unfold Previewer.attempt? Previewer.attempt
  simp only [Gate.check?_eq, p.render?_eq o hn hd hroom, Option.bind_eq_bind, Option.bind_some, Option.pure_def]
  split
  · rfl
  · cases session.invoked.gate.check now with
    | suppress remaining => rfl
    | allow => rfl

/-- A step does not break down. -/
theorem Previewer.step?_eq (now : Duration) (session : Session) (memory : σ) :
    p.step? o ds batch now session memory = some (p.step ds batch now session memory) := by
  unfold Previewer.step?
  rw [p.attempt?_eq o hn hd hroom]
  rfl

end Steps

/-! ## Errors -/

/-- A step ends with one error. -/
theorem Ask.failure_injective (a : Ask σ) {e e' : PreviewError} (h : a.failure e = a.failure e') : e = e' := by
  unfold Ask.failure at h
  split at h
  · exact Except.error.inj h
  · exact Outcome.failed.inj (Except.ok.inj h)

/-- A step that an error ends has no other outcome. -/
theorem Ask.ok_ne_failure (a : Ask σ) (outcome : Outcome) (ho : ∀ e, outcome ≠ .failed e) (e : PreviewError) :
    .ok outcome ≠ a.failure e := by
  intro h
  unfold Ask.failure at h
  split at h
  · cases h
  · exact ho e (Except.ok.inj h)

/-- A step that an error ends made a call, its last one gave that error, and it is no cancellation. -/
theorem Ask.Run.getLast?_of_failure {a : Ask σ} {s : Session} {m : σ} {r : Report σ (Except PreviewError Outcome)}
    (h : a.Run s m r) {e : PreviewError} (he : r.result = a.failure e) :
    e ≠ .cancelled ∧ ∃ call, r.calls.getLast? = some call ∧ call.answer.result = .error e := by
  cases h with
  | @failed dims calls e' m' hr hs hc =>
    obtain rfl : e' = e := a.failure_injective he
    exact ⟨hc, hs.getLast?_of_error rfl hc⟩
  | _ =>
    refine absurd he (a.ok_ne_failure _ ?_ e)
    exact fun _ h => nomatch h

/-- An attempt hands its error over and does not report it. -/
theorem Previewer.attempt_ne_failed (p : Previewer) (ds : Decoders σ) (batch : Batch) (now : Duration) (session : Session)
    (memory : σ) (e : PreviewError) : (p.attempt ds batch now session memory).result ≠ .ok (.failed e) := by
  have hrun := Ask.report_run ⟨p, ds, batch, now, true⟩ session memory
  intro h
  change (Ask.report ⟨p, ds, batch, now, true⟩ session memory).result = _ at h
  generalize Ask.report ⟨p, ds, batch, now, true⟩ session memory = r at hrun h
  cases hrun <;> cases h

/-- An error that is reported instead of handed over is the only difference. -/
theorem Report.told_result {r : Report σ (Except PreviewError Outcome)} (hr : ∀ e, r.result ≠ .ok (.failed e)) :
    (∀ e, r.told.result = .failed e ↔ r.result = .error e) ∧
      ∀ outcome : Outcome, (∀ e, outcome ≠ .failed e) → (r.told.result = outcome ↔ r.result = .ok outcome) := by
  obtain ⟨result, session, memory, calls, events⟩ := r
  rcases result with e' | outcome'
  · refine ⟨fun e => ?_, fun outcome ho => ?_⟩
    · exact ⟨fun h => congrArg Except.error (Outcome.failed.inj h), fun h => congrArg Outcome.failed (Except.error.inj h)⟩
    · exact ⟨fun h => absurd h.symm (ho e'), fun h => nomatch h⟩
  · refine ⟨fun e => ?_, fun outcome ho => ?_⟩
    · exact ⟨fun h => absurd (congrArg Except.ok h) (hr e), fun h => nomatch h⟩
    · exact ⟨fun h => congrArg Except.ok h, fun h => Except.ok.inj h⟩

/-- What becomes of its error changes nothing else that a step leaves behind but its log. -/
theorem Report.told_frame (r : Report σ (Except PreviewError Outcome)) :
    r.told.session = r.session ∧ r.told.memory = r.memory ∧ r.told.calls = r.calls := by
  unfold Report.told
  split <;> exact ⟨rfl, rfl, rfl⟩

/-- A step never breaks down, on any machine, in whichever way it is asked for and whatever its decoders give, if its batch has fewer
than `2 ^ 32` items, 64 bits count the bytes that the sides of each decoded image ask for, and the sheet asks for fewer than `2 ^ 63`. On
such a machine it comes to the same as without limits, and each of its picks stands for an item of the batch. An error that ends it is
the one that the last call of a decoder gave, and no cancellation. Both ways of asking leave the same session behind, after the same
calls, and come to the same outcome, but for an error, which is handed over in one and reported in the other. -/
theorem Previewer.never_breaks_down (p : Previewer) (ds : Decoders σ) (batch : Batch) (hn : batch.size < 0x100000000)
    (hd : ds.OnlyGive fun image => image.size.byteCount < 0x10000000000000000)
    (hroom : ∀ dims, batch.dims? = some dims →
      (p.sheet (p.sampler.plan batch.size) dims).size.byteCount < 0x8000000000000000)
    (now : Duration) (session : Session) (memory : σ) :
    let attempted := p.attempt ds batch now session memory
    let stepped := p.step ds batch now session memory
    (∀ o : Overflow, p.attempt? o ds batch now session memory = some attempted ∧
      p.step? o ds batch now session memory = some stepped) ∧
    (∀ pick ∈ (p.sampler.plan batch.size).picks, ∃ latent, batch.get? pick = some latent) ∧
    (∀ e, attempted.result = .error e ∨ stepped.result = .failed e →
      e ≠ .cancelled ∧ ∃ call, attempted.calls.getLast? = some call ∧ call.answer.result = .error e) ∧
    (stepped.session = attempted.session ∧ stepped.memory = attempted.memory ∧ stepped.calls = attempted.calls) ∧
    (∀ e, stepped.result = .failed e ↔ attempted.result = .error e) ∧
    ∀ outcome : Outcome, (∀ e, outcome ≠ .failed e) → (stepped.result = outcome ↔ attempted.result = .ok outcome) := by
  intro attempted stepped
  obtain ⟨hfailed, hsame⟩ : (∀ e, stepped.result = .failed e ↔ attempted.result = .error e) ∧
      ∀ outcome : Outcome, (∀ e, outcome ≠ .failed e) → (stepped.result = outcome ↔ attempted.result = .ok outcome) :=
    Report.told_result (p.attempt_ne_failed ds batch now session memory)
  refine ⟨fun o => ⟨p.attempt?_eq o hn hd hroom now session memory, p.step?_eq o hn hd hroom now session memory⟩, ?_, ?_,
    attempted.told_frame, hfailed, hsame⟩
  · intro pick hpick
    exact ⟨_, Array.getElem?_eq_getElem (p.sampler.pick_lt hpick)⟩
  · intro e he
    have herror : attempted.result = .error e := by
      rcases he with he | he
      · exact he
      · exact (hfailed e).1 he
    exact (Ask.report_run ⟨p, ds, batch, now, true⟩ session memory).getLast?_of_failure herror

/-! Of five latents the first and the last are shown: the image of the first lacks nearly all of its bytes, for the last one the
primary decoder runs out of memory and the fallback decoder fails. -/

namespace Sample

/-- Two items are shown, spread over the batch. -/
def sparse : Previewer :=
  previewer { (default : Settings) with maxBatch := 2, spread := true, fallback := .projection, maxBatch_pos := Nat.zero_lt_two }

/-- The primary decoder gives one image that lacks bytes and then runs out of memory; the fallback decoder fails. -/
def crumbling : Decoders Nat :=
  ⟨fun _ n =>
      (if n = 0 then ⟨.ok ⟨5, 7, #[1, 2, 3]⟩, false⟩ else ⟨.error (.outOfMemory "gpu" "full"), false⟩, n + 1),
    fun _ _ n => (⟨.error (.decode "broken"), false⟩, n)⟩

/-- The one image that these decoders give has sides of 5 and 7 pixels. -/
theorem crumbling_onlyGive : crumbling.OnlyGive fun image => image.size.byteCount < 0x10000000000000000 where
  primary := by
    intro request n image h
    simp only [crumbling] at h
    split at h
    · obtain rfl := Except.ok.inj h
      decide
    · cases h
  fallback := by
    intro latent target n image h
    cases h

theorem crumbling_never_breaks_down : (batch 5).size < 0x100000000 ∧
    crumbling.OnlyGive (fun image => image.size.byteCount < 0x10000000000000000) ∧
    sparse.step? .wraps crumbling (batch 5) 0 (.withInterval 0) 0 =
      some (sparse.step crumbling (batch 5) 0 (.withInterval 0) 0) ∧
    (sparse.step crumbling (batch 5) 0 (.withInterval 0) 0).result = .failed (.decode "broken") ∧
    (sparse.attempt crumbling (batch 5) 0 (.withInterval 0) 0).calls.map Call.isPrimary = [true, true, false] ∧
    ∃ call, (sparse.attempt crumbling (batch 5) 0 (.withInterval 0) 0).calls.getLast? = some call ∧
      call.answer.result = .error (.decode "broken") := by
  have hn : (batch 5).size < 0x100000000 := by decide
  have hroom : ∀ dims, (batch 5).dims? = some dims →
      (sparse.sheet (sparse.sampler.plan (batch 5).size) dims).size.byteCount < 0x8000000000000000 := by
    intro dims hdims
    obtain rfl : (⟨1, 1⟩ : Size) = dims := Option.some.inj hdims
    decide +kernel
  have hfailed : (sparse.step crumbling (batch 5) 0 (.withInterval 0) 0).result = .failed (.decode "broken") := rfl
  obtain ⟨hmachine, -, herror, -, -, -⟩ :=
    sparse.never_breaks_down crumbling (batch 5) hn crumbling_onlyGive hroom 0 (.withInterval 0) 0
  exact ⟨hn, crumbling_onlyGive, (hmachine .wraps).2, hfailed, by decide +kernel, (herror _ (.inr hfailed)).2⟩

/-- One cell, of 1600000000 pixels each way at the most, for a decoder of 31 stages. -/
def colossal : Previewer :=
  ⟨{ (default : Settings) with
      maxWidth := 1600000000, maxHeight := 1600000000, maxWidth_pos := by decide, maxHeight_pos := by decide,
      maxWidth_lt := by decide, maxHeight_lt := by decide },
    ⟨31⟩, by decide⟩

/-- 64 bits count the bytes of the sheet, and there is no room for it. -/
theorem colossal_breaks_down : (batch 1).size < 0x100000000 ∧
    crumbling.OnlyGive (fun image => image.size.byteCount < 0x10000000000000000) ∧
    (batch 1).dims? = some ⟨1, 1⟩ ∧
    (colossal.sheet (colossal.sampler.plan 1) ⟨1, 1⟩).size.byteCount < 0x10000000000000000 ∧
    ∀ o : Overflow, (colossal.attempt? o crumbling (batch 1) 0 (.withInterval 0) 0).isNone = true ∧
      (colossal.step? o crumbling (batch 1) 0 (.withInterval 0) 0).isNone = true := by
  refine ⟨by decide, crumbling_onlyGive, rfl, by decide +kernel, fun o => ?_⟩
  cases o with
  | breaks => decide +kernel
  | wraps => decide +kernel

end Sample

end ContactSheet
