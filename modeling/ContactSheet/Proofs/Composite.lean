import ContactSheet.Proofs.Blit
import ContactSheet.Proofs.StepRun

/-!
# What a sheet shows

The sheet of a step that makes one shows each item in its own cell, at the size of the cell, and nothing in the cells that are
left. A run of a sheet that ends with images made one of each item, in order (`SheetRun.decodedImages_eq`); `Sheet.placeAll`
writes each into its own cell and into no other (`Sheet.Fits.pixel_placeAll`).
-/

namespace ContactSheet

variable {σ : Type}

/-! ## The images that were decoded -/

/-- The images that the decoders gave, each with the latent that it was made of, in the order of the calls. -/
def decodedImages (calls : List Call) : List (Latent × Image) :=
  calls.filterMap fun call => call.answer.result.toOption.map fun image => (call.latent, image)

/-- The decoders give images that hold exactly the bytes that their sides ask for. -/
def Decoders.Exact (ds : Decoders σ) : Prop :=
  (∀ request m image, (ds.primary request m).1.result = .ok image → image.Exact) ∧
    ∀ latent target m image, (ds.fallback latent target m).1.result = .ok image → image.Exact

/-- An item that gives an image was decoded once. -/
theorem ItemRun.decodedImages_eq {ds : Decoders σ} {settings : Settings} {sheet : Sheet} {latent : Latent} {f f' : Bool}
    {m m' : σ} {calls : List Call} {result : Except PreviewError Image} {image : Image}
    (h : ItemRun ds settings sheet latent f m calls result f' m') (hr : result = .ok image) :
    decodedImages calls = [(latent, image)] := by
  cases h with
  | primary ha hran => simp [decodedImages, Call.answer, Call.latent, hr, Settings.request, Except.toOption]
  | fallback ha => simp [decodedImages, Call.answer, Call.latent, hr, Except.toOption]
  | @rescued _ _ _ answer _ ha hran hf ha' =>
    obtain ⟨result, cancels⟩ := answer
    cases result with
    | ok image => cases hran
    | error e => simp [decodedImages, Call.answer, Call.latent, hr, Except.toOption]

/-- A sheet that ends with images decoded each item once, in order. -/
theorem SheetRun.decodedImages_eq {ds : Decoders σ} {settings : Settings} {sheet : Sheet} {f k : Bool} {m m' : σ}
    {latents : List Latent} {calls : List Call} {result : Except PreviewError (List Image)} {images : List Image}
    (h : SheetRun ds settings sheet f k m latents calls result m') (hr : result = .ok images) :
    images.length = latents.length ∧ decodedImages calls = latents.zip images := by
  induction h generalizing images with
  | done =>
    cases hr
    exact ⟨rfl, rfl⟩
  | stopped => cases hr
  | failed => cases hr
  | @decoded _ _ _ _ _ latent latents calls calls' image result hi _ ih =>
    cases result with
    | error e => cases hr
    | ok rest =>
      obtain rfl : image :: rest = images := Except.ok.inj hr
      obtain ⟨hl, hd⟩ := ih rfl
      refine ⟨by simp [hl], ?_⟩
      have ha : decodedImages (calls ++ calls') = decodedImages calls ++ decodedImages calls' := List.filterMap_append
      rw [ha, hi.decodedImages_eq rfl, hd]
      rfl

/-- The images of a sheet of exact decoders are exact. -/
theorem SheetRun.exact {ds : Decoders σ} (hd : ds.Exact) {settings : Settings} {sheet : Sheet} {f k : Bool} {m m' : σ}
    {latents : List Latent} {calls : List Call} {result : Except PreviewError (List Image)} {images : List Image}
    (h : SheetRun ds settings sheet f k m latents calls result m') (hr : result = .ok images) :
    ∀ image ∈ images, image.Exact := by
  induction h generalizing images with
  | done =>
    cases hr
    nofun
  | stopped => cases hr
  | failed => cases hr
  | @decoded _ _ _ _ _ _ _ _ _ image result hi _ ih =>
    cases result with
    | error e => cases hr
    | ok rest =>
      obtain rfl : image :: rest = images := Except.ok.inj hr
      intro i hmem
      rcases List.mem_cons.1 hmem with rfl | hmem
      · exact hi.image_of_onlyGive ⟨hd.1, hd.2⟩ rfl
      · exact ih rfl i hmem

/-! ## The pixels of a sheet -/

/-- A point of a span lies in another span of the same length exactly when the two are the same. -/
theorem mem_span_iff {a b w x : Nat} (hx : x < w) : (a * w ≤ b * w + x ∧ b * w + x - a * w < w) ↔ b = a := by
  rcases Nat.lt_trichotomy b a with h | h | h
  · have := Nat.mul_le_mul_right w (show b + 1 ≤ a from h)
    rw [Nat.add_mul, Nat.one_mul] at this
    omega
  · subst h
    omega
  · have := Nat.mul_le_mul_right w (show a + 1 ≤ b from h)
    rw [Nat.add_mul, Nat.one_mul] at this
    omega

/-- Where a point of a cell lies on the sheet. -/
def Sheet.point (s : Sheet) (n x y : Nat) : Nat × Nat :=
  ((s.grid.cell n).1 * s.cell.width + x, (s.grid.cell n).2 * s.cell.height + y)

/-- A point of a cell lies on the sheet. -/
theorem Sheet.Fits.point_lt {s : Sheet} (h : s.Fits) {n x y : Nat} (hn : n < s.grid.columns * s.grid.rows)
    (hx : x < s.cell.width) (hy : y < s.cell.height) :
    (s.point n x y).1 < s.size.width ∧ (s.point n x y).2 < s.size.height := by
  obtain ⟨hc, hr⟩ := h.cell_le hn
  rw [h.size_eq]
  simp only [Sheet.point]
  omega

/-- Copying an image into a cell keeps an exact sheet exact and of its size. -/
theorem Sheet.place_frame (s : Sheet) {composite : Image} (hc : composite.Exact) (n : Nat) (image : Image) :
    (s.place composite n image).Exact ∧ (s.place composite n image).size = composite.size :=
  ⟨hc.blit _ _ _, (composite.blit_frame _ _ _).1⟩

/-- Copying images into cells keeps an exact sheet exact and of its size. -/
theorem Sheet.placeAll_frame (s : Sheet) (images : List Image) {composite : Image} (hc : composite.Exact) (position : Nat) :
    (s.placeAll position composite images).Exact ∧ (s.placeAll position composite images).size = composite.size := by
  induction images generalizing composite position with
  | nil => exact ⟨hc, rfl⟩
  | cons image images ih =>
    obtain ⟨hp, hs⟩ := s.place_frame hc position image
    obtain ⟨hi, hs'⟩ := ih hp (position + 1)
    exact ⟨hi, hs'.trans hs⟩

/-- A point of a cell after an image was copied into a cell: that of the image, at the size of the cell, if the cell is the same,
and the old one if not. -/
theorem Sheet.Fits.pixel_place {s : Sheet} (h : s.Fits) {composite image : Image} (hc : composite.Exact)
    (hcs : composite.size = s.size) (hi : image.Exact) {n q x y : Nat} (hn : n < s.grid.columns * s.grid.rows)
    (hq : q < s.grid.columns * s.grid.rows) (hx : x < s.cell.width) (hy : y < s.cell.height) :
    (s.place composite n image).pixel (s.point q x y).1 (s.point q x y).2 =
      if q = n then (image.resize s.cell).pixel x y else composite.pixel (s.point q x y).1 (s.point q x y).2 := by
  obtain ⟨hpx, hpy⟩ := h.point_lt hq hx hy
  rw [← hcs] at hpx hpy
  obtain ⟨he, hes⟩ := hi.resize s.cell
  have hw : (image.resize s.cell).width = s.cell.width := congrArg Size.width hes
  have hh : (image.resize s.cell).height = s.cell.height := congrArg Size.height hes
  rw [Sheet.place, he.pixel_blit hc _ _ hpx hpy, h.corner_eq hn, hw, hh]
  simp only [Sheet.point, mem_span_iff hx, mem_span_iff hy]
  by_cases hqn : q = n
  · subst hqn
    rw [if_pos ⟨rfl, rfl⟩, if_pos rfl, Nat.add_sub_cancel_left, Nat.add_sub_cancel_left]
  · rw [if_neg fun hcell => hqn (s.grid.cell_injective (Prod.ext hcell.1 hcell.2)), if_neg hqn]

/-- A point of a cell that no image belongs to stays as it is while images are copied into the cells from a position on. -/
theorem Sheet.Fits.pixel_placeAll_of_not_mem {s : Sheet} (h : s.Fits) (images : List Image)
    (hi : ∀ image ∈ images, image.Exact) {composite : Image} (hc : composite.Exact) (hcs : composite.size = s.size)
    {position q x y : Nat} (hp : position + images.length ≤ s.grid.columns * s.grid.rows)
    (hq : q < s.grid.columns * s.grid.rows) (hx : x < s.cell.width) (hy : y < s.cell.height)
    (hout : q < position ∨ position + images.length ≤ q) :
    (s.placeAll position composite images).pixel (s.point q x y).1 (s.point q x y).2 =
      composite.pixel (s.point q x y).1 (s.point q x y).2 := by
  induction images generalizing composite position with
  | nil => rfl
  | cons image images ih =>
    obtain ⟨hpe, hps⟩ := s.place_frame hc position image
    rw [List.length_cons] at hp hout
    rw [Sheet.placeAll, ih (fun i hm => hi i (List.mem_cons_of_mem _ hm)) hpe (hps.trans hcs) (by omega) (by omega),
      h.pixel_place hc hcs (hi image List.mem_cons_self) (by omega) hq hx hy, if_neg (by omega)]

/-- A point of the cell of an image, after images were copied into the cells from a position on, is that of the image at the size
of the cell. -/
theorem Sheet.Fits.pixel_placeAll {s : Sheet} (h : s.Fits) (images : List Image) (hi : ∀ image ∈ images, image.Exact)
    {composite : Image} (hc : composite.Exact) (hcs : composite.size = s.size) {position k x y : Nat}
    (hp : position + images.length ≤ s.grid.columns * s.grid.rows) {image : Image} (hk : images[k]? = some image)
    (hx : x < s.cell.width) (hy : y < s.cell.height) :
    (s.placeAll position composite images).pixel (s.point (position + k) x y).1 (s.point (position + k) x y).2 =
      (image.resize s.cell).pixel x y := by
  induction images generalizing composite position k with
  | nil => cases hk
  | cons first images ih =>
    obtain ⟨hpe, hps⟩ := s.place_frame hc position first
    have hi' : ∀ image ∈ images, image.Exact := fun i hm => hi i (List.mem_cons_of_mem _ hm)
    rw [List.length_cons] at hp
    rw [Sheet.placeAll]
    cases k with
    | zero =>
      obtain rfl : first = image := Option.some.inj hk
      rw [h.pixel_placeAll_of_not_mem images hi' hpe (hps.trans hcs) (by omega) (by omega) hx hy (by omega),
        h.pixel_place hc hcs (hi first List.mem_cons_self) (by omega) (by omega) hx hy, if_pos (Nat.add_zero _)]
    | succ k =>
      rw [show position + (k + 1) = position + 1 + k by omega]
      exact ih hi' hpe (hps.trans hcs) (by omega) hk

/-- A point of a cell on a blank sheet onto which images were copied: that of the image of the cell, at the size of the cell, or
transparent black in a cell beyond the images. -/
theorem Sheet.Fits.get?_placeAll {s : Sheet} (h : s.Fits) (images : List Image) (hi : ∀ image ∈ images, image.Exact)
    (hl : images.length ≤ s.grid.columns * s.grid.rows) {n x y : Nat} (hn : n < s.grid.columns * s.grid.rows)
    (hx : x < s.cell.width) (hy : y < s.cell.height) :
    (s.placeAll 0 (.blank s.size) images).get? (s.point n x y).1 (s.point n x y).2 =
      some (images[n]?.elim ⟨0, 0, 0, 0⟩ fun image => (image.resize s.cell).pixel x y) := by
  have hblank := Image.exact_blank s.size
  have hl' : 0 + images.length ≤ s.grid.columns * s.grid.rows := by omega
  obtain ⟨hsheet, hsize⟩ := s.placeAll_frame images hblank 0
  obtain ⟨hpx, hpy⟩ := h.point_lt hn hx hy
  rw [hsheet.get?_eq hsize hpx hpy]
  congr 1
  cases hnth : images[n]? with
  | none =>
    have hle : images.length ≤ n := List.getElem?_eq_none_iff.1 hnth
    rw [h.pixel_placeAll_of_not_mem images hi hblank rfl hl' hn hx hy (by omega), Image.pixel_blank]
    rfl
  | some image =>
    have hpixel := h.pixel_placeAll images hi hblank rfl hl' hnth hx hy
    rw [Nat.zero_add] at hpixel
    exact hpixel

/-! ## The sheet of a step -/

/-- A step that makes a sheet had latents to show, and its sheet is a blank one onto which the images of its items were copied. -/
theorem Ask.emitted_eq (a : Ask σ) (s : Session) (m : σ) {image : Image} (h : (a.report s m).result = .ok (.emitted image)) :
    ∃ dims images, a.Ready s dims ∧ a.Serves s m dims (a.report s m).calls (.ok images) (a.report s m).memory ∧
      image = (a.sheet dims).placeAll 0 (.blank (a.sheet dims).size) images := by
  have hrun := a.report_run s m
  generalize a.report s m = r at hrun h
  cases hrun with
  | emitted hr hs =>
    obtain rfl := Outcome.emitted.inj (Except.ok.inj h)
    exact ⟨_, _, hr, hs, rfl⟩
  | failed hr hs he =>
    simp only [Ask.failure] at h
    split at h <;> cases h
  | _ => cases h

/-- Each pick of a step stands for a latent of its batch. -/
theorem Ask.get?_pick (a : Ask σ) {n pick : Nat} (h : a.grid.picks[n]? = some pick) :
    ∃ latent, a.batch.get? pick = some latent ∧ a.latents[n]? = some latent := by
  have hlt : n < a.latents.length := by
    rw [a.length_latents]
    exact (List.getElem?_eq_some_iff.1 h).1
  have hlatent : a.latents[n]? = some a.latents[n] := List.getElem?_eq_getElem hlt
  refine ⟨a.latents[n], ?_, hlatent⟩
  rw [← hlatent, a.getElem?_latents, h, Option.bind_some]

/-- A step that makes a sheet shows its items on it. The sheet has as many cells as the grid has columns and rows, each of the
size that the limits leave for it. The decoders gave one image for each item, in the order of the picks, and each point of the
cell of an item is the point of its image at the size of the cell (an image of that size is copied as it is). The cells that no
item belongs to are transparent black. -/
theorem Ask.emitted_layout (a : Ask σ) (s : Session) (m : σ) (hd : a.decoders.Exact) (hn : a.batch.size < 0x100000000)
    {dims : Size} (hdims : a.batch.dims? = some dims) {image : Image} (h : (a.report s m).result = .ok (.emitted image)) :
    let grid := a.previewer.sampler.plan a.batch.size
    let cell := grid.cellSize a.previewer.settings a.previewer.stages dims
    image.size = ⟨grid.columns * cell.width, grid.rows * cell.height⟩ ∧
    (decodedImages (a.report s m).calls).length = grid.size ∧
    (∀ n pick, grid.picks[n]? = some pick → ∃ latent shown, a.batch.get? pick = some latent ∧
      (decodedImages (a.report s m).calls)[n]? = some (latent, shown) ∧
      ∀ x < cell.width, ∀ y < cell.height, ∃ pixel, (shown.resize cell).get? x y = some pixel ∧
        image.get? ((grid.cell n).1 * cell.width + x) ((grid.cell n).2 * cell.height + y) = some pixel) ∧
    ∀ n, grid.size ≤ n → n < grid.columns * grid.rows → ∀ x < cell.width, ∀ y < cell.height,
      image.get? ((grid.cell n).1 * cell.width + x) ((grid.cell n).2 * cell.height + y) = some ⟨0, 0, 0, 0⟩ := by
  obtain ⟨dims', images, hr, hs, rfl⟩ := a.emitted_eq s m h
  obtain rfl : dims = dims' := Option.some.inj (hdims.symm.trans hr.dims_eq)
  have hsize : a.batch.size ≠ 0 := Batch.size_ne_zero hdims
  have hfits : (a.sheet dims).Fits := a.previewer.sheet_fits (Nat.pos_of_ne_zero hsize) hn dims
  obtain ⟨hlen, hdec⟩ := hs.decodedImages_eq rfl
  rw [a.length_latents] at hlen
  have hexact := hs.exact hd rfl
  have hall : images.length ≤ (a.sheet dims).grid.columns * (a.sheet dims).grid.rows := by
    rw [hlen]
    exact a.grid.size_le hfits.columns_pos
  have hpoint (n x y : Nat) := hfits.get?_placeAll images hexact hall (n := n) (x := x) (y := y)
  refine ⟨?_, ?_, ?_, ?_⟩
  · obtain ⟨-, hframe⟩ := (a.sheet dims).placeAll_frame images (Image.exact_blank (a.sheet dims).size) 0
    exact hframe.trans hfits.size_eq
  · rw [hdec, List.length_zip, hlen, a.length_latents, Nat.min_self]
    rfl
  · intro n pick hpick
    obtain ⟨latent, hlatent, hnth⟩ := a.get?_pick hpick
    have hlt : n < images.length := by
      rw [hlen, ← a.length_latents]
      exact (List.getElem?_eq_some_iff.1 hnth).1
    have hshown : images[n]? = some images[n] := List.getElem?_eq_getElem hlt
    refine ⟨latent, images[n], hlatent, by rw [hdec, List.getElem?_zip_eq_some]; exact ⟨hnth, hshown⟩, ?_⟩
    intro x hx y hy
    obtain ⟨hresized, hcell⟩ := (hexact _ (List.getElem_mem hlt)).resize (a.sheet dims).cell
    refine ⟨(images[n].resize (a.sheet dims).cell).pixel x y, hresized.get?_eq hcell hx hy, ?_⟩
    have h := hpoint n x y (lt_of_lt_of_le hlt hall) hx hy
    rwa [hshown] at h
  · intro n hle hlt x hx y hy
    have h := hpoint n x y hlt hx hy
    rwa [List.getElem?_eq_none_iff.2 (hlen.trans_le hle)] at h

/-! A step that shows three latents of one pixel: the primary decoder gives one red pixel for each, a cell has two pixels each way,
and the fourth cell stays empty. -/

namespace Sample

theorem steady_exact : steady.Exact := by
  constructor
  · intro request m image h
    obtain rfl : red = image := Except.ok.inj h
    exact Image.exact_generate _ _
  · intro latent target m image h
    obtain rfl : red = image := Except.ok.inj h
    exact Image.exact_generate _ _

/-- Three latents are asked for. -/
def three : Ask Unit := ⟨previewer default, steady, batch 3, 0, true⟩

theorem three_layout : steady.Exact ∧ three.batch.size < 0x100000000 ∧ three.batch.dims? = some ⟨1, 1⟩ ∧
    ∃ image, (three.report (.withInterval 0) ()).result = .ok (.emitted image) ∧ image.size = ⟨4, 4⟩ ∧
      image.get? 3 3 = some ⟨0, 0, 0, 0⟩ ∧ ∃ pixel, (red.resize ⟨2, 2⟩).get? 1 0 = some pixel ∧ image.get? 1 2 = some pixel := by
  have hn : three.batch.size < 0x100000000 := by decide
  have hdims : three.batch.dims? = some ⟨1, 1⟩ := rfl
  obtain ⟨image, himage⟩ : ∃ image, (three.report (.withInterval 0) ()).result = .ok (.emitted image) := ⟨_, rfl⟩
  have hcell : (three.previewer.sampler.plan three.batch.size).cellSize three.previewer.settings three.previewer.stages ⟨1, 1⟩ =
      ⟨2, 2⟩ := by decide +kernel
  have hgrid : three.previewer.sampler.plan three.batch.size = ⟨[0, 1, 2], 2⟩ := by decide
  have h := three.emitted_layout (.withInterval 0) () steady_exact hn hdims himage
  simp only [hcell] at h
  obtain ⟨hsize, -, hshown, hempty⟩ := h
  rw [hgrid] at hsize hshown hempty
  obtain ⟨_, shown, -, hnth, hpixels⟩ := hshown 2 2 rfl
  obtain rfl : red = shown := (Prod.mk.inj (Option.some.inj hnth)).2
  exact ⟨steady_exact, hn, hdims, image, himage, hsize, hempty 3 (by decide) (by decide) 1 (by decide) 1 (by decide),
    hpixels 1 (by decide) 0 (by decide)⟩

end Sample

end ContactSheet
