import ContactSheet.Proofs.Checked.Image

/-!
# What copying an image changes

`Image.blit_clips` puts together what copying an image onto another does: the target keeps its sides and the number of its bytes, no
byte beyond those that either image holds is read or written, and when both hold the bytes that their sides ask for, just the pixels
that the source covers become those of the source. It holds of images whose sides ask for fewer than `2 ^ 64` bytes. Beyond that the
end of a row may wrap, and pass for one among the bytes of an image that holds none (`Sample.vast_breaks_down`).
-/

namespace ContactSheet

/-- A pixel of an exact image after an exact image was copied onto it: the source's in the rectangle that the source covers, the old
one elsewhere. -/
theorem Image.Exact.get?_blit {source target : Image} (hs : source.Exact) (ht : target.Exact) (x y : Nat) {px py : Nat}
    (hpx : px < target.width) (hpy : py < target.height) :
    (target.blit source x y).get? px py =
      if (x ≤ px ∧ px - x < source.width) ∧ y ≤ py ∧ py - y < source.height then source.get? (px - x) (py - y)
      else target.get? px py := by
  obtain ⟨hsize, -⟩ := target.blit_frame source x y
  rw [(ht.blit source x y).get?_eq hsize hpx hpy, hs.pixel_blit ht x y hpx hpy]
  by_cases hin : (x ≤ px ∧ px - x < source.width) ∧ y ≤ py ∧ py - y < source.height
  · rw [if_pos hin, if_pos hin, hs.get?_eq rfl hin.1.2 hin.2.2]
  · rw [if_neg hin, if_neg hin, ht.get?_eq rfl hpx hpy]

/-- Copying an image onto another at any point keeps the sides of the target and the number of its bytes, and at a point at an edge or
past it nothing changes. Whatever a machine makes of numbers that its words cannot hold, it does not break down and comes to this, however
many bytes the images hold, if the point lies past an edge or 64 bits count the bytes that the sides of both images ask for. When both
images hold the bytes that their sides ask for, a pixel of the target becomes the source's if the source covers it, and stays as it is
if not. -/
theorem Image.blit_clips (target source : Image) (x y : Nat)
    (h : x < target.width → y < target.height →
      source.size.byteCount < 0x10000000000000000 ∧ target.size.byteCount < 0x10000000000000000) :
    (∀ o : Overflow, target.blit? o source x y = some (target.blit source x y)) ∧
    (target.blit source x y).size = target.size ∧
    (target.blit source x y).bytes.size = target.bytes.size ∧
    (target.width ≤ x ∨ target.height ≤ y → target.blit source x y = target) ∧
    (source.Exact → target.Exact → ∀ px < target.width, ∀ py < target.height,
      (target.blit source x y).get? px py =
        if (x ≤ px ∧ px - x < source.width) ∧ y ≤ py ∧ py - y < source.height then source.get? (px - x) (py - y)
        else target.get? px py) := by
  obtain ⟨hsize, hbytes⟩ := target.blit_frame source x y
  refine ⟨fun o => ?_, hsize, hbytes, fun hedge => if_neg (by omega), ?_⟩
  · by_cases hcorner : x < target.width ∧ y < target.height
    · obtain ⟨hsource, htarget⟩ := h hcorner.1 hcorner.2
      exact Image.blit?_eq o hsource htarget x y
    · rw [Image.blit?, if_neg hcorner, Image.blit, if_neg hcorner]
  · intro hs ht px hpx py hpy
    exact hs.get?_blit ht x y hpx hpy

namespace Sample

/-- Four pixels each way. -/
def canvas : Image := .blank ⟨4, 4⟩

/-- Three red pixels each way. -/
def tile : Image := .solid ⟨3, 3⟩ ⟨255, 0, 0, 255⟩

theorem tile_clips : canvas.blit? .wraps tile 2 2 = some (canvas.blit tile 2 2) ∧
    (canvas.blit tile 2 2).get? 1 1 = some ⟨0, 0, 0, 0⟩ ∧ (canvas.blit tile 2 2).get? 3 3 = some ⟨255, 0, 0, 255⟩ := by
  obtain ⟨hmachine, -, -, -, hpixels⟩ := canvas.blit_clips tile 2 2 fun _ _ => ⟨by decide, by decide⟩
  have htile : tile.Exact := Image.exact_generate ⟨3, 3⟩ fun _ _ channel => Pixel.channel ⟨255, 0, 0, 255⟩ channel
  have hexact := hpixels htile (Image.exact_blank ⟨4, 4⟩)
  refine ⟨hmachine .wraps, ?_, ?_⟩
  · exact (hexact 1 (by decide) 1 (by decide)).trans (by decide +kernel)
  · exact (hexact 3 (by decide) 3 (by decide)).trans (by decide +kernel)

/-- An image that is said to have `2 ^ 31` pixels each way, and holds no byte. -/
def vast : Image := ⟨0x80000000, 0x80000000, #[]⟩

/-- Two pixels are copied to the last two of an image that asks for `2 ^ 64` bytes. Where they end is no word of 64 bits, and for a machine
that wraps they end before they begin. -/
theorem vast_breaks_down : vast.blit? .wraps (.blank ⟨2, 1⟩) 0x7ffffffe 0x7fffffff = none ∧
    vast.blit? .breaks (.blank ⟨2, 1⟩) 0x7ffffffe 0x7fffffff = none := by
  decide

end Sample

end ContactSheet
