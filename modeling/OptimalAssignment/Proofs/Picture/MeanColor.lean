import Mathlib
import OptimalAssignment.Picture.MeanColor
import OptimalAssignment.Proofs.Cost.Table

/-!
Mean colours and layouts. An array or a tensor that has three channels or more, a plane and a
picture all have the same three means if they show the same colours. With fewer channels than three
there are as many means as channels, also if one of them is grey.
-/
namespace OptimalAssignment

variable {α : Type} {height width depth count : ℕ} {pixels colors : List (List α)}
  {levels : List α}

namespace Image

open Table

/-! ### Channels of pixels -/

theorem length_gather : (gather depth pixels).length = depth := by
  rw [gather, List.length_map, List.length_range]

theorem take_gather (h : count ≤ depth) :
    (gather depth pixels).take count = gather count pixels := by
  rw [gather, ← List.map_take, List.take_range, min_eq_left h, gather]

/-- A channel has a value for each pixel. -/
theorem length_of_mem_gather {channel : List α} (hpixels : ∀ p ∈ pixels, p.length = depth)
    (h : channel ∈ gather depth pixels) : channel.length = pixels.length := by
  obtain ⟨c, hc, rfl⟩ := List.mem_map.mp h
  rw [List.mem_range] at hc
  have hfound (p : List α) (hp : p ∈ pixels) : (p[c]?).isSome := by
    rw [List.getElem?_eq_getElem (by rwa [hpixels p hp])]
    rfl
  rw [List.length_filterMap_eq_countP, List.countP_eq_length.mpr hfound]

/-- What follows the channels that count does not count. -/
theorem gather_map_take (h : count ≤ 3) :
    gather count (pixels.map (·.take 3)) = gather count pixels := by
  refine List.map_congr_left fun c hc => ?_
  rw [List.mem_range] at hc
  rw [List.filterMap_map]
  refine List.filterMap_congr fun p _ => ?_
  exact List.getElem?_take_of_lt (by omega)

/-- Grey counts three times. -/
theorem gather_replicate : gather 3 (levels.map (List.replicate 3)) = List.replicate 3 levels := by
  refine List.eq_replicate_iff.mpr ⟨length_gather, fun channel h => ?_⟩
  obtain ⟨c, hc, rfl⟩ := List.mem_map.mp h
  have hlevel (x : α) : (List.replicate 3 x)[c]? = some x := by
    rw [List.getElem?_replicate, if_pos (List.mem_range.mp hc)]
  simp only [List.filterMap_map, Function.comp_def, hlevel, List.filterMap_some]

variable [Measure α]

/-! ### Means of arrays and tensors -/

section Layout

variable (hdepth : depth ≠ 0) (hpixels : ∀ p ∈ pixels, p.length = depth)
  (hcount : pixels.length = height * width)
include hdepth hpixels hcount

/-- An array has a mean for each channel, but for no more than three. -/
theorem meanColor_channelsLast :
    (Image.channelsLast [height, width, depth] pixels.flatten).meanColor =
      .ok ((gather (min depth 3) pixels).map Measure.mean) := by
  have hpieces : pieces depth (extent [height, width]) pixels.flatten = pixels := by
    rw [show extent [height, width] = pixels.length by simp [extent, hcount]]
    exact pieces_flatten hpixels
  have hkept : kept depth = .ok (min depth 3) := if_neg hdepth
  simp only [meanColor, channels, List.getLastD_cons, List.getLastD_nil, List.dropLast, hkept,
    hpieces]
  rfl

/-- A tensor has a mean for each channel, but for no more than three. -/
theorem meanColor_channelsFirst :
    (Image.channelsFirst [depth, height, width] (gather depth pixels).flatten).meanColor =
      .ok ((gather (min depth 3) pixels).map Measure.mean) := by
  have hpieces : pieces (extent [height, width]) (min depth 3) (gather depth pixels).flatten =
      gather (min depth 3) pixels := by
    rw [show extent [height, width] = pixels.length by simp [extent, hcount],
      pieces_flatten_take (fun _ => length_of_mem_gather hpixels)
        (by rw [length_gather]; exact min_le_left _ _),
      take_gather (min_le_left _ _)]
  have hkept : kept depth = .ok (min depth 3) := if_neg hdepth
  simp only [meanColor, channels, hkept]
  rw [← hpieces]
  rfl

end Layout

/-! ### Layouts of a picture -/

/-- The images that show pixels of given colours, each a list of red, green and blue: pictures,
arrays and tensors that have these channels first and any others behind them, and planes, which show
grey. -/
inductive Depicts (colors : List (List α)) : Image α → Prop
  | picture (p : Picture) (hcolors : p.colors.map (·.map Measure.count) = colors) :
    Depicts colors (.picture p)
  | channelsLast {height width depth : ℕ} {pixels : List (List α)} (hdepth : 3 ≤ depth)
    (hpixels : ∀ p ∈ pixels, p.length = depth) (hcount : pixels.length = height * width)
    (hcolors : pixels.map (·.take 3) = colors) :
    Depicts colors (.channelsLast [height, width, depth] pixels.flatten)
  | channelsFirst {height width depth : ℕ} {pixels : List (List α)} (hdepth : 3 ≤ depth)
    (hpixels : ∀ p ∈ pixels, p.length = depth) (hcount : pixels.length = height * width)
    (hcolors : pixels.map (·.take 3) = colors) :
    Depicts colors (.channelsFirst [depth, height, width] (gather depth pixels).flatten)
  | planeLast {height width : ℕ} {levels : List α} (hcount : levels.length = height * width)
    (hcolors : levels.map (List.replicate 3) = colors) :
    Depicts colors (.channelsLast [height, width] levels)
  | planeFirst {height width : ℕ} {levels : List α} (hcount : levels.length = height * width)
    (hcolors : levels.map (List.replicate 3) = colors) :
    Depicts colors (.channelsFirst [height, width] levels)

/-- The mean colour is that of the colours shown. -/
theorem Depicts.meanColor_eq {image : Image α} (h : Depicts colors image) :
    image.meanColor = .ok ((gather 3 colors).map Measure.mean) := by
  cases h with
  | picture p hcolors =>
    rw [← hcolors]
    rfl
  | channelsLast hdepth hpixels hcount hcolors =>
    rw [meanColor_channelsLast (by omega) hpixels hcount, min_eq_right hdepth, ← hcolors,
      gather_map_take le_rfl]
  | channelsFirst hdepth hpixels hcount hcolors =>
    rw [meanColor_channelsFirst (by omega) hpixels hcount, min_eq_right hdepth, ← hcolors,
      gather_map_take le_rfl]
  | planeLast _ hcolors =>
    rw [← hcolors, gather_replicate]
    rfl
  | planeFirst _ hcolors =>
    rw [← hcolors, gather_replicate]
    rfl

end Image

end OptimalAssignment
