import Mathlib
import OptimalAssignment.Picture.Costs
import OptimalAssignment.Proofs.Picture.MeanColor

/-!
Costs of pictures in any layout. Costs are made of mean colours only, so it does not matter for them
in which layout pictures come, unless there is a layout with fewer than three channels among them.
-/
namespace OptimalAssignment.Image

variable {α : Type} [Measure α] {rows rows' cols cols' : List (Image α)} {means : List (List α)}

/-- Whether two images have the same mean colour, or none for the same reason. -/
def SameMean (image image' : Image α) : Prop :=
  image.meanColor = image'.meanColor

/-- Whether two images are layouts of the same picture. -/
def SamePicture (image image' : Image α) : Prop :=
  ∃ colors, Depicts colors image ∧ Depicts colors image'

theorem SamePicture.sameMean {image image' : Image α} (h : SamePicture image image') :
    SameMean image image' := by
  obtain ⟨colors, h, h'⟩ := h
  exact h.meanColor_eq.trans h'.meanColor_eq.symm

theorem meansOf_congr (h : List.Forall₂ SameMean cols cols') : meansOf cols = meansOf cols' := by
  have hmeans : cols.mapM (fun image => image.meanColor.mapError CostFault.color) =
      cols'.mapM fun image => image.meanColor.mapError CostFault.color := by
    induction h with
    | nil => rfl
    | cons hmean _ ih =>
      rw [SameMean] at hmean
      rw [List.mapM_cons, List.mapM_cons, hmean, ih]
  rw [meansOf, meansOf, hmeans]

theorem score_congr (h : List.Forall₂ SameMean rows rows') :
    score means rows = score means rows' := by
  funext i
  induction h generalizing i with
  | nil => rfl
  | cons hmean _ ih =>
    cases i with
    | zero =>
      rw [SameMean] at hmean
      simp only [score, List.getElem?_cons_zero, rowCosts, hmean]
    | succ i => exact ih i

/-- Costs depend on the mean colours of the images alone. -/
theorem costsBy_congr (workers : Except CostFault ℤ) (picks : List ℕ)
    (hrows : List.Forall₂ SameMean rows rows') (hcols : List.Forall₂ SameMean cols cols') :
    costsBy workers picks rows cols = costsBy workers picks rows' cols' := by
  have hscore (means : List (List α)) : score means rows = score means rows' := score_congr hrows
  have hblank {xs xs' : List (Image α)} (h : List.Forall₂ SameMean xs xs') :
      xs.isEmpty = xs'.isEmpty := by
    cases h <;> rfl
  simp only [costsBy, hblank hrows, hblank hcols, hrows.length_eq, hcols.length_eq,
    meansOf_congr hcols, hscore]

/-- Images that show the same colours in at least three channels, in a plane or as a picture have
the same mean colour, which has three parts and is that of the colours; for grey all three are the
same. An array or a tensor of one or two channels has as many parts as channels instead. Exchanging
layouts of the same picture does not change the costs. -/
theorem meanColor_layouts (α : Type) [Measure α] :
    (∀ (colors : List (List α)) (image : Image α), Depicts colors image →
      image.meanColor = .ok [Measure.mean (colors.filterMap (·[0]?)),
        Measure.mean (colors.filterMap (·[1]?)), Measure.mean (colors.filterMap (·[2]?))]) ∧
    (∀ (levels : List α) (image : Image α), Depicts (levels.map (List.replicate 3)) image →
      image.meanColor = .ok (List.replicate 3 (Measure.mean levels))) ∧
    (∀ (height width depth : ℕ) (pixels : List (List α)), depth = 1 ∨ depth = 2 →
      (∀ p ∈ pixels, p.length = depth) → pixels.length = height * width →
      (channelsLast [height, width, depth] pixels.flatten).meanColor =
        .ok ((gather depth pixels).map Measure.mean) ∧
      (channelsFirst [depth, height, width] (gather depth pixels).flatten).meanColor =
        .ok ((gather depth pixels).map Measure.mean)) ∧
    (∀ (workers : Except CostFault ℤ) (picks : List ℕ) (rows rows' cols cols' : List (Image α)),
      List.Forall₂ SamePicture rows rows' → List.Forall₂ SamePicture cols cols' →
      costsBy workers picks rows cols = costsBy workers picks rows' cols') := by
  refine ⟨fun colors image h => h.meanColor_eq, fun levels image h => ?grey,
    fun height width depth pixels hdepth hpixels hcount => ?few,
    fun workers picks rows rows' cols cols' hrows hcols => ?costs⟩
  case grey => rw [h.meanColor_eq, gather_replicate, List.map_replicate]
  case few =>
    have hfew : min depth 3 = depth := min_eq_left (by omega)
    rw [meanColor_channelsLast (by omega) hpixels hcount,
      meanColor_channelsFirst (by omega) hpixels hcount, hfew]
    exact ⟨rfl, rfl⟩
  case costs =>
    exact costsBy_congr workers picks (hrows.imp fun _ _ => SamePicture.sameMean)
      (hcols.imp fun _ _ => SamePicture.sameMean)

/-- Two pixels, interleaved with alpha behind the colours and plane by plane without it; and two
grey ones in a plane. -/
theorem meanColor_layouts_pixels :
    (channelsLast [1, 2, 4] [(1.0 : Float), 2.0, 3.0, 255.0, 4.0, 5.0, 6.0, 0.0]).meanColor =
      .ok [Measure.mean [1.0, 4.0], Measure.mean [2.0, 5.0], Measure.mean [3.0, 6.0]] ∧
    (channelsFirst [3, 1, 2] [(1.0 : Float), 4.0, 2.0, 5.0, 3.0, 6.0]).meanColor =
      .ok [Measure.mean [1.0, 4.0], Measure.mean [2.0, 5.0], Measure.mean [3.0, 6.0]] ∧
    (channelsFirst [2, 1] [(7.0 : Float), 9.0]).meanColor =
      .ok (List.replicate 3 (Measure.mean [7.0, 9.0])) := by
  obtain ⟨hcolors, hgrey, -⟩ := meanColor_layouts Float
  have halpha : Depicts [[(1.0 : Float), 2.0, 3.0], [4.0, 5.0, 6.0]]
      (channelsLast [1, 2, 4] [[1.0, 2.0, 3.0, 255.0], [4.0, 5.0, 6.0, 0.0]].flatten) :=
    .channelsLast (by decide) (by simp) rfl rfl
  have hplanes : Depicts [[(1.0 : Float), 2.0, 3.0], [4.0, 5.0, 6.0]]
      (channelsFirst [3, 1, 2] (gather 3 [[1.0, 2.0, 3.0], [4.0, 5.0, 6.0]]).flatten) :=
    .channelsFirst (by decide) (by simp) rfl rfl
  refine ⟨?_, ?_, hgrey [7.0, 9.0] _ (.planeFirst rfl rfl)⟩
  · simpa using hcolors _ _ halpha
  · simpa [gather, List.range_succ] using hcolors _ _ hplanes

/-- A grey pixel with a channel axis of length one has a single mean, and with alpha behind it the
mean of alpha comes to be a part of the mean colour. -/
theorem meanColor_layouts_fails :
    (channelsLast [1, 1, 1] [(7.0 : Float)]).meanColor = .ok [Measure.mean [7.0]] ∧
    (channelsFirst [2, 1, 1] [(7.0 : Float), 255.0]).meanColor =
      .ok [Measure.mean [7.0], Measure.mean [255.0]] ∧
    (channelsLast [1, 1, 1] [(7.0 : Float)]).meanColor ≠
      (channelsLast [1, 1] [(7.0 : Float)]).meanColor ∧
    costs (.ok 1) [channelsLast [1, 1] [(7.0 : Float)]]
      [channelsLast [1, 1] [(7.0 : Float)], channelsLast [1, 1, 1] [(7.0 : Float)]] =
      .error .channelsDiffer := by
  refine ⟨rfl, rfl, fun h => ?_, rfl⟩
  have hlength := congrArg List.length (Except.ok.inj h)
  contradiction

end OptimalAssignment.Image
