/-
  Where a point source lands in an image.

  The number of a pixel along an axis is rounded from the direction (`pixelNumber`), so no pixel is
  nearer to the direction than the one that is returned (`abs_sub_centre_le`). Numbers that are too
  low or too high for the axis are refused, but a negative number down to minus the length counts
  from the end: then the flux goes to the other side of the image, while the direction returned is
  that of the number, beyond the border (`point_source_across_border`). `point_source_lands` says
  which pixel is changed, by what, and that no other one is; this pixel is the one at the direction
  returned if and only if no number is negative.
-/
import Mathlib
import ApertureSynthesis.Proofs.Corrector
import ApertureSynthesis.Proofs.Rounding
import ApertureSynthesis.Proofs.Sums
import ApertureSynthesis.Proofs.Tensor
import ApertureSynthesis.Image.PointSource

namespace ApertureSynthesis.Image

/-! ## Pixel numbers -/

/-- The number of the pixel nearest to an offset of `x` from the centre of `n` pixels of size
    `cell`. -/
noncomputable def pixelNumber (n : ℕ) (cell x : ℝ) : ℤ := Scalar.roundInt (x / cell) + (n / 2 : ℕ)

/-- The offset of pixel `k` from the centre of `n` pixels of size `cell`. -/
noncomputable def centre (n : ℕ) (cell : ℝ) (k : ℤ) : ℝ := ((k - (n / 2 : ℕ) : ℤ) : ℝ) * cell

theorem pixelOf_eq (n : ℕ) (cell x : ℝ) : pixelOf n (x / cell) = .ok (pixelNumber n cell x) := by
  unfold pixelOf pixelNumber Scalar.roundInt
  simp only [Scalar.isNaN_real, Scalar.isFinite_real, Bool.not_true, Bool.false_eq_true, if_false]

/-- No pixel is nearer to an offset than the one with its number. -/
theorem abs_sub_centre_le {cell : ℝ} (hcell : 0 ≤ cell) (n : ℕ) (x : ℝ) (k : ℤ) :
    |x - centre n cell (pixelNumber n cell x)| ≤ |x - centre n cell k| := by
  have hnumber : centre n cell (pixelNumber n cell x) = Scalar.roundInt (x / cell) * cell := by
    rw [centre, pixelNumber, add_sub_cancel_right]
  rcases hcell.eq_or_lt with rfl | hpos
  · simp only [centre, mul_zero, le_refl]
  · have hscale : ∀ i : ℤ, |x - (i : ℝ) * cell| = |x / cell - i| * cell := by
      intro i
      rw [← abs_of_pos hpos, ← abs_mul, abs_of_pos hpos, sub_mul, div_mul_cancel₀ _ hpos.ne']
    rw [hnumber, centre, hscale, hscale]
    exact mul_le_mul_of_nonneg_right (Scalar.abs_sub_roundInt_le_abs_sub _ _) hcell

/-- A number denotes a position if it is not below minus the length of the axis and not above its
    end. -/
theorem position?_eq_some_iff {n p : ℕ} {k : ℤ} : position? n k = some p ↔
    -(n : ℤ) ≤ k ∧ p < n ∧ (0 ≤ k ∧ (p : ℤ) = k ∨ k < 0 ∧ (p : ℤ) = k + n) := by
  unfold position?
  split_ifs with hinside hend
  · rw [Option.some.injEq]
    omega
  · rw [Option.some.injEq]
    omega
  · refine ⟨False.elim, fun h => ?_⟩
    omega

theorem position?_eq_none_iff {n : ℕ} {k : ℤ} :
    position? n k = none ↔ k < -(n : ℤ) ∨ (n : ℤ) ≤ k := by
  rw [← Option.not_isSome_iff_eq_none, Option.isSome_iff_exists]
  simp only [position?_eq_some_iff]
  constructor
  · intro hnone
    by_contra hin
    refine hnone ⟨if 0 ≤ k then k.toNat else (k + n).toNat, ?_⟩
    split_ifs <;> omega
  · rintro hout ⟨p, hp⟩
    omega

/-! ## A spot of each raster -/

/-- Values added at one spot of each raster are seen there and nowhere else. -/
theorem view_foldl_modifyAt {β : Type} [Zero β] [Add β] (φ : β → ℂ)
    (hφ : ∀ x y, φ (x + y) = φ x + φ y) {lead : List ℕ} {ny nx row column : ℕ} (hrow : row < ny)
    (hcolumn : column < nx) (z : ℕ → β) (t : Tensor β) (hshape : t.shape = lead ++ [ny, nx])
    {index : List ℕ} (hindex : Tensor.Within lead index) {j i : ℕ} (hj : j < ny) (hi : i < nx) :
    φ (((List.range (volume lead)).foldl
        (fun t k => t.modifyAt (k * (ny * nx) + (row * nx + column)) (· + z k)) t).get
          (index ++ [j, i])) =
      φ (t.get (index ++ [j, i])) +
        if j = row ∧ i = column then φ (z (Tensor.offset lead index)) else 0 := by
  have hspot : Tensor.Within [ny, nx] [row, column] := Tensor.within_pair.2 ⟨hrow, hcolumn⟩
  -- in each raster this is a change at an index
  have hfold : ∀ (ks : List ℕ) (t : Tensor β), t.shape = lead ++ [ny, nx] →
      (∀ k ∈ ks, k < volume lead) →
      ks.foldl (fun t k => t.modifyAt (k * (ny * nx) + (row * nx + column)) (· + z k)) t =
        ks.foldl (fun t k => t.modify (Tensor.unravel lead k ++ [row, column]) (· + z k)) t := by
    intro ks
    induction ks with
    | nil => exact fun _ _ _ => rfl
    | cons k ks ih =>
      intro t ht hks
      obtain ⟨hwithin, hoffset⟩ := Tensor.offset_unravel (hks k List.mem_cons_self)
      have hstep : t.modify (Tensor.unravel lead k ++ [row, column]) (· + z k) =
          t.modifyAt (k * (ny * nx) + (row * nx + column)) (· + z k) := by
        rw [Tensor.modify, if_pos (ht ▸ Tensor.within_append hwithin hspot), ht,
          Tensor.offset_append hwithin hspot, hoffset, Tensor.volume_pair, Tensor.offset_pair]
      rw [List.foldl_cons, List.foldl_cons, hstep]
      exact ih _ (by rw [Tensor.shape_modifyAt, ht]) fun k' hk' =>
        hks k' (List.mem_cons_of_mem _ hk')
  have hplace : Tensor.Within t.shape (index ++ [j, i]) :=
    hshape ▸ Tensor.within_append hindex (Tensor.within_pair.2 ⟨hj, hi⟩)
  have hlt := Tensor.offset_lt hindex
  rw [hfold _ t hshape fun k hk => List.mem_range.1 hk,
    Tensor.view_foldl_modify φ hφ _ (fun k => Tensor.unravel lead k ++ [row, column]) z t hplace,
    sum_map_range, Finset.sum_eq_single_of_mem _ (Finset.mem_range.2 hlt)]
  · rw [Tensor.unravel_offset hindex]
    refine congrArg (_ + ·) (if_congr ?_ rfl rfl)
    rw [List.append_right_inj, List.cons.injEq, List.cons.injEq, and_iff_left rfl, eq_comm,
      eq_comm (a := column)]
  · intro k hk hne
    rw [if_neg]
    intro heq
    obtain ⟨hwithin, hoffset⟩ := Tensor.offset_unravel (Finset.mem_range.1 hk)
    have hlen : (Tensor.unravel lead k).length = index.length := by
      rw [Tensor.length_of_within hwithin, Tensor.length_of_within hindex]
    exact hne (by rw [← hoffset, (List.append_inj heq hlen).1])

/-- An image differs from another in one pixel of each raster, which has grown by a flux. -/
structure Brightened (im im' : Image ℝ) (lead : List ℕ) (ny nx row column : ℕ) (flux : ℝ) :
    Prop where
  /-- The axes are the same. -/
  shape : im'.shape = im.shape
  /-- The numbers are of one kind. -/
  kind : im'.kind = im.kind
  /-- The coordinates are the same. -/
  coordinates : im'.coordinates = im.coordinates
  /-- In each raster one pixel is changed. -/
  pixel : ∀ index, Tensor.Within lead index → ∀ j < ny, ∀ i < nx,
    (im'.pixels.toComplex.get (index ++ [j, i])).val =
      (im.pixels.toComplex.get (index ++ [j, i])).val +
      if j = row ∧ i = column then (flux : ℂ) else 0

/-- An array of one number, stretched to any axes. -/
theorem fluxes_scalar (s : Spot ℝ) (flux : ℝ) :
    ∃ t, s.fluxes (.scalar flux) = .ok t ∧ ∀ k < volume s.lead, t.data.getD k 0 = flux := by
  have hcommon : Tensor.commonShape? (Tensor.scalar flux).shape s.lead = some s.lead := by
    show Tensor.commonShape? [] s.lead = some s.lead
    unfold Tensor.commonShape?
    rw [List.reverse_nil, Tensor.commonReversed?, Option.map_some, List.reverse_reverse]
  refine ⟨Tensor.ofFn s.lead fun index =>
    (Tensor.scalar flux).get (Tensor.projectIndex (Tensor.scalar flux).shape index),
      ?_, fun k hk => ?_⟩
  · unfold Spot.fluxes Tensor.stretch?
    rw [if_pos hcommon]
  · rw [Array.getD_eq_getD_getElem?, Array.getElem?_eq_getElem (by rw [Tensor.size_data]; exact hk),
      Option.getD_some]
    simp only [Tensor.ofFn, Array.getElem_ofFn]
    rfl

theorem brighten_real (s : Spot ℝ) (t fluxes : Tensor ℝ) :
    s.brighten (.real t) fluxes = .real ((List.range (volume s.lead)).foldl
      (fun t k => t.modifyAt (k * (s.ny * s.nx) + (s.row * s.nx + s.column))
        (· + fluxes.data.getD k 0))
      t) :=
  List.foldl_hom Pixels.real fun _ _ => rfl

theorem brighten_complex (s : Spot ℝ) (t : Tensor (Cplx ℝ)) (fluxes : Tensor ℝ) :
    s.brighten (.complex t) fluxes = .complex ((List.range (volume s.lead)).foldl
      (fun t k => t.modifyAt (k * (s.ny * s.nx) + (s.row * s.nx + s.column))
        (· + Cplx.ofReal (fluxes.data.getD k 0))) t) :=
  List.foldl_hom Pixels.complex fun _ _ => rfl

/-- A flux added at a spot brightens the pixel there in each raster. -/
theorem brightened_brighten {im : Image ℝ} {s : Spot ℝ} (hshape : im.shape = s.lead ++ [s.ny, s.nx])
    (hrow : s.row < s.ny) (hcolumn : s.column < s.nx) {fluxes : Tensor ℝ} {flux : ℝ}
    (hfluxes : ∀ k < volume s.lead, fluxes.data.getD k 0 = flux) :
    im.Brightened { im with pixels := s.brighten im.pixels fluxes } s.lead s.ny s.nx s.row
      s.column flux := by
  obtain ⟨pixels, coordinates, storage⟩ := im
  cases pixels with
  | real t =>
    have hshape : t.shape = s.lead ++ [s.ny, s.nx] := hshape
    have hsame : ((List.range (volume s.lead)).foldl (fun t k =>
        t.modifyAt (k * (s.ny * s.nx) + (s.row * s.nx + s.column))
          (· + fluxes.data.getD k 0)) t).shape =
        t.shape := Tensor.shape_foldl (fun t _ => Tensor.shape_modifyAt t _ _) _ t
    refine ⟨?_, ?_, rfl, fun index hindex j hj i hi => ?_⟩
    · simp only [brighten_real]
      exact hsame
    · simp only [brighten_real]
      rfl
    · have hwithin : Tensor.Within t.shape (index ++ [j, i]) :=
        hshape ▸ Tensor.within_append hindex (Tensor.within_pair.2 ⟨hj, hi⟩)
      have hview := view_foldl_modifyAt (fun x : ℝ => (x : ℂ)) Complex.ofReal_add hrow hcolumn
        (fun k => fluxes.data.getD k 0) t hshape hindex hj hi
      simp only [brighten_real]
      rw [Pixels.val_toComplex_real (hsame ▸ hwithin), Pixels.val_toComplex_real hwithin, hview,
        hfluxes _ (Tensor.offset_lt hindex)]
  | complex t =>
    have hsame : ((List.range (volume s.lead)).foldl (fun t k =>
        t.modifyAt (k * (s.ny * s.nx) + (s.row * s.nx + s.column))
          (· + Cplx.ofReal (fluxes.data.getD k 0))) t).shape = t.shape :=
      Tensor.shape_foldl (fun t _ => Tensor.shape_modifyAt t _ _) _ t
    refine ⟨?_, ?_, rfl, fun index hindex j hj i hi => ?_⟩
    · simp only [brighten_complex]
      exact hsame
    · simp only [brighten_complex]
      rfl
    · have hview := view_foldl_modifyAt Cplx.val Cplx.val_add hrow hcolumn
        (fun k => Cplx.ofReal (fluxes.data.getD k 0)) t hshape hindex hj hi
      simp only [brighten_complex]
      refine hview.trans ?_
      rw [hfluxes _ (Tensor.offset_lt hindex), Cplx.val_ofReal]
      rfl

/-! ## Sources in images -/

section Insert

variable {im : Image ℝ} {c : WorldCoordinates ℝ} {lead : List ℕ} {ny nx : ℕ}

/-- The pixel of a direction, if its numbers denote a position. -/
theorem spot_eq (hc : im.coordinates = some c) (hshape : im.shape = lead ++ [ny, nx]) (l m : ℝ) :
    im.spot l m = match position? ny (pixelNumber ny c.pixelSize.2 m),
        position? nx (pixelNumber nx c.pixelSize.1 l) with
      | some y, some x =>
        .ok ⟨lead, ny, nx, y, x, centre nx c.pixelSize.1 (pixelNumber nx c.pixelSize.1 l),
          centre ny c.pixelSize.2 (pixelNumber ny c.pixelSize.2 m)⟩
      | _, _ => .error .index := by
  unfold spot
  rw [hc, hshape, Tensor.lastTwo?_append]
  simp only [pixelOf_eq, bind, Except.bind]
  cases position? ny (pixelNumber ny c.pixelSize.2 m) with
  | none => rfl
  | some y => cases position? nx (pixelNumber nx c.pixelSize.1 l) <;> rfl

/-- A number that denotes no position is refused. -/
theorem insertPointSource_refused (hc : im.coordinates = some c)
    (hshape : im.shape = lead ++ [ny, nx]) {l m : ℝ} (flux : Tensor ℝ)
    (h : position? ny (pixelNumber ny c.pixelSize.2 m) = none ∨
      position? nx (pixelNumber nx c.pixelSize.1 l) = none) :
    im.insertPointSource l m flux = .error .index := by
  unfold insertPointSource
  rw [spot_eq hc hshape]
  rcases h with hrow | hcolumn
  · rw [hrow]
    rfl
  · rw [hcolumn]
    split
    · rename_i hsome
      cases hsome
    · rfl

/-- Where both numbers denote a position, the pixel there is brightened, and the direction returned
    is that of the numbers. -/
theorem exists_insertPointSource (hc : im.coordinates = some c)
    (hshape : im.shape = lead ++ [ny, nx]) {l m : ℝ} (flux : ℝ) {y x : ℕ}
    (hy : position? ny (pixelNumber ny c.pixelSize.2 m) = some y)
    (hx : position? nx (pixelNumber nx c.pixelSize.1 l) = some x) :
    ∃ im', im.insertPointSource l m (.scalar flux) =
        .ok (im', centre nx c.pixelSize.1 (pixelNumber nx c.pixelSize.1 l),
          centre ny c.pixelSize.2 (pixelNumber ny c.pixelSize.2 m)) ∧
      im.Brightened im' lead ny nx y x flux := by
  obtain ⟨-, hylt, -⟩ := position?_eq_some_iff.1 hy
  obtain ⟨-, hxlt, -⟩ := position?_eq_some_iff.1 hx
  have hspot := spot_eq hc hshape l m
  simp only [hy, hx] at hspot
  obtain ⟨fluxes, hfluxes, hvalue⟩ := fluxes_scalar
    ⟨lead, ny, nx, y, x, centre nx c.pixelSize.1 (pixelNumber nx c.pixelSize.1 l),
      centre ny c.pixelSize.2 (pixelNumber ny c.pixelSize.2 m)⟩ flux
  refine ⟨_, ?_, brightened_brighten hshape hylt hxlt hvalue⟩
  unfold insertPointSource
  rw [hspot]
  simp only [bind, Except.bind, hfluxes]
  rfl

/-- A point source is refused if a pixel number is below minus the length of its axis, or not below
    the length. Otherwise one pixel is changed, by the flux, in every raster, and the direction
    returned is that of the pixel numbers, to which no pixel is nearer. The pixel that is changed
    has these numbers, where they are not negative; a negative number counts from the end of its
    axis. -/
theorem point_source_lands (hc : im.coordinates = some c) (hshape : im.shape = lead ++ [ny, nx])
    (l m flux : ℝ) :
    (im.insertPointSource l m (.scalar flux) = .error .index ∧
      (pixelNumber ny c.pixelSize.2 m < -(ny : ℤ) ∨ (ny : ℤ) ≤ pixelNumber ny c.pixelSize.2 m ∨
        pixelNumber nx c.pixelSize.1 l < -(nx : ℤ) ∨ (nx : ℤ) ≤ pixelNumber nx c.pixelSize.1 l)) ∨
    ∃ im', ∃ y < ny, ∃ x < nx,
      im.insertPointSource l m (.scalar flux) =
        .ok (im', centre nx c.pixelSize.1 (pixelNumber nx c.pixelSize.1 l),
          centre ny c.pixelSize.2 (pixelNumber ny c.pixelSize.2 m)) ∧
      im.Brightened im' lead ny nx y x flux ∧
      (∀ i : ℤ, |l - centre nx c.pixelSize.1 (pixelNumber nx c.pixelSize.1 l)| ≤
        |l - centre nx c.pixelSize.1 i|) ∧
      (∀ j : ℤ, |m - centre ny c.pixelSize.2 (pixelNumber ny c.pixelSize.2 m)| ≤
        |m - centre ny c.pixelSize.2 j|) ∧
      (0 ≤ pixelNumber ny c.pixelSize.2 m ∧ (y : ℤ) = pixelNumber ny c.pixelSize.2 m ∨
        pixelNumber ny c.pixelSize.2 m < 0 ∧ (y : ℤ) = pixelNumber ny c.pixelSize.2 m + ny) ∧
      (0 ≤ pixelNumber nx c.pixelSize.1 l ∧ (x : ℤ) = pixelNumber nx c.pixelSize.1 l ∨
        pixelNumber nx c.pixelSize.1 l < 0 ∧ (x : ℤ) = pixelNumber nx c.pixelSize.1 l + nx) := by
  have hsizes : 0 ≤ c.pixelSize.1 ∧ 0 ≤ c.pixelSize.2 := by
    simp only [WorldCoordinates.pixelSize, Scalar.abs_real, abs_nonneg, and_self]
  cases hy : position? ny (pixelNumber ny c.pixelSize.2 m) with
  | none =>
    have hout := position?_eq_none_iff.1 hy
    exact .inl ⟨insertPointSource_refused hc hshape _ (.inl hy), by omega⟩
  | some y =>
    cases hx : position? nx (pixelNumber nx c.pixelSize.1 l) with
    | none =>
      have hout := position?_eq_none_iff.1 hx
      exact .inl ⟨insertPointSource_refused hc hshape _ (.inr hx), by omega⟩
    | some x =>
      obtain ⟨-, hylt, hycases⟩ := position?_eq_some_iff.1 hy
      obtain ⟨-, hxlt, hxcases⟩ := position?_eq_some_iff.1 hx
      obtain ⟨im', hinsert, hbright⟩ := exists_insertPointSource hc hshape flux hy hx
      exact .inr ⟨im', y, hylt, x, hxlt, hinsert, hbright, abs_sub_centre_le hsizes.1 nx l,
        abs_sub_centre_le hsizes.2 ny m, hycases, hxcases⟩

end Insert

/-! ## Four pixels on each side -/

/-- Coordinates of four by four pixels of one radian. -/
noncomputable def radians : WorldCoordinates ℝ where
  longitude := ⟨"RA---SIN", (4 / 2 + 1 : ℕ), 15, WorldCoordinates.toDegrees 1⟩
  latitude := ⟨"DEC--SIN", (4 / 2 + 1 : ℕ), -35, WorldCoordinates.toDegrees 1⟩
  polarisation := ⟨"STOKES", 1, 1, 1⟩
  spectral := ⟨"FREQ", 1, 100000000, 1000000⟩

/-- An empty image of four by four pixels of one radian. -/
noncomputable def fourPixels : Image ℝ where
  pixels := .real (Tensor.fill [1, 1, 4, 4] 0)
  coordinates := some radians

theorem shape_fourPixels : fourPixels.shape = [1, 1] ++ [4, 4] := rfl

theorem pixelSize_radians : radians.pixelSize = (1, 1) := by
  have hback : WorldCoordinates.toRadians (WorldCoordinates.toDegrees (1 : ℝ)) = 1 := by
    have hpi : (Scalar.pi : ℝ) ≠ 0 := Real.pi_ne_zero
    unfold WorldCoordinates.toRadians WorldCoordinates.toDegrees
    field_simp
  unfold WorldCoordinates.pixelSize radians
  simp only [hback, Scalar.abs_real, abs_one]

theorem get_fourPixels {j i : ℕ} (hj : j < 4) (hi : i < 4) :
    (fourPixels.pixels.toComplex.get [0, 0, j, i]).val = 0 := by
  have hwithin : Tensor.Within (Tensor.fill [1, 1, 4, 4] (0 : ℝ)).shape [0, 0, j, i] :=
    ⟨Nat.zero_lt_one, Nat.zero_lt_one, hj, hi, trivial⟩
  rw [fourPixels, Pixels.val_toComplex_real hwithin, Tensor.get_fill_zero, Complex.ofReal_zero]

/-- Two fifths of a pixel from the centre of the columns, and one row above that of the rows. -/
theorem point_source_lands_fourPixels : fourPixels.coordinates = some radians ∧
    fourPixels.shape = [1, 1] ++ [4, 4] ∧
    ∃ im', fourPixels.insertPointSource (2 / 5) 1 (.scalar 3) = .ok (im', 0, 1) ∧
      fourPixels.Brightened im' [1, 1] 4 4 3 2 3 ∧
      (∀ i : ℤ, |(2 / 5 : ℝ) - 0| ≤ |2 / 5 - centre 4 1 i|) := by
  have hcolumn : Scalar.roundInt (2 / 5 / 1 : ℝ) = 0 :=
    Scalar.roundInt_unique (by norm_num [abs_le]) fun _ => Even.zero
  have hrow : Scalar.roundInt (1 / 1 : ℝ) = 1 := by
    rw [div_one]
    exact_mod_cast Scalar.roundInt_intCast 1
  have hcoordinates : fourPixels.coordinates = some radians := rfl
  have h := point_source_lands hcoordinates shape_fourPixels (2 / 5) 1 3
  simp only [pixelSize_radians, pixelNumber, hcolumn, hrow] at h
  obtain ⟨-, hout⟩ | ⟨im', y, hy, x, hx, hinsert, hbright, hnear, -, hycases, hxcases⟩ := h
  · omega
  · obtain rfl : y = 3 := by omega
    obtain rfl : x = 2 := by omega
    have hl : centre 4 1 (0 + ((4 / 2 : ℕ) : ℤ)) = 0 := by norm_num [centre]
    have hm : centre 4 1 (1 + ((4 / 2 : ℕ) : ℤ)) = 1 := by norm_num [centre]
    rw [hl, hm] at hinsert
    rw [hl] at hnear
    exact ⟨hcoordinates, shape_fourPixels, im', hinsert, hbright, hnear⟩

/-- One pixel beyond the first column, the flux is added to the last column, and the direction
    returned is that of no pixel. -/
theorem point_source_across_border : ∃ im',
    fourPixels.insertPointSource (-3) 0 (.scalar 1) = .ok (im', -3, 0) ∧
      (fourPixels.pixels.toComplex.get [0, 0, 2, 3]).val = 0 ∧
      (im'.pixels.toComplex.get [0, 0, 2, 3]).val = 1 ∧
      ∀ x < 4, centre 4 1 (x : ℕ) ≠ -3 := by
  have hcolumn : Scalar.roundInt (-3 / 1 : ℝ) = -3 := by
    rw [div_one]
    exact_mod_cast Scalar.roundInt_intCast (-3)
  have hrow : Scalar.roundInt (0 / 1 : ℝ) = 0 := by
    rw [div_one]
    exact_mod_cast Scalar.roundInt_intCast 0
  have hcoordinates : fourPixels.coordinates = some radians := rfl
  have hy : position? 4 (pixelNumber 4 radians.pixelSize.2 0) = some 2 := by
    rw [pixelSize_radians, pixelNumber, hrow]
    rfl
  have hx : position? 4 (pixelNumber 4 radians.pixelSize.1 (-3)) = some 3 := by
    rw [pixelSize_radians, pixelNumber, hcolumn]
    rfl
  obtain ⟨im', hinsert, hbright⟩ := exists_insertPointSource hcoordinates shape_fourPixels 1 hy hx
  refine ⟨im', ?_, get_fourPixels (by decide) (by decide), ?_, fun x _ => ?_⟩
  · have hl : centre 4 1 (-3 + ((4 / 2 : ℕ) : ℤ)) = -3 := by norm_num [centre]
    have hm : centre 4 1 (0 + ((4 / 2 : ℕ) : ℤ)) = 0 := by norm_num [centre]
    rw [pixelSize_radians, pixelNumber, pixelNumber, hcolumn, hrow, hl, hm] at hinsert
    exact hinsert
  · have hpixel :=
      hbright.pixel [0, 0] ⟨Nat.zero_lt_one, Nat.zero_lt_one, trivial⟩ 2 (by decide) 3 (by decide)
    rw [if_pos ⟨rfl, rfl⟩] at hpixel
    refine hpixel.trans ?_
    have hempty := get_fourPixels (j := 2) (i := 3) (by decide) (by decide)
    show (fourPixels.pixels.toComplex.get [0, 0, 2, 3]).val + ((1 : ℝ) : ℂ) = 1
    rw [hempty, zero_add, Complex.ofReal_one]
  · have hlow : (-2 : ℝ) ≤ centre 4 1 (x : ℕ) := by
      unfold centre
      push_cast
      have hnonneg : (0 : ℝ) ≤ x := Nat.cast_nonneg x
      norm_num
    linarith

end ApertureSynthesis.Image
