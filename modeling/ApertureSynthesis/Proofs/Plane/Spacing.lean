/-
  The w planes as points of an even scale.

  A w has a place on a scale from -1 to 1: its share of the greatest w for linear spacing, the
  signed square root of that share for quadratic spacing (`evenScale`). The planes are evenly spaced
  there (`position`), and their own w is what the scale takes back (`wAt`). Rounding to the nearest
  of evenly spaced points, the upper of two equally near, is a floor; cut off at the first and last
  plane it is still the nearest of the planes that there are (`nearest_of_floor`).

  Main statement: `indices_nearest`. The planes of an array of w are the nearest on the even scale,
  in the order of the w, and the plane of the w of a plane is that plane. What is counted as beyond
  the range is what exceeds the greatest w by more than the tolerance.
-/
import Mathlib
import ApertureSynthesis.Plane.Spacing
import ApertureSynthesis.Proofs.Exact
import ApertureSynthesis.Proofs.Outcome
import ApertureSynthesis.Proofs.Tensor

namespace ApertureSynthesis.Plane

/-! ## The even scale -/

/-- The place of a w on the scale on which planes are evenly spaced, for a greatest w at 1. -/
noncomputable def evenScale (spacing : Spacing) (wmax w : ℝ) : ℝ :=
  match spacing with
  | .linear => w / wmax
  | .quadratic => SignType.sign w * √(|w| / wmax)

/-- The place of plane `p` of `n` on the even scale. -/
noncomputable def position (n p : ℤ) : ℝ := (p - centre n) / centre n

/-- The w at a place of the even scale. -/
noncomputable def wAt (spacing : Spacing) (wmax x : ℝ) : ℝ :=
  match spacing with
  | .linear => wmax * x
  | .quadratic => wmax * (x * |x|)

theorem centre_real (n : ℤ) : (centre n : ℝ) = (n - 1) / 2 := by
  unfold centre
  rw [Scalar.two_literal]
  push_cast
  rfl

theorem position_eq (n p : ℤ) : position n p = (p - (n - 1) / 2) / ((n - 1) / 2) := by
  rw [position, centre_real]

theorem sign_real (x : ℝ) : Scalar.sign x = (SignType.sign x : ℝ) := by
  unfold Scalar.sign
  rcases lt_trichotomy x 0 with hneg | rfl | hpos
  · rw [if_pos hneg, sign_neg hneg]
    rfl
  · simp
  · rw [if_neg hpos.le.not_gt, if_pos hpos, sign_pos hpos]
    rfl

theorem strictMono_mul_abs : StrictMono fun x : ℝ => x * |x| := by
  intro x y hxy
  show x * |x| < y * |y|
  rcases le_total 0 x with hx | hx
  · rw [abs_of_nonneg hx, abs_of_nonneg (hx.trans hxy.le)]
    nlinarith
  · rw [abs_of_nonpos hx]
    rcases le_total 0 y with hy | hy
    · rw [abs_of_nonneg hy]
      rcases hy.eq_or_lt with rfl | hy
      · nlinarith
      · nlinarith
    · rw [abs_of_nonpos hy]
      nlinarith

section Scale

variable {spacing : Spacing} {wmax : ℝ}

theorem wAt_strictMono (spacing : Spacing) (hwmax : 0 < wmax) : StrictMono (wAt spacing wmax) := by
  intro x y hxy
  cases spacing with
  | linear => exact mul_lt_mul_of_pos_left hxy hwmax
  | quadratic => exact mul_lt_mul_of_pos_left (strictMono_mul_abs hxy) hwmax

theorem wAt_neg (x : ℝ) : wAt spacing wmax (-x) = -wAt spacing wmax x := by
  cases spacing with
  | linear => exact mul_neg _ _
  | quadratic =>
    unfold wAt
    rw [abs_neg]
    ring

theorem wAt_one : wAt spacing wmax 1 = wmax := by
  cases spacing <;> simp [wAt]

/-- The w at the place of a w is that w, -/
theorem wAt_evenScale (hwmax : 0 < wmax) (w : ℝ) :
    wAt spacing wmax (evenScale spacing wmax w) = w := by
  cases spacing with
  | linear => exact mul_div_cancel₀ w hwmax.ne'
  | quadratic =>
    have hshare : 0 ≤ |w| / wmax := by positivity
    have hroot : √(|w| / wmax) * √(|w| / wmax) = |w| / wmax := Real.mul_self_sqrt hshare
    have hsign : (SignType.sign w : ℝ) * |(SignType.sign w : ℝ)| * |w| = w := by
      rcases lt_trichotomy w 0 with hw | rfl | hw
      · simp [sign_neg hw, abs_of_neg hw]
      · simp
      · simp [sign_pos hw, abs_of_pos hw]
    unfold wAt evenScale
    rw [abs_mul, abs_of_nonneg (Real.sqrt_nonneg _)]
    calc wmax * (SignType.sign w * √(|w| / wmax) * (|(SignType.sign w : ℝ)| * √(|w| / wmax)))
        = SignType.sign w * |(SignType.sign w : ℝ)| * (wmax * (√(|w| / wmax) * √(|w| / wmax))) := by
          ring
      _ = w := by rw [hroot, mul_div_cancel₀ _ hwmax.ne', hsign]

/-- and the place of the w at a place is that place. -/
theorem evenScale_wAt (hwmax : 0 < wmax) (x : ℝ) :
    evenScale spacing wmax (wAt spacing wmax x) = x :=
  (wAt_strictMono spacing hwmax).injective (wAt_evenScale hwmax _)

theorem evenScale_strictMono (hwmax : 0 < wmax) : StrictMono (evenScale spacing wmax) := by
  intro w w' hlt
  rw [← (wAt_strictMono spacing hwmax).lt_iff_lt, wAt_evenScale hwmax, wAt_evenScale hwmax]
  exact hlt

/-- A w within the range of the planes has a place between -1 and 1. -/
theorem evenScale_mem_Icc (spacing : Spacing) (hwmax : 0 < wmax) {w : ℝ} (hw : |w| ≤ wmax) :
    evenScale spacing wmax w ∈ Set.Icc (-1) 1 := by
  have hmono := wAt_strictMono spacing hwmax
  obtain ⟨hlow, hhigh⟩ := abs_le.1 hw
  constructor
  · rw [← hmono.le_iff_le, wAt_evenScale hwmax, wAt_neg, wAt_one]
    exact hlow
  · rw [← hmono.le_iff_le, wAt_evenScale hwmax, wAt_one]
    exact hhigh

end Scale

/-! ## The nearest of evenly spaced points -/

/-- Rounding half up, cut off at both ends, gives the nearest of the numbers below `n`, and the
    greater of two equally near. -/
theorem nearest_of_floor (n : ℤ) (y : ℝ) :
    ∀ q, 0 ≤ q → q < n →
      |y - (min (max ⌊y + 1 / 2⌋ 0) (n - 1) : ℤ)| ≤ |y - q| ∧
      (|y - (min (max ⌊y + 1 / 2⌋ 0) (n - 1) : ℤ)| = |y - q| →
        q ≤ min (max ⌊y + 1 / 2⌋ 0) (n - 1)) := by
  intro q hq hqn
  set r := ⌊y + 1 / 2⌋ with hr
  have hlow : (r : ℝ) ≤ y + 1 / 2 := Int.floor_le _
  have hhigh : y + 1 / 2 < r + 1 := Int.lt_floor_add_one _
  set p := min (max r 0) (n - 1) with hp
  rcases lt_trichotomy q p with hlt | rfl | hgt
  · -- `p` is not above `r`, since a number below it is not below zero
    have hpr : (p : ℝ) ≤ r := by exact_mod_cast (by omega : p ≤ r)
    have hqp : (q : ℝ) + 1 ≤ p := by exact_mod_cast (by omega : q + 1 ≤ p)
    refine ⟨?_, fun _ => hlt.le⟩
    rw [abs_of_nonneg (by linarith : 0 ≤ y - q), abs_le]
    exact ⟨by linarith, by linarith⟩
  · exact ⟨le_rfl, fun _ => le_rfl⟩
  · -- `p` is not below `r`, since a number above it is below `n`
    have hrp : (r : ℝ) ≤ p := by exact_mod_cast (by omega : r ≤ p)
    have hpq : (p : ℝ) + 1 ≤ q := by exact_mod_cast (by omega : p + 1 ≤ q)
    have hnear : |y - p| < |y - q| := by
      rw [abs_of_nonpos (by linarith : y - q ≤ 0), abs_lt]
      exact ⟨by linarith, by linarith⟩
    exact ⟨hnear.le, fun heq => absurd heq hnear.ne⟩

/-! ## Planes and their w -/

/-- Plane `p` of `n` is nearest to a w on the even scale, and the upper of two equally near. -/
structure IsNearest (spacing : Spacing) (wmax : ℝ) (n : ℤ) (w : ℝ) (p : ℤ) : Prop where
  /-- The plane is one of the planes. -/
  within : 0 ≤ p ∧ p < n
  /-- No plane is nearer. -/
  least : ∀ q, 0 ≤ q → q < n →
    |evenScale spacing wmax w - position n p| ≤ |evenScale spacing wmax w - position n q|
  /-- A plane that is as near is not above it. -/
  upper : ∀ q, 0 ≤ q → q < n →
    |evenScale spacing wmax w - position n p| = |evenScale spacing wmax w - position n q| → q ≤ p

section Planes

variable {spacing : Spacing} {wmax : ℝ} {n : ℤ}

theorem scaled_real (hwmax : 0 < wmax) (w : ℝ) :
    scaled spacing wmax w = evenScale spacing wmax w := by
  cases spacing with
  | linear => rfl
  | quadratic =>
    have hsign : SignType.sign (w / wmax) = SignType.sign w := by
      rw [div_eq_mul_inv, sign_mul, sign_pos (inv_pos.2 hwmax), mul_one]
    unfold scaled evenScale
    simp only [sign_real, Scalar.abs_real, hsign, abs_div, abs_of_pos hwmax]
    rfl

theorem wOf_real (p : ℕ) : wOf spacing wmax (centre n) p = wAt spacing wmax (position n p) := by
  rw [position_eq]
  unfold wOf
  rw [centre_real]
  cases spacing with
  | linear => rfl
  | quadratic =>
    simp only [sign_real, Scalar.sq_real, wAt, Int.cast_natCast]
    set x := ((p : ℝ) - (n - 1) / 2) / ((n - 1) / 2)
    calc wmax * (SignType.sign x : ℝ) * x ^ 2 = wmax * (SignType.sign x * |x| * |x|) := by
          rw [← sq_abs]
          ring
      _ = wmax * (x * |x|) := by rw [sign_mul_abs]

/-- Half the distance between the first and last of two or more planes is not zero. -/
theorem half_pos (htwo : 2 ≤ n) : 0 < ((n : ℝ) - 1) / 2 := by
  have : (2 : ℝ) ≤ n := by exact_mod_cast htwo
  linarith

/-- Distances on the even scale are distances of plane numbers, in units of half the range. -/
theorem abs_sub_position (htwo : 2 ≤ n) (x : ℝ) (q : ℤ) :
    |x - position n q| = |((n - 1) / 2 + (n - 1) / 2 * x) - q| / ((n - 1) / 2) := by
  have hc := half_pos htwo
  have hunits : x - position n q = ((n - 1) / 2 + (n - 1) / 2 * x - q) / ((n - 1) / 2) := by
    rw [eq_div_iff hc.ne', position_eq, sub_mul, div_mul_cancel₀ _ hc.ne']
    ring
  rw [hunits, abs_div, abs_of_pos hc]

theorem index_real (hwmax : 0 < wmax) (htwo : 2 ≤ n) (w : ℝ) :
    index spacing wmax n w =
      min (max ⌊((n : ℝ) - 1) / 2 + (n - 1) / 2 * evenScale spacing wmax w + 1 / 2⌋ 0) (n - 1) := by
  have hhalf : (0.5 : ℝ) = 1 / 2 := by norm_num
  unfold index
  rw [if_neg (by omega), Scalar.floorInt_real, centre_real, scaled_real hwmax, hhalf]

/-- The plane of a w is nearest to it. -/
theorem isNearest_index (hwmax : 0 < wmax) (htwo : 2 ≤ n) (w : ℝ) :
    IsNearest spacing wmax n w (index spacing wmax n w) := by
  have hc := half_pos htwo
  have hnear := nearest_of_floor n ((n - 1) / 2 + (n - 1) / 2 * evenScale spacing wmax w)
  rw [index_real hwmax htwo]
  refine ⟨by omega, ?_, ?_⟩
  · intro q hq hqn
    rw [abs_sub_position htwo, abs_sub_position htwo]
    exact div_le_div_of_nonneg_right (hnear q hq hqn).1 hc.le
  · intro q hq hqn heq
    rw [abs_sub_position htwo, abs_sub_position htwo, div_left_inj' hc.ne'] at heq
    exact (hnear q hq hqn).2 heq

theorem index_monotone (hwmax : 0 < wmax) (htwo : 2 ≤ n) : Monotone (index spacing wmax n) := by
  intro w w' hle
  have hc := half_pos htwo
  have hscale : evenScale spacing wmax w ≤ evenScale spacing wmax w' :=
    (evenScale_strictMono hwmax).monotone hle
  rw [index_real hwmax htwo, index_real hwmax htwo]
  gcongr

theorem level_position (htwo : 2 ≤ n) (p : ℤ) :
    ((n : ℝ) - 1) / 2 + (n - 1) / 2 * position n p = p := by
  rw [position_eq, mul_div_cancel₀ _ (half_pos htwo).ne']
  ring

theorem position_strictMono (htwo : 2 ≤ n) : StrictMono (position n) := by
  intro p q hlt
  have hcast : (p : ℝ) < q := by exact_mod_cast hlt
  rw [position_eq, position_eq]
  exact div_lt_div_of_pos_right (by linarith) (half_pos htwo)

/-- The planes lie symmetrically about zero. -/
theorem position_mirror (p : ℤ) : position n (n - 1 - p) = -position n p := by
  rw [position_eq, position_eq]
  push_cast
  rw [← neg_div]
  ring

/-- The w of a plane is mapped to that plane. -/
theorem index_wAt_position (hwmax : 0 < wmax) (htwo : 2 ≤ n) {p : ℤ} (hp : 0 ≤ p ∧ p < n) :
    index spacing wmax n (wAt spacing wmax (position n p)) = p := by
  rw [index_real hwmax htwo, evenScale_wAt hwmax, level_position htwo]
  have hround : ⌊(p : ℝ) + 1 / 2⌋ = p := by
    rw [Int.floor_intCast_add, Int.floor_eq_zero_iff.2 ⟨by norm_num, by norm_num⟩, add_zero]
  rw [hround]
  omega

theorem values_real (htwo : 2 ≤ n) :
    values spacing wmax n =
      (List.range n.toNat).map fun p : ℕ => wAt spacing wmax (position n p) := by
  unfold values
  rw [if_neg (by omega)]
  exact List.map_congr_left fun p _ => wOf_real p

/-- The w of planes rises with their number. -/
theorem values_increasing (hwmax : 0 < wmax) (htwo : 2 ≤ n) :
    (values spacing wmax n).Pairwise (· < ·) := by
  rw [values_real htwo, List.pairwise_map]
  refine List.pairwise_lt_range.imp ?_
  intro p q hlt
  exact wAt_strictMono spacing hwmax (position_strictMono htwo (by exact_mod_cast hlt))

theorem getElem?_values (htwo : 2 ≤ n) {p : ℕ} (hp : (p : ℤ) < n) :
    (values spacing wmax n)[p]? = some (wAt spacing wmax (position n p)) := by
  rw [values_real htwo, List.getElem?_map, List.getElem?_range (by omega)]
  rfl

/-- The w of the planes, from the last to the first, are the opposite w. -/
theorem values_reverse (htwo : 2 ≤ n) :
    (values spacing wmax n).reverse = (values spacing wmax n).map (-·) := by
  rw [values_real htwo]
  refine List.ext_getElem (by simp) ?_
  intro i hi _
  have hin : i < n.toNat := by simpa using hi
  have hmirror : ((n.toNat - 1 - i : ℕ) : ℤ) = n - 1 - i := by omega
  simp only [List.getElem_reverse, List.getElem_map, List.getElem_range, List.length_map,
    List.length_range, hmirror, position_mirror, wAt_neg]

/-- At the same distance from both ends the w are opposite, also that of a single plane. -/
theorem exists_opposite (spacing : Spacing) (wmax : ℝ) (hn : 0 < n) {p : ℕ} (hp : p < n.toNat) :
    ∃ w, (values spacing wmax n)[p]? = some w ∧
      (values spacing wmax n)[n.toNat - 1 - p]? = some (-w) := by
  rcases (by omega : n = 1 ∨ 2 ≤ n) with rfl | htwo
  · obtain rfl : p = 0 := by omega
    exact ⟨0, rfl, by rw [neg_zero]; rfl⟩
  · have hmirror : ((n.toNat - 1 - p : ℕ) : ℤ) = n - 1 - p := by omega
    refine ⟨_, getElem?_values htwo (by omega), ?_⟩
    rw [getElem?_values htwo (by omega), hmirror, position_mirror, wAt_neg]

/-- The planes of the w of all planes are all planes, in order. -/
theorem map_index_values (hwmax : 0 < wmax) (htwo : 2 ≤ n) :
    (values spacing wmax n).map (index spacing wmax n) =
      (List.range n.toNat).map fun p : ℕ => (p : ℤ) := by
  rw [values_real htwo, List.map_map]
  refine List.map_congr_left ?_
  intro p hp
  exact index_wAt_position hwmax htwo ⟨by omega, by have := List.mem_range.1 hp; omega⟩

/-- No plane has a greater w than the greatest. -/
theorem abs_le_of_mem_values (hwmax : 0 < wmax) (htwo : 2 ≤ n) {w : ℝ}
    (hw : w ∈ values spacing wmax n) : |w| ≤ wmax := by
  rw [values_real htwo, List.mem_map] at hw
  obtain ⟨p, hp, rfl⟩ := hw
  have hlast : position n (n - 1) = 1 := by
    rw [position_eq, div_eq_one_iff_eq (half_pos htwo).ne']
    push_cast
    ring
  have hplace : ∀ q : ℤ, q ≤ n - 1 → wAt spacing wmax (position n q) ≤ wmax := by
    intro q hq
    calc wAt spacing wmax (position n q) ≤ wAt spacing wmax (position n (n - 1)) :=
          (wAt_strictMono spacing hwmax).monotone ((position_strictMono htwo).monotone hq)
      _ = wmax := by rw [hlast, wAt_one]
  have hpn := List.mem_range.1 hp
  have hopposite := hplace (n - 1 - p) (by omega)
  rw [position_mirror, wAt_neg] at hopposite
  exact abs_le.2 ⟨by linarith, hplace p (by omega)⟩

/-- A w within the range lies between the w of two neighbouring planes, and its plane is one of
    them. -/
theorem exists_bracket (hwmax : 0 < wmax) (htwo : 2 ≤ n) {w : ℝ} (hw : |w| ≤ wmax) :
    ∃ (a : ℕ) (low high : ℝ), (values spacing wmax n)[a]? = some low ∧
      (values spacing wmax n)[a + 1]? = some high ∧ low ≤ w ∧ w ≤ high ∧
      (index spacing wmax n w = a ∨ index spacing wmax n w = a + 1) := by
  have hc := half_pos htwo
  obtain ⟨hlow, hhigh⟩ := evenScale_mem_Icc spacing hwmax hw
  have hindex : index spacing wmax n w = _ := index_real hwmax htwo w
  set x := evenScale spacing wmax w with hx
  set y := ((n : ℝ) - 1) / 2 + (n - 1) / 2 * x with hy
  have hy0 : 0 ≤ y := by nlinarith
  have hyn : y ≤ (n - 1 : ℤ) := by push_cast; nlinarith
  -- the interval between planes that holds the place; the last one holds its upper end as well
  set a := min ⌊y⌋ (n - 2) with ha
  have ha0 : 0 ≤ a := by
    have := Int.floor_nonneg.2 hy0
    omega
  have hay : (a : ℝ) ≤ y :=
    (by exact_mod_cast min_le_left _ _ : (a : ℝ) ≤ ⌊y⌋).trans (Int.floor_le y)
  have hya : y ≤ a + 1 := by
    rcases le_total ⌊y⌋ (n - 2) with h | h
    · rw [ha, min_eq_left h]
      exact (Int.lt_floor_add_one y).le
    · rw [ha, min_eq_right h]
      refine hyn.trans ?_
      push_cast
      linarith
  have hplaces : position n a ≤ x ∧ x ≤ position n (a + 1) := by
    have ha' := level_position htwo a
    have hb' := level_position htwo (a + 1)
    push_cast at hb'
    constructor
    · nlinarith
    · nlinarith
  have hcast : (a.toNat : ℤ) = a := Int.toNat_of_nonneg ha0
  refine ⟨a.toNat, _, _, getElem?_values htwo (by omega),
    getElem?_values htwo (by push_cast; omega), ?_, ?_, ?_⟩
  · rw [hcast]
    calc wAt spacing wmax (position n a) ≤ wAt spacing wmax x :=
          (wAt_strictMono spacing hwmax).monotone hplaces.1
      _ = w := wAt_evenScale hwmax w
  · push_cast
    rw [hcast]
    calc w = wAt spacing wmax x := (wAt_evenScale hwmax w).symm
      _ ≤ wAt spacing wmax (position n (a + 1)) := (wAt_strictMono spacing hwmax).monotone hplaces.2
  · have hfloor : a ≤ ⌊y + 1 / 2⌋ := Int.le_floor.2 (by linarith)
    have hfloor' : ⌊y + 1 / 2⌋ < a + 2 := Int.floor_lt.2 (by push_cast; linarith)
    rw [hindex, hcast]
    omega

/-- The w of some planes, and the plane of each w, fit together: a w goes to the nearest plane, the
    upper of two equally near, in the order of the w, and the w of a plane to that plane. -/
structure Fits (spacing : Spacing) (wmax : ℝ) (n : ℤ) (ws : List ℝ) (plane : ℝ → ℤ) : Prop where
  /-- The plane of a w is the nearest on the even scale. -/
  nearest : ∀ w, IsNearest spacing wmax n w (plane w)
  /-- A greater w has no lower plane. -/
  monotone : Monotone plane
  /-- The w of planes rise with their number. -/
  increasing : ws.Pairwise (· < ·)
  /-- The w from the last plane to the first are the opposite w. -/
  antisymmetric : ws.reverse = ws.map (-·)
  /-- The planes of the w of the planes are the planes, in order. -/
  inverse : ws.map plane = (List.range n.toNat).map fun p : ℕ => (p : ℤ)
  /-- A w in the range lies between those of two neighbouring planes, and its plane is one of the
      two. -/
  bracketed : ∀ w, |w| ≤ wmax → ∃ (a : ℕ) (low high : ℝ), ws[a]? = some low ∧
    ws[a + 1]? = some high ∧ low ≤ w ∧ w ≤ high ∧ (plane w = a ∨ plane w = a + 1)

theorem fits_values (hwmax : 0 < wmax) (htwo : 2 ≤ n) :
    Fits spacing wmax n (values spacing wmax n) (index spacing wmax n) where
  nearest := isNearest_index hwmax htwo
  monotone := index_monotone hwmax htwo
  increasing := values_increasing hwmax htwo
  antisymmetric := values_reverse htwo
  inverse := map_index_values hwmax htwo
  bracketed _ := exists_bracket hwmax htwo

theorem beyond_real (tolerance : ℝ) :
    beyond wmax tolerance = fun w => decide (wmax * (1 + tolerance) < |w|) := by
  funext w
  unfold beyond
  rw [Scalar.one_literal, Scalar.abs_real]

end Planes

/-! ## Planes of an array -/

section Arrays

variable {spacing : Spacing} {wmax planes tolerance : Setting ℝ} {greatest t : ℝ} {n : ℤ}

/-- A whole number, perhaps written with a point, as a number. -/
theorem number_of_integral (hplanes : planes.integral = .ok n) : planes.number = .ok (n : ℝ) := by
  cases planes with
  | flag b =>
    cases hplanes
    cases b <;> simp [Setting.number, Setting.number?]
  | whole m =>
    cases hplanes
    rfl
  | real x =>
    simp only [Setting.integral, Scalar.isFinite_real, Scalar.floor_real, Bool.true_and] at hplanes
    by_cases hfloor : (⌊x⌋ : ℝ) = x
    · rw [if_pos (beq_iff_eq.2 hfloor), ← hfloor] at hplanes
      have hwhole : Scalar.wholePart ((⌊x⌋ : ℤ) : ℝ) = ⌊x⌋ := by
        show (if ((⌊x⌋ : ℤ) : ℝ) < 0 then ⌈((⌊x⌋ : ℤ) : ℝ)⌉ else ⌊((⌊x⌋ : ℤ) : ℝ)⌋) = ⌊x⌋
        rw [Int.ceil_intCast, Int.floor_intCast, ite_self]
      rw [hwhole] at hplanes
      cases hplanes
      rw [hfloor]
      rfl
    · rw [if_neg fun h => hfloor (beq_iff_eq.1 h)] at hplanes
      cases hplanes
  | absent => cases hplanes
  | text s => cases hplanes
  | several xs => cases hplanes
  | named xs => cases hplanes

theorem whole_eq_of_integral {m : ℤ} (hplanes : planes.integral = .ok n)
    (hwhole : planes.whole? = some m) : m = n := by
  cases planes with
  | flag b =>
    cases hplanes
    exact (Option.some.inj hwhole).symm
  | whole k =>
    cases hplanes
    exact (Option.some.inj hwhole).symm
  | real x => cases hwhole
  | absent => cases hwhole
  | text s => cases hwhole
  | several xs => cases hwhole
  | named xs => cases hwhole

theorem givenValues_eq (hwmax : wmax.factor = .ok greatest) (hplanes : planes.integral = .ok n)
    (htwo : 2 ≤ n) (hsize : n < 2 ^ 63) :
    givenValues spacing wmax planes = .ok (values spacing greatest n) := by
  have hone : ((n : ℝ) == 1) = false := by
    rw [beq_eq_false_iff_ne]
    exact_mod_cast (by omega : n ≠ 1)
  unfold givenValues
  rw [number_of_integral hplanes, hwmax]
  simp only [bind, Except.bind, hone, Bool.false_eq_true, if_false,
    Scalar.isFinite_real, Bool.not_true]
  cases hwhole : planes.whole? with
  | some m =>
    have hm : m = n := whole_eq_of_integral hplanes hwhole
    have hlength : axisLength (α := ℝ) (max 0 n) = .ok n.toNat := by
      rw [max_eq_right (by omega)]
      exact if_neg (by omega)
    rw [hm]
    simp only [hlength]
    rfl
  | none =>
    have hceil : Scalar.ceilInt (n : ℝ) = n := by
      unfold Scalar.ceilInt
      rw [Scalar.floor_real, Scalar.toInt_real, Int.floor_intCast, ← Int.cast_neg,
        Int.floor_intCast, neg_neg]
    have hcentre : ((n : ℝ) - 1) / 2.0 = centre n := by rw [centre_real, Scalar.two_literal]
    rw [hceil, hcentre]
    unfold values
    rw [if_neg (by omega)]
    rfl

/-- The planes of an array of w: each w goes to the nearest plane on the even scale, in the order of
    the w, what exceeds the greatest w by more than the tolerance is counted, and the w of the
    planes themselves go to the planes in order with none counted. -/
theorem indices_nearest (hwmax : wmax.factor = .ok greatest) (hpos : 0 < greatest)
    (hplanes : planes.integral = .ok n) (htwo : 2 ≤ n) (htolerance : tolerance.number = .ok t) :
    (n < 2 ^ 63 → givenValues spacing wmax planes = .ok (values spacing greatest n)) ∧
    Fits spacing greatest n (values spacing greatest n) (index spacing greatest n) ∧
    (∀ ws : Tensor ℝ, indices spacing wmax planes tolerance ws =
      .ok (ws.map (index spacing greatest n),
        ws.data.toList.countP fun w => greatest * (1 + t) < |w|)) ∧
    (0 ≤ t → indices spacing wmax planes tolerance (Tensor.ofList (values spacing greatest n)) =
      .ok (Tensor.ofList ((List.range n.toNat).map fun p : ℕ => (p : ℤ)), 0)) := by
  have hindices : ∀ ws : Tensor ℝ, indices spacing wmax planes tolerance ws =
      .ok (ws.map (index spacing greatest n),
        ws.data.toList.countP fun w => greatest * (1 + t) < |w|) := by
    intro ws
    unfold indices countBeyond
    rw [hplanes, hwmax, htolerance, ← beyond_real]
    simp only [bind, Except.bind, if_neg (by omega : ¬ n = 1)]
    rfl
  have hfits : Fits spacing greatest n _ _ := fits_values hpos htwo
  refine ⟨givenValues_eq hwmax hplanes htwo, hfits, hindices, ?_⟩
  intro ht
  have hnone : (values spacing greatest n).countP (fun w => greatest * (1 + t) < |w|) = 0 := by
    refine List.countP_eq_zero.2 ?_
    intro w hw hbeyond
    have hle := abs_le_of_mem_values hpos htwo hw
    have hlt : greatest * (1 + t) < |w| := of_decide_eq_true hbeyond
    nlinarith
  have htable : (Tensor.ofList (values spacing greatest n)).map (index spacing greatest n) =
      Tensor.ofList ((List.range n.toNat).map fun p : ℕ => (p : ℤ)) := by
    rw [← hfits.inverse]
    exact Tensor.ext_data (by simp [Tensor.map, Tensor.ofList])
      (by simp [Tensor.map, Tensor.ofList])
  rw [hindices, htable]
  exact congrArg (fun k => Except.ok (_, k)) hnone

/-- Four planes up to 100 wavelengths, denser near zero. -/
theorem indices_nearest_fourPlanes :
    Fits .quadratic 100 4 (values .quadratic 100 4) (index .quadratic 100 4) ∧
    indices .quadratic (.whole 100) (.whole 4) (.real 1e-8)
      (Tensor.ofList (values .quadratic (100 : ℝ) 4)) = .ok (Tensor.ofList [0, 1, 2, 3], 0) := by
  have hwmax : (Setting.whole 100 : Setting ℝ).factor = .ok 100 := by
    simp [Setting.factor, Setting.number, Setting.number?]
  have hplanes : (Setting.whole 4 : Setting ℝ).integral = .ok 4 := rfl
  have htolerance : (Setting.real 1e-8 : Setting ℝ).number = .ok 1e-8 := rfl
  obtain ⟨-, hfits, -, hround⟩ :=
    indices_nearest hwmax (by norm_num) hplanes (by norm_num) htolerance
  exact ⟨hfits, hround (by norm_num)⟩

end Arrays

end ApertureSynthesis.Plane
