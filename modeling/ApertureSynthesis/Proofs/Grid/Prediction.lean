/-
  Degridding is direct summation: a sample is predicted as the sum of grid times kernel over the
  cells of the grid, whatever its flag and weight and wherever its footprint lies.

  `predictAt_placement` is one sample, `predictRow_eq` one row; `predict_samples` puts the rows
  together.
-/
import Mathlib
import ApertureSynthesis.Proofs.Outcome
import ApertureSynthesis.Proofs.Grid.Deposit
import ApertureSynthesis.Grid.Prediction

namespace ApertureSynthesis

namespace Grid

/-! ## What a prediction is made of -/

section Outcome

variable {α : Type} [Scalar α] {nchan npol : ℕ} {vis : Visibility α nchan npol} {g : Grid α}
  {c : Cache α} {map : PlaneMap} {interpolation : Interpolation}

/-- A prediction checks what it is given, makes a frame and predicts the rows one by one. -/
theorem predict_eq_ok {predicted : Visibility α nchan npol × Statistics} :
    predict vis g c map interpolation = .ok predicted ↔
      checkFit vis g c map = .ok () ∧ ∃ f, frame vis g c map interpolation = .ok f ∧
        ∃ rows, vis.rows.zipIdx.mapM (predictRow f g) = .ok rows ∧
          ({ vis with rows := rows.map Prod.fst },
            (rows.flatMap Prod.snd).foldl countPlacement { clamped := map.clamped
            }) = predicted := by
  unfold predict
  simp only [bind_eq_ok, pure, Except.pure, Except.ok.injEq]
  constructor
  · rintro ⟨⟨⟩, hfit, hrest⟩
    exact ⟨hfit, hrest⟩
  · rintro ⟨hfit, hrest⟩
    exact ⟨(), hfit, hrest⟩

end Outcome

/-! ## One sample -/

/-- A sample is predicted from what its footprint reads on the grid. -/
theorem predictAt_placement (g : Grid ℝ) (p channel : ℕ) (F : Footprint ℝ) (ny nx : ℕ) :
    (predictAt g p (F.placement ny nx channel)).val =
      ∑ j ∈ Finset.range ny, ∑ i ∈ Finset.range nx,
        (g.get channel p j i).val * (F.read j i).val := by
  have hsum := sum_runs F ny nx (fun j i tap => (g.get channel p j i).val * tap.val)
    fun _ _ => by rw [Cplx.val_zero, mul_zero]
  rw [← hsum]
  unfold Footprint.placement
  split
  · rename_i hempty
    rw [List.isEmpty_iff.1 hempty]
    rfl
  · rw [predictAt, Cplx.val_sum, ← List.flatMap_id, sum_map_flatMap]
    simp only [List.map_map, Function.comp_def, Cplx.val_sum, Cplx.val_mul, id]

/-! ## One row -/

section Rows

variable {nchan npol : ℕ}

/-- The placements of the channels of a row. -/
noncomputable def placementsOf (g : Grid ℝ) (F : ℕ → Footprint ℝ) (channel : ℕ → ℕ) (nchan : ℕ) :
    List (Placement ℝ) :=
  (List.range nchan).map fun b => (F b).placement g.ny g.nx (channel b)

/-- The row with its values predicted. -/
noncomputable def predictedRow (g : Grid ℝ) (placements : List (Placement ℝ))
    (r : Row ℝ nchan npol) : Row ℝ nchan npol :=
  r.mapSamples fun b p s => { s with value := predictAt g p (placements.toArray.getD b .outside) }

theorem predictRow_eq {g m : Grid ℝ} {f : Frame ℝ} {F : ℕ → Footprint ℝ} {channel : ℕ → ℕ} {k : ℕ}
    {r : Row ℝ nchan npol}
    (hplace : ∀ b < nchan, f.place k r b = .ok ((F b).placement g.ny g.nx (channel b))) :
    predictRow f m (r, k) =
      .ok (predictedRow m (placementsOf g F channel nchan) r, placementsOf g F channel nchan) := by
  have hall : (List.range nchan).mapM (f.place k r) = .ok (placementsOf g F channel nchan) :=
    mapM_eq_ok _ fun b hb => hplace b (List.mem_range.1 hb)
  unfold predictRow
  simp only [hall]
  rfl

theorem predictedRow_value (g m : Grid ℝ) (F : ℕ → Footprint ℝ) (channel : ℕ → ℕ)
    (r : Row ℝ nchan npol) {b p : ℕ} (hb : b < nchan) (hp : p < npol) :
    (predictedRow m (placementsOf g F channel nchan) r).samples[b][p] =
      { r.samples[b][p] with
        value := predictAt m p ((F b).placement g.ny g.nx (channel b)) } := by
  have hplacement : (placementsOf g F channel nchan)[b]? =
      some ((F b).placement g.ny g.nx (channel b)) := by
    simp [placementsOf, hb]
  simp [predictedRow, Row.mapSamples, hplacement]

end Rows

/-! ## All rows -/

section Visibilities

variable {nchan npol : ℕ} {vis : Visibility ℝ nchan npol} {g : Grid ℝ} {c : Cache ℝ}
  {map : PlaneMap} {l : Lattice ℝ}

/-- Visibilities that fit are predicted without a fault. Every sample keeps its weight and flag, and
    its value is the sum of grid times kernel. -/
theorem predict_samples (h : Fit vis g c map l) (interpolation : Interpolation) :
    ∃ vis' statistics, predict vis g c map interpolation = .ok (vis', statistics) ∧
      vis'.rowCount = vis.rowCount ∧
      ∀ k < vis.rowCount, ∀ b < nchan, ∀ p < npol,
        (vis'.sampleAt k b p).weight = (vis.sampleAt k b p).weight ∧
        (vis'.sampleAt k b p).flagged = (vis.sampleAt k b p).flagged ∧
        (vis'.sampleAt k b p).value.val =
          ∑ j ∈ Finset.range g.ny, ∑ i ∈ Finset.range g.nx,
            (g.get (g.channelAt (vis.frequency.getD b 0)) p j i).val *
              sampleKernel vis c map l interpolation k b j i := by
  obtain ⟨f, F, hframe, hF⟩ := h.exists_footprints interpolation
  let channel : ℕ → ℕ := fun b => g.channelAt (vis.frequency.getD b 0)
  have hrows : vis.rows.zipIdx.mapM (predictRow f g) = .ok (vis.rows.zipIdx.map fun x =>
      (predictedRow g (placementsOf g (F x.2) channel nchan) x.1,
        placementsOf g (F x.2) channel nchan)) := by
    refine mapM_eq_ok _ fun x hx => ?_
    obtain ⟨r, k⟩ := x
    obtain ⟨-, hk, hr⟩ := List.mem_zipIdx hx
    have hk' : k < vis.rows.length := by omega
    obtain rfl : r = vis.rows[k] := hr
    exact predictRow_eq fun b hb => (hF k hk' b hb).1
  unfold predict
  simp only [h.checked, hframe, hrows, bind, Except.bind, pure, Except.pure]
  refine ⟨_, _, rfl, by simp [Visibility.rowCount], fun k hk b hb p hp => ?_⟩
  have hk' : k < vis.rows.length := hk
  rw [Visibility.sampleAt, dif_pos ⟨by simpa using hk', hb, hp⟩, Visibility.sampleAt,
    dif_pos ⟨hk', hb, hp⟩]
  simp only [List.getElem_map, List.getElem_zipIdx, Nat.zero_add,
    predictedRow_value g g _ _ _ hb hp, predictAt_placement, (hF k hk' b hb).2.2, and_self, channel]

end Visibilities

end Grid

end ApertureSynthesis
