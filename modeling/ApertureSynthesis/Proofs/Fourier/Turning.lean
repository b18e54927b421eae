/-
  Turning the axes of an array changes where its centre is and nothing else.

  A tensor is turned so that the centre of its axes comes first, transformed raster by raster, and
  turned back. Along the leading axes the two turns undo each other, whichever axes have a centre,
  so each raster comes back to its own place; along rows and columns they make the transform a
  centred one (`get_plainRaster_of_turned`). So a tensor of any rank is transformed raster by raster
  by the centred transform (`tensor_eq_slices`), in any arithmetic.
-/
import Mathlib
import ApertureSynthesis.Proofs.Fourier.Transform
import ApertureSynthesis.Proofs.Tensor
import ApertureSynthesis.Fourier.Centred

namespace ApertureSynthesis.Fourier

open Tensor (Within turnedFrom)

variable {α : Type} [Scalar α]

/-! ## Rasters -/

/-- The transform of a sequence does not look beyond its length. -/
theorem transform_congr (root : Array (Cplx α)) {n step : ℕ} {x y : ℕ → Cplx α}
    (h : ∀ j < n, x j = y j) : transform root n step x = transform root n step y := by
  induction n using Nat.strong_induction_on generalizing step x y with
  | _ n ih =>
    unfold transform
    split
    · congr 1
      funext k
      exact h k.val k.isLt
    · rename_i htwo
      have hless := div_leastFactor_lt (n := n) (by omega)
      have hn : leastFactor n * (n / leastFactor n) = n := Nat.mul_div_cancel' (leastFactor_dvd n)
      have hparts : (fun r : Fin (leastFactor n) =>
            transform root (n / leastFactor n) (step * leastFactor n) fun t =>
              x (r.val + leastFactor n * t)) =
          fun r : Fin (leastFactor n) =>
            transform root (n / leastFactor n) (step * leastFactor n) fun t =>
              y (r.val + leastFactor n * t) := by
        funext r
        refine ih _ hless fun t ht => h _ ?_
        calc r.val + leastFactor n * t < leastFactor n + leastFactor n * t := by
              have := r.isLt
              omega
          _ = leastFactor n * (t + 1) := by ring
          _ ≤ leastFactor n * (n / leastFactor n) := Nat.mul_le_mul_left _ ht
          _ = n := hn
      dsimp only
      rw [hparts]

theorem fromCentre_lt {n : ℕ} (hn : 0 < n) (k : ℕ) : fromCentre n k < n := Nat.mod_lt _ hn

/-- Of a raster whose rows and columns were turned to have the centre first, the plain transform
    turned back is the centred transform. -/
theorem get_plainRaster_of_turned (d : Direction) {a b : Raster (Cplx α)} {ny nx : ℕ}
    (ha : a.ny = ny ∧ a.nx = nx) (hb : b.ny = ny ∧ b.nx = nx)
    (h : ∀ j < ny, ∀ i < nx, b.get j i = a.get ((j + ny / 2) % ny) ((i + nx / 2) % nx))
    {k q : ℕ} (hk : k < ny) (hq : q < nx) :
    (plainRaster d b).get (fromCentre ny k) (fromCentre nx q) = (raster d a).get k q := by
  have hk' : fromCentre ny k < ny := fromCentre_lt (by omega) k
  have hq' : fromCentre nx q < nx := fromCentre_lt (by omega) q
  rw [plainRaster, hb.1, hb.2, raster, ha.1, ha.2, Raster.get_ofFn _ hk' hq',
    Raster.get_ofFn _ hk hq, getD_ofFn _ hq', getD_ofFn _ hq, line, getD_ofFn _ hk]
  congr 2
  refine transform_congr _ fun j hj => ?_
  have hj' : (j + ny / 2) % ny < ny := Nat.mod_lt _ (by omega)
  rw [getD_ofFn _ hj, getD_ofFn _ hj', line, getD_ofFn _ hq]
  congr 1
  exact transform_congr _ fun i hi => h j hj i hi

/-! ## Tensors -/

/-- The transform of a raster of a tensor has the lengths that were asked for. -/
theorem lengths_raster (d : Direction) (t : Tensor (Cplx α)) (ny nx : ℕ) (k : ℕ) :
    (raster d (t.slice ny nx k)).ny = ny ∧ (raster d (t.slice ny nx k)).nx = nx := ⟨rfl, rfl⟩

/-- Rows and columns are turned by half of their lengths, whatever the number of leading axes. -/
theorem exists_centreTurns (lead : List ℕ) (ny nx : ℕ) :
    ∃ turns : List ℤ, turns.length = lead.length ∧
      centreTurns (lead ++ [ny, nx]) = turns ++ [((ny / 2 : ℕ) : ℤ), ((nx / 2 : ℕ) : ℤ)] := by
  unfold centreTurns
  split
  · rename_i n m ny' nx' hshape
    obtain ⟨hlead, hlast⟩ :=
      List.append_inj' (show lead ++ [ny, nx] = [n, m] ++ [ny', nx'] from hshape) rfl
    cases hlast
    exact ⟨[0, 0], by rw [hlead]; rfl, rfl⟩
  · exact ⟨lead.map fun n => ((n / 2 : ℕ) : ℤ), List.length_map _, List.map_append⟩

theorem turnedFrom_raster (ny nx k q : ℕ) :
    turnedFrom [ny, nx] [((ny / 2 : ℕ) : ℤ), ((nx / 2 : ℕ) : ℤ)] [k, q] =
      [fromCentre ny k, fromCentre nx q] := by
  have haxis : ∀ n k : ℕ, (((k : ℤ) - (n / 2 : ℕ)) % n).toNat = fromCentre n k := by
    intro n k
    have hplace : (k : ℤ) - (n / 2 : ℕ) + n = ((k + (n - n / 2) : ℕ) : ℤ) := by omega
    rw [← Int.add_emod_right, hplace, ← Int.natCast_mod, Int.toNat_natCast, fromCentre]
  simp only [turnedFrom, haxis]

theorem turnedFrom_raster_neg (ny nx j i : ℕ) :
    turnedFrom [ny, nx] [-((ny / 2 : ℕ) : ℤ), -((nx / 2 : ℕ) : ℤ)] [j, i] =
      [(j + ny / 2) % ny, (i + nx / 2) % nx] := by
  have haxis : ∀ n k : ℕ, (((k : ℤ) - -((n / 2 : ℕ) : ℤ)) % n).toNat = (k + n / 2) % n := by
    intro n k
    rw [sub_neg_eq_add, ← Nat.cast_add, ← Int.natCast_mod, Int.toNat_natCast]
  simp only [turnedFrom, haxis]

section Turned

variable {lead front : List ℕ} {ny nx : ℕ} {turns : List ℤ} (hlength : turns.length = lead.length)
  (hturns : centreTurns (lead ++ [ny, nx]) = turns ++ [((ny / 2 : ℕ) : ℤ), ((nx / 2 : ℕ) : ℤ)])
include hlength hturns

/-- With the first elements in the centre, an element comes from the turned leading axes and from
    its distance from the centre. -/
theorem get_firstCentred {β : Type} [Zero β] {t : Tensor β} (hshape : t.shape = lead ++ [ny, nx])
    (hfront : Within lead front) {k q : ℕ} (hk : k < ny) (hq : q < nx) :
    (firstCentred t).get (front ++ [k, q]) =
      t.get (turnedFrom lead turns front ++ [fromCentre ny k, fromCentre nx q]) := by
  have hindex : Within t.shape (front ++ [k, q]) :=
    hshape ▸ Tensor.within_append hfront (Tensor.within_pair.2 ⟨hk, hq⟩)
  rw [firstCentred, Tensor.get_turn _ hindex, hshape, hturns,
    Tensor.turnedFrom_append hlength hfront, turnedFrom_raster]

/-- With the centre first, the turned leading axes hold what comes half of the rows and columns
    later. -/
theorem get_centreFirst {β : Type} [Zero β] {t : Tensor β} (hshape : t.shape = lead ++ [ny, nx])
    (hfront : Within lead front) {j i : ℕ} (hj : j < ny) (hi : i < nx) :
    (centreFirst t).get (turnedFrom lead turns front ++ [j, i]) =
      t.get (front ++ [(j + ny / 2) % ny, (i + nx / 2) % nx]) := by
  have hturned : Within lead (turnedFrom lead turns front) :=
    Tensor.within_turnedFrom hlength hfront
  have hindex : Within t.shape (turnedFrom lead turns front ++ [j, i]) :=
    hshape ▸ Tensor.within_append hturned (Tensor.within_pair.2 ⟨hj, hi⟩)
  have hneg : (turns.map Neg.neg).length = lead.length := by rw [List.length_map, hlength]
  rw [centreFirst, Tensor.get_turn _ hindex, hshape, hturns, List.map_append,
    Tensor.turnedFrom_append hneg hturned, Tensor.turnedFrom_neg hlength hfront, List.map_cons,
    List.map_cons, List.map_nil, turnedFrom_raster_neg]

/-- The rasters of a tensor, turned and transformed and turned back. -/
theorem get_firstCentred_ofSlices (d : Direction) {a : Tensor (Cplx α)}
    (hshape : a.shape = lead ++ [ny, nx]) (hfront : Within lead front) {k q : ℕ} (hk : k < ny)
    (hq : q < nx) :
    (firstCentred (Tensor.ofSlices lead ny nx fun k =>
        plainRaster d ((centreFirst a).slice ny nx k))).get (front ++ [k, q]) =
      (raster d (a.slice ny nx (Tensor.offset lead front))).get k q := by
  have hny : 0 < ny := by omega
  have hnx : 0 < nx := by omega
  have hturned : Within lead (turnedFrom lead turns front) :=
    Tensor.within_turnedFrom hlength hfront
  have hplain : ∀ k, (plainRaster d ((centreFirst a).slice ny nx k)).ny = ny ∧
      (plainRaster d ((centreFirst a).slice ny nx k)).nx = nx := fun _ => ⟨rfl, rfl⟩
  rw [get_firstCentred hlength hturns (Tensor.shape_ofSlices ..) hfront hk hq,
    Tensor.get_ofSlices hplain hturned (fromCentre_lt hny k) (fromCentre_lt hnx q)]
  have hb :
      ((centreFirst a).slice ny nx (Tensor.offset lead (turnedFrom lead turns front))).ny = ny ∧
      ((centreFirst a).slice ny nx (Tensor.offset lead (turnedFrom lead turns front))).nx = nx :=
    ⟨rfl, rfl⟩
  have ha : (a.slice ny nx (Tensor.offset lead front)).ny = ny ∧
      (a.slice ny nx (Tensor.offset lead front)).nx = nx := ⟨rfl, rfl⟩
  refine get_plainRaster_of_turned d ha hb (fun j hj i hi => ?_) hk hq
  have hmoved : (centreFirst a).shape = lead ++ [ny, nx] := hshape
  rw [Tensor.get_slice hmoved hturned hj hi, get_centreFirst hlength hturns hshape hfront hj hi]
  exact (Tensor.get_slice hshape hfront (Nat.mod_lt _ hny) (Nat.mod_lt _ hnx)).symm

end Turned

/-- A tensor of any rank from two on is transformed raster by raster. -/
theorem tensor_eq_slices (d : Direction) {a : Tensor (Cplx α)} {lead : List ℕ} {ny nx : ℕ}
    (hshape : a.shape = lead ++ [ny, nx]) (hny : 0 < ny) (hnx : 0 < nx) :
    tensor d a = .ok (Tensor.ofSlices lead ny nx fun k => raster d (a.slice ny nx k)) := by
  have hlast : Tensor.lastTwo? a.shape = some (lead, ny, nx) := by
    rw [hshape, Tensor.lastTwo?_append]
  obtain ⟨turns, hlength, hturns⟩ := exists_centreTurns lead ny nx
  simp only [tensor, hlast]
  rw [if_neg (by omega)]
  congr 1
  refine Tensor.ext_get rfl fun index hindex => ?_
  obtain ⟨front, k, q, rfl, hfront, hk, hq⟩ :=
    Tensor.exists_of_within_raster (show Within (lead ++ [ny, nx]) index from hindex)
  rw [get_firstCentred_ofSlices hlength hturns d hshape hfront hk hq,
    Tensor.get_ofSlices (lengths_raster d a ny nx) hfront hk hq]

end ApertureSynthesis.Fourier
