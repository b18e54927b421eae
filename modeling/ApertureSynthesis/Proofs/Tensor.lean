/-
  Reading tensors: an index of a shape and its storage position determine each other, so what is
  written at an index is read back there and nowhere else.

  `unravel_offset` and `offset_unravel` are the two halves of the correspondence. From them follow
  the values of a built tensor (`get_ofFn`), of a tensor with one element changed (`get_modify`) or
  with its axes turned (`get_turn`), and of the rasters that the last two axes make (`get_slice`,
  `get_ofSlices`). Tensors of one shape are the same if all elements are (`ext_get`); they are
  combined element by element, which commutes with changing an element (`zipWith_modifyAt`).
-/
import Mathlib
import ApertureSynthesis.Tensor

namespace ApertureSynthesis.Tensor

variable {β γ : Type}

/-! ## Index and storage position -/

theorem volume_cons (n : Nat) (shape : List Nat) : volume (n :: shape) = n * volume shape := rfl

theorem volume_append (lead rest : List Nat) :
    volume (lead ++ rest) = volume lead * volume rest := by
  induction lead with
  | nil => exact (Nat.one_mul _).symm
  | cons n lead ih => rw [List.cons_append, volume_cons, volume_cons, ih, Nat.mul_assoc]

theorem volume_pair (ny nx : Nat) : volume [ny, nx] = ny * nx := by simp [volume]

theorem within_pair {ny nx j i : Nat} : Within [ny, nx] [j, i] ↔ j < ny ∧ i < nx := by
  simp [Within]

theorem offsetFrom_cons (start n i : Nat) (shape index : List Nat) :
    offsetFrom start (n :: shape) (i :: index) = offsetFrom (start * n + i) shape index := rfl

/-- Horner's rule from a start: the start counts as a leading digit. -/
theorem offsetFrom_eq {shape index : List Nat} (h : Within shape index) (start : Nat) :
    offsetFrom start shape index = start * volume shape + offset shape index := by
  induction shape generalizing index start with
  | nil =>
    cases index with
    | nil => simp [offset, offsetFrom, volume]
    | cons i index => exact h.elim
  | cons n shape ih =>
    cases index with
    | nil => exact h.elim
    | cons i index =>
      have hzero : offset (n :: shape) (i :: index) = i * volume shape + offset shape index := by
        unfold offset
        rw [offsetFrom_cons, Nat.zero_mul, Nat.zero_add]
        exact ih h.2 i
      rw [offsetFrom_cons, ih h.2, hzero, volume_cons]
      ring

theorem offset_cons {n i : Nat} {shape index : List Nat} (h : Within shape index) :
    offset (n :: shape) (i :: index) = i * volume shape + offset shape index := by
  have hstart := offsetFrom_eq h i
  unfold offset
  rwa [offsetFrom_cons, Nat.zero_mul, Nat.zero_add]

theorem offset_pair (ny nx j i : Nat) : offset [ny, nx] [j, i] = j * nx + i := by
  simp [offset, offsetFrom]

theorem offset_lt {shape index : List Nat} (h : Within shape index) :
    offset shape index < volume shape := by
  induction shape generalizing index with
  | nil =>
    cases index with
    | nil => simp [offset, offsetFrom, volume]
    | cons i index => exact h.elim
  | cons n shape ih =>
    cases index with
    | nil => exact h.elim
    | cons i index =>
      rw [offset_cons h.2, volume_cons]
      calc i * volume shape + offset shape index
          < i * volume shape + volume shape := Nat.add_lt_add_left (ih h.2) _
        _ = (i + 1) * volume shape := by ring
        _ ≤ n * volume shape := Nat.mul_le_mul_right _ h.1

theorem unravel_offset {shape index : List Nat} (h : Within shape index) :
    unravel shape (offset shape index) = index := by
  induction shape generalizing index with
  | nil =>
    cases index with
    | nil => rfl
    | cons i index => exact h.elim
  | cons n shape ih =>
    cases index with
    | nil => exact h.elim
    | cons i index =>
      have hlt := offset_lt h.2
      have hpos : 0 < volume shape := by omega
      rw [offset_cons h.2, unravel, Nat.mul_comm i, Nat.mul_add_div hpos, Nat.mul_add_mod,
        Nat.div_eq_of_lt hlt, Nat.mod_eq_of_lt hlt, Nat.add_zero, ih h.2]

theorem offset_inj {shape index index' : List Nat} (h : Within shape index)
    (h' : Within shape index') (heq : offset shape index = offset shape index') :
    index = index' := by
  rw [← unravel_offset h, heq, unravel_offset h']

/-- A storage position has an index, and it is the position of that index. -/
theorem offset_unravel {shape : List Nat} {k : Nat} (hk : k < volume shape) :
    Within shape (unravel shape k) ∧ offset shape (unravel shape k) = k := by
  induction shape generalizing k with
  | nil =>
    have hzero : k = 0 := Nat.lt_one_iff.1 hk
    rw [hzero]
    exact ⟨trivial, rfl⟩
  | cons n shape ih =>
    rw [volume_cons, Nat.mul_comm] at hk
    have hpos : 0 < volume shape := Nat.pos_of_ne_zero fun hzero => by
      rw [hzero, Nat.zero_mul] at hk
      exact Nat.not_lt_zero k hk
    obtain ⟨hwithin, hoffset⟩ := ih (Nat.mod_lt k hpos)
    have hfirst : k / volume shape < n := Nat.div_lt_of_lt_mul hk
    rw [unravel]
    refine ⟨⟨hfirst, hwithin⟩, ?_⟩
    rw [offset_cons hwithin, hoffset, Nat.mul_comm, Nat.div_add_mod]

theorem length_of_within {shape index : List Nat} (h : Within shape index) :
    index.length = shape.length := by
  induction shape generalizing index with
  | nil =>
    cases index with
    | nil => rfl
    | cons i index => exact h.elim
  | cons n shape ih =>
    cases index with
    | nil => exact h.elim
    | cons i index => rw [List.length_cons, List.length_cons, ih h.2]

/-- An index of axes side by side is one of each. -/
theorem exists_of_within_append {lead rest index : List Nat} (h : Within (lead ++ rest) index) :
    ∃ front tail, index = front ++ tail ∧ Within lead front ∧ Within rest tail := by
  induction lead generalizing index with
  | nil => exact ⟨[], index, rfl, trivial, h⟩
  | cons n lead ih =>
    cases index with
    | nil => exact h.elim
    | cons i index =>
      obtain ⟨front, tail, hindex, hfront, htail⟩ := ih h.2
      exact ⟨i :: front, tail, by rw [hindex, List.cons_append], ⟨h.1, hfront⟩, htail⟩

/-- An index of some axes and two more is one of these axes, a row and a column. -/
theorem exists_of_within_raster {lead index : List Nat} {ny nx : Nat}
    (h : Within (lead ++ [ny, nx]) index) :
    ∃ front j i, index = front ++ [j, i] ∧ Within lead front ∧ j < ny ∧ i < nx := by
  obtain ⟨front, tail, hindex, hfront, htail⟩ := exists_of_within_append h
  match tail, length_of_within htail with
  | [j, i], _ =>
    obtain ⟨hj, hi⟩ := within_pair.1 htail
    exact ⟨front, j, i, hindex, hfront, hj, hi⟩

theorem within_append {lead rest index tail : List Nat} (h : Within lead index)
    (ht : Within rest tail) : Within (lead ++ rest) (index ++ tail) := by
  induction lead generalizing index with
  | nil =>
    cases index with
    | nil => exact ht
    | cons i index => exact h.elim
  | cons n lead ih =>
    cases index with
    | nil => exact h.elim
    | cons i index => exact ⟨h.1, ih h.2⟩

theorem offset_append {lead rest index tail : List Nat} (h : Within lead index)
    (ht : Within rest tail) :
    offset (lead ++ rest) (index ++ tail) = offset lead index * volume rest + offset rest tail := by
  induction lead generalizing index with
  | nil =>
    cases index with
    | nil => simp [offset, offsetFrom]
    | cons i index => exact h.elim
  | cons n lead ih =>
    cases index with
    | nil => exact h.elim
    | cons i index =>
      rw [List.cons_append, List.cons_append, offset_cons (within_append h.2 ht), ih h.2,
        offset_cons h.2, volume_append]
      ring

theorem lastTwo?_append (lead : List ℕ) (ny nx : ℕ) :
    lastTwo? (lead ++ [ny, nx]) = some (lead, ny, nx) := by
  induction lead with
  | nil => rfl
  | cons n lead ih =>
    have hstep : lastTwo? (n :: (lead ++ [ny, nx])) =
        (lastTwo? (lead ++ [ny, nx])).map fun r => (n :: r.1, r.2) := by
      cases lead with
      | nil => rfl
      | cons m lead =>
        cases lead <;> rfl
    rw [List.cons_append, hstep, ih]
    rfl

/-! ## Tensors combined element by element -/

section ZipWith

variable {f : β → β → β} {s t u : Tensor β}

theorem ext_data (hshape : s.shape = t.shape) (hdata : s.data = t.data) : s = t := by
  cases s
  cases t
  cases hshape
  cases hdata
  rfl

theorem size_eq_of_shape (h : t.shape = s.shape) : t.data.size = s.data.size := by
  rw [t.size_data, s.size_data, h]

theorem data_zipWith (f : β → β → β) (h : t.shape = s.shape) :
    (zipWith f s t).data = Array.zipWith f s.data t.data := by
  have hsize := size_eq_of_shape h
  apply Array.ext
  · simp [zipWith, hsize]
  · intro k hk hk'
    have hkt : k < t.data.size := by
      rw [Array.size_zipWith] at hk'
      omega
    simp [zipWith, hkt]

theorem zipWith_comm [Std.Commutative f] (h : t.shape = s.shape) :
    zipWith f s t = zipWith f t s := by
  refine ext_data h.symm ?_
  rw [data_zipWith f h, data_zipWith f h.symm, Array.zipWith_comm]
  congr 1
  funext x y
  exact Std.Commutative.comm y x

theorem zipWith_assoc [Std.Associative f] (h : t.shape = s.shape) (h' : u.shape = t.shape) :
    zipWith f (zipWith f s t) u = zipWith f s (zipWith f t u) := by
  refine ext_data rfl ?_
  have hleft : u.shape = (zipWith f s t).shape := h'.trans h
  have hright : (zipWith f t u).shape = s.shape := h
  rw [data_zipWith f hleft, data_zipWith f h, data_zipWith f hright, data_zipWith f h']
  apply Array.ext
  · simp only [Array.size_zipWith]
    omega
  · intro k hk hk'
    simp only [Array.getElem_zipWith]
    exact Std.Associative.assoc _ _ _

theorem zipWith_fill (shape : List Nat) (x y : β) :
    zipWith f (fill shape x) (fill shape y) = fill shape (f x y) := by
  refine ext_data rfl ?_
  rw [data_zipWith f (by rfl)]
  simp [fill]

/-- What is combined with an element of one of two tensors is combined with that of the result. -/
theorem zipWith_modifyAt [Std.Associative f] (h : t.shape = s.shape) (k : Nat) (z : β) :
    zipWith f s (t.modifyAt k (f · z)) = (zipWith f s t).modifyAt k (f · z) := by
  refine ext_data rfl ?_
  have hmodified : (t.modifyAt k (f · z)).shape = s.shape := h
  show _ = (zipWith f s t).data.modify k (f · z)
  rw [data_zipWith f hmodified, data_zipWith f h]
  show Array.zipWith f s.data (t.data.modify k (f · z)) = _
  apply Array.ext
  · simp
  · intro i hi hi'
    by_cases hik : k = i
    · simp only [Array.getElem_zipWith, Array.getElem_modify, hik, if_true]
      exact (Std.Associative.assoc _ _ _).symm
    · simp [Array.getElem_modify, hik]

theorem zipWith_modify [Std.Associative f] (h : t.shape = s.shape) (index : List Nat) (z : β) :
    zipWith f s (t.modify index (f · z)) = (zipWith f s t).modify index (f · z) := by
  unfold modify
  rw [shape_zipWith, h]
  split
  · exact zipWith_modifyAt h _ z
  · rfl

theorem shape_foldl {change : Tensor β → γ → Tensor β}
    (hshape : ∀ t x, (change t x).shape = t.shape) (xs : List γ) (t : Tensor β) :
    (xs.foldl change t).shape = t.shape := by
  induction xs generalizing t with
  | nil => rfl
  | cons x xs ih => rw [List.foldl_cons, ih, hshape]

/-- A run of changes that keep the shape and commute with a tensor. -/
theorem zipWith_foldl {change : Tensor β → γ → Tensor β} (xs : List γ)
    (hshape : ∀ t x, (change t x).shape = t.shape)
    (hchange : ∀ t x, t.shape = s.shape → zipWith f s (change t x) = change (zipWith f s t) x)
    (h : t.shape = s.shape) :
    zipWith f s (xs.foldl change t) = xs.foldl change (zipWith f s t) := by
  induction xs generalizing t with
  | nil => rfl
  | cons x xs ih =>
    rw [List.foldl_cons, List.foldl_cons, ← hchange t x h, ih ((hshape t x).trans h)]

end ZipWith

/-! ## Elements -/

theorem offset_lt_size {t : Tensor β} {index : List Nat} (h : Within t.shape index) :
    offset t.shape index < t.data.size := by
  rw [t.size_data]
  exact offset_lt h

variable [Zero β]

theorem get_of_within {t : Tensor β} {index : List Nat} (h : Within t.shape index) :
    t.get index = t.data.getD (offset t.shape index) 0 := if_pos h

theorem get_eq_zero {t : Tensor β} {index : List Nat} (h : ¬ Within t.shape index) :
    t.get index = 0 := if_neg h

/-- Tensors of one shape with the same elements. -/
theorem ext_get {s t : Tensor β} (hshape : s.shape = t.shape)
    (h : ∀ index, Within s.shape index → s.get index = t.get index) : s = t := by
  refine ext_data hshape (Array.ext ?_ fun k hk hk' => ?_)
  · rw [s.size_data, t.size_data, hshape]
  · rw [s.size_data] at hk
    obtain ⟨hwithin, hoffset⟩ := offset_unravel hk
    have hget := h _ hwithin
    rw [get_of_within hwithin, get_of_within (hshape ▸ hwithin), ← hshape, hoffset] at hget
    simpa [s.size_data, hk, hk'] using hget

theorem get_mem {t : Tensor β} {index : List Nat} (h : Within t.shape index) :
    t.get index ∈ t.data := by
  have hlt := offset_lt_size h
  rw [get_of_within h, Array.getD_eq_getD_getElem?, Array.getElem?_eq_getElem hlt]
  exact Array.getElem_mem hlt

theorem get_ofFn {shape index : List Nat} (f : List Nat → β) (h : Within shape index) :
    (ofFn shape f).get index = f index := by
  have hsize : offset shape index < (ofFn shape f).data.size := offset_lt_size (t := ofFn shape f) h
  rw [get_of_within (t := ofFn shape f) h, shape_ofFn, Array.getD_eq_getD_getElem?,
    Array.getElem?_eq_getElem hsize]
  simp [ofFn, unravel_offset h]

theorem get_fill {shape index : List Nat} (x : β) (h : Within shape index) :
    (fill shape x).get index = x := by
  have hlt := offset_lt h
  rw [get_of_within (t := fill shape x) h]
  simp [fill, hlt]

theorem get_fill_zero (shape index : List Nat) : (fill shape (0 : β)).get index = 0 := by
  by_cases h : Within shape index
  · exact get_fill 0 h
  · exact get_eq_zero h

theorem get_map [Zero γ] {t : Tensor β} {index : List Nat} (f : β → γ) (h : Within t.shape index) :
    (t.map f).get index = f (t.get index) := by
  have hlt := offset_lt_size h
  rw [get_of_within (t := t.map f) h, get_of_within h]
  simp [map, hlt]

theorem get_zipWith {s t : Tensor β} {index : List Nat} (f : β → β → β) (hshape : t.shape = s.shape)
    (h : Within s.shape index) : (zipWith f s t).get index = f (s.get index) (t.get index) := by
  have hs := offset_lt_size h
  have ht : offset s.shape index < t.data.size := size_eq_of_shape hshape ▸ hs
  rw [get_of_within (t := zipWith f s t) h, get_of_within h, get_of_within (hshape ▸ h), hshape,
    data_zipWith f hshape]
  simp [hs, ht]

/-- The sum of two tensors under an additive view, at any index. -/
theorem view_zipWith_add {M : Type} [Add β] [AddZeroClass M] (φ : β → M) (hzero : φ 0 = 0)
    (hadd : ∀ x y, φ (x + y) = φ x + φ y) {s t : Tensor β} (hshape : t.shape = s.shape)
    (index : List Nat) :
    φ ((zipWith (· + ·) s t).get index) = φ (s.get index) + φ (t.get index) := by
  by_cases h : Within s.shape index
  · rw [get_zipWith _ hshape h, hadd]
  · rw [get_eq_zero (t := zipWith (· + ·) s t) h, get_eq_zero h, get_eq_zero (hshape ▸ h),
      hzero, add_zero]

/-- A change at one index is seen there and nowhere else. -/
theorem get_modify {t : Tensor β} {index : List Nat} (f : β → β) (h : Within t.shape index)
    (index' : List Nat) :
    (t.modify index f).get index' = if index' = index then f (t.get index) else t.get index' := by
  by_cases h' : Within t.shape index'
  · have hlt := offset_lt_size h
    have hlt' := offset_lt_size h'
    have hmod : (t.modify index f) = t.modifyAt (offset t.shape index) f := if_pos h
    rw [get_of_within (t := t.modify index f) (by rwa [shape_modify]), get_of_within h,
      get_of_within h', hmod]
    by_cases heq : index' = index
    · subst heq
      simp [modifyAt, hlt, Array.getElem_modify]
    · have hne : offset t.shape index ≠ offset t.shape index' :=
        fun hoff => heq (offset_inj h h' hoff).symm
      simp [modifyAt, heq, hlt', Array.getElem_modify, hne]
  · have hne : index' ≠ index := fun heq => h' (heq ▸ h)
    rw [if_neg hne, get_eq_zero h', get_eq_zero (by rwa [shape_modify])]

omit [Zero β] in
theorem shape_foldl_modify (xs : List γ) (place : γ → List Nat) (f : γ → β → β) (t : Tensor β) :
    (xs.foldl (fun t x => t.modify (place x) (f x)) t).shape = t.shape :=
  shape_foldl (fun t _ => shape_modify t _ _) xs t

/-- Values added at places one after the other add up, in any additive view `φ` of the elements. -/
theorem view_foldl_modify {M : Type} [Add β] [AddCommMonoid M] (φ : β → M)
    (hφ : ∀ x y, φ (x + y) = φ x + φ y) (xs : List γ) (place : γ → List Nat) (z : γ → β)
    (t : Tensor β) {index : List Nat} (h : Within t.shape index) :
    φ ((xs.foldl (fun t x => t.modify (place x) (· + z x)) t).get index) =
      φ (t.get index) + (xs.map fun x => if place x = index then φ (z x) else 0).sum := by
  induction xs generalizing t with
  | nil => simp
  | cons x xs ih =>
    have hstep : φ ((t.modify (place x) (· + z x)).get index) =
        φ (t.get index) + if place x = index then φ (z x) else 0 := by
      by_cases hx : Within t.shape (place x)
      · rw [get_modify _ hx]
        by_cases heq : place x = index
        · rw [if_pos heq.symm, if_pos heq, hφ, heq]
        · rw [if_neg fun he => heq he.symm, if_neg heq, add_zero]
      · have hne : place x ≠ index := fun heq => hx (heq ▸ h)
        rw [modify, if_neg hx, if_neg hne, add_zero]
    rw [List.foldl_cons, ih _ (by rwa [shape_modify]), hstep, List.map_cons,
      List.sum_cons, add_assoc]

/-! ## Turned axes -/

theorem turnedFrom_append {lead rest front tail : List Nat} {turns others : List Int}
    (hturns : turns.length = lead.length) (h : Within lead front) :
    turnedFrom (lead ++ rest) (turns ++ others) (front ++ tail) =
      turnedFrom lead turns front ++ turnedFrom rest others tail := by
  induction lead generalizing front turns with
  | nil =>
    cases front with
    | nil =>
      cases turns with
      | nil => rfl
      | cons m turns => exact absurd hturns (Nat.succ_ne_zero _)
    | cons i front => exact h.elim
  | cons n lead ih =>
    cases front with
    | nil => exact h.elim
    | cons i front =>
      cases turns with
      | nil => exact absurd hturns (Nat.succ_ne_zero _).symm
      | cons m turns =>
        simp only [List.cons_append, turnedFrom, ih (Nat.succ.inj hturns) h.2]

/-- Before and after turns an element has an index of the array. -/
theorem within_turnedFrom {shape index : List Nat} {turns : List Int}
    (hturns : turns.length = shape.length) (h : Within shape index) :
    Within shape (turnedFrom shape turns index) := by
  induction shape generalizing index turns with
  | nil =>
    cases turns with
    | nil =>
      cases index with
      | nil => trivial
      | cons i index => exact h.elim
    | cons m turns => exact absurd hturns (Nat.succ_ne_zero _)
  | cons n shape ih =>
    cases index with
    | nil => exact h.elim
    | cons i index =>
      cases turns with
      | nil => exact absurd hturns (Nat.succ_ne_zero _).symm
      | cons m turns =>
        have hn : (0 : Int) < n := by
          have := h.1
          omega
        have hlow := Int.emod_nonneg ((i : Int) - m) hn.ne'
        have hhigh := Int.emod_lt_of_pos ((i : Int) - m) hn
        exact ⟨by omega, ih (Nat.succ.inj hturns) h.2⟩

/-- Turns back undo turns. -/
theorem turnedFrom_neg {shape index : List Nat} {turns : List Int}
    (hturns : turns.length = shape.length) (h : Within shape index) :
    turnedFrom shape (turns.map Neg.neg) (turnedFrom shape turns index) = index := by
  induction shape generalizing index turns with
  | nil =>
    cases turns with
    | nil =>
      cases index with
      | nil => rfl
      | cons i index => exact h.elim
    | cons m turns => exact absurd hturns (Nat.succ_ne_zero _)
  | cons n shape ih =>
    cases index with
    | nil => exact h.elim
    | cons i index =>
      cases turns with
      | nil => exact absurd hturns (Nat.succ_ne_zero _).symm
      | cons m turns =>
        have hi : (i : Int) < n := Int.ofNat_lt.2 h.1
        have hlow := Int.emod_nonneg ((i : Int) - m) (show (n : Int) ≠ 0 by omega)
        have hplace : ((((i : Int) - m) % n) - -m) % n = i := by
          rw [sub_neg_eq_add, Int.emod_add_emod, sub_add_cancel, Int.emod_eq_of_lt (by omega) hi]
        rw [turnedFrom, List.map_cons, turnedFrom, ih (Nat.succ.inj hturns) h.2,
          Int.toNat_of_nonneg hlow, hplace, Int.toNat_natCast]

theorem get_turn {t : Tensor β} {index : List Nat} (turns : List Int) (h : Within t.shape index) :
    (t.turn turns).get index = t.get (turnedFrom t.shape turns index) := get_ofFn _ h

/-! ## Rasters of the last two axes -/

theorem get_slice {t : Tensor β} {lead : List Nat} {ny nx : Nat} (hs : t.shape = lead ++ [ny, nx])
    {index : List Nat} (h : Within lead index) {j i : Nat} (hj : j < ny) (hi : i < nx) :
    (t.slice ny nx (offset lead index)).get j i = t.get (index ++ [j, i]) := by
  have hpair : Within [ny, nx] [j, i] := within_pair.2 ⟨hj, hi⟩
  have hw : Within t.shape (index ++ [j, i]) := hs ▸ within_append h hpair
  rw [slice, Raster.get_ofFn _ hj hi, get_of_within hw, hs, offset_append h hpair, volume_pair,
    offset_pair]

theorem get_ofSlices {lead : List Nat} {ny nx : Nat} {f : Nat → Raster β}
    (hf : ∀ k, (f k).ny = ny ∧ (f k).nx = nx) {index : List Nat} (h : Within lead index) {j i : Nat}
    (hj : j < ny) (hi : i < nx) :
    (ofSlices lead ny nx f).get (index ++ [j, i]) = (f (offset lead index)).get j i := by
  have hpair : Within [ny, nx] [j, i] := within_pair.2 ⟨hj, hi⟩
  have hw : Within (ofSlices lead ny nx f).shape (index ++ [j, i]) := within_append h hpair
  have hcell : j * nx + i < ny * nx := Raster.index_lt hj hi
  have hvol : offset (lead ++ [ny, nx]) (index ++ [j, i]) < volume (lead ++ [ny, nx]) :=
    offset_lt hw
  have hoff : offset (lead ++ [ny, nx]) (index ++ [j, i]) =
      (ny * nx) * offset lead index + (j * nx + i) := by
    rw [offset_append h hpair, volume_pair, offset_pair, Nat.mul_comm]
  have hlead := offset_lt h
  have hget : (f (offset lead index)).get j i =
      (f (offset lead index)).data.getD (j * nx + i) 0 := by
    obtain ⟨hny, hnx⟩ := hf (offset lead index)
    have hsize : j * nx + i < (f (offset lead index)).data.size := by
      rw [(f (offset lead index)).size_data, hny, hnx]
      exact hcell
    simp only [Raster.get, hny, hnx]
    rw [dif_pos ⟨hj, hi⟩, Array.getD_eq_getD_getElem?, Array.getElem?_eq_getElem hsize,
      Option.getD_some]
  rw [get_of_within hw, hget, shape_ofSlices, hoff]
  rw [hoff] at hvol
  have hdiv : (ny * nx * offset lead index + (j * nx + i)) / (ny * nx) = offset lead index := by
    rw [Nat.mul_add_div (by omega), Nat.div_eq_of_lt hcell, Nat.add_zero]
  have hmod : (ny * nx * offset lead index + (j * nx + i)) % (ny * nx) = j * nx + i := by
    rw [Nat.mul_add_mod, Nat.mod_eq_of_lt hcell]
  simp [ofSlices, hvol, hdiv, hmod, hlead]

end ApertureSynthesis.Tensor
