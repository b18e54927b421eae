/-
  Combination of arrays of different shapes. Shapes are compared from the last axis on; an axis of
  length one, or a missing one, stands for any length.
-/
import ApertureSynthesis.Tensor

namespace ApertureSynthesis.Tensor

variable {β γ δ : Type}

/-- The common shape of two reversed shapes. -/
def commonReversed? : List Nat → List Nat → Option (List Nat)
  | [], t => some t
  | s, [] => some s
  | m :: s, n :: t =>
    if m = n ∨ n = 1 then (commonReversed? s t).map (m :: ·)
    else if m = 1 then (commonReversed? s t).map (n :: ·)
    else none

/-- The common shape of two shapes. -/
def commonShape? (s t : List Nat) : Option (List Nat) :=
  (commonReversed? s.reverse t.reverse).map List.reverse

/-- The index of a smaller shape that an index of a larger shape stands for. -/
def projectIndex (shape index : List Nat) : List Nat :=
  (shape.zip (index.drop (index.length - shape.length))).map fun (n, i) => if n = 1 then 0 else i

/-- A tensor repeated to a shape, if its own shape can be stretched to that. -/
def stretch? [Zero β] (t : Tensor β) (shape : List Nat) : Option (Tensor β) :=
  if commonShape? t.shape shape = some shape then
    some (ofFn shape fun index => t.get (projectIndex t.shape index))
  else none

/-- Axes of length one do not change the number of elements. -/
theorem volume_append_of_ones {lead rest : List Nat} (h : ∀ n ∈ lead, n = 1) :
    volume (lead ++ rest) = volume rest := by
  induction lead with
  | nil => rfl
  | cons n lead ih =>
    have hn : n = 1 := h n (List.mem_cons_self ..)
    have := ih fun m hm => h m (List.mem_cons_of_mem n hm)
    simp only [volume, List.cons_append, List.foldr_cons, hn, Nat.one_mul] at this ⊢
    exact this

/-- A tensor without the leading axes of length one that it has beyond a rank. -/
def dropLeading (rank : Nat) (t : Tensor β) : Tensor β :=
  let surplus := t.shape.length - rank
  if h : ∀ n ∈ t.shape.take surplus, n = 1 then
    { shape := t.shape.drop surplus
      data := t.data
      size_data := by
        have hv : volume (t.shape.take surplus ++ t.shape.drop surplus) =
            volume (t.shape.drop surplus) := volume_append_of_ones h
        rw [List.take_append_drop] at hv
        rw [t.size_data, hv] }
  else t

/-- Two tensors combined element by element. -/
def combine? [Zero β] [Zero γ] (f : β → γ → δ) (s : Tensor β) (t : Tensor γ) : Option (Tensor δ) :=
  (commonShape? s.shape t.shape).map fun shape =>
    ofFn shape fun index => f (s.get (projectIndex s.shape index))
      (t.get (projectIndex t.shape index))

end ApertureSynthesis.Tensor
