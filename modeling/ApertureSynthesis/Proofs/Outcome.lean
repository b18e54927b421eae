/-
  Results that may be refused: what a computation that succeeds has gone through, and traversals in
  which nothing fails.
-/
import Mathlib

namespace ApertureSynthesis

variable {β γ ε : Type}

/-- Both parts of a sequence that succeeds have succeeded. -/
theorem exists_of_bind {x : Except ε β} {f : β → Except ε γ} {r : γ} (h : x >>= f = .ok r) :
    ∃ a, x = .ok a ∧ f a = .ok r := by
  cases x with
  | error e => cases h
  | ok a => exact ⟨a, rfl, h⟩

theorem bind_eq_ok {x : Except ε β} {f : β → Except ε γ} {r : γ} :
    x >>= f = .ok r ↔ ∃ a, x = .ok a ∧ f a = .ok r :=
  ⟨exists_of_bind, by rintro ⟨a, rfl, h⟩; exact h⟩

/-- A sequence is refused by its first part, or by what follows. -/
theorem error_of_bind {x : Except ε β} {f : β → Except ε γ} {e : ε} (h : x >>= f = .error e) :
    x = .error e ∨ ∃ a, x = .ok a ∧ f a = .error e := by
  cases x with
  | error e' =>
    cases h
    exact .inl rfl
  | ok a => exact .inr ⟨a, rfl, h⟩

/-- A result that is changed comes from one that is not. -/
theorem map_eq_ok {x : Except ε β} {f : β → γ} {r : γ} :
    x.map f = .ok r ↔ ∃ a, x = .ok a ∧ f a = r := by
  constructor
  · intro h
    cases x with
    | error e => cases h
    | ok a => exact ⟨a, rfl, Except.ok.inj h⟩
  · rintro ⟨a, rfl, rfl⟩
    rfl

/-- What is done with the result of a sequence is done with that of its last part. -/
theorem map_bind_eq {δ : Type} {x : Except ε β} {f : β → Except ε γ} {g : γ → δ} :
    (x >>= f).map g = x >>= fun a => (f a).map g := by
  cases x with
  | error e => rfl
  | ok a => rfl

/-- A traversal succeeds where each of its members does. -/
theorem mapM_eq_ok_iff {f : β → Except ε γ} {xs : List β} {rs : List γ} :
    xs.mapM f = .ok rs ↔ List.Forall₂ (fun x r => f x = .ok r) xs rs := by
  induction xs generalizing rs with
  | nil =>
    rw [List.forall₂_nil_left_iff, List.mapM_nil]
    exact ⟨fun h => (Except.ok.inj h).symm, fun h => h ▸ rfl⟩
  | cons x xs ih =>
    rw [List.mapM_cons, bind_eq_ok, List.forall₂_cons_left_iff]
    simp only [bind_eq_ok, ih]
    constructor
    · rintro ⟨r, hr, rest, hrest, heq⟩
      exact ⟨r, rest, hr, hrest, (Except.ok.inj heq).symm⟩
    · rintro ⟨r, rest, hr, hrest, rfl⟩
      exact ⟨r, hr, rest, hrest, rfl⟩

/-- A traversal in which each member succeeds. -/
theorem exists_mapM {f : β → Except ε γ} {xs : List β} (h : ∀ x ∈ xs, ∃ r, f x = .ok r) :
    ∃ rs, xs.mapM f = .ok rs := by
  induction xs with
  | nil => exact ⟨[], rfl⟩
  | cons x xs ih =>
    obtain ⟨r, hr⟩ := h x List.mem_cons_self
    obtain ⟨rs, hrs⟩ := ih fun y hy => h y (List.mem_cons_of_mem x hy)
    exact ⟨r :: rs, mapM_eq_ok_iff.2 (.cons hr (mapM_eq_ok_iff.1 hrs))⟩

/-- A run in which each step succeeds and keeps what the next one needs. -/
theorem exists_foldlM {P : γ → Prop} {f : γ → β → Except ε γ} {xs : List β}
    (h : ∀ x ∈ xs, ∀ r, P r → ∃ r', f r x = .ok r' ∧ P r') {r : γ} (hr : P r) :
    ∃ r', xs.foldlM f r = .ok r' ∧ P r' := by
  induction xs generalizing r with
  | nil => exact ⟨r, rfl, hr⟩
  | cons x xs ih =>
    obtain ⟨next, hnext, hP⟩ := h x List.mem_cons_self r hr
    rw [List.foldlM_cons, hnext]
    exact ih (fun y hy => h y (List.mem_cons_of_mem x hy)) hP

/-- What holds at the start of a run, and what each step keeps, holds at its end. -/
theorem of_foldlM {P : γ → Prop} {f : γ → β → Except ε γ} {xs : List β}
    (h : ∀ x ∈ xs, ∀ r r', P r → f r x = .ok r' → P r') {r r' : γ} (hr : P r)
    (hrun : xs.foldlM f r = .ok r') : P r' := by
  induction xs generalizing r with
  | nil =>
    cases hrun
    exact hr
  | cons x xs ih =>
    rw [List.foldlM_cons] at hrun
    obtain ⟨next, hnext, hrest⟩ := exists_of_bind hrun
    exact ih (fun y hy => h y (List.mem_cons_of_mem x hy))
      (h x List.mem_cons_self r next hr hnext) hrest

/-- What a traversal gives it gives for some member. -/
theorem exists_of_mem_mapM {f : β → Except ε γ} {xs : List β} {rs : List γ} (h : xs.mapM f = .ok rs)
    {r : γ} (hr : r ∈ rs) : ∃ x ∈ xs, f x = .ok r := by
  induction mapM_eq_ok_iff.1 h with
  | nil => cases hr
  | @cons x r' xs rs hx hrest ih =>
    rcases List.mem_cons.1 hr with rfl | hr
    · exact ⟨x, List.mem_cons_self, hx⟩
    · obtain ⟨y, hy, hfy⟩ := ih (mapM_eq_ok_iff.2 hrest) hr
      exact ⟨y, List.mem_cons_of_mem _ hy, hfy⟩

/-- A traversal in which nothing fails. -/
theorem mapM_eq_ok {f : β → Except ε γ} {value : β → γ} (xs : List β)
    (h : ∀ x ∈ xs, f x = .ok (value x)) : xs.mapM f = .ok (xs.map value) := by
  induction xs with
  | nil => rfl
  | cons x xs ih =>
    rw [List.mapM_cons, h x List.mem_cons_self, ih fun y hy => h y (List.mem_cons_of_mem _ hy)]
    rfl

/-- A traversal in which nothing fails, with a list for each member. -/
theorem flatMapM_eq_ok {f : β → Except ε (List γ)} {value : β → List γ} (xs : List β)
    (h : ∀ x ∈ xs, f x = .ok (value x)) : xs.flatMapM f = .ok (xs.flatMap value) := by
  have hloop : ∀ (xs : List β) (done : List (List γ)), (∀ x ∈ xs, f x = .ok (value x)) →
      List.flatMapM.loop f xs done = .ok (done.reverse.flatten ++ xs.flatMap value) := by
    intro xs
    induction xs with
    | nil =>
      intro done _
      rw [List.flatMap_nil, List.append_nil]
      rfl
    | cons x xs ih =>
      intro done h
      rw [List.flatMapM.loop, h x List.mem_cons_self]
      refine (ih (value x :: done) fun y hy => h y (List.mem_cons_of_mem _ hy)).trans ?_
      rw [List.reverse_cons, List.flatten_append, List.flatten_singleton, List.append_assoc,
        List.flatMap_cons]
  exact hloop xs [] h

/-- Traversals that agree on the members of a list. -/
theorem mapM_congr {f g : β → Except ε γ} {xs : List β} (h : ∀ x ∈ xs, f x = g x) :
    xs.mapM f = xs.mapM g := by
  induction xs with
  | nil => rfl
  | cons x xs ih =>
    rw [List.mapM_cons, List.mapM_cons, h x List.mem_cons_self,
      ih fun y hy => h y (List.mem_cons_of_mem _ hy)]

/-- Runs whose steps agree on the members of a list. -/
theorem foldlM_congr {f g : γ → β → Except ε γ} {xs : List β} (h : ∀ x ∈ xs, ∀ r, f r x = g r x)
    (r : γ) : xs.foldlM f r = xs.foldlM g r := by
  induction xs generalizing r with
  | nil => rfl
  | cons x xs ih =>
    rw [List.foldlM_cons, List.foldlM_cons, h x List.mem_cons_self,
      funext (ih fun y hy => h y (List.mem_cons_of_mem _ hy))]

end ApertureSynthesis
