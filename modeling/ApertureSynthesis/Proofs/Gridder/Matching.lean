/-
  Actions of two gridders, side by side.

  `Matches R Q x y` says that the actions `x` and `y`, from gridders in the relation `R`, give
  results in the relation `Q` or are refused with the same fault, and leave gridders in `R`. What is
  put together from actions that match does so too (`Matches.bind`).
-/
import Mathlib
import ApertureSynthesis.Proofs.Gridder.Stages

namespace ApertureSynthesis.Gridder

section Matches

variable {α : Type} [Scalar α] {β β' γ γ' : Type} {R : Gridder α → Gridder α → Prop}
  {Q : β → β' → Prop} {Q' : γ → γ' → Prop}

/-- Outcomes with results in a relation, or with one fault, that leave gridders in a relation. -/
inductive MatchedOutcome (R : Gridder α → Gridder α → Prop) (Q : β → β' → Prop) :
    Except (Fault α) β × Gridder α → Except (Fault α) β' × Gridder α → Prop where
  /-- Both succeed. -/
  | ok {a : β} {b : β'} {s t : Gridder α} (result : Q a b) (left : R s t) :
    MatchedOutcome R Q (.ok a, s) (.ok b, t)
  /-- Both are refused. -/
  | error {fault : Fault α} {s t : Gridder α} (left : R s t) :
    MatchedOutcome R Q (.error fault, s) (.error fault, t)

/-- From gridders in a relation, actions have matching outcomes. -/
def Matches (R : Gridder α → Gridder α → Prop) (Q : β → β' → Prop) (x : Action α β)
    (y : Action α β') : Prop :=
  ∀ s t, R s t → MatchedOutcome R Q (outcome x s) (outcome y t)

/-- Actions match with equal results if the results are equal and the gridders stay in the
    relation. -/
theorem matches_eq_iff {x y : Action α β} : Matches R (· = ·) x y ↔
    ∀ s t, R s t → (outcome y t).1 = (outcome x s).1 ∧ R (outcome x s).2 (outcome y t).2 := by
  refine forall₃_congr fun s t _ => ?_
  rcases outcome x s with ⟨fault | a, s'⟩ <;> rcases outcome y t with ⟨fault' | b, t'⟩
  · constructor
    · rintro (_ | hst')
      exact ⟨rfl, hst'⟩
    · rintro ⟨hfault, hst'⟩
      cases hfault
      exact .error hst'
  · exact ⟨nofun, fun h => nomatch h.1⟩
  · exact ⟨nofun, fun h => nomatch h.1⟩
  · constructor
    · rintro (⟨hab, hst'⟩ | _)
      exact ⟨congrArg Except.ok hab.symm, hst'⟩
    · rintro ⟨hab, hst'⟩
      exact .ok (Except.ok.inj hab).symm hst'

theorem Matches.bind {x : Action α β} {y : Action α β'} {f : β → Action α γ} {g : β' → Action α γ'}
    (hxy : Matches R Q x y) (hfg : ∀ a b, Q a b → Matches R Q' (f a) (g b)) :
    Matches R Q' (x >>= f) (y >>= g) := by
  intro s t hst
  have houtcome := hxy s t hst
  rcases hx : outcome x s with ⟨r, s'⟩
  rcases hy : outcome y t with ⟨r', t'⟩
  rw [hx, hy] at houtcome
  cases houtcome with
  | ok hab hst' =>
    rw [outcome_bind_ok hx rfl, outcome_bind_ok hy rfl]
    exact hfg _ _ hab s' t' hst'
  | error hst' =>
    rw [outcome_bind_error hx, outcome_bind_error hy]
    exact .error hst'

/-- Two actions after one that gives both the same. -/
theorem Matches.andThen {x y : Action α β} {f : β → Action α γ} {g : β → Action α γ'}
    (hxy : Matches R (· = ·) x y) (hfg : ∀ a, Matches R Q' (f a) (g a)) :
    Matches R Q' (x >>= f) (y >>= g) :=
  hxy.bind fun a _ hab => hab ▸ hfg a

theorem Matches.pure {a : β} {b : β'} (h : Q a b) : Matches R Q (Pure.pure a) (Pure.pure b) :=
  fun _ _ hst => .ok h hst

theorem Matches.throw (fault : Fault α) : Matches R Q (throw fault) (throw fault) :=
  fun _ _ hst => .error hst

/-- Nothing follows a refusal. -/
theorem Matches.throw_bind (fault : Fault α) {f : β → Action α γ} {g : β' → Action α γ'} :
    Matches R Q' (MonadExcept.throw fault >>= f) (MonadExcept.throw fault >>= g) :=
      fun _ _ hst => .error hst

theorem Matches.get : Matches R R get get := fun _ _ hst => .ok hst hst

theorem Matches.modify {f g : Gridder α → Gridder α} (h : ∀ s t, R s t → R (f s) (g t)) :
    Matches R (· = ·) (modify f) (modify g) := fun s t hst => .ok rfl (h s t hst)

/-- A result and what is made of it. -/
theorem Matches.lift_map {x : Except (Fault α) β} {f : β → β'} (h : ∀ a, x = .ok a → Q a (f a)) :
    Matches R Q (lift x) (lift (x.map f)) := by
  cases x with
  | error fault => exact .throw fault
  | ok a => exact .pure (h a rfl)

/-- One result for both. -/
theorem Matches.lift_same {x : Except (Fault α) β} {Q : β → β → Prop} (h : ∀ a, x = .ok a → Q a a) :
    Matches R Q (lift x) (lift x) := by
  cases x with
  | error fault => exact .throw fault
  | ok a => exact .pure (h a rfl)

theorem Matches.lift (x : Except (Fault α) β) :
    Matches R (· = ·) (Gridder.lift x) (Gridder.lift x) :=
  .lift_same fun _ _ => rfl

/-- A part of both, and what is made of it. -/
theorem Matches.need_map {part : Option β} {f : β → β'} (h : ∀ a, Q a (f a)) :
    Matches R Q (need part) (need (part.map f)) := by
  cases part with
  | none => exact .throw .missing
  | some a => exact .pure (h a)

theorem Matches.need (part : Option β) :
    Matches R (· = ·) (Gridder.need part) (Gridder.need part) := by
  cases part with
  | none => exact .throw .missing
  | some a => exact .pure rfl

end Matches

end ApertureSynthesis.Gridder
