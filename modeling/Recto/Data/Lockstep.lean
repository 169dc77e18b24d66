import Recto.Data.Checked

/-!
# Two checked computations side by side

Two computations run in lockstep when they fail together, with related errors,
or succeed together, with related results. Binds and folds of steps that do so
do so too.
-/

namespace Recto

variable {ε ε' α β σ τ σ' τ' : Type}

theorem ok_bind (a : α) (f : α → Except ε β) : (Except.ok a >>= f) = f a := rfl

theorem toOption_bind (x : Except ε α) (f : α → Except ε β) :
    (x >>= f).toOption = x.toOption.bind fun a => (f a).toOption := by
  cases x <;> rfl

/-- Both fail, or both succeed. -/
inductive Lockstep (E : ε → ε' → Prop) (R : σ → τ → Prop) : Except ε σ → Except ε' τ → Prop where
  | error {e : ε} {e' : ε'} (h : E e e') : Lockstep E R (.error e) (.error e')
  | ok {s : σ} {t : τ} (h : R s t) : Lockstep E R (.ok s) (.ok t)

namespace Lockstep

variable {E : ε → ε' → Prop} {R : σ → τ → Prop} {R' : σ' → τ' → Prop}

theorem bind {x : Except ε σ} {y : Except ε' τ} {f : σ → Except ε σ'} {g : τ → Except ε' τ'}
    (h : Lockstep E R x y) (hnext : ∀ s t, R s t → Lockstep E R' (f s) (g t)) :
    Lockstep E R' (x >>= f) (y >>= g) := by
  cases h with
  | error h => exact .error h
  | ok h => exact hnext _ _ h

theorem foldlM {step : σ → α → Except ε σ} {step' : τ → α → Except ε' τ}
    (hstep : ∀ s t a, R s t → Lockstep E R (step s a) (step' t a)) :
    ∀ {xs : List α} {s : σ} {t : τ}, R s t → Lockstep E R (xs.foldlM step s) (xs.foldlM step' t) := by
  intro xs
  induction xs with
  | nil => exact fun h => .ok h
  | cons x xs ih => exact fun h => (hstep _ _ x h).bind fun _ _ h => ih h

theorem ensure {p : Prop} [Decidable p] {e : ε} {e' : ε'} (h : E e e') :
    Lockstep E (fun _ _ => p) (ensure p e) (ensure p e') := by
  unfold Recto.ensure
  split_ifs with hp
  · exact .ok hp
  · exact .error h

theorem of_ok {x : Except ε σ} {y : Except ε' τ} (h : Lockstep E R x y) {t : τ} (hy : y = .ok t) :
    ∃ s, x = .ok s ∧ R s t := by
  cases h with
  | error h => cases hy
  | ok h => exact ⟨_, rfl, Except.ok.inj hy ▸ h⟩

theorem error_iff {x : Except ε σ} {y : Except ε τ} (h : Lockstep (· = ·) R x y) (e : ε) :
    x = .error e ↔ y = .error e := by
  cases h with
  | error h => rw [h, Except.error.injEq, Except.error.injEq]
  | ok h => exact ⟨nofun, nofun⟩

end Lockstep

end Recto
