import Mathlib.Tactic

/-!
# Computations that check as they go

A validator is a sequence of checks in `Except`: it succeeds exactly when every
one of them does. The lemmas here take a success apart into what each check
established, carry an invariant along a fold of such steps, and say what a
computation may raise.
-/

namespace Recto

universe u v w
variable {ε : Type u} {α β σ : Type v}

/-- Refuse with `e` unless the condition holds. -/
def ensure (p : Prop) [Decidable p] (e : ε) : Except ε Unit := if p then .ok () else .error e

@[simp] theorem ensure_eq_ok {p : Prop} [Decidable p] {e : ε} {a : Unit} :
    ensure p e = .ok a ↔ p := by
  unfold ensure
  split_ifs with h <;> simp [h]

namespace Except

theorem bind_eq_ok {x : Except ε α} {f : α → Except ε β} {b : β} :
    (x >>= f) = .ok b ↔ ∃ a, x = .ok a ∧ f a = .ok b := by
  cases x with
  | error e => simp [bind, Except.bind]
  | ok a => simp [bind, Except.bind]

@[simp] theorem pure_eq_ok {a b : α} : (pure a : Except ε α) = .ok b ↔ a = b := by
  simp [pure, Except.pure]

@[simp] theorem throw_ne_ok {e : ε} {a : α} : (throw e : Except ε α) ≠ .ok a := by
  simp [throw, throwThe, MonadExceptOf.throw]

theorem map_eq_ok {x : Except ε α} {f : α → β} {b : β} :
    x.map f = .ok b ↔ ∃ a, x = .ok a ∧ f a = b := by
  cases x <;> simp [Except.map]

end Except

/-! ## Folds of checked steps -/

variable {τ : Type w} {step : σ → τ → Except ε σ}

theorem foldlM_append_eq_ok {xs ys : List τ} {s t : σ} :
    (xs ++ ys).foldlM step s = .ok t ↔
      ∃ m, xs.foldlM step s = .ok m ∧ ys.foldlM step m = .ok t := by
  rw [List.foldlM_append, Except.bind_eq_ok]

theorem foldlM_concat_eq_ok {xs : List τ} {x : τ} {s t : σ} :
    (xs ++ [x]).foldlM step s = .ok t ↔ ∃ m, xs.foldlM step s = .ok m ∧ step m x = .ok t := by
  rw [foldlM_append_eq_ok]
  simp

/-- An accepted list is accepted up to any of its items, and the item is a step from there. -/
theorem foldlM_take {xs : List τ} {s t : σ} (h : xs.foldlM step s = .ok t) (i : ℕ) :
    ∃ m, (xs.take i).foldlM step s = .ok m ∧ (xs.drop i).foldlM step m = .ok t := by
  rw [← foldlM_append_eq_ok, List.take_append_drop]
  exact h

theorem foldlM_take_step {xs : List τ} {s t : σ} (h : xs.foldlM step s = .ok t) {i : ℕ} {x : τ}
    (hx : xs[i]? = some x) :
    ∃ m m', (xs.take i).foldlM step s = .ok m ∧ step m x = .ok m' ∧
      (xs.take (i + 1)).foldlM step s = .ok m' := by
  obtain ⟨m', hm', -⟩ := foldlM_take h (i + 1)
  have hsplit : xs.take (i + 1) = xs.take i ++ [x] := by
    rw [List.take_add_one, hx, Option.toList_some]
  rw [hsplit] at hm'
  obtain ⟨m, hm, hstep⟩ := foldlM_concat_eq_ok.mp hm'
  exact ⟨m, m', hm, hstep, by rw [hsplit, hm']⟩

/-- An invariant of the state and the items read so far, kept by every accepted step, holds at the
end of every accepted list. -/
theorem foldlM_invariant {Inv : List τ → σ → Prop} {s₀ : σ} (h₀ : Inv [] s₀)
    (hstep : ∀ xs s x t, Inv xs s → step s x = .ok t → Inv (xs ++ [x]) t) :
    ∀ {xs : List τ} {t : σ}, xs.foldlM step s₀ = .ok t → Inv xs t := by
  intro xs
  induction xs using List.reverseRecOn with
  | nil =>
    intro t h
    simp only [List.foldlM_nil, Except.pure_eq_ok] at h
    exact h ▸ h₀
  | append_singleton xs x ih =>
    intro t h
    obtain ⟨m, hm, hx⟩ := foldlM_concat_eq_ok.mp h
    exact hstep xs m x t (ih hm) hx

/-- A relation that is reflexive, transitive and kept by every accepted step relates the ends of
every accepted list. -/
theorem foldlM_related {R : σ → σ → Prop} (hrefl : ∀ s, R s s)
    (htrans : ∀ {a b c}, R a b → R b c → R a c)
    (hstep : ∀ s x t, step s x = .ok t → R s t) :
    ∀ {xs : List τ} {s t : σ}, xs.foldlM step s = .ok t → R s t := by
  intro xs
  induction xs with
  | nil =>
    intro s t h
    simp only [List.foldlM_nil, Except.pure_eq_ok] at h
    exact h ▸ hrefl s
  | cons x xs ih =>
    intro s t h
    rw [List.foldlM_cons, Except.bind_eq_ok] at h
    obtain ⟨m, hm, hrest⟩ := h
    exact htrans (hstep s x m hm) (ih hrest)

/-! ## Computations that return

When a computation ends without an exception, and when every exception it can
end with is of a kind that its caller catches. -/

section
variable {x : Except ε α} {kind : ε → Prop}

/-- It raises nothing. -/
def Returns (x : Except ε α) : Prop := ∃ a, x = .ok a

/-- What it raises is of the kind. -/
def Catches (kind : ε → Prop) (x : Except ε α) : Prop := ∀ e, x = .error e → kind e

@[simp] theorem returns_ok {a : α} : Returns (.ok a : Except ε α) := ⟨a, rfl⟩

@[simp] theorem returns_pure {a : α} : Returns (pure a : Except ε α) := ⟨a, rfl⟩

@[simp] theorem not_returns_error {e : ε} : ¬Returns (.error e : Except ε α) := by
  rintro ⟨a, h⟩
  cases h

@[simp] theorem catches_ok {a : α} : Catches kind (.ok a : Except ε α) := by
  intro e h
  cases h

@[simp] theorem catches_pure {a : α} : Catches kind (pure a : Except ε α) := catches_ok

@[simp] theorem catches_error {e : ε} : Catches kind (.error e : Except ε α) ↔ kind e := by
  constructor
  · exact fun h => h e rfl
  · intro h e' he
    obtain rfl := Except.error.inj he
    exact h

theorem returns_bind {f : α → Except ε β} :
    Returns (x >>= f) ↔ ∃ a, x = .ok a ∧ Returns (f a) := by
  unfold Returns
  simp only [Except.bind_eq_ok]
  constructor
  · rintro ⟨b, a, hx, hf⟩
    exact ⟨a, hx, b, hf⟩
  · rintro ⟨a, hx, b, hf⟩
    exact ⟨b, a, hx, hf⟩

/-- What follows returns under a condition that the value does not matter to. -/
theorem returns_bind_const {f : α → Except ε β} {p : Prop} (hf : ∀ a, x = .ok a → (Returns (f a) ↔ p)) :
    Returns (x >>= f) ↔ Returns x ∧ p := by
  rw [returns_bind]
  constructor
  · rintro ⟨a, hx, h⟩
    exact ⟨⟨a, hx⟩, (hf a hx).mp h⟩
  · rintro ⟨⟨a, hx⟩, hp⟩
    exact ⟨a, hx, (hf a hx).mpr hp⟩

/-- What follows always returns. -/
theorem returns_bind_pure {f : α → Except ε β} (hf : ∀ a, Returns (f a)) :
    Returns (x >>= f) ↔ Returns x := by
  rw [returns_bind_const fun a _ => iff_true_intro (hf a), and_true]

@[simp] theorem returns_map {f : α → β} : Returns (x.map f) ↔ Returns x := by
  cases x <;> simp [Except.map]

theorem catches_bind_const {f : α → Except ε β} {p : Prop} (hf : ∀ a, Catches kind (f a) ↔ p) :
    Catches kind (x >>= f) ↔ Catches kind x ∧ (Returns x → p) := by
  cases x with
  | error e =>
    change Catches kind (.error e) ↔ _
    simp
  | ok a =>
    change Catches kind (f a) ↔ _
    simp [hf]

@[simp] theorem catches_map {f : α → β} : Catches kind (x.map f) ↔ Catches kind x := by
  cases x <;> simp [Except.map]

theorem returns_mapM {f : α → Except ε β} {xs : List α} :
    Returns (xs.mapM f) ↔ ∀ a ∈ xs, Returns (f a) := by
  induction xs with
  | nil => simp
  | cons a xs ih =>
    rw [List.mapM_cons, List.forall_mem_cons,
      returns_bind_const fun _ _ => (returns_bind_pure fun _ => returns_pure).trans ih]

theorem catches_mapM {f : α → Except ε β} {xs : List α} (h : ∀ a ∈ xs, Catches kind (f a)) :
    Catches kind (xs.mapM f) := by
  induction xs with
  | nil => simp
  | cons a xs ih =>
    obtain ⟨ha, hxs⟩ := List.forall_mem_cons.mp h
    rw [List.mapM_cons]
    exact (catches_bind_const fun _ => (catches_bind_const fun _ => iff_true_intro catches_pure)).mpr
      ⟨ha, fun _ => ⟨ih hxs, fun _ => trivial⟩⟩

/-- Of computations one after the other, each is reached only if those before it return, and what the
first of them to raise raises is of the kind. -/
def CatchesFirst (kind : ε → Prop) : List (Except ε Unit) → Prop
  | [] => True
  | x :: xs => Catches kind x ∧ (Returns x → CatchesFirst kind xs)

end

/-! ## What a computation may raise -/

section
variable {ε' : Type u} {kind : ε → Prop}

theorem Except.bind_eq_error {x : Except ε α} {f : α → Except ε β} {e : ε} :
    (x >>= f) = .error e ↔ x = .error e ∨ ∃ a, x = .ok a ∧ f a = .error e := by
  cases x with
  | error e' => simp [bind, Except.bind]
  | ok a => simp [bind, Except.bind]

/-- A list is refused at its first item that is. -/
theorem mapM_eq_error {f : α → Except ε β} {e : ε} {xs : List α} :
    xs.mapM f = .error e ↔ ∃ before x after, xs = before ++ x :: after ∧
      (∀ y ∈ before, ∃ b, f y = .ok b) ∧ f x = .error e := by
  induction xs with
  | nil => simp [pure, Except.pure]
  | cons x xs ih =>
    rw [List.mapM_cons, Except.bind_eq_error]
    constructor
    · rintro (hx | ⟨b, hx, h⟩)
      · exact ⟨[], x, xs, rfl, by simp, hx⟩
      · obtain hxs | ⟨bs, -, hbs⟩ := Except.bind_eq_error.mp h
        · obtain ⟨before, y, after, rfl, hbefore, hy⟩ := ih.mp hxs
          exact ⟨x :: before, y, after, rfl, List.forall_mem_cons.mpr ⟨⟨b, hx⟩, hbefore⟩, hy⟩
        · cases hbs
    · rintro ⟨before, y, after, hsplit, hbefore, hy⟩
      cases before with
      | nil =>
        obtain ⟨rfl, rfl⟩ := List.cons.inj hsplit
        exact .inl hy
      | cons x' before =>
        obtain ⟨rfl, rfl⟩ := List.cons.inj hsplit
        obtain ⟨⟨b, hx⟩, hbefore⟩ := List.forall_mem_cons.mp hbefore
        exact .inr ⟨b, hx, Except.bind_eq_error.mpr
          (.inl (ih.mpr ⟨before, y, after, rfl, hbefore, hy⟩))⟩

/-- Whatever is raised is of the kind. -/
def OnlyRaises (kind : ε → Prop) (x : Except ε α) : Prop := ∀ e, x = .error e → kind e

namespace OnlyRaises

theorem ok (a : α) : OnlyRaises kind (.ok a : Except ε α) := nofun

theorem error {e : ε} (h : kind e) : OnlyRaises kind (.error e : Except ε α) := by
  intro e' he
  obtain rfl := Except.error.inj he
  exact h

theorem ensure (p : Prop) [Decidable p] {e : ε} (h : kind e) : OnlyRaises kind (Recto.ensure p e) := by
  unfold Recto.ensure
  split_ifs
  · exact ok ()
  · exact error h

theorem bind {x : Except ε α} {f : α → Except ε β} (hx : OnlyRaises kind x)
    (hf : ∀ a, x = .ok a → OnlyRaises kind (f a)) : OnlyRaises kind (x >>= f) := by
  cases x with
  | ok a => exact hf a rfl
  | error e => exact error (hx e rfl)

/-- A list raises what its items raise. -/
theorem mapM {f : α → Except ε β} {xs : List α} (h : ∀ x ∈ xs, OnlyRaises kind (f x)) :
    OnlyRaises kind (xs.mapM f) := by
  intro e he
  obtain ⟨before, x, after, rfl, -, hx⟩ := mapM_eq_error.mp he
  exact h x (List.mem_append_right _ List.mem_cons_self) e hx

theorem mapError {x : Except ε α} {f : ε → ε'} {kind' : ε' → Prop}
    (h : OnlyRaises (fun e => kind' (f e)) x) : OnlyRaises kind' (x.mapError f) := by
  cases x with
  | ok a => exact ok a
  | error e => exact error (h e rfl)

end OnlyRaises

end

end Recto
