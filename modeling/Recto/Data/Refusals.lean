import Recto.Text.Handles
import Recto.Data.Checked

/-!
# Refusals by name

What a reader of untrusted values may end in: a result, a refusal by name, or an
exception nobody expects. The rules say when the exception is ruled out.
-/

namespace Recto

/-- A record, or a refusal by name. -/
def NamedOnly {ρ α : Type} (outcome : Except (Refused ρ) α) : Prop :=
  ∀ e, outcome ≠ .error (.raised e)

namespace NamedOnly

variable {ρ α β : Type}

theorem ok (a : α) : NamedOnly (.ok a : Except (Refused ρ) α) := nofun

theorem named (refusal : ρ) : NamedOnly (.error (.named refusal) : Except (Refused ρ) α) := nofun

theorem ensure (p : Prop) [Decidable p] (refusal : ρ) :
    NamedOnly (Recto.ensure p (.named refusal)) := by
  unfold Recto.ensure
  split_ifs
  · exact ok ()
  · exact named refusal

/-- After a step that refuses by name only, what counts is what follows it. -/
theorem bind_iff {x : Except (Refused ρ) α} {f : α → Except (Refused ρ) β} (hx : NamedOnly x) :
    NamedOnly (x >>= f) ↔ ∀ a, x = .ok a → NamedOnly (f a) := by
  cases x with
  | error e =>
    cases e with
    | named refusal => exact ⟨nofun, fun _ => named refusal⟩
    | raised e => exact absurd rfl (hx e)
  | ok a =>
    refine ⟨fun h a' ha => ?_, fun h => h a rfl⟩
    obtain rfl := Except.ok.inj ha
    exact h

theorem bind {x : Except (Refused ρ) α} {f : α → Except (Refused ρ) β} (hx : NamedOnly x)
    (hf : ∀ a, NamedOnly (f a)) : NamedOnly (x >>= f) :=
  (bind_iff hx).mpr fun a _ => hf a

theorem mapError (x : Except ρ α) : NamedOnly (x.mapError Refused.named) := by
  cases x with
  | error refusal => exact named refusal
  | ok a => exact ok a

/-- A sequence ends in an exception where one of its steps does. -/
theorem seq_iff {x : Except (Refused ρ) α} {f : α → Except (Refused ρ) β} :
    NamedOnly (x >>= f) ↔ NamedOnly x ∧ ∀ a, x = .ok a → NamedOnly (f a) := by
  constructor
  · intro h
    have hx : NamedOnly x := by
      rintro e rfl
      exact h e rfl
    exact ⟨hx, (bind_iff hx).mp h⟩
  · rintro ⟨hx, hf⟩
    exact (bind_iff hx).mpr hf

/-- A loop ends in an exception where the step of an element does that it reaches. -/
theorem foldlM_iff {f : β → α → Except (Refused ρ) β} (xs : List α) (b : β) :
    NamedOnly (xs.foldlM f b) ↔
      ∀ before x rest b', xs = before ++ x :: rest → before.foldlM f b = .ok b' →
        NamedOnly (f b' x) := by
  induction xs generalizing b with
  | nil =>
    refine ⟨fun _ before x rest b' h => ?_, fun _ => ok b⟩
    simp at h
  | cons x xs ih =>
    rw [List.foldlM_cons, seq_iff]
    constructor
    · rintro ⟨hx, hxs⟩ before y rest b' hsplit hbefore
      cases before with
      | nil =>
        obtain ⟨rfl, rfl⟩ := List.cons.inj hsplit
        obtain rfl := Except.pure_eq_ok.mp hbefore
        exact hx
      | cons z before =>
        obtain ⟨rfl, rfl⟩ := List.cons.inj hsplit
        rw [List.foldlM_cons, Except.bind_eq_ok] at hbefore
        obtain ⟨b₁, hb₁, hbefore⟩ := hbefore
        exact (ih b₁).mp (hxs b₁ hb₁) before y rest b' rfl hbefore
    · intro h
      refine ⟨h [] x xs b rfl rfl, fun b₁ hb₁ => (ih b₁).mpr ?_⟩
      intro before y rest b' hsplit hbefore
      refine h (x :: before) y rest b' (by rw [hsplit]; rfl) ?_
      rw [List.foldlM_cons, Except.bind_eq_ok]
      exact ⟨b₁, hb₁, hbefore⟩

/-- Values read one by one: an exception comes from one whose forerunners are all read. -/
theorem mapM_iff {f : α → Except (Refused ρ) β} (xs : List α) :
    NamedOnly (xs.mapM f) ↔
      ∀ before x rest, xs = before ++ x :: rest → (∃ ys, before.mapM f = .ok ys) →
        NamedOnly (f x) := by
  induction xs with
  | nil =>
    refine ⟨fun _ before x rest h => ?_, fun _ => ok []⟩
    simp at h
  | cons x xs ih =>
    rw [List.mapM_cons, seq_iff]
    have htail : ∀ y, NamedOnly (xs.mapM f >>= fun ys => pure (y :: ys)) ↔ NamedOnly (xs.mapM f) :=
      fun y => seq_iff.trans (and_iff_left fun _ _ => ok _)
    simp only [htail, ih]
    constructor
    · rintro ⟨hx, hxs⟩ before y rest hsplit ⟨ys, hbefore⟩
      cases before with
      | nil =>
        obtain ⟨rfl, rfl⟩ := List.cons.inj hsplit
        exact hx
      | cons z before =>
        obtain ⟨rfl, rfl⟩ := List.cons.inj hsplit
        rw [List.mapM_cons, Except.bind_eq_ok] at hbefore
        obtain ⟨b₁, hb₁, hbefore⟩ := hbefore
        obtain ⟨bs, hbs, -⟩ := Except.bind_eq_ok.mp hbefore
        exact hxs b₁ hb₁ before y rest rfl ⟨bs, hbs⟩
    · intro h
      refine ⟨h [] x xs rfl ⟨[], rfl⟩, fun b₁ hb₁ before y rest hsplit hbefore => ?_⟩
      obtain ⟨ys, hys⟩ := hbefore
      refine h (x :: before) y rest (by rw [hsplit]; rfl) ⟨b₁ :: ys, ?_⟩
      rw [List.mapM_cons, hb₁, hys]
      rfl

end NamedOnly

end Recto
