import Recto.Data.Lockstep
import Recto.Data.Records

/-!
# Lists read item by item

A function that may fail, mapped over a list: when it succeeds and with what,
when it fails, and what carries over from its results to the list of them.
-/

namespace Recto

variable {α β ε : Type}

theorem mapM_eq_ok_iff {f : α → Except ε β} {xs : List α} {ys : List β} :
    xs.mapM f = .ok ys ↔ List.Forall₂ (fun x y => f x = .ok y) xs ys := by
  induction xs generalizing ys with
  | nil => simp [pure, Except.pure, eq_comm]
  | cons x xs ih =>
    simp only [List.mapM_cons, Except.bind_eq_ok, Except.pure_eq_ok, List.forall₂_cons_left_iff, ih]
    constructor
    · rintro ⟨y, hy, ys', hys, rfl⟩
      exact ⟨y, ys', hy, hys, rfl⟩
    · rintro ⟨y, ys', hy, hys, rfl⟩
      exact ⟨y, hy, ys', hys, rfl⟩

theorem toOption_mapM (f : α → Except ε β) (xs : List α) :
    (xs.mapM f).toOption = xs.mapM fun x => (f x).toOption := by
  induction xs with
  | nil => rfl
  | cons x xs ih =>
    rw [List.mapM_cons, List.mapM_cons, toOption_bind]
    refine congrArg _ (funext fun y => ?_)
    rw [toOption_bind, ih]
    rfl

theorem mapM_eq_none_iff {f : α → Option β} {xs : List α} :
    xs.mapM f = none ↔ ∃ x ∈ xs, f x = none := by
  induction xs with
  | nil => simp
  | cons x xs ih =>
    cases hx : f x with
    | none => simp [List.mapM_cons, hx]
    | some y =>
      cases hxs : xs.mapM f with
      | none =>
        obtain ⟨z, hz, hfz⟩ := ih.mp hxs
        simp only [List.mapM_cons, hx, hxs, List.mem_cons]
        exact ⟨fun _ => ⟨z, .inr hz, hfz⟩, fun _ => rfl⟩
      | some ys =>
        have hsome : ∀ z ∈ xs, f z ≠ none := fun z hz hfz =>
          absurd (hxs.symm.trans (ih.mpr ⟨z, hz, hfz⟩)) (Option.some_ne_none _)
        simp only [List.mapM_cons, hx, hxs, List.mem_cons]
        refine ⟨nofun, ?_⟩
        rintro ⟨z, rfl | hz, hfz⟩
        · exact absurd (hx.symm.trans hfz) (Option.some_ne_none _)
        · exact absurd hfz (hsome z hz)

theorem mapM_congr {f g : α → Option β} {xs : List α} (h : ∀ x ∈ xs, f x = g x) :
    xs.mapM f = xs.mapM g := by
  refine Option.ext fun ys => ?_
  rw [mapM_eq_some_iff, mapM_eq_some_iff]
  induction xs generalizing ys with
  | nil => simp
  | cons x xs ih =>
    simp only [List.forall₂_cons_left_iff, h x List.mem_cons_self,
      ih fun x' hx' => h x' (List.mem_cons_of_mem _ hx')]

theorem forall_of_forall₂ {R : α → β → Prop} {p : α → Prop} {q : β → Prop}
    {xs : List α} {ys : List β} (h : List.Forall₂ R xs ys) (hR : ∀ {x y}, R x y → p x ∧ q y) :
    (∀ x ∈ xs, p x) ∧ ∀ y ∈ ys, q y := by
  induction h with
  | nil => exact ⟨fun x hx => absurd hx List.not_mem_nil, fun y hy => absurd hy List.not_mem_nil⟩
  | cons hxy _ ih =>
    exact ⟨List.forall_mem_cons.mpr ⟨(hR hxy).1, ih.1⟩, List.forall_mem_cons.mpr ⟨(hR hxy).2, ih.2⟩⟩

end Recto
