import Mathlib.Data.List.Infix
import Mathlib.Tactic

/-!
# Three parts joined by a separator

A part may hold the separator itself, as long as it holds something else too.
The joined text can then be taken apart in one way only exactly when the
separators of the first part all lead it, the middle part has none, and those of
the last part all trail it.
-/

namespace Recto

universe u
variable {α : Type u} {sep : α} {x y z x' y' z' p a b : List α}

/-- The part holds something other than separators. -/
def Solid (sep : α) (p : List α) : Prop := ∃ c ∈ p, c ≠ sep

/-- Nothing stands before a separator of the part but separators. -/
def LeadingOnly (sep : α) (p : List α) : Prop := ∀ a b, p = a ++ sep :: b → ¬Solid sep a

/-- Nothing stands after a separator of the part but separators. -/
def TrailingOnly (sep : α) (p : List α) : Prop := ∀ a b, p = a ++ sep :: b → ¬Solid sep b

/-- The three parts with a separator between each two. -/
def joined (sep : α) (x y z : List α) : List α := x ++ sep :: (y ++ sep :: z)

theorem joined_assoc (x y z : List α) : joined sep x y z = (x ++ sep :: y) ++ sep :: z := by
  simp [joined]

theorem Solid.append_left (h : Solid sep b) (a : List α) : Solid sep (a ++ b) := by
  obtain ⟨c, hc, hne⟩ := h
  exact ⟨c, List.mem_append_right a hc, hne⟩

theorem solid_append_cons : Solid sep (a ++ sep :: b) ↔ Solid sep a ∨ Solid sep b := by
  simp [Solid, or_and_right, exists_or]

/-! ## Taking the text apart -/

/-- The last separator of a text cuts it in one way. -/
theorem cut_last (hy : sep ∉ y) (hy' : sep ∉ y') (h : x ++ sep :: y = x' ++ sep :: y') :
    x = x' ∧ y = y' := by
  classical
  have hafter : ∀ {a b : List α}, sep ∉ b →
      ((a ++ sep :: b).reverse.takeWhile fun c => c ≠ sep) = b.reverse := by
    intro a b hb
    have hall : ∀ c ∈ b.reverse, decide (c ≠ sep) = true := by
      intro c hc
      simpa using ne_of_mem_of_not_mem (List.mem_reverse.mp hc) hb
    rw [List.reverse_append, List.reverse_cons, List.append_assoc,
      List.takeWhile_append_of_pos hall]
    simp
  have hyy : y = y' := by
    rw [← List.reverse_inj, ← hafter (a := x) hy, ← hafter (a := x') hy', h]
  subst hyy
  exact ⟨List.append_cancel_right h, rfl⟩

/-- Another first part is at least as long. -/
theorem LeadingOnly.leads (hx : LeadingOnly sep x) (hx' : Solid sep x')
    (h : x ++ sep :: a = x' ++ sep :: b) : x <+: x' := by
  have hfirst : x <+: x' ++ sep :: b := ⟨sep :: a, h⟩
  rcases List.prefix_or_prefix_of_prefix hfirst (List.prefix_append x' (sep :: b)) with
    hle | ⟨rest, rfl⟩
  · exact hle
  · cases rest with
    | nil => simp
    | cons c rest =>
      have hc : c = sep := by
        have := h
        simp only [List.append_assoc, List.cons_append, List.append_cancel_left_eq,
          List.cons.injEq] at this
        exact this.1
      exact absurd hx' (hx x' rest (by rw [hc]))

/-- Another last part is at least as long. -/
theorem TrailingOnly.trails (hz : TrailingOnly sep z) (hz' : Solid sep z')
    (h : a ++ sep :: z = b ++ sep :: z') : z <:+ z' := by
  have hlast : z <:+ b ++ sep :: z' := ⟨a ++ [sep], by simpa using h⟩
  have hlast' : z' <:+ b ++ sep :: z' := ⟨b ++ [sep], by simp⟩
  rcases List.suffix_or_suffix_of_suffix hlast hlast' with hle | ⟨rest, rfl⟩
  · exact hle
  · rcases List.eq_nil_or_concat' rest with rfl | ⟨rest, c, rfl⟩
    · simp
    · have hc : c = sep := by
        have hcut : (a ++ sep :: rest) ++ [c] = b ++ [sep] := by
          have := h
          rw [show a ++ sep :: (rest ++ [c] ++ z') = ((a ++ sep :: rest) ++ [c]) ++ z' by simp,
            show b ++ sep :: z' = (b ++ [sep]) ++ z' by simp] at this
          exact List.append_cancel_right this
        exact (List.append_inj' hcut rfl).2 |> List.singleton_inj.mp
      exact absurd hz' (hz rest z' (by simp [hc]))

theorem joined_unique [DecidableEq α] (hx : LeadingOnly sep x) (hy : sep ∉ y)
    (hz : TrailingOnly sep z) (hx' : Solid sep x') (hz' : Solid sep z')
    (h : joined sep x' y' z' = joined sep x y z) : x' = x ∧ y' = y ∧ z' = z := by
  obtain ⟨u, rfl⟩ := hx.leads hx' h.symm
  obtain ⟨v, rfl⟩ := hz.trails hz' (a := x ++ sep :: y) (b := x ++ u ++ sep :: y')
    (by rw [← joined_assoc, ← joined_assoc, h])
  have hmiddle : u ++ sep :: (y' ++ sep :: v) = sep :: (y ++ [sep]) := by
    have hcut : x ++ (u ++ sep :: (y' ++ sep :: v)) ++ z = x ++ (sep :: (y ++ [sep])) ++ z := by
      simpa [joined] using h
    exact List.append_cancel_left (List.append_cancel_right hcut)
  -- The middle has two separators, so the pieces beside them have none.
  have hcount := congrArg (List.count sep) hmiddle
  simp only [List.count_append, List.count_cons_self, List.count_eq_zero_of_not_mem hy,
    List.count_nil] at hcount
  have hu : u = [] := by
    cases u with
    | nil => rfl
    | cons c u =>
      rw [List.cons_append, List.cons.injEq] at hmiddle
      rw [hmiddle.1, List.count_cons_self] at hcount
      omega
  subst hu
  have hrest : y' ++ sep :: v = y ++ [sep] := (List.cons.inj hmiddle).2
  have hv : v = [] := by
    rcases List.eq_nil_or_concat' v with rfl | ⟨v, c, rfl⟩
    · rfl
    · have hcut : (y' ++ sep :: v) ++ [c] = y ++ [sep] := by simpa using hrest
      have hc : c = sep := List.singleton_inj.mp (List.append_inj' hcut rfl).2
      rw [hc] at hcount
      simp only [List.count_append, List.count_singleton_self] at hcount
      omega
  subst hv
  exact ⟨by simp, List.append_cancel_right hrest, by simp⟩

end Recto
