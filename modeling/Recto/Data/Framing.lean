import Mathlib.Tactic

/-!
# Messages behind a header of their length

A header that depends on the length of what follows, and does not get shorter as
that grows, leaves one reading: the whole length gives the length of the message.
-/

namespace Recto

universe u
variable {α : Type u}

/-- A header for each length, no shorter for a longer message. -/
structure Framing (α : Type u) where
  header : ℕ → List α
  mono : Monotone fun n => (header n).length

namespace Framing

def frame (f : Framing α) (message : List α) : List α := f.header message.length ++ message

theorem length_frame (f : Framing α) (message : List α) :
    (f.frame message).length = (f.header message.length).length + message.length :=
  List.length_append

theorem frame_injective (f : Framing α) : Function.Injective f.frame := by
  intro xs ys h
  have hwhole := congrArg List.length h
  rw [length_frame, length_frame] at hwhole
  have hlength : xs.length = ys.length := by
    rcases lt_trichotomy xs.length ys.length with hlt | heq | hlt
    · have hheader := f.mono hlt.le
      simp only at hheader
      omega
    · exact heq
    · have hheader := f.mono hlt.le
      simp only at hheader
      omega
  have hheader : f.header xs.length = f.header ys.length := by rw [hlength]
  exact (List.append_inj h (congrArg List.length hheader)).2

/-- No header at all. -/
def bare : Framing α where
  header _ := []
  mono := monotone_const

@[simp] theorem frame_bare (message : List α) : bare.frame message = message := rfl

end Framing

/-! ## Preambles -/

/-- A list of starts none of which begins another. -/
def StartsApart (starts : List (List α)) : Prop :=
  ∀ s ∈ starts, ∀ t ∈ starts, s <+: t → s = t

theorem StartsApart.eq_of_append {starts : List (List α)} (h : StartsApart starts) {s t xs ys : List α}
    (hs : s ∈ starts) (ht : t ∈ starts) (heq : s ++ xs = t ++ ys) : s = t ∧ xs = ys := by
  have hstart : s = t := by
    have hpre : s <+: t ++ ys := heq ▸ List.prefix_append s xs
    rcases List.prefix_or_prefix_of_prefix hpre (List.prefix_append t ys) with hst | hts
    · exact h s hs t ht hst
    · exact (h t ht s hs hts).symm
  subst hstart
  exact ⟨rfl, List.append_cancel_left heq⟩

end Recto
