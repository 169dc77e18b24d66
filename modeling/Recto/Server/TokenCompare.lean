import Recto.Text.Chars

/-!
# Comparing tokens

`_constant_time_compare` compares the numbers of characters, and folds over the
two byte strings as far as the shorter one reaches. One text's bytes begin with
another's only where its characters do, so what the fold leaves out is what the
numbers of characters have already told apart.
-/

namespace Recto
namespace Server

/-- The loop: where two bytes differ the result is no longer zero. -/
def foldDifferences (result : ℕ) (pairs : List (UInt8 × UInt8)) : ℕ :=
  pairs.foldl (fun result p => result ||| (p.1 ^^^ p.2).toNat) result

/-- `_constant_time_compare` -/
def constantTimeCompare (a b : String) : Bool :=
  let result := if (chars a).length ≠ (chars b).length then 1 else 0
  decide (foldDifferences result ((utf8 a).zip (utf8 b)) = 0)

theorem foldDifferences_eq_zero {result : ℕ} {pairs : List (UInt8 × UInt8)} :
    foldDifferences result pairs = 0 ↔ result = 0 ∧ ∀ p ∈ pairs, p.1 = p.2 := by
  induction pairs generalizing result with
  | nil => simp [foldDifferences]
  | cons p pairs ih =>
    have hdiff : (p.1 ^^^ p.2).toNat = 0 ↔ p.1 = p.2 := by
      rw [← UInt8.toNat_zero, UInt8.toNat_inj, UInt8.xor_eq_zero_iff]
    rw [foldDifferences, List.foldl_cons, ← foldDifferences, ih, Nat.or_eq_zero_iff, hdiff,
      List.forall_mem_cons, and_assoc]

/-- Where two lists agree as far as both reach, one of them begins the other. -/
theorem prefix_or_prefix_of_zip {α : Type} {xs ys : List α} (h : ∀ p ∈ xs.zip ys, p.1 = p.2) :
    xs <+: ys ∨ ys <+: xs := by
  induction xs generalizing ys with
  | nil => exact .inl List.nil_prefix
  | cons x xs ih =>
    cases ys with
    | nil => exact .inr List.nil_prefix
    | cons y ys =>
      rw [List.zip_cons_cons, List.forall_mem_cons] at h
      obtain ⟨hxy, hrest⟩ := h
      obtain rfl : x = y := hxy
      simpa only [List.prefix_cons_inj] using ih hrest

theorem decodeUtf8_append (cs : List Char) (rest : Bytes) :
    decodeUtf8 (encodeUtf8 cs ++ rest) = cs ++ decodeUtf8 rest := by
  induction cs with
  | nil => rfl
  | cons c cs ih =>
    have hcons : encodeUtf8 (c :: cs) = String.utf8EncodeChar c ++ encodeUtf8 cs := List.flatMap_cons
    rw [hcons, List.append_assoc, decodeUtf8_encodeChar, ih, List.cons_append]

/-- Only a text's own beginning is encoded as the beginning of its bytes. -/
theorem startsWith_of_encodeUtf8 {cs ds : List Char} (h : encodeUtf8 cs <+: encodeUtf8 ds) :
    cs <+: ds := by
  obtain ⟨rest, hrest⟩ := h
  refine ⟨decodeUtf8 rest, ?_⟩
  rw [← decodeUtf8_append, hrest, decodeUtf8_encodeUtf8]

/-- The comparison of tokens is equality. -/
theorem constantTimeCompare_iff (a b : String) : constantTimeCompare a b = true ↔ a = b := by
  unfold constantTimeCompare
  rw [decide_eq_true_iff, foldDifferences_eq_zero]
  constructor
  · rintro ⟨hlength, hagree⟩
    have hlength : (chars a).length = (chars b).length := by
      by_contra hne
      rw [if_pos hne] at hlength
      exact one_ne_zero hlength
    have hchars : chars a = chars b := by
      rcases prefix_or_prefix_of_zip hagree with h | h
      · exact (startsWith_of_encodeUtf8 h).eq_of_length hlength
      · exact ((startsWith_of_encodeUtf8 h).eq_of_length hlength.symm).symm
    exact utf8_injective (congrArg encodeUtf8 hchars)
  · rintro rfl
    refine ⟨if_neg (not_not.mpr rfl), fun p hp => ?_⟩
    obtain ⟨i, hi, rfl⟩ := List.mem_iff_getElem.mp hp
    rw [List.getElem_zip]

end Server
end Recto
