import Mathlib.Data.Nat.Bitwise
import Recto.Data.Positional

/-!
# Digits as strings of bits

Digits of a fixed number of bits are a string of bits, and the same string is
read in groups of another length by whoever regroups them. Two groupings hold
the same data when their strings agree.
-/

namespace Recto
namespace Positional

/-- The lowest `width` bits of a number, the highest of them first. -/
def bits : ℕ → ℕ → List Bool
  | 0, _ => []
  | width + 1, n => bits width (n / 2) ++ [decide (n % 2 = 1)]

/-- The bits of a list of digits. -/
def bitsOf (width : ℕ) (ds : List ℕ) : List Bool := ds.flatMap (bits width)

variable {a b w n m k : ℕ} {ds es : List ℕ}

@[simp] theorem length_bits : ∀ w n, (bits w n).length = w := by
  intro w
  induction w with
  | zero => exact fun _ => rfl
  | succ w ih =>
    intro n
    rw [bits, List.length_append, ih, List.length_singleton]

theorem bits_zero (w : ℕ) : bits w 0 = List.replicate w false := by
  induction w with
  | zero => rfl
  | succ w ih =>
    rw [bits, Nat.zero_div, ih, List.replicate_succ']
    rfl

theorem bits_add (a : ℕ) : ∀ b n, bits (a + b) n = bits a (n / 2 ^ b) ++ bits b n := by
  intro b
  induction b with
  | zero => simp [bits]
  | succ b ih =>
    intro n
    rw [← Nat.add_assoc, bits, ih, bits, Nat.div_div_eq_div_mul, ← Nat.pow_succ', List.append_assoc]

/-- Only the remainder counts. -/
theorem bits_mul_add (w m : ℕ) : ∀ n, bits w (m * 2 ^ w + n) = bits w n := by
  induction w with
  | zero => exact fun _ => rfl
  | succ w ih =>
    intro n
    have htwice : m * 2 ^ (w + 1) = 2 * (m * 2 ^ w) := by
      rw [Nat.pow_succ]
      ring
    have hhalf : (m * 2 ^ (w + 1) + n) / 2 = m * 2 ^ w + n / 2 := by omega
    have hparity : (m * 2 ^ (w + 1) + n) % 2 = n % 2 := by omega
    rw [bits, bits, hhalf, hparity, ih]

theorem bits_mod (w n : ℕ) : bits w (n % 2 ^ w) = bits w n := by
  have h := bits_mul_add w (n / 2 ^ w) (n % 2 ^ w)
  rwa [Nat.div_add_mod', eq_comm] at h

theorem bits_injective (hn : n < 2 ^ w) (hm : m < 2 ^ w) (h : bits w n = bits w m) : n = m := by
  induction w generalizing n m with
  | zero =>
    rw [Nat.pow_zero] at hn hm
    omega
  | succ w ih =>
    rw [Nat.pow_succ] at hn hm
    obtain ⟨hhalf, hparity⟩ := List.append_inj h (by rw [length_bits, length_bits])
    have hhalf := ih (by omega) (by omega) hhalf
    have hparity : (n % 2 = 1) ↔ (m % 2 = 1) := by simpa using hparity
    omega

theorem bits_eq_replicate_iff : bits w n = List.replicate w false ↔ n % 2 ^ w = 0 := by
  have hpos : 0 < 2 ^ w := Nat.two_pow_pos w
  rw [← bits_zero, ← bits_mod w n]
  exact ⟨bits_injective (Nat.mod_lt _ hpos) hpos, fun h => by rw [h]⟩

/-! ## Lists of digits -/

@[simp] theorem bitsOf_nil (w : ℕ) : bitsOf w [] = [] := rfl

theorem bitsOf_cons (w d : ℕ) (ds : List ℕ) : bitsOf w (d :: ds) = bits w d ++ bitsOf w ds :=
  List.flatMap_cons

theorem bitsOf_append (w : ℕ) (ds es : List ℕ) : bitsOf w (ds ++ es) = bitsOf w ds ++ bitsOf w es :=
  List.flatMap_append

theorem bitsOf_flatten (w : ℕ) (bs : List (List ℕ)) : bitsOf w bs.flatten = bs.flatMap (bitsOf w) := by
  induction bs with
  | nil => rfl
  | cons b bs ih => rw [List.flatten_cons, bitsOf_append, ih, List.flatMap_cons]

@[simp] theorem length_bitsOf (w : ℕ) (ds : List ℕ) : (bitsOf w ds).length = w * ds.length := by
  induction ds with
  | nil => rfl
  | cons d ds ih =>
    rw [bitsOf_cons, List.length_append, length_bits, ih, List.length_cons, Nat.mul_succ, Nat.add_comm]

theorem bitsOf_replicate_zero (w k : ℕ) : bitsOf w (List.replicate k 0) =
    List.replicate (w * k) false := by
  induction k with
  | zero => rfl
  | succ k ih =>
    rw [List.replicate_succ, bitsOf_cons, ih, bits_zero, List.replicate_append_replicate,
      Nat.mul_succ, Nat.add_comm]

theorem bitsOf_take (w : ℕ) (ds : List ℕ) (k : ℕ) :
    bitsOf w (ds.take k) = (bitsOf w ds).take (w * k) := by
  induction ds generalizing k with
  | nil => simp
  | cons d ds ih =>
    cases k with
    | zero => simp
    | succ k =>
      have hfirst : (bits w d).length ≤ w * (k + 1) := by
        rw [length_bits, Nat.mul_succ]
        omega
      rw [List.take_succ_cons, bitsOf_cons, bitsOf_cons, ih, List.take_append, length_bits,
        List.take_of_length_le hfirst, Nat.mul_succ, Nat.add_sub_cancel]

/-- A list of digits is one number, bit for bit. -/
theorem bitsOf_eq_bits (h : ∀ d ∈ ds, d < 2 ^ w) :
    bitsOf w ds = bits (w * ds.length) (value (2 ^ w) ds) := by
  induction ds using List.reverseRecOn with
  | nil => rfl
  | append_singleton ds d ih =>
    have hds : ∀ d ∈ ds, d < 2 ^ w := fun e he => h e (List.mem_append_left _ he)
    have hd : d < 2 ^ w := h d (List.mem_append_right _ (List.mem_singleton.mpr rfl))
    have hquot : (value (2 ^ w) ds * 2 ^ w + d) / 2 ^ w = value (2 ^ w) ds := by
      rw [Nat.mul_comm, Nat.mul_add_div (Nat.two_pow_pos w), Nat.div_eq_of_lt hd, Nat.add_zero]
    rw [bitsOf_append, ih hds, value_append, List.foldl_cons, List.foldl_nil, List.length_append,
      List.length_singleton, Nat.mul_add, Nat.mul_one, bits_add, hquot, bits_mul_add, bitsOf_cons,
      bitsOf_nil, List.append_nil]

theorem bitsOf_injective (hw : 0 < w) (hds : ∀ d ∈ ds, d < 2 ^ w) (hes : ∀ d ∈ es, d < 2 ^ w)
    (h : bitsOf w ds = bitsOf w es) : ds = es := by
  induction ds generalizing es with
  | nil =>
    have hlength := congrArg List.length h
    rw [length_bitsOf, length_bitsOf, List.length_nil, Nat.mul_zero, eq_comm, Nat.mul_eq_zero] at hlength
    exact (List.length_eq_zero_iff.mp (hlength.resolve_left (by omega))).symm
  | cons d ds ih =>
    cases es with
    | nil =>
      have hlength := congrArg List.length h
      rw [length_bitsOf, length_bitsOf, List.length_cons, List.length_nil, Nat.mul_zero,
        Nat.mul_eq_zero] at hlength
      omega
    | cons e es =>
      obtain ⟨hd, hds⟩ := List.forall_mem_cons.mp hds
      obtain ⟨he, hes⟩ := List.forall_mem_cons.mp hes
      rw [bitsOf_cons, bitsOf_cons] at h
      obtain ⟨hfirst, hrest⟩ := List.append_inj h (by rw [length_bits, length_bits])
      rw [bits_injective hd he hfirst, ih hds hes hrest]

/-! ## Differences -/

theorem mul_two_pow_add_xor (a c : ℕ) {b d : ℕ} (hb : b < 2 ^ k) (hd : d < 2 ^ k) :
    (a * 2 ^ k + b) ^^^ (c * 2 ^ k + d) = (a ^^^ c) * 2 ^ k + (b ^^^ d) := by
  refine Nat.eq_of_testBit_eq fun i => ?_
  rw [Nat.testBit_xor, Nat.mul_comm a, Nat.mul_comm c, Nat.mul_comm (a ^^^ c),
    Nat.testBit_two_pow_mul_add _ hb, Nat.testBit_two_pow_mul_add _ hd,
    Nat.testBit_two_pow_mul_add _ (Nat.xor_lt_two_pow hb hd)]
  split_ifs <;> simp

/-- Numbers differ where their digits differ. -/
theorem value_xor : ∀ {ds es : List ℕ}, ds.length = es.length → (∀ d ∈ ds, d < 2 ^ w) →
    (∀ e ∈ es, e < 2 ^ w) → value (2 ^ w) ds ^^^ value (2 ^ w) es =
      value (2 ^ w) (List.zipWith (· ^^^ ·) ds es) := by
  intro ds
  induction ds using List.reverseRecOn with
  | nil =>
    intro es hlength _ _
    rw [List.eq_nil_of_length_eq_zero hlength.symm]
    exact Nat.xor_self _
  | append_singleton ds d ih =>
    intro es hlength hds hes
    rcases List.eq_nil_or_concat es with rfl | ⟨es, e, rfl⟩
    · simp at hlength
    · rw [List.concat_eq_append] at hlength hes ⊢
      have hlength : ds.length = es.length := by simpa using hlength
      obtain ⟨hds, hd⟩ := List.forall_mem_append.mp hds
      obtain ⟨hes, he⟩ := List.forall_mem_append.mp hes
      rw [List.zipWith_append hlength, value_append, value_append, value_append, ← ih hlength hds hes]
      exact mul_two_pow_add_xor _ _ (hd d (List.mem_singleton.mpr rfl))
        (he e (List.mem_singleton.mpr rfl))

end Positional
end Recto
