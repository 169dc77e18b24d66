import Recto.Data.Bits

/-!
# Strings of bits read in groups

A string of bits is read as digits of a fixed number of bits. When the length is
a multiple, nothing is lost: the digits spell the same string again.
-/

namespace Recto
namespace Positional

/-- The number a string of bits spells, the highest bit first. -/
def ofBits (bs : List Bool) : ℕ := bs.foldl (fun n b => 2 * n + b.toNat) 0

/-- The first `count` groups of `width` bits. -/
def groups (width : ℕ) : ℕ → List Bool → List ℕ
  | 0, _ => []
  | count + 1, bs => ofBits (bs.take width) :: groups width count (bs.drop width)

variable {w count d : ℕ} {bs : List Bool} {ds : List ℕ}

theorem ofBits_concat (bs : List Bool) (b : Bool) : ofBits (bs ++ [b]) = 2 * ofBits bs + b.toNat :=
  List.foldl_append

theorem ofBits_lt (bs : List Bool) : ofBits bs < 2 ^ bs.length := by
  induction bs using List.reverseRecOn with
  | nil => exact Nat.one_pos
  | append_singleton bs b ih =>
    have hb := b.toNat_le
    rw [ofBits_concat, List.length_append, List.length_singleton, Nat.pow_succ]
    omega

theorem bits_ofBits (bs : List Bool) : bits bs.length (ofBits bs) = bs := by
  induction bs using List.reverseRecOn with
  | nil => rfl
  | append_singleton bs b ih =>
    have hb := b.toNat_le
    have hhalf : (2 * ofBits bs + b.toNat) / 2 = ofBits bs := by omega
    have hparity : decide ((2 * ofBits bs + b.toNat) % 2 = 1) = b := by
      cases b
      · simp
      · simp [Nat.add_mod]
    rw [List.length_append, List.length_singleton, bits, ofBits_concat, hhalf, ih, hparity]

@[simp] theorem length_groups (w count : ℕ) (bs : List Bool) : (groups w count bs).length = count := by
  induction count generalizing bs with
  | zero => rfl
  | succ count ih => rw [groups, List.length_cons, ih]

theorem groups_lt (h : d ∈ groups w count bs) : d < 2 ^ w := by
  induction count generalizing bs with
  | zero => cases h
  | succ count ih =>
    rcases List.mem_cons.mp h with rfl | h
    · exact lt_of_lt_of_le (ofBits_lt _)
        (Nat.pow_le_pow_right Nat.two_pos (List.length_take_le w bs))
    · exact ih h

/-- The groups spell the string they were read from. -/
theorem bitsOf_groups (h : bs.length = w * count) : bitsOf w (groups w count bs) = bs := by
  induction count generalizing bs with
  | zero =>
    obtain rfl := List.eq_nil_of_length_eq_zero h
    rfl
  | succ count ih =>
    have hlength : (bs.take w).length = w := by
      rw [List.length_take, h]
      exact min_eq_left (Nat.le_mul_of_pos_right w count.succ_pos)
    have hfirst : bits w (ofBits (bs.take w)) = bs.take w := by
      have hbits := bits_ofBits (bs.take w)
      rwa [hlength] at hbits
    rw [groups, bitsOf_cons, hfirst, ih (by rw [List.length_drop, h, Nat.mul_succ, Nat.add_sub_cancel]),
      List.take_append_drop]

/-- Reading the string of some digits gives the digits. -/
theorem groups_bitsOf (hw : 0 < w) (h : ∀ d ∈ ds, d < 2 ^ w) :
    groups w ds.length (bitsOf w ds) = ds :=
  bitsOf_injective hw (fun _ hd => groups_lt hd) h (bitsOf_groups (length_bitsOf w ds))

end Positional
end Recto
