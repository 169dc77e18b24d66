import Mathlib.Data.Nat.Digits.Lemmas
import Mathlib.Tactic
import Recto.Bitcoin.Bech32

/-!
# Regrouping keeps the number

Groups of bits are the digits of a number, the highest first. While it reads, the
regrouping holds that number as the groups written and the bits pending, so that
regrouping back gives the digits there were.
-/

namespace Recto
namespace Bech32

variable {w v : ℕ}

/-- The number whose groups of `w` bits these are. -/
def ofGroups (w : ℕ) (gs : List ℕ) : ℕ := Nat.ofDigits (2 ^ w) gs.reverse

@[simp] theorem ofGroups_nil : ofGroups w [] = 0 := by simp [ofGroups]

theorem ofGroups_append (xs ys : List ℕ) :
    ofGroups w (xs ++ ys) = ofGroups w xs * 2 ^ (w * ys.length) + ofGroups w ys := by
  rw [ofGroups, List.reverse_append, Nat.ofDigits_append, List.length_reverse, ← pow_mul,
    Nat.add_comm, Nat.mul_comm]
  rfl

theorem ofGroups_singleton (g : ℕ) : ofGroups w [g] = g := by simp [ofGroups]

theorem ofGroups_concat (xs : List ℕ) (g : ℕ) : ofGroups w (xs ++ [g]) = ofGroups w xs * 2 ^ w + g := by
  rw [ofGroups_append, ofGroups_singleton, List.length_singleton, Nat.mul_one]

theorem ofGroups_cons (g : ℕ) (gs : List ℕ) :
    ofGroups w (g :: gs) = g * 2 ^ (w * gs.length) + ofGroups w gs := by
  rw [← List.singleton_append, ofGroups_append, ofGroups_singleton]

/-- As many groups of one number are the same groups. -/
theorem ofGroups_inj (hw : 0 < w) {xs ys : List ℕ} (hlength : xs.length = ys.length)
    (hx : ∀ g ∈ xs, g < 2 ^ w) (hy : ∀ g ∈ ys, g < 2 ^ w) (h : ofGroups w xs = ofGroups w ys) :
    xs = ys := by
  have hbase : 1 < 2 ^ w := Nat.one_lt_two_pow (by omega)
  have hrev := Nat.ofDigits_inj_of_len_eq hbase (by simpa using hlength)
    (by simpa using hx) (by simpa using hy) h
  exact List.reverse_injective hrev

/-! ## The loops -/

/-- The inner loop leaves less than a group, and writes the bits it takes. -/
theorem groups_spec (acc : ℕ) (hv : 0 < v) :
    ∀ turns bits, bits ≤ turns → (groups acc v turns bits).2 < v ∧
      bits = v * (groups acc v turns bits).1.length + (groups acc v turns bits).2 ∧
      (∀ g ∈ (groups acc v turns bits).1, g < 2 ^ v) ∧
      acc % 2 ^ bits = ofGroups v (groups acc v turns bits).1 * 2 ^ (groups acc v turns bits).2 +
        acc % 2 ^ (groups acc v turns bits).2 := by
  intro turns
  induction turns with
  | zero =>
    intro bits hbits
    simp [groups, Nat.le_zero.mp hbits, hv]
  | succ turns ih =>
    intro bits hbits
    by_cases hfull : v ≤ bits
    · obtain ⟨hlt, hsum, hall, hvalue⟩ := ih (bits - v) (by omega)
      simp only [groups, if_pos hfull]
      generalize hrest : groups acc v turns (bits - v) = rest at hlt hsum hall hvalue ⊢
      obtain ⟨gs, left⟩ := rest
      simp only at hlt hsum hall hvalue ⊢
      have htop : (acc >>> (bits - v)) &&& (2 ^ v - 1) = acc / 2 ^ (bits - v) % 2 ^ v := by
        rw [Nat.and_two_pow_sub_one_eq_mod, Nat.shiftRight_eq_div_pow]
      have hpow : bits = (bits - v) + v := by omega
      refine ⟨hlt, ?_, ?_, ?_⟩
      · rw [List.length_cons, Nat.mul_add, Nat.mul_one]
        omega
      · intro g hg
        rcases List.mem_cons.mp hg with rfl | hg
        · rw [htop]
          exact Nat.mod_lt _ (by positivity)
        · exact hall g hg
      · have hsplit : acc % 2 ^ bits =
            2 ^ (bits - v) * (acc / 2 ^ (bits - v) % 2 ^ v) + acc % 2 ^ (bits - v) := by
          conv_lhs => rw [hpow, pow_add, Nat.mod_mul]
          rw [Nat.add_comm]
        have hexp : (2 : ℕ) ^ (bits - v) = 2 ^ (v * gs.length) * 2 ^ left := by
          rw [← pow_add, ← hsum]
        rw [htop, ofGroups_cons, hsplit, hvalue, Nat.add_mul, ← Nat.add_assoc]
        congr 2
        rw [Nat.mul_assoc, ← hexp, Nat.mul_comm]
    · simp only [groups, if_neg hfull]
      simp
      omega

variable (w v) in
/-- What the loop holds once it has read `data`: its number, as the groups of `ret` and the low
`bits` bits of `acc`. -/
structure Holds (data : List ℕ) (s : Regrouping) : Prop where
  bits_lt : s.bits < v
  length : w * data.length = v * s.ret.length + s.bits
  groups : ∀ g ∈ s.ret, g < 2 ^ v
  number : ofGroups w data = ofGroups v s.ret * 2 ^ s.bits + s.acc % 2 ^ s.bits

/-- The pending bits with the next value under them. -/
theorem pending_eq {acc bits value : ℕ} (hvalue : value < 2 ^ w) (hbits : bits < v) :
    (((acc <<< w) ||| value) &&& (2 ^ (w + v - 1) - 1)) % 2 ^ (bits + w) =
      acc % 2 ^ bits * 2 ^ w + value := by
  have hdvd : 2 ^ (bits + w) ∣ 2 ^ (w + v - 1) := pow_dvd_pow 2 (by omega)
  have hlow : (acc * 2 ^ w + value) % 2 ^ w = value := by
    rw [Nat.mul_comm, Nat.mul_add_mod, Nat.mod_eq_of_lt hvalue]
  have hhigh : (acc * 2 ^ w + value) / 2 ^ w = acc := by
    rw [Nat.mul_comm, Nat.mul_add_div (by positivity), Nat.div_eq_of_lt hvalue, Nat.add_zero]
  rw [Nat.and_two_pow_sub_one_eq_mod, Nat.mod_mod_of_dvd _ hdvd,
    ← Nat.shiftLeft_add_eq_or_of_lt hvalue, Nat.shiftLeft_eq, Nat.add_comm bits w, pow_add,
    Nat.mod_mul, hlow, hhigh, Nat.add_comm, Nat.mul_comm]

theorem Holds.step {data : List ℕ} {s : Regrouping} (h : Holds w v data s) {value : ℕ}
    (hvalue : value < 2 ^ w) :
    ∃ s', regroup w v s value = some s' ∧ Holds w v (data ++ [value]) s' := by
  have hgroup : value >>> w = 0 := by
    rw [Nat.shiftRight_eq_div_pow, Nat.div_eq_of_lt hvalue]
  have hpending : (((s.acc <<< w) ||| value) &&& (2 ^ (w + v - 1) - 1)) % 2 ^ (s.bits + w) =
      s.acc % 2 ^ s.bits * 2 ^ w + value := pending_eq hvalue h.bits_lt
  have hv : 0 < v := Nat.lt_of_le_of_lt (Nat.zero_le _) h.bits_lt
  refine ⟨_, by rw [regroup, if_neg (by simp [hgroup])], ?_⟩
  generalize ((s.acc <<< w) ||| value) &&& (2 ^ (w + v - 1) - 1) = acc at hpending ⊢
  obtain ⟨hlt, hsum, hall, hnumber⟩ := groups_spec acc hv (s.bits + w) (s.bits + w) le_rfl
  have hlength := h.length
  refine ⟨hlt, ?_, ?_, ?_⟩
  · simp only [List.length_append, List.length_singleton, Nat.mul_add, Nat.mul_one]
    omega
  · intro g hg
    rcases List.mem_append.mp hg with hg | hg
    · exact h.groups g hg
    · exact hall g hg
  · have hexp : (2 : ℕ) ^ (s.bits + w) = 2 ^ (v * (Bech32.groups acc v (s.bits + w) (s.bits + w)).1.length) *
        2 ^ (Bech32.groups acc v (s.bits + w) (s.bits + w)).2 := by
      rw [← pow_add, ← hsum]
    rw [ofGroups_concat, h.number, ofGroups_append, Nat.add_mul, Nat.add_mul, Nat.add_assoc,
      Nat.add_assoc, ← hnumber, hpending, Nat.mul_assoc, Nat.mul_assoc, ← pow_add, ← hexp]

/-- Groups of the width said are all read. -/
theorem exists_holds (hv : 0 < v) {data : List ℕ} (h : ∀ d ∈ data, d < 2 ^ w) :
    ∃ s, data.foldlM (regroup w v) ⟨0, 0, []⟩ = some s ∧ Holds w v data s := by
  induction data using List.reverseRecOn with
  | nil => exact ⟨_, rfl, hv, by simp, by simp, by simp [Nat.mod_one]⟩
  | append_singleton data d ih =>
    obtain ⟨s, hs, hold⟩ := ih fun d' hd' => h d' (List.mem_append_left _ hd')
    obtain ⟨s', hs', hold'⟩ := hold.step (h d (by simp))
    refine ⟨s', ?_, hold'⟩
    rw [List.foldlM_append, hs]
    simpa using hs'

/-! ## There and back -/

theorem mask_eq (n k : ℕ) : n &&& (2 ^ k - 1) = n % 2 ^ k := Nat.and_two_pow_sub_one_eq_mod n k

/-- The pending bits moved to the top of a group. -/
theorem shiftLeft_mask {acc bits : ℕ} (h : bits ≤ v) :
    (acc <<< (v - bits)) &&& (2 ^ v - 1) = acc % 2 ^ bits * 2 ^ (v - bits) := by
  have hpow : (2 : ℕ) ^ v = 2 ^ bits * 2 ^ (v - bits) := by
    rw [← pow_add]
    congr 1
    omega
  rw [mask_eq, Nat.shiftLeft_eq]
  conv_lhs => rw [hpow]
  exact Nat.mul_mod_mul_right ..

/-- A padded regrouping is the number, moved up by the padding. -/
theorem convertBits_pad (hv : 0 < v) {data : List ℕ} (h : ∀ d ∈ data, d < 2 ^ w) :
    ∃ out pad, convertBits data w v true = some out ∧ pad < v ∧
      v * out.length = w * data.length + pad ∧ (∀ g ∈ out, g < 2 ^ v) ∧
      ofGroups v out = ofGroups w data * 2 ^ pad := by
  obtain ⟨s, hs, hold⟩ := exists_holds hv h
  have hbits := hold.bits_lt
  have hlength := hold.length
  by_cases hzero : s.bits = 0
  · refine ⟨s.ret, 0, ?_, hv, by omega, hold.groups, ?_⟩
    · simp [convertBits, hs, hzero]
    · have hnumber := hold.number
      simp only [hzero, pow_zero, Nat.mul_one, Nat.mod_one, Nat.add_zero] at hnumber
      rw [hnumber, pow_zero, Nat.mul_one]
  · refine ⟨s.ret ++ [s.acc % 2 ^ s.bits * 2 ^ (v - s.bits)], v - s.bits, ?_, by omega, ?_, ?_, ?_⟩
    · simp [convertBits, hs, hzero, ← shiftLeft_mask hbits.le]
    · simp only [List.length_append, List.length_singleton, Nat.mul_add, Nat.mul_one]
      omega
    · intro g hg
      rcases List.mem_append.mp hg with hg | hg
      · exact hold.groups g hg
      · rw [List.mem_singleton.mp hg, ← shiftLeft_mask hbits.le, mask_eq]
        exact Nat.mod_lt _ (by positivity)
    · have hpow : (2 : ℕ) ^ v = 2 ^ s.bits * 2 ^ (v - s.bits) := by
        rw [← pow_add]
        congr 1
        omega
      rw [ofGroups_concat, hold.number, hpow, Nat.add_mul, Nat.mul_assoc]

/-- Regrouping back drops the padding, which is less than a group on either side. -/
theorem convertBits_back (hw : 0 < w) (hwv : v ≤ w) {data out : List ℕ} {pad : ℕ}
    (hdata : ∀ d ∈ data, d < 2 ^ w) (hout : ∀ g ∈ out, g < 2 ^ v) (hpad : pad < v)
    (hlength : v * out.length = w * data.length + pad)
    (hnumber : ofGroups v out = ofGroups w data * 2 ^ pad) :
    convertBits out v w false = some data := by
  obtain ⟨s, hs, hold⟩ := exists_holds hw hout
  have hbits := hold.bits_lt
  have hsum := hold.length
  have hcount : s.ret.length = data.length ∧ s.bits = pad := by
    have hmod := congrArg (· % w) (hlength.symm.trans hsum)
    have hdiv := congrArg (· / w) (hlength.symm.trans hsum)
    simp only [Nat.mul_add_mod, Nat.mod_eq_of_lt hbits, Nat.mod_eq_of_lt (hpad.trans_le hwv)] at hmod
    simp only [Nat.mul_add_div hw, Nat.div_eq_of_lt hbits,
      Nat.div_eq_of_lt (hpad.trans_le hwv), Nat.add_zero] at hdiv
    exact ⟨hdiv.symm, hmod.symm⟩
  have hvalue := hold.number
  rw [hnumber, hcount.2] at hvalue
  have hpos : 0 < 2 ^ pad := by positivity
  have hrest : s.acc % 2 ^ pad = 0 := by
    have hmod := congrArg (· % 2 ^ pad) hvalue
    simpa [Nat.mul_comm, Nat.mul_add_mod] using hmod.symm
  have hret : s.ret = data := by
    refine ofGroups_inj hw hcount.1 hold.groups hdata ?_
    rw [hrest, Nat.add_zero] at hvalue
    exact (Nat.eq_of_mul_eq_mul_right hpos hvalue).symm
  have htop : (s.acc <<< (w - s.bits)) &&& (2 ^ w - 1) = 0 := by
    rw [shiftLeft_mask hbits.le, hcount.2, hrest, Nat.zero_mul]
  simp only [convertBits, hs, Bool.false_eq_true, if_false, htop]
  rw [if_neg (by simp; omega), hret]

/-- What an unpadded regrouping gives is padded to the groups it came from: less than a group of
zeros was left. -/
theorem convertBits_unpad (hw : 0 < w) (hv : 0 < v) {data out : List ℕ}
    (hdata : ∀ d ∈ data, d < 2 ^ w) (h : convertBits data w v false = some out) :
    (∀ g ∈ out, g < 2 ^ v) ∧ convertBits out v w true = some data := by
  obtain ⟨s, hs, hold⟩ := exists_holds hv hdata
  have hbits := hold.bits_lt
  have hsum := hold.length
  simp only [convertBits, hs, Bool.false_eq_true, if_false] at h
  split_ifs at h with hrefused
  obtain rfl := Option.some.inj h
  simp only [not_or, not_le, ne_eq, not_not, shiftLeft_mask hbits.le] at hrefused
  have hrest : s.acc % 2 ^ s.bits = 0 := by
    rcases Nat.mul_eq_zero.mp hrefused.2 with hzero | hzero
    · exact hzero
    · exact absurd hzero (by positivity)
  have hvalue := hold.number
  rw [hrest, Nat.add_zero] at hvalue
  obtain ⟨back, pad, hback, hpad, hlength, hgroups, hnumber⟩ := convertBits_pad hw hold.groups
  have hcount : back.length = data.length ∧ pad = s.bits := by
    have heq : w * data.length + pad = w * back.length + s.bits := by omega
    have hmod := congrArg (· % w) heq
    have hdiv := congrArg (· / w) heq
    simp only [Nat.mul_add_mod, Nat.mod_eq_of_lt hpad, Nat.mod_eq_of_lt hrefused.1] at hmod
    simp only [Nat.mul_add_div hw, Nat.div_eq_of_lt hpad, Nat.div_eq_of_lt hrefused.1,
      Nat.add_zero] at hdiv
    exact ⟨hdiv.symm, hmod⟩
  have hsame : back = data :=
    ofGroups_inj hw hcount.1 hgroups hdata (by rw [hnumber, hvalue, hcount.2])
  exact ⟨hold.groups, by rw [hback, hsame]⟩

end Bech32
end Recto
