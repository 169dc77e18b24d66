import Recto.Json.Loads
import Mathlib.Data.Nat.Size

/-!
# Numbers read back

What the scanner makes of the digits a number was written with: an integer
gives itself, and a float gives itself in each of the forms `repr` has for it,
with zeros after the point, with zeros before it, or with an exponent.
-/

namespace Recto

/-! ## Floats a literal denotes -/

namespace JsonFloat

/-- The floats that literals denote: no trailing zero in the mantissa, and not past the largest. -/
def IsDenoted (x : JsonFloat) : Prop := ∀ m e, x = .decimal m e → ofDecimal m e = x

variable {m e : ℤ}

theorem isDenoted_decimal : IsDenoted (.decimal m e) ↔ ofDecimal m e = .decimal m e := by
  refine ⟨fun h => h m e rfl, ?_⟩
  rintro h m' e' ⟨⟩
  exact h

theorem overflowBound_pos : 0 < overflowBound := by decide +kernel

/-- A comparison scaled to whole numbers, as one of numbers. -/
theorem scaled_le_iff (bound : ℤ) :
    bound * 10 ^ (-e).toNat ≤ m.natAbs * 10 ^ e.toNat ↔
      (bound : ℚ) ≤ |(m : ℚ)| * (10 : ℚ) ^ e := by
  have hcast : ((m.natAbs : ℤ) : ℚ) = |(m : ℚ)| := by
    rw [Int.natCast_natAbs, Int.cast_abs]
  rw [← Int.cast_le (R := ℚ), Int.cast_mul, Int.cast_mul, hcast]
  rcases le_total 0 e with he | he
  · obtain ⟨k, rfl⟩ := Int.eq_ofNat_of_zero_le he
    have hneg : (-(k : ℤ)).toNat = 0 := by omega
    simp [hneg]
  · obtain ⟨k, hk⟩ := Int.eq_ofNat_of_zero_le (Int.neg_nonneg_of_nonpos he)
    obtain rfl : e = -(k : ℤ) := by omega
    have hpos : (-(k : ℤ)).toNat = 0 := by omega
    have hpow : (0 : ℚ) < 10 ^ k := by positivity
    rw [neg_neg, Int.toNat_natCast, hpos, zpow_neg, zpow_natCast, ← div_eq_mul_inv,
      le_div_iff₀ hpow]
    simp

theorem stripZeros_of_ne (h : m % 10 ≠ 0) (fuel : ℕ) : stripZeros fuel m e = .decimal m e := by
  cases fuel <;> simp [stripZeros, h]

theorem stripZeros_mul (h : m % 10 ≠ 0) (k : ℕ) :
    ∀ (fuel : ℕ) (e : ℤ), k ≤ fuel → stripZeros fuel (m * 10 ^ k) e = .decimal m (e + k) := by
  induction k with
  | zero =>
    intro fuel e _
    simpa using stripZeros_of_ne h fuel
  | succ k ih =>
    intro fuel e hk
    obtain ⟨fuel, rfl⟩ := Nat.exists_eq_succ_of_ne_zero (by omega : fuel ≠ 0)
    have hzero : m * 10 ^ (k + 1) % 10 = 0 := by
      rw [pow_succ, ← mul_assoc, Int.mul_emod_left]
    have hdiv : m * 10 ^ (k + 1) / 10 = m * 10 ^ k := by
      rw [pow_succ, ← mul_assoc, Int.mul_ediv_cancel _ (by norm_num)]
    rw [stripZeros, if_pos hzero, hdiv, ih fuel (e + 1) (by omega)]
    congr 1
    push_cast
    ring

theorem normal_mul (h : m % 10 ≠ 0) (k : ℕ) (e : ℤ) : normal (m * 10 ^ k) e = .decimal m (e + k) := by
  have hm : m ≠ 0 := by
    rintro rfl
    exact h rfl
  rw [normal, if_neg (mul_ne_zero hm (by positivity))]
  refine stripZeros_mul h k _ e (Nat.lt_size.mpr ?_).le
  have hpos : 1 ≤ m.natAbs := Int.natAbs_pos.mpr hm
  calc 2 ^ k ≤ 10 ^ k := Nat.pow_le_pow_left (by norm_num) k
    _ ≤ m.natAbs * 10 ^ k := Nat.le_mul_of_pos_left _ hpos
    _ = (m * 10 ^ k).natAbs := by rw [Int.natAbs_mul, Int.natAbs_pow]; rfl

theorem normal_of_ne (h : m % 10 ≠ 0) : normal m e = .decimal m e := by
  simpa using normal_mul h 0 e

/-- Zeros move between the mantissa and the exponent. -/
theorem ofDecimal_mul (h : m % 10 ≠ 0) (k : ℕ) (e : ℤ) :
    ofDecimal (m * 10 ^ k) e = ofDecimal m (e + k) := by
  have hpow : (0 : ℤ) < 10 ^ k := by positivity
  have hscale : |((m * 10 ^ k : ℤ) : ℚ)| * (10 : ℚ) ^ e = |(m : ℚ)| * (10 : ℚ) ^ (e + k) := by
    push_cast
    rw [abs_mul, abs_of_pos (by positivity : (0 : ℚ) < 10 ^ k), zpow_add₀ (by norm_num), zpow_natCast]
    ring
  have hsign : 0 < m * 10 ^ k ↔ 0 < m := mul_pos_iff_of_pos_right hpow
  simp only [ofDecimal, scaled_le_iff, hscale, hsign, normal_mul h, normal_of_ne h]

theorem ofDecimal_zero (e : ℤ) : ofDecimal 0 e = .decimal 0 0 := by
  have hnot : ¬(overflowBound : ℚ) ≤ |((0 : ℤ) : ℚ)| * (10 : ℚ) ^ e := by
    have hpos : (0 : ℚ) < overflowBound := by exact_mod_cast overflowBound_pos
    simpa using hpos
  simp only [ofDecimal, scaled_le_iff, hnot, if_false, normal, if_true]

/-- Every number but zero is one without trailing zeros, scaled. -/
theorem exists_eq_mul_pow (m : ℤ) (h : m ≠ 0) : ∃ (m' : ℤ) (k : ℕ), m' % 10 ≠ 0 ∧ m = m' * 10 ^ k := by
  induction hn : m.natAbs using Nat.strong_induction_on generalizing m with
  | _ n ih =>
    by_cases hten : m % 10 = 0
    · obtain ⟨q, rfl⟩ := Int.dvd_of_emod_eq_zero hten
      have hq : q ≠ 0 := by
        rintro rfl
        exact h rfl
      obtain ⟨m', k, hm', hqk⟩ := ih q.natAbs (by omega) q hq rfl
      exact ⟨m', k + 1, hm', by rw [hqk]; ring⟩
    · exact ⟨m, 0, hten, by simp⟩

theorem ofDecimal_cases (h : m % 10 ≠ 0) :
    ofDecimal m e = .infinity ∨ ofDecimal m e = .negInfinity ∨ ofDecimal m e = .decimal m e := by
  simp only [ofDecimal, normal_of_ne h]
  split_ifs <;> simp

/-- What a literal denotes. -/
theorem ofDecimal_isDenoted (m e : ℤ) : IsDenoted (ofDecimal m e) := by
  intro m' e' hvalue
  by_cases hm : m = 0
  · rw [hm, ofDecimal_zero] at hvalue ⊢
    obtain ⟨rfl, rfl⟩ := JsonFloat.decimal.inj hvalue
    exact ofDecimal_zero 0
  · obtain ⟨n, k, hn, hmn⟩ := exists_eq_mul_pow m hm
    rw [hmn, ofDecimal_mul hn] at hvalue ⊢
    rcases ofDecimal_cases (e := e + k) hn with h | h | h
    · exact absurd (h.symm.trans hvalue) (by simp)
    · exact absurd (h.symm.trans hvalue) (by simp)
    · obtain ⟨rfl, rfl⟩ := JsonFloat.decimal.inj (h.symm.trans hvalue)
      rfl

theorem IsDenoted.mantissa (h : IsDenoted (.decimal m e)) (hm : m ≠ 0) : m % 10 ≠ 0 := by
  obtain ⟨m', k, hm', hmk⟩ := exists_eq_mul_pow m hm
  rw [isDenoted_decimal, hmk, ofDecimal_mul hm'] at h
  rcases ofDecimal_cases (e := e + k) hm' with h' | h' | h'
  · exact absurd (h'.symm.trans h) (by simp)
  · exact absurd (h'.symm.trans h) (by simp)
  · have hmantissa := (JsonFloat.decimal.inj (h'.symm.trans h)).1
    rwa [hmk, ← hmantissa]

theorem IsDenoted.zero (h : IsDenoted (.decimal 0 e)) : e = 0 := by
  rw [isDenoted_decimal, ofDecimal_zero] at h
  exact (JsonFloat.decimal.inj h).2.symm

end JsonFloat

namespace Json

/-! ## Digits -/

/-- Nothing that would carry a number on. -/
def NumberEnds (rest : List Char) : Prop :=
  ∀ c tail, rest = c :: tail → c.isDigit = false ∧ c ≠ '.' ∧ c ≠ 'e' ∧ c ≠ 'E'

theorem numberEnds_nil : NumberEnds [] := by
  intro c tail h
  cases h

theorem numberEnds_comma (rest : List Char) : NumberEnds (',' :: rest) := by
  rintro c tail ⟨⟩
  decide

theorem numberEnds_bracket (rest : List Char) : NumberEnds (']' :: rest) := by
  rintro c tail ⟨⟩
  decide

theorem numberEnds_brace (rest : List Char) : NumberEnds ('}' :: rest) := by
  rintro c tail ⟨⟩
  decide

/-- Nothing that would carry a run of digits on. -/
def DigitsEnd (rest : List Char) : Prop := ∀ c tail, rest = c :: tail → c.isDigit = false

theorem NumberEnds.digitsEnd {rest : List Char} (h : NumberEnds rest) : DigitsEnd rest :=
  fun c tail hrest => (h c tail hrest).1

theorem digitsEnd_cons {c : Char} (h : c.isDigit = false) (rest : List Char) :
    DigitsEnd (c :: rest) := by
  rintro c' tail ⟨⟩
  exact h

theorem digitsToNat_toDigits (n : ℕ) : digitsToNat (Nat.toDigits 10 n) = n :=
  Nat.ofDigitChars_toDigits (by norm_num) (by norm_num)

theorem isDigit_toDigits {n : ℕ} {c : Char} (h : c ∈ Nat.toDigits 10 n) : c.isDigit = true :=
  Nat.isDigit_of_mem_toDigits (by norm_num) (by norm_num) h

theorem takeWhile_isDigit_append {ds rest : List Char} (hd : ∀ c ∈ ds, c.isDigit = true)
    (hr : DigitsEnd rest) : (ds ++ rest).takeWhile Char.isDigit = ds := by
  rw [List.takeWhile_append_of_pos hd]
  cases rest with
  | nil => simp
  | cons c tail => simp [hr c tail rfl]

theorem dropWhile_isDigit_append {ds rest : List Char} (hd : ∀ c ∈ ds, c.isDigit = true)
    (hr : DigitsEnd rest) : (ds ++ rest).dropWhile Char.isDigit = rest := by
  rw [List.dropWhile_append_of_pos hd]
  cases rest with
  | nil => rfl
  | cons c tail => simp [hr c tail rfl]

/-- A leading zero is the whole number. -/
theorem toDigits_head_zero {n : ℕ} {tail : List Char} (h : Nat.toDigits 10 n = '0' :: tail) :
    n = 0 := by
  induction n using Nat.strong_induction_on generalizing tail with
  | _ n ih =>
    by_cases hn : n < 10
    · rw [Nat.toDigits_of_lt_base hn] at h
      have hhead := (List.cons.inj h).1
      interval_cases n <;> simp_all
    · rw [Nat.toDigits_of_base_le (by norm_num) (by omega)] at h
      cases hq : Nat.toDigits 10 (n / 10) with
      | nil => simp at hq
      | cons c cs =>
        rw [hq, List.cons_append] at h
        have hc := (List.cons.inj h).1
        have := ih (n / 10) (by omega) (hc ▸ hq)
        omega

/-- The digits before a point: a lone zero, or no zero in front. -/
structure IntPart (ds : List Char) : Prop where
  ne_nil : ds ≠ []
  isDigit : ∀ c ∈ ds, c.isDigit = true
  lone : ∀ tail, ds = '0' :: tail → tail = []

theorem intPart_zero : IntPart ['0'] where
  ne_nil := by simp
  isDigit := by simp
  lone := by
    rintro tail ⟨⟩
    rfl

theorem intPart_toDigits (n : ℕ) : IntPart (Nat.toDigits 10 n) where
  ne_nil := by simp
  isDigit _ hc := isDigit_toDigits hc
  lone tail h := by
    obtain rfl := toDigits_head_zero h
    exact (List.cons.inj h).2.symm

theorem toDigits_cons {n : ℕ} (h : n ≠ 0) : ∃ d ds, Nat.toDigits 10 n = d :: ds ∧ d ≠ '0' := by
  cases hd : Nat.toDigits 10 n with
  | nil => simp at hd
  | cons d ds =>
    refine ⟨d, ds, rfl, ?_⟩
    rintro rfl
    exact h (toDigits_head_zero hd)

/-- Digits that start with no zero, cut or continued. -/
theorem intPart_of_head {d : Char} {ds : List Char} (hd : d ≠ '0')
    (h : ∀ c ∈ d :: ds, c.isDigit = true) : IntPart (d :: ds) where
  ne_nil := by simp
  isDigit := h
  lone tail heq := absurd (List.cons.inj heq).1 hd

theorem IntPart.intDigits {ds rest : List Char} (h : IntPart ds) (hr : DigitsEnd rest) :
    intDigits (ds ++ rest) = ds := by
  unfold Json.intDigits
  split
  · rename_i tail heq
    cases ds with
    | nil => exact absurd rfl h.ne_nil
    | cons d ds =>
      obtain rfl := (List.cons.inj heq).1
      rw [h.lone ds rfl]
  · exact takeWhile_isDigit_append h.isDigit hr

/-! ## Fractions and exponents -/

theorem scanFraction_of_ends {rest : List Char} (h : NumberEnds rest) :
    scanFraction rest = (none, rest) := by
  cases rest with
  | nil => rfl
  | cons c tail =>
    have hc := (h c tail rfl).2.1
    unfold scanFraction
    split
    · rename_i heq
      exact absurd (List.cons.inj heq).1 hc
    · rfl

theorem scanExponent_of_ends {rest : List Char} (h : NumberEnds rest) :
    scanExponent rest = (none, rest) := by
  cases rest with
  | nil => rfl
  | cons c tail =>
    obtain ⟨-, -, he, hE⟩ := h c tail rfl
    simp [scanExponent, he, hE]

theorem scanFraction_digits {fs : List Char} (rest : List Char) (hne : fs ≠ [])
    (hd : ∀ c ∈ fs, c.isDigit = true) (hr : DigitsEnd rest) :
    scanFraction ('.' :: (fs ++ rest)) = (some fs, rest) := by
  simp only [scanFraction, takeWhile_isDigit_append hd hr, if_neg hne,
    dropWhile_isDigit_append hd hr]

/-- The exponent `repr` writes always has a sign. -/
def exponentSign (negative : Bool) : Char := if negative then '-' else '+'

theorem scanExponent_digits (negative : Bool) {es rest : List Char} (hne : es ≠ [])
    (hd : ∀ c ∈ es, c.isDigit = true) (hr : DigitsEnd rest) :
    scanExponent ('e' :: exponentSign negative :: (es ++ rest)) =
      (some (if negative then -(digitsToNat es : ℤ) else digitsToNat es), rest) := by
  cases negative <;>
    simp [scanExponent, exponentSign, takeWhile_isDigit_append hd hr, hne,
      dropWhile_isDigit_append hd hr]

/-! ## Integers -/

theorem scanNumber_int (negative : Bool) {ds rest : List Char} (h : IntPart ds)
    (hr : NumberEnds rest) :
    scanNumber negative (ds ++ rest) =
      some (.int ((if negative then -1 else 1) * digitsToNat ds), rest) := by
  simp only [scanNumber, h.intDigits hr.digitsEnd, if_neg h.ne_nil, List.drop_left,
    scanFraction_of_ends hr, scanExponent_of_ends hr]

/-- A digit starts a number. -/
theorem scanOnce_digit (fuel : ℕ) {c : Char} (h : c.isDigit = true) (rest : List Char) :
    scanOnce (fuel + 1) (c :: rest) = scanNumber false (c :: rest) := by
  have hne : ∀ d : Char, d.isDigit = false → c ≠ d := by
    rintro d hd rfl
    rw [h] at hd
    cases hd
  simp only [scanOnce, hne '"' rfl, hne '{' rfl, hne '[' rfl, hne 'n' rfl, hne 't' rfl,
    hne 'f' rfl, hne 'N' rfl, hne 'I' rfl, hne '-' rfl, if_false]

theorem scanOnce_minus (fuel : ℕ) {c : Char} (h : c.isDigit = true) (rest : List Char) :
    scanOnce (fuel + 1) ('-' :: c :: rest) = scanNumber true (c :: rest) := by
  have hI : (c :: rest).head? ≠ some 'I' := by
    rintro ⟨⟩
    exact absurd h (by decide)
  simp only [scanOnce, Char.reduceEq, if_false, if_true, if_neg hI]

/-- The first character is a digit. -/
def StartsDigit (cs : List Char) : Prop := ∃ c tail, cs = c :: tail ∧ c.isDigit = true

theorem IntPart.startsDigit {ds : List Char} (h : IntPart ds) (rest : List Char) :
    StartsDigit (ds ++ rest) := by
  cases ds with
  | nil => exact absurd rfl h.ne_nil
  | cons d ds => exact ⟨d, ds ++ rest, rfl, h.isDigit d List.mem_cons_self⟩

/-- A number with its sign before it. -/
theorem scanOnce_signed (fuel : ℕ) (negative : Bool) {cs : List Char} (h : StartsDigit cs) :
    scanOnce (fuel + 1) ((if negative then ['-'] else []) ++ cs) = scanNumber negative cs := by
  obtain ⟨c, tail, rfl, hc⟩ := h
  cases negative with
  | false => exact scanOnce_digit fuel hc _
  | true => exact scanOnce_minus fuel hc _

theorem scanOnce_int (fuel : ℕ) (n : ℤ) {rest : List Char} (h : NumberEnds rest) :
    scanOnce (fuel + 1) (renderInt n ++ rest) = some (.int n, rest) := by
  have htext : renderInt n ++ rest =
      (if decide (n < 0) then ['-'] else []) ++ (Nat.toDigits 10 n.natAbs ++ rest) := by
    by_cases hneg : n < 0 <;> simp [renderInt, hneg]
  rw [htext, scanOnce_signed fuel _ ((intPart_toDigits _).startsDigit _), scanNumber_int _ (intPart_toDigits _) h,
    digitsToNat_toDigits]
  congr 2
  rw [Json.int.injEq]
  by_cases hneg : n < 0
  · rw [decide_eq_true hneg, if_pos rfl]
    omega
  · rw [decide_eq_false hneg, if_neg Bool.false_ne_true]
    omega

/-! ## Floats -/

/-- The point and the digits after it, when there are any. -/
def fractionText (fs : List Char) : List Char := if fs = [] then [] else '.' :: fs

theorem scanNumber_fraction (negative : Bool) (fs : List Char) {ds rest : List Char}
    (h : IntPart ds) (hne : fs ≠ []) (hd : ∀ c ∈ fs, c.isDigit = true) (hr : NumberEnds rest) :
    scanNumber negative (ds ++ '.' :: (fs ++ rest)) =
      some (.float (JsonFloat.ofDecimal ((if negative then -1 else 1) * digitsToNat (ds ++ fs))
        (-fs.length)), rest) := by
  simp only [scanNumber, h.intDigits (digitsEnd_cons (c := '.') rfl _), if_neg h.ne_nil,
    List.drop_left, scanFraction_digits rest hne hd hr.digitsEnd, scanExponent_of_ends hr,
    Option.getD_some, Option.getD_none, zero_sub]

theorem scanNumber_exponent (negative below : Bool) (fs : List Char) {ds es rest : List Char}
    (h : IntPart ds) (hd : ∀ c ∈ fs, c.isDigit = true) (hne : es ≠ []) (he : ∀ c ∈ es, c.isDigit = true)
    (hr : DigitsEnd rest) :
    scanNumber negative (ds ++ (fractionText fs ++ 'e' :: exponentSign below :: (es ++ rest))) =
      some (.float (JsonFloat.ofDecimal ((if negative then -1 else 1) * digitsToNat (ds ++ fs))
        ((if below then -(digitsToNat es : ℤ) else digitsToNat es) - fs.length)), rest) := by
  have hexponent := scanExponent_digits below hne he hr
  by_cases hfs : fs = []
  · subst hfs
    have hends : scanFraction ('e' :: exponentSign below :: (es ++ rest)) =
        (none, 'e' :: exponentSign below :: (es ++ rest)) := rfl
    simp only [fractionText, if_true, List.nil_append, scanNumber,
      h.intDigits (digitsEnd_cons (c := 'e') rfl _), if_neg h.ne_nil, List.drop_left, hends,
      hexponent, Option.getD_some, Option.getD_none]
  · have hfraction := scanFraction_digits ('e' :: exponentSign below :: (es ++ rest)) hfs hd
      (digitsEnd_cons rfl _)
    simp only [fractionText, if_neg hfs, List.cons_append, scanNumber,
      h.intDigits (digitsEnd_cons (c := '.') rfl _), if_neg h.ne_nil, List.drop_left, hfraction,
      hexponent, Option.getD_some]

theorem digitsToNat_zeros_append (k : ℤ) (ds : List Char) :
    digitsToNat ('0' :: (JsonFloat.zeros k ++ ds)) = digitsToNat ds := by
  have hzeros : '0' :: (JsonFloat.zeros k ++ ds) = List.replicate (k.toNat + 1) '0' ++ ds := by
    simp [JsonFloat.zeros, List.replicate_succ]
  rw [hzeros, digitsToNat, Nat.ofDigitChars_append, Nat.ofDigitChars_replicate_zero, mul_zero]
  rfl

theorem digitsToNat_append_zeros (ds : List Char) (k : ℕ) :
    digitsToNat (ds ++ List.replicate k '0') = digitsToNat ds * 10 ^ k := by
  rw [digitsToNat, Nat.ofDigitChars_append, Nat.ofDigitChars_replicate_zero, mul_comm]
  rfl

theorem isDigit_zeros {k : ℤ} {c : Char} (h : c ∈ JsonFloat.zeros k) : c.isDigit = true := by
  obtain rfl := List.eq_of_mem_replicate h
  rfl

section

variable {n : ℕ} (hn : n ≠ 0)

include hn

/-- The digits of a number, cut somewhere after the first. -/
theorem intPart_take {k : ℕ} (hk : 0 < k) : IntPart ((Nat.toDigits 10 n).take k) := by
  obtain ⟨k, rfl⟩ := Nat.exists_eq_succ_of_ne_zero hk.ne'
  obtain ⟨d, ds, hdigits, hd⟩ := toDigits_cons hn
  have htake : (Nat.toDigits 10 n).take (k + 1) = d :: ds.take k := by rw [hdigits]; rfl
  rw [htake]
  exact intPart_of_head hd fun c hc => isDigit_toDigits (List.mem_of_mem_take (htake ▸ hc))

/-- The digits of a number, with zeros after them. -/
theorem intPart_append_zeros (k : ℤ) : IntPart (Nat.toDigits 10 n ++ JsonFloat.zeros k) := by
  obtain ⟨d, ds, hdigits, hd⟩ := toDigits_cons hn
  have happend : Nat.toDigits 10 n ++ JsonFloat.zeros k = d :: (ds ++ JsonFloat.zeros k) := by
    rw [hdigits]
    rfl
  rw [happend]
  refine intPart_of_head hd fun c hc => ?_
  rcases List.mem_append.mp (happend ▸ hc) with hc | hc
  · exact isDigit_toDigits hc
  · exact isDigit_zeros hc

omit hn in
theorem scanNumber_leadingZeros (negative : Bool) (k : ℤ) {rest : List Char} (hr : NumberEnds rest) :
    scanNumber negative ('0' :: '.' :: JsonFloat.zeros k ++ Nat.toDigits 10 n ++ rest) =
      some (.float (JsonFloat.ofDecimal ((if negative then -1 else 1) * n)
        (-(k.toNat + (Nat.toDigits 10 n).length))), rest) := by
  have hread := scanNumber_fraction negative (JsonFloat.zeros k ++ Nat.toDigits 10 n) intPart_zero (by simp)
    (fun c hc => (List.mem_append.mp hc).elim isDigit_zeros isDigit_toDigits) hr
  rw [List.singleton_append, List.singleton_append, digitsToNat_zeros_append,
    digitsToNat_toDigits] at hread
  simpa [JsonFloat.zeros] using hread

theorem scanNumber_trailingZeros (negative : Bool) (k : ℤ) {rest : List Char}
    (hr : NumberEnds rest) :
    scanNumber negative (Nat.toDigits 10 n ++ JsonFloat.zeros k ++ ['.', '0'] ++ rest) =
      some (.float (JsonFloat.ofDecimal ((if negative then -1 else 1) * n * 10 ^ (k.toNat + 1)) (-1)),
        rest) := by
  have hread := scanNumber_fraction negative ['0'] (intPart_append_zeros hn k) (by simp)
    (by simp) hr
  have hdigits : Nat.toDigits 10 n ++ JsonFloat.zeros k ++ ['0'] =
      Nat.toDigits 10 n ++ List.replicate (k.toNat + 1) '0' := by
    rw [JsonFloat.zeros, List.append_assoc, List.replicate_succ']
  rw [hdigits, digitsToNat_append_zeros, digitsToNat_toDigits] at hread
  simpa [mul_assoc] using hread

theorem scanNumber_cut (negative : Bool) {p : ℕ} (hp : 0 < p) (hlt : p < (Nat.toDigits 10 n).length)
    {rest : List Char} (hr : NumberEnds rest) :
    scanNumber negative
        ((Nat.toDigits 10 n).take p ++ '.' :: (Nat.toDigits 10 n).drop p ++ rest) =
      some (.float (JsonFloat.ofDecimal ((if negative then -1 else 1) * n)
        (-((Nat.toDigits 10 n).length - p : ℕ))), rest) := by
  have hread := scanNumber_fraction negative ((Nat.toDigits 10 n).drop p) (intPart_take hn hp)
    (List.ne_nil_of_length_pos (by simpa using hlt))
    (fun c hc => isDigit_toDigits (List.mem_of_mem_drop hc)) hr
  rw [List.take_append_drop, digitsToNat_toDigits, List.length_drop] at hread
  simpa using hread

theorem scanNumber_scientific (negative below : Bool) {es rest : List Char} (hne : es ≠ [])
    (he : ∀ c ∈ es, c.isDigit = true) (hr : DigitsEnd rest) :
    scanNumber negative ((Nat.toDigits 10 n).take 1 ++
        (fractionText ((Nat.toDigits 10 n).drop 1) ++ 'e' :: exponentSign below :: (es ++ rest))) =
      some (.float (JsonFloat.ofDecimal ((if negative then -1 else 1) * n)
        ((if below then -(digitsToNat es : ℤ) else digitsToNat es) -
          ((Nat.toDigits 10 n).length - 1 : ℕ))), rest) := by
  have hread := scanNumber_exponent negative below ((Nat.toDigits 10 n).drop 1)
    (intPart_take hn Nat.one_pos) (fun c hc => isDigit_toDigits (List.mem_of_mem_drop hc)) hne he hr
  rwa [List.take_append_drop, digitsToNat_toDigits, List.length_drop] at hread

/-- Each form `repr` has for a float is read as that float. -/
theorem scanNumber_reprDigits (negative : Bool) {e : ℤ} {rest : List Char}
    (h : JsonFloat.IsDenoted (.decimal ((if negative then -1 else 1) * n) e))
    (hr : NumberEnds rest) :
    scanNumber negative
        (JsonFloat.reprDigits (Nat.toDigits 10 n) ((Nat.toDigits 10 n).length + e) ++ rest) =
      some (.float (.decimal ((if negative then -1 else 1) * n) e), rest) := by
  have hlen : 0 < (Nat.toDigits 10 n).length := List.length_pos_iff.mpr (by simp)
  have hmantissa : (if negative then -1 else 1) * (n : ℤ) ≠ 0 := by
    cases negative <;> simpa using hn
  rw [← JsonFloat.isDenoted_decimal.mp h]
  generalize hpoint : ((Nat.toDigits 10 n).length : ℤ) + e = point
  unfold JsonFloat.reprDigits
  by_cases hrange : -4 < point ∧ point ≤ 16
  · rw [if_pos hrange]
    by_cases hlow : point ≤ 0
    · rw [if_pos hlow, scanNumber_leadingZeros negative _ hr]
      obtain rfl : e = -((-point).toNat + (Nat.toDigits 10 n).length) := by omega
      rfl
    · rw [if_neg hlow]
      by_cases hhigh : ((Nat.toDigits 10 n).length : ℤ) ≤ point
      · rw [if_pos hhigh, scanNumber_trailingZeros hn negative _ hr,
          JsonFloat.ofDecimal_mul (h.mantissa hmantissa)]
        obtain rfl : e = -1 + ((point - (Nat.toDigits 10 n).length).toNat + 1 : ℕ) := by omega
        rfl
      · rw [if_neg hhigh, scanNumber_cut hn negative (by omega) (by omega) hr]
        obtain rfl : e = -((Nat.toDigits 10 n).length - point.toNat : ℕ) := by omega
        rfl
  · rw [if_neg hrange]
    -- The exponent, with a zero before a single digit.
    generalize hes : (if (Nat.toDigits 10 (point - 1).natAbs).length < 2 then
      '0' :: Nat.toDigits 10 (point - 1).natAbs else Nat.toDigits 10 (point - 1).natAbs) = es
    have hne : es ≠ [] := by
      rw [← hes]
      split_ifs <;> simp
    have hdigit : ∀ c ∈ es, c.isDigit = true := by
      intro c hc
      rw [← hes] at hc
      split_ifs at hc
      · rcases List.mem_cons.mp hc with rfl | hc
        · rfl
        · exact isDigit_toDigits hc
      · exact isDigit_toDigits hc
    have hnat : digitsToNat es = (point - 1).natAbs := by
      rw [← hes]
      split_ifs
      · exact (digitsToNat_zeros_append 0 _).trans (digitsToNat_toDigits _)
      · exact digitsToNat_toDigits _
    have hfraction : (if (Nat.toDigits 10 n).length = 1 then [] else
        '.' :: (Nat.toDigits 10 n).drop 1) = fractionText ((Nat.toDigits 10 n).drop 1) := by
      simp only [fractionText, List.drop_eq_nil_iff]
      congr 1
      simp only [eq_iff_iff]
      omega
    have hread := scanNumber_scientific hn negative (decide (point - 1 < 0)) hne hdigit hr.digitsEnd
    rw [hnat] at hread
    obtain rfl : e = (if decide (point - 1 < 0) then -((point - 1).natAbs : ℤ) else
        (point - 1).natAbs) - ((Nat.toDigits 10 n).length - 1 : ℕ) := by
      simp only [decide_eq_true_eq]
      split_ifs <;> omega
    rw [← hread, hfraction]
    simp only [hes, exponentSign, decide_eq_true_eq, List.append_assoc, List.cons_append]

end

theorem startsDigit_reprDigits (n : ℕ) (point : ℤ) :
    StartsDigit (JsonFloat.reprDigits (Nat.toDigits 10 n) point) := by
  cases hd : Nat.toDigits 10 n with
  | nil => simp at hd
  | cons d ds =>
    have hdigit : d.isDigit = true := isDigit_toDigits (n := n) (hd ▸ List.mem_cons_self)
    unfold JsonFloat.reprDigits
    split_ifs with hrange hlow hhigh
    · exact ⟨'0', _, rfl, rfl⟩
    · exact ⟨d, _, rfl, hdigit⟩
    · obtain ⟨k, hk⟩ := Nat.exists_eq_succ_of_ne_zero (by omega : point.toNat ≠ 0)
      exact ⟨d, ds.take k ++ '.' :: (d :: ds).drop point.toNat, by rw [hk]; rfl, hdigit⟩
    all_goals exact ⟨d, _, rfl, hdigit⟩

theorem StartsDigit.append {cs : List Char} (h : StartsDigit cs) (rest : List Char) :
    StartsDigit (cs ++ rest) := by
  obtain ⟨c, tail, rfl, hc⟩ := h
  exact ⟨c, tail ++ rest, rfl, hc⟩

/-- A finite float that is not zero, as it is written: its sign and its digits. -/
theorem dumps_decimal {m : ℤ} (hm : m ≠ 0) (e : ℤ) :
    (JsonFloat.decimal m e).dumps = (if decide (m < 0) then ['-'] else []) ++
      JsonFloat.reprDigits (Nat.toDigits 10 m.natAbs) ((Nat.toDigits 10 m.natAbs).length + e) := by
  have hrepr : (JsonFloat.decimal m e).dumps = (JsonFloat.decimal m e).repr := rfl
  rw [hrepr, JsonFloat.repr, if_neg hm]
  simp only [decide_eq_true_eq]

theorem scanOnce_zero (fuel : ℕ) {rest : List Char} (hr : NumberEnds rest) :
    scanOnce (fuel + 1) ((JsonFloat.decimal 0 0).dumps ++ rest) =
      some (.float (.decimal 0 0), rest) := by
  have hread := scanNumber_fraction false ['0'] intPart_zero (by simp) (by simp) hr
  have hzero : (if false = true then -1 else 1) * (digitsToNat (['0'] ++ ['0']) : ℤ) = 0 := rfl
  rw [hzero, JsonFloat.ofDecimal_zero] at hread
  exact (scanOnce_digit fuel rfl _).trans hread

theorem scanOnce_decimal (fuel : ℕ) {m e : ℤ} (hm : m ≠ 0)
    (h : JsonFloat.IsDenoted (.decimal m e)) {rest : List Char} (hr : NumberEnds rest) :
    scanOnce (fuel + 1) ((JsonFloat.decimal m e).dumps ++ rest) =
      some (.float (.decimal m e), rest) := by
  have hsign : (if decide (m < 0) then -1 else 1) * (m.natAbs : ℤ) = m := by
    simp only [decide_eq_true_eq]
    split_ifs <;> omega
  have hread := scanNumber_reprDigits (Int.natAbs_ne_zero.mpr hm) (decide (m < 0))
    (hsign.symm ▸ h : JsonFloat.IsDenoted (.decimal (_ * (m.natAbs : ℤ)) e)) hr
  rw [hsign] at hread
  rw [dumps_decimal hm, List.append_assoc,
    scanOnce_signed fuel _ ((startsDigit_reprDigits _ _).append rest), hread]

theorem scanWord_append (word : List Char) (value : Json) (rest : List Char) :
    scanWord word value (word ++ rest) = some (value, rest) := by
  simp [scanWord]

theorem scanOnce_infinity (fuel : ℕ) (rest : List Char) :
    scanOnce (fuel + 1) (JsonFloat.infinity.dumps ++ rest) = some (.float .infinity, rest) :=
  scanWord_append "Infinity".toList _ rest

theorem scanOnce_negInfinity (fuel : ℕ) (rest : List Char) :
    scanOnce (fuel + 1) (JsonFloat.negInfinity.dumps ++ rest) = some (.float .negInfinity, rest) :=
  scanWord_append "-Infinity".toList _ rest

theorem scanOnce_nan (fuel : ℕ) (rest : List Char) :
    scanOnce (fuel + 1) (JsonFloat.nan.dumps ++ rest) = some (.float .nan, rest) :=
  scanWord_append "NaN".toList _ rest

/-- A float is read back from the head of the text. -/
theorem scanOnce_float (fuel : ℕ) {x : JsonFloat} (h : x.IsDenoted) {rest : List Char}
    (hr : NumberEnds rest) : scanOnce (fuel + 1) (x.dumps ++ rest) = some (.float x, rest) := by
  cases x with
  | infinity => exact scanOnce_infinity fuel rest
  | negInfinity => exact scanOnce_negInfinity fuel rest
  | nan => exact scanOnce_nan fuel rest
  | decimal m e =>
    by_cases hm : m = 0
    · rw [hm] at h ⊢
      rw [h.zero]
      exact scanOnce_zero fuel hr
    · exact scanOnce_decimal fuel hm h hr

end Json
end Recto
