import Recto.Json.Numbers
import Recto.Text.Handles

/-!
# The calendar behind a minute

A day has one date and a date at most one day, so the minute a card shows tells
the moments of one minute from all the others.
-/

namespace Recto

/-! ## Days and dates -/

/-- The year of an era and the day of that year are in range. -/
theorem yearOfEra_bounds (doe : ℤ) (h0 : 0 ≤ doe) (hlt : doe < 146097) :
    let yoe := (doe - doe / 1460 + doe / 36524 - doe / 146096) / 365
    (0 ≤ yoe ∧ yoe ≤ 399) ∧
      0 ≤ doe - (365 * yoe + yoe / 4 - yoe / 100) ∧ doe - (365 * yoe + yoe / 4 - yoe / 100) ≤ 365 := by
  intro yoe
  have hyoe : 0 ≤ yoe ∧ yoe ≤ 399 := by omega
  refine ⟨hyoe, ?_⟩
  -- The leap days before a year, in fours and in hundreds, fix those before the day but for one.
  have hhundreds : 0 ≤ yoe / 100 ∧ yoe / 100 ≤ 3 := by omega
  have hfours : 0 ≤ yoe / 4 ∧ yoe / 4 ≤ 99 := by omega
  obtain ⟨k, hk⟩ : ∃ k, k = yoe / 100 := ⟨_, rfl⟩
  obtain ⟨j, hj⟩ : ∃ j, j = yoe / 4 := ⟨_, rfl⟩
  have h1460 : doe / 1460 = j ∨ doe / 1460 = j + 1 := by omega
  have h36524 : doe / 36524 = k ∨ doe / 36524 = k + 1 := by omega
  have hlast : doe / 146096 = 0 ∨ doe / 146096 = 1 := by omega
  rw [← hk, ← hj]
  rcases h1460 with h | h <;> rcases h36524 with h' | h' <;> rcases hlast with h'' | h'' <;>
    constructor <;> omega

/-- The months, counted from March, begin on fixed days of the year. -/
theorem civilOfDays_bounds (days : ℤ) :
    (1 ≤ (civilOfDays days).month ∧ (civilOfDays days).month ≤ 12) ∧
      1 ≤ (civilOfDays days).day ∧ (civilOfDays days).day ≤ 31 := by
  obtain ⟨-, hdoy⟩ := yearOfEra_bounds ((days + 719468) % 146097)
    (Int.emod_nonneg _ (by norm_num)) (Int.emod_lt_of_pos _ (by norm_num))
  simp only [civilOfDays]
  generalize (days + 719468) % 146097 - _ = doy at hdoy ⊢
  refine ⟨?_, by omega, by omega⟩
  split_ifs <;> omega

theorem civilOfDays_year_nonneg {days : ℤ} (h : 0 ≤ days) : 0 ≤ (civilOfDays days).year := by
  obtain ⟨⟨hyoe, -⟩, -⟩ := yearOfEra_bounds ((days + 719468) % 146097)
    (Int.emod_nonneg _ (by norm_num)) (Int.emod_lt_of_pos _ (by norm_num))
  have hera : 0 ≤ (days + 719468) / 146097 := Int.ediv_nonneg (by omega) (by norm_num)
  simp only [civilOfDays]
  split_ifs <;> omega

theorem CivilDate.ext {d d' : CivilDate} (hyear : d.year = d'.year) (hmonth : d.month = d'.month)
    (hday : d.day = d'.day) : d = d' := by
  cases d
  cases d'
  simp only at hyear hmonth hday
  rw [hyear, hmonth, hday]

theorem civilOfDays_injective : Function.Injective civilOfDays := by
  intro days days' h
  obtain ⟨hyoe, hdoy⟩ := yearOfEra_bounds ((days + 719468) % 146097)
    (Int.emod_nonneg _ (by norm_num)) (Int.emod_lt_of_pos _ (by norm_num))
  obtain ⟨hyoe', hdoy'⟩ := yearOfEra_bounds ((days' + 719468) % 146097)
    (Int.emod_nonneg _ (by norm_num)) (Int.emod_lt_of_pos _ (by norm_num))
  have hsplit := Int.mul_ediv_add_emod (days + 719468) 146097
  have hsplit' := Int.mul_ediv_add_emod (days' + 719468) 146097
  simp only [civilOfDays, CivilDate.mk.injEq] at h
  generalize (days + 719468) / 146097 = era at *
  generalize (days' + 719468) / 146097 = era' at *
  generalize (days + 719468) % 146097 = doe at *
  generalize (days' + 719468) % 146097 = doe' at *
  generalize (doe - doe / 1460 + doe / 36524 - doe / 146096) / 365 = yoe at *
  generalize (doe' - doe' / 1460 + doe' / 36524 - doe' / 146096) / 365 = yoe' at *
  obtain ⟨doy, hdoyEq⟩ : ∃ doy, doy = doe - (365 * yoe + yoe / 4 - yoe / 100) := ⟨_, rfl⟩
  obtain ⟨doy', hdoyEq'⟩ : ∃ doy, doy = doe' - (365 * yoe' + yoe' / 4 - yoe' / 100) := ⟨_, rfl⟩
  rw [← hdoyEq] at hdoy h
  rw [← hdoyEq'] at hdoy' h
  obtain ⟨hyear, hmonth, hday⟩ := h
  have hmp : (5 * doy + 2) / 153 = (5 * doy' + 2) / 153 := by
    split_ifs at hmonth <;> omega
  rw [hmp] at hyear hday
  have hsame : yoe + era * 400 = yoe' + era' * 400 := by omega
  have hyoeEq : yoe = yoe' := by omega
  have hdoySame : doy = doy' := by omega
  subst hyoeEq
  omega

/-! ## The minute of a moment -/

theorem digitsToNat_pad2 (n : ℤ) : Json.digitsToNat (chars (pad2 n)) = n.natAbs := by
  have hzero := Json.digitsToNat_zeros_append 0 (Nat.toDigits 10 n.natAbs)
  simp only [pad2, chars_ofList]
  split_ifs
  · simpa [JsonFloat.zeros, Json.digitsToNat_toDigits] using hzero
  · exact Json.digitsToNat_toDigits _

theorem pad2_inj {m n : ℤ} (hm : 0 ≤ m) (hn : 0 ≤ n) (h : chars (pad2 m) = chars (pad2 n)) :
    m = n := by
  have hvalue := digitsToNat_pad2 m
  rw [h, digitsToNat_pad2] at hvalue
  omega

theorem length_pad2 {n : ℤ} (h0 : 0 ≤ n) (hlt : n < 100) : (chars (pad2 n)).length = 2 := by
  lift n to ℕ using h0
  have hall : ∀ k < 100, (chars (pad2 (k : ℕ))).length = 2 := by decide +kernel
  exact hall n (by omega)

theorem isDigit_pad2 {n : ℤ} {c : Char} (h : c ∈ chars (pad2 n)) : c.isDigit = true := by
  simp only [pad2, chars_ofList] at h
  split_ifs at h
  · rcases List.mem_cons.mp h with rfl | h
    · decide
    · exact Json.isDigit_toDigits h
  · exact Json.isDigit_toDigits h

/-- The minute after its year. -/
def minuteOfYear (unix : ℤ) : List Char :=
  let date := civilOfDays (unix / 86400)
  '-' :: (chars (pad2 date.month) ++ '-' :: (chars (pad2 date.day) ++ ' ' ::
    (chars (pad2 (unix % 86400 / 3600)) ++ ':' :: (chars (pad2 (unix % 3600 / 60)) ++ ['Z']))))

theorem chars_utcMinute {unix : ℤ} {m : String} (h : utcMinute unix = .ok m) :
    chars m = Nat.toDigits 10 (civilOfDays (unix / 86400)).year.natAbs ++ minuteOfYear unix := by
  unfold utcMinute at h
  simp only at h
  split_ifs at h
  obtain rfl := Except.ok.inj h
  simp [chars_eq_toList, minuteOfYear]

theorem length_minuteOfYear (unix : ℤ) : (minuteOfYear unix).length = 13 := by
  obtain ⟨⟨hmonth, hmonth'⟩, hday, hday'⟩ := civilOfDays_bounds (unix / 86400)
  simp only [minuteOfYear, List.length_cons, List.length_append, List.length_nil]
  rw [length_pad2 (by omega) (by omega), length_pad2 (by omega) (by omega),
    length_pad2 (by omega) (by omega), length_pad2 (by omega) (by omega)]

/-- A minute has digits and separators, and one letter. -/
theorem mem_utcMinute {unix : ℤ} {m : String} (h : utcMinute unix = .ok m) {c : Char}
    (hc : c ∈ chars m) : c.isDigit = true ∨ c ∈ ['-', ' ', ':', 'Z'] := by
  rw [chars_utcMinute h] at hc
  simp only [minuteOfYear, List.mem_append, List.mem_cons, List.not_mem_nil, or_false] at hc
  rcases hc with hc | rfl | hc | rfl | hc | rfl | hc | rfl | hc | rfl
  · exact .inl (Json.isDigit_toDigits hc)
  · simp
  · exact .inl (isDigit_pad2 hc)
  · simp
  · exact .inl (isDigit_pad2 hc)
  · simp
  · exact .inl (isDigit_pad2 hc)
  · simp
  · exact .inl (isDigit_pad2 hc)
  · simp

/-- Moments of one text are moments of one minute. -/
theorem utcMinute_inj {unix unix' : ℤ} {m : String} (hpos : 0 < unix) (hpos' : 0 < unix')
    (h : utcMinute unix = .ok m) (h' : utcMinute unix' = .ok m) : unix / 60 = unix' / 60 := by
  obtain ⟨⟨hmonth, hmonth'⟩, hday, hday'⟩ := civilOfDays_bounds (unix / 86400)
  obtain ⟨⟨hmonth₂, hmonth₂'⟩, hday₂, hday₂'⟩ := civilOfDays_bounds (unix' / 86400)
  have htext := (chars_utcMinute h).symm.trans (chars_utcMinute h')
  obtain ⟨hyear, htail⟩ := List.append_inj' htext
    ((length_minuteOfYear unix).trans (length_minuteOfYear unix').symm)
  have hyears := congrArg Json.digitsToNat hyear
  rw [Json.digitsToNat_toDigits, Json.digitsToNat_toDigits] at hyears
  simp only [minuteOfYear, List.cons.injEq, true_and] at htail
  obtain ⟨hmonths, htail⟩ := List.append_inj htail (by
    rw [length_pad2 (by omega) (by omega), length_pad2 (by omega) (by omega)])
  simp only [List.cons.injEq, true_and] at htail
  obtain ⟨hdays, htail⟩ := List.append_inj htail (by
    rw [length_pad2 (by omega) (by omega), length_pad2 (by omega) (by omega)])
  simp only [List.cons.injEq, true_and] at htail
  obtain ⟨hhours, htail⟩ := List.append_inj htail (by
    rw [length_pad2 (by omega) (by omega), length_pad2 (by omega) (by omega)])
  simp only [List.cons.injEq, true_and] at htail
  obtain ⟨hminutes, -⟩ := List.append_inj htail (by
    rw [length_pad2 (by omega) (by omega), length_pad2 (by omega) (by omega)])
  have hdate : civilOfDays (unix / 86400) = civilOfDays (unix' / 86400) := by
    have hyear₀ := civilOfDays_year_nonneg (show 0 ≤ unix / 86400 by omega)
    have hyear₀' := civilOfDays_year_nonneg (show 0 ≤ unix' / 86400 by omega)
    have hmonthEq := pad2_inj (by omega) (by omega) hmonths
    have hdayEq := pad2_inj (by omega) (by omega) hdays
    exact CivilDate.ext (by omega) hmonthEq hdayEq
  have hdays : unix / 86400 = unix' / 86400 := civilOfDays_injective hdate
  have hhour := pad2_inj (by omega) (by omega) hhours
  have hminute := pad2_inj (by omega) (by omega) hminutes
  omega

end Recto
