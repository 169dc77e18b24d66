import Recto.Data.Separated
import Recto.Text.Calendar
import Recto.Wire.Records

/-!
# What the card says of an act

The purpose of an act is one line without quotes, and the service in it may be
any text. The line is read from its ends: the minute holds no letter of `until`,
the bootloader is the reader's own, a fingerprint has one length and a key holds
no slash.
-/

namespace Recto
namespace Connections
namespace ActRecord

theorem readValueSha256_set {x : Json} {v : Option String}
    (h : readValueSha256 .set x = .ok v) : ∃ digest, v = some digest ∧ (chars digest).length = 64 := by
  unfold readValueSha256 at h
  rw [if_pos rfl] at h
  cases x with
  | str s =>
    simp only at h
    split_ifs at h with hempty hrun
    refine ⟨s, (Except.ok.inj h).symm, ?_⟩
    simp only [isRun, Bool.and_eq_true, decide_eq_true_eq] at hrun
    exact hrun.1
  | _ => cases h

/-- What the constructor has looked at. -/
structure Checked (r : ActRecord) : Prop where
  key : isConnectionKey r.key = true
  notAfter : 0 < r.notAfter
  value : r.verb = .set → ∃ digest, r.valueSha256 = some digest ∧ (chars digest).length = 64
  purpose : ∃ purpose, r.purpose = .ok purpose ∧ (chars purpose).length ≤ purposeMaxChars

theorem check_checked {read : String → Json} {r : ActRecord} (h : check read = .ok r) :
    isConnectionKey r.key = true ∧ 0 < r.notAfter ∧
      (r.verb = .set → ∃ digest, r.valueSha256 = some digest ∧ (chars digest).length = 64) := by
  simp only [check, Except.bind_eq_ok] at h
  obtain ⟨bootloaderId, -, service, -, key, -, verbName, -, ⟨⟩, hkey, h⟩ := h
  cases hname : ActVerb.ofName? verbName with
  | none => simp [hname] at h
  | some verb =>
    simp only [hname] at h
    cases hnotAfter : read "not_after" with
    | int notAfter =>
      simp only [hnotAfter, Except.bind_eq_ok] at h
      obtain ⟨⟨⟩, hpos, v, hv, h⟩ := h
      obtain rfl := Except.pure_eq_ok.mp h
      refine ⟨ensure_eq_ok.mp hkey, ensure_eq_ok.mp hpos, ?_⟩
      rintro rfl
      exact readValueSha256_set hv
    | _ => simp [hnotAfter] at h

theorem Built.checked {r : ActRecord} (h : r.Built) : r.Checked := by
  obtain ⟨read, hmake⟩ := h
  obtain ⟨r', hcheck, hmake⟩ := Except.bind_eq_ok.mp hmake
  cases hpurpose : r'.purpose with
  | error e => simp [hpurpose] at hmake
  | ok purpose =>
    simp only [hpurpose, Except.bind_eq_ok] at hmake
    obtain ⟨⟨⟩, hlength, h⟩ := hmake
    obtain rfl := Except.pure_eq_ok.mp h
    obtain ⟨hkey, hnotAfter, hvalue⟩ := check_checked hcheck
    exact ⟨hkey, hnotAfter, hvalue, purpose, hpurpose, ensure_eq_ok.mp hlength⟩

/-! ## The line, from its ends -/

/-- The characters of a key and what a set says of its value. -/
def valueText (r : ActRecord) : List Char :=
  if r.verb = .set then (" = " ++ r.valueFingerprint ++ "...").toList else []

/-- The line up to the bootloader. -/
def lineFront (r : ActRecord) : List Char :=
  "Vault ".toList ++ (r.verb.upper.toList ++ ": ".toList ++
    (r.service.toList ++ '/' :: r.key.toList ++ valueText r))

theorem chars_purpose {r : ActRecord} {purpose : String} (h : r.purpose = .ok purpose) :
    ∃ minute, utcMinute r.notAfter = .ok minute ∧
      chars purpose = (lineFront r ++ (" on " ++ r.bootloaderId ++ " - unti").toList) ++
        'l' :: ' ' :: chars minute := by
  unfold ActRecord.purpose at h
  cases hminute : utcMinute r.notAfter with
  | error e => simp [hminute] at h
  | ok minute =>
    rw [hminute] at h
    obtain rfl := Except.pure_eq_ok.mp h
    refine ⟨minute, rfl, ?_⟩
    have hfront : lineFront r = "Vault ".toList ++ (r.verb.upper.toList ++ ": ".toList ++
        (r.service.toList ++ '/' :: r.key.toList ++ valueText r)) := rfl
    by_cases hset : r.verb = .set <;> simp [hfront, valueText, hset]

/-- A key is a run of small letters, digits, `_` and `-`. -/
theorem slash_not_mem_key {key : String} (h : isConnectionKey key = true) : '/' ∉ key.toList := by
  intro hmem
  unfold isConnectionKey at h
  rw [chars_eq_toList] at h
  cases hkey : key.toList with
  | nil => simp [hkey] at hmem
  | cons c cs =>
    simp only [hkey, Bool.and_eq_true] at h
    obtain ⟨⟨⟨⟨hfirst, -⟩, -⟩, hrest⟩, -⟩ := h
    have hslash : isKeyChar '/' = false := by decide
    rw [hkey] at hmem
    rcases List.mem_cons.mp hmem with rfl | hmem
    · exact absurd hfirst (by simp [hslash])
    · exact absurd (List.all_eq_true.mp hrest _ hmem) (by simp [hslash])

theorem l_not_mem_minute {unix : ℤ} {minute : String} (h : utcMinute unix = .ok minute) :
    'l' ∉ ' ' :: chars minute := by
  intro hmem
  rcases List.mem_cons.mp hmem with hc | hmem
  · exact absurd hc (by decide)
  · rcases mem_utcMinute h hmem with hdigit | hmem
    · exact absurd hdigit (by decide)
    · exact absurd hmem (by decide)

/-- Every fingerprint is as long as any other. -/
theorem Checked.length_valueText {r : ActRecord} (h : r.Checked) :
    (valueText r).length = if r.verb = .set then 25 else 0 := by
  unfold valueText
  split_ifs with hset
  · obtain ⟨digest, hdigest, hlength⟩ := h.value hset
    rw [chars_eq_toList] at hlength
    simp [valueFingerprint, hdigest, hlength, valueFingerprintHex]
  · rfl

theorem upper_toList : ∀ v : ActVerb, v.upper.toList =
    match v with
    | .enable => ['E', 'N', 'A', 'B', 'L', 'E']
    | .disable => ['D', 'I', 'S', 'A', 'B', 'L', 'E']
    | .delete => ['D', 'E', 'L', 'E', 'T', 'E']
    | .set => ['S', 'E', 'T'] := by
  intro v
  cases v <;> exact String.toList_ofList

/-- The word of the verb ends before the service begins. -/
theorem verb_of_upper {v v' : ActVerb} {rest rest' : List Char}
    (h : v.upper.toList ++ ": ".toList ++ rest = v'.upper.toList ++ ": ".toList ++ rest') :
    v = v' ∧ rest = rest' := by
  rw [upper_toList, upper_toList] at h
  cases v <;> cases v'
  case disable.delete | delete.disable =>
    exact absurd (List.cons.inj (List.cons.inj h).2).1 (by decide)
  case enable.enable | disable.disable | delete.delete | set.set =>
    exact ⟨rfl, List.append_cancel_left h⟩
  all_goals exact absurd (List.cons.inj h).1 (by decide)

theorem lineFront_inj {r r' : ActRecord} (h : r.Checked) (h' : r'.Checked)
    (hfront : lineFront r = lineFront r') :
    r.verb = r'.verb ∧ r.service = r'.service ∧ r.key = r'.key ∧
      (r.verb = .set → r.valueFingerprint = r'.valueFingerprint) := by
  obtain ⟨hverb, hrest⟩ := verb_of_upper (List.append_cancel_left hfront)
  obtain ⟨hnamed, hvalue⟩ := List.append_inj' hrest (by
    rw [h.length_valueText, h'.length_valueText, hverb])
  obtain ⟨hservice, hkey⟩ := cut_last (slash_not_mem_key h.key) (slash_not_mem_key h'.key) hnamed
  refine ⟨hverb, String.toList_inj.mp hservice, String.toList_inj.mp hkey, fun hset => ?_⟩
  have hset' := hverb ▸ hset
  simp only [valueText, hset, hset', if_true] at hvalue
  simpa using String.toList_inj.mp hvalue

/-- Two cards of one bootloader with one text name one act, until one minute; every card fits, and
a record reads back as it was written. -/
theorem card_names_act {r r' : ActRecord} (h : r.Built) (h' : r'.Built) :
    (r.bootloaderId = r'.bootloaderId → r.purpose = r'.purpose →
      r.verb = r'.verb ∧ r.service = r'.service ∧ r.key = r'.key ∧
        r.notAfter / 60 = r'.notAfter / 60 ∧
          (r.verb = .set → r.valueFingerprint = r'.valueFingerprint)) ∧
      (∃ purpose, r.purpose = .ok purpose ∧ (chars purpose).length ≤ purposeMaxChars) ∧
        fromDict r.toDict = .ok r := by
  refine ⟨fun hboot hpurpose => ?_, h.checked.purpose, h.fromDict_toDict⟩
  obtain ⟨purpose, hr, -⟩ := h.checked.purpose
  obtain ⟨minute, hminute, hline⟩ := chars_purpose hr
  obtain ⟨minute', hminute', hline'⟩ := chars_purpose (hpurpose.symm.trans hr)
  obtain ⟨hfront, hmoment⟩ := cut_last (l_not_mem_minute hminute) (l_not_mem_minute hminute')
    (hline.symm.trans hline')
  rw [hboot] at hfront
  obtain ⟨hverb, hservice, hkey, hvalue⟩ :=
    lineFront_inj h.checked h'.checked (List.append_cancel_right hfront)
  have htext : minute = minute' := by
    simpa [String.toList_inj] using hmoment
  exact ⟨hverb, hservice, hkey,
    utcMinute_inj h.checked.notAfter h'.checked.notAfter hminute (htext ▸ hminute'), hvalue⟩

/-- A set of one key until some second of a day in 2025. -/
def sampleSet (second : ℤ) : ActRecord where
  bootloaderId := "bl-1"
  service := "api/db"
  key := "token"
  verb := .set
  notAfter := 1760000000 + second
  valueSha256 := some (String.ofList (List.replicate 64 'a'))

/-- The arguments it is made from. -/
def sampleArguments (second : ℤ) (name : String) : Json :=
  ((dictFields (sampleSet second)).lookup name).getD .null

theorem card_names_act_sample :
    (sampleSet 0).Built ∧ (sampleSet 9).Built ∧ (sampleSet 0).purpose = (sampleSet 9).purpose ∧
      (sampleSet 0).notAfter / 60 = (sampleSet 9).notAfter / 60 := by
  have h : (sampleSet 0).Built := ⟨sampleArguments 0, by decide +kernel⟩
  have h' : (sampleSet 9).Built := ⟨sampleArguments 9, by decide +kernel⟩
  have hpurpose : (sampleSet 0).purpose = (sampleSet 9).purpose := by decide +kernel
  exact ⟨h, h', hpurpose, ((card_names_act h h').1 rfl hpurpose).2.2.2.1⟩

end ActRecord
end Connections
end Recto
