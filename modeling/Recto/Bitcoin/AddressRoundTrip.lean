import Mathlib.Data.Bool.AllAny
import Recto.Bitcoin.Checksum
import Recto.Bitcoin.Regroup

/-!
# Addresses read back

An encoded address has no `1` after its separator, so that the last one is the
separator even where the human-readable part holds others. Case folding gives an
address and its upper-case form one reading.
-/

namespace Recto
namespace Bech32

/-! ## Characters -/

/-- The character of a group. -/
def charOf (d : ℕ) : Char := charset.getD d 'q'

/-- A character of the human-readable part: ASCII 33 to 126, and no capital. -/
def HrpChar (c : Char) : Prop := 33 ≤ c.toNat ∧ c.toNat ≤ 126 ∧ ¬(65 ≤ c.toNat ∧ c.toNat ≤ 90)

instance (c : Char) : Decidable (HrpChar c) := inferInstanceAs (Decidable (_ ∧ _ ∧ _))

theorem charset_charOf : ∀ d < 32, charset[d]? = some (charOf d) ∧
    charset.idxOf? (charOf d) = some d ∧ charOf d ≠ '1' ∧ HrpChar (charOf d) := by decide

theorem folded_ofNat : ∀ n < 127, ¬(65 ≤ n ∧ n ≤ 90) →
    (Char.ofNat n).toLower = Char.ofNat n ∧ (Char.ofNat n).toUpper.toLower = Char.ofNat n ∧
      (Char.ofNat n).toUpper.toUpper = (Char.ofNat n).toUpper := by decide

theorem HrpChar.folded {c : Char} (h : HrpChar c) :
    c.toLower = c ∧ c.toUpper.toLower = c ∧ c.toUpper.toUpper = c.toUpper := by
  have hfold := folded_ofNat c.toNat (by have := h.2.1; omega) h.2.2
  rwa [Char.ofNat_toNat] at hfold

theorem mapM_charset {ds : List ℕ} (h : ∀ d ∈ ds, d < 32) :
    (ds.mapM fun d => charset[d]?) = some (ds.map charOf) := by
  induction ds with
  | nil => rfl
  | cons d ds ih =>
    rw [List.mapM_cons, (charset_charOf d (h d (by simp))).1,
      ih fun d' hd' => h d' (List.mem_cons_of_mem d hd')]
    rfl

theorem fromCharset_map {ds : List ℕ} (h : ∀ d ∈ ds, d < 32) :
    fromCharset (ds.map charOf) = .ok ds := by
  induction ds with
  | nil => rfl
  | cons d ds ih =>
    rw [List.map_cons, fromCharset, (charset_charOf d (h d (by simp))).2.1]
    simp only [ih fun d' hd' => h d' (List.mem_cons_of_mem d hd')]

theorem rfind_append {c : Char} {s rest : List Char} (h : c ∉ rest) :
    rfind c (s ++ c :: rest) = some s.length := by
  have hfind : (s ++ c :: rest).reverse.findIdx? (· = c) = some rest.length := by
    rw [List.reverse_append, List.reverse_cons, List.append_assoc, List.findIdx?_append]
    have hnone : rest.reverse.findIdx? (· = c) = none := by
      simp only [List.findIdx?_eq_none_iff, List.mem_reverse]
      intro d hd
      have : d ≠ c := fun e => h (e ▸ hd)
      simpa using this
    rw [hnone]
    simp [List.findIdx?_cons]
  rw [rfind, hfind]
  simp only [Option.map_some, List.length_append, List.length_cons]
  congr 1
  omega

/-! ## Decoding -/

/-- The versions and programs an address has. -/
def Admissible (version : ℤ) (program : Bytes) : Prop :=
  version = 0 ∧ (program.length = 20 ∨ program.length = 32) ∨ 1 ≤ version ∧ version ≤ 16

instance (version : ℤ) (program : Bytes) : Decidable (Admissible version program) :=
  inferInstanceAs (Decidable (_ ∨ _))

/-- The constant for a witness version. -/
def specOf (version : ℤ) : ℕ := if version = 0 then bech32Const else bech32mConst

theorem specOf_cases (version : ℤ) :
    version = 0 ∧ specOf version = bech32Const ∨ version ≠ 0 ∧ specOf version = bech32mConst := by
  by_cases h : version = 0 <;> simp [specOf, h]

theorem specOf_lt (version : ℤ) : specOf version < 2 ^ 30 := by
  rcases specOf_cases version with ⟨-, h⟩ | ⟨-, h⟩ <;> rw [h] <;> decide

theorem verifyChecksum_of_eq {hrp : List Char} {data : List ℕ} {version : ℤ}
    (h : polymod (hrpExpand hrp ++ data) = specOf version) :
    verifyChecksum hrp data = some (specOf version) := by
  have hne : bech32mConst ≠ bech32Const := by decide
  rcases specOf_cases version with ⟨-, hspec⟩ | ⟨-, hspec⟩
  · simp only [verifyChecksum, h, hspec, if_true]
  · simp only [verifyChecksum, h, hspec, if_neg hne, if_true]

theorem map_ofNat_toNat (program : Bytes) :
    (program.map UInt8.toNat).map UInt8.ofNat = program := by
  simp [List.map_map, Function.comp_def]

/-- The program is regrouped back, and passes the checks of its version. -/
theorem decodeProgram_eq {version : ℤ} {program : Bytes} {converted checksum : List ℕ}
    (h : Admissible version program) (hchecksum : checksum.length = 6)
    (hback : convertBits converted 5 8 false = some (program.map UInt8.toNat)) :
    decodeProgram (version.toNat :: (converted ++ checksum)) (specOf version) =
      .ok (version.toNat, program) := by
  have htake : (converted ++ checksum).take
      ((version.toNat :: (converted ++ checksum)).length - 7) = converted := by
    simp [hchecksum]
  have hzero : version.toNat = 0 ↔ version = 0 := by
    unfold Admissible at h
    omega
  simp only [decodeProgram, htake, hback, List.length_map, map_ofNat_toNat, hzero]
  rcases specOf_cases version with ⟨hv, hspec⟩ | ⟨hv, hspec⟩
  · have hlength : program.length = 20 ∨ program.length = 32 := by
      rcases h with ⟨-, hlength⟩ | ⟨hpos, -⟩
      · exact hlength
      · omega
    rw [if_neg (by simp [hspec]), if_neg (by simp [hv]), if_neg (by omega)]
  · rw [if_neg (by simp [hv]), if_neg (by simp [hspec]), if_neg (by simp [hv])]

/-- A text that folds to a human-readable part, the separator and checksummed groups. -/
theorem decode_eq {s : String} {hrp : List Char} {data : List ℕ} {version : ℤ} {program : Bytes}
    (hhrp : hrp ≠ []) (hlength : (chars s).length ≤ 90) (hcase : lower s = s ∨ upper s = s)
    (hs : chars (lower s) = hrp ++ '1' :: data.map charOf) (hdata : ∀ d ∈ data, d < 32)
    (hsize : 6 ≤ data.length) (hchecksum : polymod (hrpExpand hrp ++ data) = specOf version)
    (hprogram : decodeProgram data (specOf version) = .ok (version.toNat, program)) :
    decode s = .ok (String.ofList hrp, version.toNat, program) := by
  have hpos : 0 < hrp.length := List.length_pos_of_ne_nil hhrp
  have hone : '1' ∉ data.map charOf := by
    intro hmem
    obtain ⟨d, hd, heq⟩ := List.mem_map.mp hmem
    exact (charset_charOf d (hdata d hd)).2.2.1 heq
  have hlower : (chars (lower s)).length = (chars s).length := by simp [lower]
  have hnil : chars s ≠ [] := by
    intro h
    rw [h, hs] at hlower
    simp at hlower
  have hrest : (hrp ++ '1' :: data.map charOf).drop (hrp.length + 1) = data.map charOf := by
    rw [← List.drop_drop, List.drop_left, List.drop_succ_cons, List.drop_zero]
  have hsep : ¬(hrp.length < 1 ∨
      (hrp ++ '1' :: data.map charOf).length < hrp.length + 7) := by
    simp only [List.length_append, List.length_cons, List.length_map]
    omega
  have hmixed : ¬(lower s ≠ s ∧ upper s ≠ s) := by tauto
  rw [decode, if_neg (by simp only [hnil, false_or]; omega), if_neg hmixed]
  simp only [hs, rfind_append hone, if_neg hsep, List.take_left, hrest, fromCharset_map hdata,
    verifyChecksum_of_eq hchecksum, hprogram]

/-! ## The round trip -/

theorem lower_ofList {cs : List Char} (h : ∀ c ∈ cs, HrpChar c) :
    lower (String.ofList cs) = String.ofList cs := by
  rw [lower, chars_ofList, List.map_congr_left fun c hc => (h c hc).folded.1, List.map_id']

theorem lower_upper_ofList {cs : List Char} (h : ∀ c ∈ cs, HrpChar c) :
    lower (upper (String.ofList cs)) = String.ofList cs := by
  have hmap : cs.map (Char.toLower ∘ Char.toUpper) = cs := by
    conv_rhs => rw [← List.map_id cs]
    exact List.map_congr_left fun c hc => (h c hc).folded.2.1
  rw [lower, upper, chars_ofList, chars_ofList, List.map_map, hmap]

theorem upper_upper_ofList {cs : List Char} (h : ∀ c ∈ cs, HrpChar c) :
    upper (upper (String.ofList cs)) = upper (String.ofList cs) := by
  have hmap : cs.map (Char.toUpper ∘ Char.toUpper) = cs.map Char.toUpper :=
    List.map_congr_left fun c hc => (h c hc).folded.2.2
  rw [upper, upper, chars_ofList, chars_ofList, List.map_map, hmap]

theorem toNat_lt_of_mem {program : Bytes} : ∀ d ∈ program.map UInt8.toNat, d < 2 ^ 8 := by
  intro d hd
  obtain ⟨b, -, rfl⟩ := List.mem_map.mp hd
  exact b.toNat_lt

/-- Every admissible program is encoded, and where the address is not too long, it is decoded to
what was encoded, and so is its upper-case form. -/
theorem address_round_trip (hrp : String) (version : ℤ) (program : Bytes) (hne : hrp ≠ "")
    (hhrp : ∀ c ∈ chars hrp, HrpChar c) (h : Admissible version program) :
    ∃ addr, encode hrp version program = .ok addr ∧ ((chars addr).length ≤ 90 →
      decode addr = .ok (hrp, version.toNat, program) ∧
        decode (upper addr) = .ok (hrp, version.toNat, program)) := by
  obtain ⟨converted, pad, hconvert, hpad, hlength, hgroups, hnumber⟩ :=
    convertBits_pad (w := 8) (v := 5) (by norm_num)
      (show ∀ d ∈ program.map UInt8.toNat, d < 2 ^ 8 from toNat_lt_of_mem)
  have hback := convertBits_back (w := 8) (v := 5) (by norm_num) (by norm_num) toNat_lt_of_mem
    hgroups hpad hlength hnumber
  have hversion : ¬(version < 0 ∨ 16 < version) ∧ version.toNat < 32 := by
    unfold Admissible at h
    omega
  have hspec : (if version = 0 then bech32Const else bech32mConst) = specOf version := rfl
  generalize hchecksum : createChecksum (chars hrp) (version.toNat :: converted) (specOf version) =
    checksum
  have hsix : checksum.length = 6 := by rw [← hchecksum, length_createChecksum]
  have hpoly : polymod (hrpExpand (chars hrp) ++ (version.toNat :: (converted ++ checksum))) =
      specOf version := by
    rw [← List.cons_append, ← hchecksum]
    exact polymod_createChecksum _ _ (specOf_lt version)
  have hdata : ∀ d ∈ version.toNat :: (converted ++ checksum), d < 32 := by
    intro d hd
    rcases List.mem_cons.mp hd with rfl | hd
    · exact hversion.2
    · rcases List.mem_append.mp hd with hd | hd
      · exact hgroups d hd
      · rw [← hchecksum] at hd
        exact createChecksum_lt _ _ _ d hd
  have hprogram := decodeProgram_eq h hsix hback
  generalize hall : version.toNat :: (converted ++ checksum) = data at hpoly hdata hprogram
  have hchars : ∀ c ∈ chars hrp ++ '1' :: data.map charOf, HrpChar c := by
    intro c hc
    rcases List.mem_append.mp hc with hc | hc
    · exact hhrp c hc
    · rcases List.mem_cons.mp hc with rfl | hc
      · decide
      · obtain ⟨d, hd, rfl⟩ := List.mem_map.mp hc
        exact (charset_charOf d (hdata d hd)).2.2.2
  have hnil : chars hrp ≠ [] := by
    simpa using hne
  have hsize : 6 ≤ data.length := by
    rw [← hall]
    simp [hsix]
  have hname : String.ofList (chars hrp) = hrp := by simp
  refine ⟨String.ofList (chars hrp ++ '1' :: data.map charOf), ?_, fun hle => ⟨?_, ?_⟩⟩
  · simp only [encode, if_neg hversion.1, hconvert, hspec, hchecksum, List.cons_append, hall,
      mapM_charset hdata]
  · have hread := decode_eq hnil hle (Or.inl (lower_ofList hchars))
      (by rw [lower_ofList hchars, chars_ofList]) hdata hsize hpoly hprogram
    rwa [hname] at hread
  · have hlong : (chars (upper (String.ofList (chars hrp ++ '1' :: data.map charOf)))).length ≤ 90 := by
      simpa [upper] using hle
    have hread := decode_eq hnil hlong (Or.inr (upper_upper_ofList hchars))
      (by rw [lower_upper_ofList hchars, chars_ofList]) hdata hsize hpoly hprogram
    rwa [hname] at hread

/-- The address of a program of zeros, with a separator in its human-readable part. -/
theorem address_round_trip_sample :
    ∃ addr, encode "b1c" 0 (List.replicate 20 0) = .ok addr ∧
      decode addr = .ok ("b1c", 0, List.replicate 20 0) ∧
      decode (upper addr) = .ok ("b1c", 0, List.replicate 20 0) := by
  obtain ⟨addr, haddr, hread⟩ := address_round_trip "b1c" 0 (List.replicate 20 0) (by decide)
    (List.all_iff_forall_prop.mp (by decide)) (by decide)
  have hlength : (encode "b1c" 0 (List.replicate 20 0)).toOption.map (fun a => (chars a).length) =
      some 43 := by decide +kernel
  rw [haddr] at hlength
  have hle : (chars addr).length ≤ 90 := by
    have : (chars addr).length = 43 := Option.some.inj hlength
    omega
  exact ⟨addr, haddr, hread hle⟩

/-- Without a human-readable part the separator comes first, and is refused. -/
theorem empty_hrp_refused :
    ¬∀ hrp version program addr, (∀ c ∈ chars hrp, HrpChar c) → Admissible version program →
      encode hrp version program = .ok addr → (chars addr).length ≤ 90 →
        decode addr = .ok (hrp, version.toNat, program) := by
  intro h
  have hrun : (encode "" 0 (List.replicate 20 0)).toOption.map
      (fun a => ((chars a).length, (decode a).toOption)) = some (40, none) := by decide +kernel
  cases henc : encode "" 0 (List.replicate 20 0) with
  | error e =>
    rw [henc] at hrun
    exact absurd hrun (by simp [Except.toOption])
  | ok addr =>
    rw [henc] at hrun
    obtain ⟨hlength, hdecode⟩ := Prod.mk.inj (Option.some.inj hrun)
    have hempty : ∀ c ∈ chars "", HrpChar c := List.all_iff_forall_prop.mp (by decide)
    rw [h "" 0 (List.replicate 20 0) addr hempty (by decide) henc (by omega)] at hdecode
    exact absurd hdecode (by simp [Except.toOption])

end Bech32
end Recto
