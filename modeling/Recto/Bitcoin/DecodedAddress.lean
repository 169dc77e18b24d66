import Recto.Bitcoin.AddressRoundTrip

/-!
# Which addresses the decoder may accept

The decoder takes the first group as the witness version and the last six as the
checksum, wherever the separator leaves six groups. The encoder writes versions up
to 16 only, and one group more, so the two agree on the addresses whose version
symbol is of the first seventeen and is not part of the checksum.
-/

namespace Recto
namespace Bech32

/-- `bech32_decode`, for any mapping of case. -/
def decodeWith (lowered uppered : String → String) (addr : String) :
    Except AddressError (String × ℕ × Bytes) :=
  if chars addr = [] ∨ 90 < (chars addr).length then .error (.badLength (chars addr).length)
  else if lowered addr ≠ addr ∧ uppered addr ≠ addr then .error .mixedCase
  else
    let addr := chars (lowered addr)
    match rfind '1' addr with
    | none => .error .badSeparator
    | some sep =>
        if sep < 1 ∨ addr.length < sep + 7 then .error .badSeparator
        else
          let hrp := addr.take sep
          match fromCharset (addr.drop (sep + 1)) with
          | .error e => .error e
          | .ok data =>
              match verifyChecksum hrp data with
              | none => .error .badChecksum
              | some spec =>
                  match decodeProgram data spec with
                  | .error e => .error e
                  | .ok (witnessVersion, program) =>
                      .ok (String.ofList hrp, witnessVersion, program)

theorem decodeWith_ascii : decodeWith lower upper = decode := rfl

/-- The symbol after the separator is that of a version up to 16, and six symbols or more follow. -/
def VersionSymbol (addr : String) : Prop :=
  ∃ hrp c rest, chars addr = hrp ++ '1' :: c :: rest ∧ '1' ∉ c :: rest ∧ 6 ≤ rest.length ∧
    c ∈ charset.take 17

/-! ## What an accepted address has passed -/

theorem eq_charOf_of_idxOf {c : Char} {d : ℕ} (h : charset.idxOf? c = some d) :
    d < 32 ∧ c = charOf d := by
  obtain ⟨hd, heq, -⟩ := List.idxOf?_eq_some_iff.mp h
  refine ⟨hd, ?_⟩
  rw [charOf, List.getD_eq_getElem?_getD, List.getElem?_eq_getElem hd, heq]
  rfl

theorem eq_map_of_fromCharset {cs : List Char} {ds : List ℕ} (h : fromCharset cs = .ok ds) :
    cs = ds.map charOf ∧ ∀ d ∈ ds, d < 32 := by
  induction cs generalizing ds with
  | nil =>
    obtain rfl := Except.ok.inj h
    simp
  | cons c cs ih =>
    rw [fromCharset] at h
    split at h
    · cases h
    · rename_i d hd
      obtain ⟨hlt, rfl⟩ := eq_charOf_of_idxOf hd
      split at h
      · cases h
      · rename_i ds' hrest
        obtain rfl := Except.ok.inj h
        obtain ⟨rfl, hall⟩ := ih hrest
        exact ⟨rfl, List.forall_mem_cons.mpr ⟨hlt, hall⟩⟩

theorem rfind_eq_some {c : Char} {s : List Char} {i : ℕ} (h : rfind c s = some i) :
    ∃ before rest, s = before ++ c :: rest ∧ c ∉ rest ∧ before.length = i := by
  have hmem : c ∈ s.reverse := by
    by_contra hne
    have hnone : s.reverse.findIdx? (· = c) = none := by
      simp only [List.findIdx?_eq_none_iff]
      intro d hd
      have : d ≠ c := fun e => hne (e ▸ hd)
      simpa using this
    simp [rfind, hnone] at h
  obtain ⟨rest, before, hs, hrest⟩ := List.eq_append_cons_of_mem hmem
  have hsplit : s = before.reverse ++ c :: rest.reverse := by
    rw [← List.reverse_reverse s, hs]
    simp
  have hlast : c ∉ rest.reverse := by simpa using hrest
  rw [hsplit, rfind_append hlast] at h
  exact ⟨_, _, hsplit, hlast, Option.some.inj h⟩

theorem of_verifyChecksum {hrp : List Char} {data : List ℕ} {spec : ℕ}
    (h : verifyChecksum hrp data = some spec) :
    polymod (hrpExpand hrp ++ data) = spec := by
  simp only [verifyChecksum] at h
  split_ifs at h with hfirst hsecond
  · rwa [← Option.some.inj h]
  · rwa [← Option.some.inj h]

theorem map_toNat_ofNat {gs : List ℕ} (h : ∀ g ∈ gs, g < 2 ^ 8) :
    (gs.map UInt8.ofNat).map UInt8.toNat = gs := by
  rw [List.map_map]
  conv_rhs => rw [← List.map_id gs]
  refine List.map_congr_left fun g hg => ?_
  simpa using h g hg

/-- The constant is that of the version, and the program stands in the groups before the last six,
as the encoder writes it. -/
theorem of_decodeProgram {data : List ℕ} {spec version : ℕ} {program : Bytes}
    (hdata : ∀ d ∈ data, d < 32) (h : decodeProgram data spec = .ok (version, program)) :
    ∃ rest, data = version :: rest ∧ spec = specOf version ∧
      convertBits (program.map UInt8.toNat) 8 5 true = some (rest.take (data.length - 7)) := by
  cases data with
  | nil => cases h
  | cons v rest =>
    simp only [decodeProgram] at h
    split at h
    · cases h
    rename_i groups hgroups
    split_ifs at h with hzero hlater
    obtain ⟨rfl, rfl⟩ := Prod.mk.inj (Except.ok.inj h)
    have hrest : ∀ d ∈ rest.take ((v :: rest).length - 7), d < 2 ^ 5 := by
      intro d hd
      exact hdata d (List.mem_cons_of_mem v (List.mem_of_mem_take hd))
    obtain ⟨hbytes, hback⟩ := convertBits_unpad (by norm_num) (by norm_num) hrest hgroups
    refine ⟨rest, rfl, ?_, by rw [map_toNat_ofNat hbytes, hback]⟩
    rcases specOf_cases v with ⟨hv, hof⟩ | ⟨hv, hof⟩ <;> rw [hof] <;> omega

/-- What an accepted address is made of: a human-readable part, the last `1`, and six groups or more
that checksum against the constant of their first. -/
theorem of_decodeWith {lowered uppered : String → String} {addr hrp : String} {version : ℕ}
    {program : Bytes} (h : decodeWith lowered uppered addr = .ok (hrp, version, program)) :
    ∃ rest, chars (lowered addr) = chars hrp ++ '1' :: (version :: rest).map charOf ∧
      5 ≤ rest.length ∧ (∀ d ∈ version :: rest, d < 32) ∧
      polymod (hrpExpand (chars hrp) ++ version :: rest) = specOf version ∧
      convertBits (program.map UInt8.toNat) 8 5 true = some (rest.take (rest.length - 6)) := by
  rw [decodeWith] at h
  split_ifs at h with hlength hcase
  simp only at h
  split at h
  · cases h
  rename_i sep hsep
  obtain ⟨before, text, htext, hlast, rfl⟩ := rfind_eq_some hsep
  split_ifs at h with hplace
  rw [htext] at h
  have hrest : (before ++ '1' :: text).drop (before.length + 1) = text := by
    rw [← List.drop_drop, List.drop_left, List.drop_succ_cons, List.drop_zero]
  rw [hrest, List.take_left] at h
  split at h
  · cases h
  rename_i data hread
  obtain ⟨rfl, hdata⟩ := eq_map_of_fromCharset hread
  split at h
  · cases h
  rename_i spec hverified
  have hpoly := of_verifyChecksum hverified
  split at h
  · cases h
  rename_i v p hprogram
  obtain ⟨rfl, hpair⟩ := Prod.mk.inj (Except.ok.inj h)
  obtain ⟨rfl, rfl⟩ := Prod.mk.inj hpair
  obtain ⟨rest, rfl, rfl, hback⟩ := of_decodeProgram hdata hprogram
  have hsize : 5 ≤ rest.length := by
    rw [htext] at hplace
    simp only [List.length_append, List.length_cons, List.length_map] at hplace
    omega
  have hminus : (v :: rest).length - 7 = rest.length - 6 := by simp
  rw [hminus] at hback
  exact ⟨rest, by rw [htext, chars_ofList], hsize, hdata, by rw [chars_ofList, hpoly], hback⟩

/-! ## The decoder against the encoder -/

theorem encode_eq {hrp : String} {version : ℕ} {program : Bytes} {converted : List ℕ}
    (hversion : version ≤ 16) (hall : ∀ d ∈ version :: converted, d < 32)
    (h : convertBits (program.map UInt8.toNat) 8 5 true = some converted) :
    encode hrp version program = .ok (String.ofList (chars hrp ++ '1' :: (version :: converted ++
      createChecksum (chars hrp) (version :: converted) (specOf version)).map charOf)) := by
  have hspec : (if (version : ℤ) = 0 then bech32Const else bech32mConst) = specOf version := rfl
  have hcombined : ∀ d ∈ version :: converted ++
      createChecksum (chars hrp) (version :: converted) (specOf version), d < 32 := by
    intro d hd
    rcases List.mem_append.mp hd with hd | hd
    · exact hall d hd
    · exact createChecksum_lt _ _ _ d hd
  rw [encode, if_neg (by omega)]
  simp only [h, hspec, Int.toNat_natCast, mapM_charset hcombined]

theorem mem_take_charset : ∀ d < 32, (charOf d ∈ charset.take 17 ↔ d ≤ 16) := by decide

/-- The version symbol of a text that is known in its parts. -/
theorem versionSymbol_iff {addr hrp : String} {version : ℕ} {rest : List ℕ}
    (haddr : chars addr = chars hrp ++ '1' :: (version :: rest).map charOf)
    (hall : ∀ d ∈ version :: rest, d < 32) :
    VersionSymbol addr ↔ version ≤ 16 ∧ 6 ≤ rest.length := by
  have hone : '1' ∉ (version :: rest).map charOf := by
    intro hmem
    obtain ⟨d, hd, heq⟩ := List.mem_map.mp hmem
    exact (charset_charOf d (hall d hd)).2.2.1 heq
  constructor
  · rintro ⟨before, c, after, hsplit, hlast, hsix, hsymbol⟩
    have hlength := rfind_append (s := before) hlast
    rw [← hsplit, haddr, rfind_append hone] at hlength
    rw [haddr] at hsplit
    obtain ⟨-, htail⟩ := List.append_inj hsplit (Option.some.inj hlength)
    obtain ⟨rfl, rfl⟩ := List.cons.inj (List.cons.inj htail).2
    exact ⟨(mem_take_charset version (hall version (by simp))).mp hsymbol, by simpa using hsix⟩
  · rintro ⟨hversion, hsix⟩
    exact ⟨chars hrp, charOf version, rest.map charOf, haddr, hone, by simpa using hsix,
      (mem_take_charset version (hall version (by simp))).mpr hversion⟩

/-- An accepted address is one the encoder writes, in lower case, exactly when its version symbol is
that of a version and is not taken for the checksum. -/
theorem decoded_address_iff (lowered uppered : String → String) (addr hrp : String) (version : ℕ)
    (program : Bytes) (h : decodeWith lowered uppered addr = .ok (hrp, version, program)) :
    (version ≤ 16 ∧ encode hrp version program = .ok (lowered addr)) ↔
      VersionSymbol (lowered addr) := by
  obtain ⟨rest, haddr, hfive, hall, hpoly, hback⟩ := of_decodeWith h
  rw [versionSymbol_iff haddr hall]
  have hconverted : ∀ d ∈ version :: rest.take (rest.length - 6), d < 32 := by
    intro d hd
    rcases List.mem_cons.mp hd with rfl | hd
    · exact hall d (by simp)
    · exact hall d (List.mem_cons_of_mem _ (List.mem_of_mem_take hd))
  constructor
  · rintro ⟨hversion, henc⟩
    rw [encode_eq hversion hconverted hback] at henc
    have hlength := congrArg List.length
      ((chars_ofList _).symm.trans ((congrArg chars (Except.ok.inj henc)).trans haddr))
    simp only [List.length_append, List.length_cons, List.length_map, List.length_take,
      length_createChecksum] at hlength
    exact ⟨hversion, by omega⟩
  · rintro ⟨hversion, hsix⟩
    refine ⟨hversion, ?_⟩
    have hsplit : version :: rest =
        version :: rest.take (rest.length - 6) ++ rest.drop (rest.length - 6) := by
      rw [List.cons_append, List.take_append_drop]
    have hchecksum : rest.drop (rest.length - 6) = createChecksum (chars hrp)
        (version :: rest.take (rest.length - 6)) (specOf version) := by
      refine eq_createChecksum (by rw [List.length_drop]; omega) ?_ (by rw [← hsplit, hpoly])
      intro d hd
      exact hall d (List.mem_cons_of_mem _ (List.mem_of_mem_drop hd))
    rw [encode_eq hversion hconverted hback, ← hchecksum, ← hsplit, ← haddr]
    simp

/-- The upper-case form of an address of version 1. -/
theorem decoded_address_iff_sample : encode "bc" 1 [1, 2] = .ok (lower "BC1PQYPQ8D3X5D") := by
  have hread : decodeWith lower upper "BC1PQYPQ8D3X5D" = .ok ("bc", 1, [1, 2]) := by
    decide +kernel
  refine ((decoded_address_iff lower upper _ _ _ _ hread).mpr ?_).2
  exact ⟨['b', 'c'], 'p', ['q', 'y', 'p', 'q', '8', 'd', '3', 'x', '5', 'd'], by decide +kernel,
    by decide, by decide, by decide⟩

/-- Six symbols are enough for the decoder: the first of the checksum is read as the version too,
here 31. -/
theorem decoder_accepts_more :
    ¬∀ addr hrp version program, decode addr = .ok (hrp, version, program) →
      version ≤ 16 ∧ encode hrp version program = .ok (lower addr) := by
  intro h
  have hrun : decode "a1lqfn3a" = .ok ("a", 31, []) := by decide +kernel
  exact absurd (h _ _ _ _ hrun).1 (by decide)

end Bech32
end Recto
