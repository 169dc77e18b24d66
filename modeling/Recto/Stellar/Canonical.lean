import Recto.Stellar.StrKey

/-!
# What the decoder accepts

A text that is accepted is written back as it was when it holds no padding of its
own and the bits that its last character has to spare are zero. The decoder looks
at neither, and at no length.
-/

namespace Recto
namespace Stellar

open Base32 Positional Rlp

variable {ds : List ℕ}

/-- No padding, and nothing in the bits of the last character that fill no byte. -/
def Canonical (text : List Char) : Prop :=
  '=' ∉ text ∧
    ∀ c d, text.getLast? = some c → digit c = some d → d % 2 ^ (5 * text.length % 8) = 0

/-! ## The spare bits -/

theorem drop_bitsOf {front : List ℕ} {d r : ℕ} (hr : r ≤ 5) :
    (bitsOf 5 (front ++ [d])).drop (5 * (front ++ [d]).length - r) = bits r d := by
  have hlast : bits 5 d = bits (5 - r) (d / 2 ^ r) ++ bits r d := by
    rw [← bits_add]
    congr 1
    omega
  have hcut : 5 * (front ++ [d]).length - r = (bitsOf 5 front ++ bits (5 - r) (d / 2 ^ r)).length := by
    rw [List.length_append, List.length_append, length_bitsOf, length_bits, List.length_singleton]
    omega
  rw [hcut, bitsOf_append, bitsOf_cons, bitsOf_nil, List.append_nil, hlast, ← List.append_assoc,
    List.drop_left]

theorem length_bytesOf (hlt : ∀ d ∈ ds, d < 32) (hpad : padOf ds.length ∈ [0, 1, 3, 4, 6]) :
    (bytesOf ds).length = 5 * ds.length / 8 := by
  have h := congrArg List.length (byteBits_bytesOf hlt hpad)
  rw [length_byteBits, List.length_take, length_bitsOf] at h
  omega

/-- The digits of the bytes are the digits that were read, when the spare bits are zero. -/
theorem digitsOf_bytesOf_iff {front : List ℕ} {d : ℕ} (hlt : ∀ e ∈ front ++ [d], e < 32)
    (hpad : padOf (front ++ [d]).length ∈ [0, 1, 3, 4, 6]) :
    digitsOf (bytesOf (front ++ [d])) = front ++ [d] ↔
      d % 2 ^ (5 * (front ++ [d]).length % 8) = 0 := by
  generalize hn : (front ++ [d]).length = n
  have hbytes := byteBits_bytesOf hlt hpad
  have hlength := length_bytesOf hlt hpad
  rw [hn] at hbytes hpad hlength
  simp only [padOf, List.mem_cons, List.not_mem_nil, or_false] at hpad
  have hspare : 5 * ((8 * (5 * n / 8) + 4) / 5) - 8 * (5 * n / 8) = 5 * n % 8 := by omega
  have hcut : 8 * (5 * n / 8) = 5 * n - 5 * n % 8 := by omega
  have hdrop : (bitsOf 5 (front ++ [d])).drop (8 * (5 * n / 8)) = bits (5 * n % 8) d := by
    rw [hcut, ← hn]
    exact drop_bitsOf (by omega)
  have hdigits := bitsOf_digitsOf (bytesOf (front ++ [d]))
  rw [hlength, hspare, hbytes] at hdigits
  rw [← bits_eq_replicate_iff]
  constructor
  · intro h
    rw [h] at hdigits
    conv_lhs at hdigits => rw [← List.take_append_drop (8 * (5 * n / 8)) (bitsOf 5 (front ++ [d])), hdrop]
    exact List.append_cancel_left hdigits
  · intro h
    refine bitsOf_injective (w := 5) (by omega) (fun e he => digitsOf_lt he) hlt ?_
    rw [hdigits, ← h, ← hdrop, List.take_append_drop]

/-! ## Texts -/

theorem crcBytes_crcOf (low high : UInt8) : crcBytes (crcOf low high) = [low, high] := by
  have hlow := low.toNat_lt
  have hhigh := high.toNat_lt
  have hcrc : (crcOf low high).toNat = 2 ^ 8 * high.toNat + low.toNat := by
    rw [crcOf, BitVec.toNat_or, BitVec.toNat_shiftLeft, BitVec.toNat_ofNat, BitVec.toNat_ofNat,
      Nat.mod_eq_of_lt (by omega), Nat.mod_eq_of_lt (by omega), Nat.shiftLeft_eq,
      Nat.mod_eq_of_lt (by omega), Nat.mul_comm, Nat.two_pow_add_eq_or_of_lt hlow, Nat.or_comm]
  have hfirst : UInt8.ofNat (2 ^ 8 * high.toNat + low.toNat) = low := by
    rw [← UInt8.toNat_inj, UInt8.toNat_ofNat']
    omega
  have hsecond : UInt8.ofNat ((2 ^ 8 * high.toNat + low.toNat) >>> 8) = high := by
    rw [← UInt8.toNat_inj, UInt8.toNat_ofNat', Nat.shiftRight_eq_div_pow]
    omega
  rw [crcBytes, hcrc, hfirst, hsecond]

/-- Opened bytes are sealed again as they were. -/
theorem encode_of_openRaw {raw : Bytes} {version : ℕ} {payload : Bytes}
    (h : openRaw raw = .ok (version, payload)) :
    strkeyEncode version payload = .ok (String.ofList ((digitsOf raw).map symbol)) := by
  obtain ⟨v, low, high, rfl, rfl, hcrc⟩ := exists_of_openRaw h
  have hv := v.toNat_lt
  have hencoded : rstripPad (b32encode (v :: payload ++ [low, high])) =
      (digitsOf (v :: payload ++ [low, high])).map symbol := by
    refine rstripPad_append _ fun c hc => ?_
    obtain ⟨d, hd, rfl⟩ := List.mem_map.mp hc
    exact (symbol_ne_pad d (digitsOf_lt hd)).1
  have hversion : UInt8.ofNat (v.toNat : ℤ).toNat = v := by
    rw [Int.toNat_natCast, UInt8.ofNat_toNat]
  rw [strkeyEncode, if_neg (by omega)]
  simp only [hversion, ← hcrc, crcBytes_crcOf, hencoded]

theorem length_of_openRaw {raw : Bytes} {version : ℕ} {payload : Bytes}
    (h : openRaw raw = .ok (version, payload)) : raw.length = payload.length + 3 := by
  obtain ⟨v, low, high, rfl, -⟩ := exists_of_openRaw h
  simp

/-- What is accepted: digits and padding, and bytes that open. -/
theorem exists_of_strkeyDecode {t : String} {version : ℕ} {payload : Bytes}
    (h : strkeyDecode t = .ok (version, payload)) :
    ∃ ds, Padded ds (padText (Codes.stripBlanks (chars t))) ∧
      openRaw (bytesOf ds) = .ok (version, payload) := by
  rw [strkeyDecode] at h
  cases hraw : b32decode (padText (Codes.stripBlanks (chars t))) with
  | error e =>
    rw [hraw] at h
    cases h
  | ok raw =>
    rw [hraw] at h
    obtain ⟨ds, hds, rfl⟩ := b32decode_eq_ok.mp hraw
    exact ⟨ds, hds, h⟩

/-- Without padding of its own the text is its digits. -/
theorem eq_symbols_iff {text : List Char} (h : Padded ds (padText text)) :
    text = ds.map symbol ↔ '=' ∉ text := by
  have hsymbols : ∀ c ∈ ds.map symbol, c ≠ '=' := by
    intro c hc
    obtain ⟨d, hd, rfl⟩ := List.mem_map.mp hc
    exact (symbol_ne_pad d (h.lt d hd)).1
  constructor
  · rintro rfl hmem
    exact hsymbols _ hmem rfl
  · intro hnot
    have hown : rstripPad (padText text) = text :=
      rstripPad_append _ fun c hc heq => hnot (heq ▸ hc)
    have hread := rstripPad_append (padOf ds.length) hsymbols
    rw [← h.eq] at hread
    exact hown.symm.trans hread

/-- The text of digits is canonical when their bytes have the same digits. -/
theorem canonical_symbols_iff (hlt : ∀ d ∈ ds, d < 32) (hpad : padOf ds.length ∈ [0, 1, 3, 4, 6])
    (hne : ds ≠ []) : digitsOf (bytesOf ds) = ds ↔ Canonical (ds.map symbol) := by
  rcases List.eq_nil_or_concat ds with rfl | ⟨front, d, rfl⟩
  · exact absurd rfl hne
  rw [List.concat_eq_append] at hlt hpad ⊢
  have hd : d < 32 := hlt d (List.mem_append_right _ (List.mem_singleton.mpr rfl))
  have hsymbols : '=' ∉ (front ++ [d]).map symbol := by
    intro hmem
    obtain ⟨e, he, heq⟩ := List.mem_map.mp hmem
    exact (symbol_ne_pad e (hlt e he)).1 heq
  have hlast : ((front ++ [d]).map symbol).getLast? = some (symbol d) := by
    rw [List.map_append, List.map_singleton, List.getLast?_concat]
  rw [digitsOf_bytesOf_iff hlt hpad, Canonical, hlast, List.length_map]
  constructor
  · rintro hspare
    refine ⟨hsymbols, fun c e hc he => ?_⟩
    obtain rfl := Option.some.inj hc
    rw [digit_symbol d hd] at he
    exact Option.some.inj he ▸ hspare
  · rintro ⟨-, hspare⟩
    exact hspare (symbol d) d rfl (digit_symbol d hd)

/-- A text that is accepted with a payload of a known length is written back as it was, exactly
when it is canonical and its length is that of a known payload. -/
theorem strkeyDecode_canonical_iff (known : ℕ → Prop) {t : String} {version : ℕ} {payload : Bytes}
    (h : strkeyDecode t = .ok (version, payload)) :
    strkeyEncode version payload = .ok (String.ofList (Codes.stripBlanks (chars t))) ∧
        known payload.length ↔
      Canonical (Codes.stripBlanks (chars t)) ∧
        known (5 * (Codes.stripBlanks (chars t)).length / 8 - 3) := by
  obtain ⟨ds, hds, hopen⟩ := exists_of_strkeyDecode h
  generalize Codes.stripBlanks (chars t) = text at hds ⊢
  have hlength := length_of_openRaw hopen
  rw [length_bytesOf hds.lt hds.allowed] at hlength
  have hne : ds ≠ [] := by
    rintro rfl
    cases hlength
  have hencoded : strkeyEncode version payload = .ok (String.ofList text) ↔
      (digitsOf (bytesOf ds)).map symbol = text := by
    rw [encode_of_openRaw hopen, Except.ok.injEq, String.ofList_inj]
  have hcanonical : (digitsOf (bytesOf ds)).map symbol = text ↔ Canonical text := by
    constructor
    · intro htext
      have hnot : '=' ∉ text := by
        rw [← htext]
        intro hmem
        obtain ⟨d, hd, heq⟩ := List.mem_map.mp hmem
        exact (symbol_ne_pad d (digitsOf_lt hd)).1 heq
      have hread := (eq_symbols_iff hds).mpr hnot
      have hdigits := map_symbol_injective (fun d hd => digitsOf_lt hd) hds.lt (htext.trans hread)
      rw [hread]
      exact (canonical_symbols_iff hds.lt hds.allowed hne).mp hdigits
    · intro hcanonical
      have hread := (eq_symbols_iff hds).mpr hcanonical.1
      rw [hread] at hcanonical
      rw [(canonical_symbols_iff hds.lt hds.allowed hne).mpr hcanonical, hread]
  rw [hencoded, hcanonical]
  refine and_congr_right fun h => ?_
  have hread := congrArg List.length ((eq_symbols_iff hds).mpr h.1)
  rw [List.length_map] at hread
  have hpayload : payload.length = 5 * text.length / 8 - 3 := by omega
  rw [hpayload]

theorem strkeyDecode_canonical_five :
    strkeyDecode "AAAAA" = .ok (0, []) ∧
      (strkeyEncode 0 [] = .ok (String.ofList (Codes.stripBlanks (chars "AAAAA"))) ∧
          ([] : Bytes).length = 32 ↔
        Canonical (Codes.stripBlanks (chars "AAAAA")) ∧
          5 * (Codes.stripBlanks (chars "AAAAA")).length / 8 - 3 = 32) :=
  have haccepted : strkeyDecode "AAAAA" = .ok (0, []) := by decide +kernel
  ⟨haccepted, strkeyDecode_canonical_iff (· = 32) haccepted⟩

/-- The muxed address of zeros with another last character is accepted, and so is a text of five
characters with no payload. -/
theorem strkeyDecode_lenient :
    strkeyDecode ("MAAAAAAAAAAAAAAAAAAAAAAAAAAAAAAAAAA" ++ "AAAAAAAAAAAAAAAAAAAAAAAAAAAAAAB5IH") =
        .ok (96, List.replicate 40 0) ∧
      strkeyEncode 96 (List.replicate 40 0) =
        .ok ("MAAAAAAAAAAAAAAAAAAAAAAAAAAAAAAAAAA" ++ "AAAAAAAAAAAAAAAAAAAAAAAAAAAAAAB5IG") ∧
      strkeyEncode 96 (List.replicate 40 0) ≠
        .ok (String.ofList (Codes.stripBlanks (chars
          ("MAAAAAAAAAAAAAAAAAAAAAAAAAAAAAAAAAA" ++ "AAAAAAAAAAAAAAAAAAAAAAAAAAAAAAB5IH")))) ∧
      strkeyDecode "AAAAA" = .ok (0, []) := by
  decide +kernel

end Stellar
end Recto
