import Recto.Codes.ClientBucket
import Recto.Data.Crc
import Recto.Text.Base32

/-!
# StrKey

The addresses of `recto.stellar`: a version byte and a payload with a checksum
behind them, in base32 without its padding.

A character of an address that is replaced by another changes five bits of the
35 bytes behind it. Where they fall on the key the register of the checksum is
left with a difference, and feeding the bytes after them does not make up for
it. Where they fall on the last quantum the difference is on both sides of the
comparison, and never the same.
-/

namespace Recto
namespace Stellar

open Base32 Positional Rlp

/-- `0x1021` -/
def polynomial : BitVec 16 := 0x1021#16

/-- `crc16_xmodem` -/
def crc16Xmodem (data : Bytes) : BitVec 16 := Crc.feedAll polynomial 0#16 data

/-- `VERSION_BYTE_ACCOUNT_PUBLIC` -/
def versionByteAccountPublic : ℕ := 0x30

/-- `VERSION_BYTE_MUXED_ACCOUNT` -/
def versionByteMuxedAccount : ℕ := 0x60

/-- What the functions of the module raise, each a `ValueError`. -/
inductive StrKeyError where
  | versionByte (version : ℤ)
  | base32 (e : Base32Error)
  | tooShort (length : ℕ)
  | crcMismatch (expected actual : BitVec 16)
  | publicKeyLength (length : ℕ)
  | notAccount (version : ℕ)
  | payloadLength (length : ℕ)
  deriving DecidableEq, Repr

/-- `crc & 0xFF, (crc >> 8) & 0xFF` -/
def crcBytes (crc : BitVec 16) : Bytes :=
  [UInt8.ofNat crc.toNat, UInt8.ofNat (crc.toNat >>> 8)]

/-- `crc_low | (crc_high << 8)` -/
def crcOf (low high : UInt8) : BitVec 16 :=
  BitVec.ofNat 16 low.toNat ||| (BitVec.ofNat 16 high.toNat <<< 8)

/-- `strkey_encode` -/
def strkeyEncode (version : ℤ) (payload : Bytes) : Except StrKeyError String :=
  if ¬(0 ≤ version ∧ version ≤ 0xFF) then .error (.versionByte version)
  else
    let head := UInt8.ofNat version.toNat :: payload
    let full := head ++ crcBytes (crc16Xmodem head)
    .ok (String.ofList (rstripPad (b32encode full)))

/-- The text with the padding that base32 needs. -/
def padText (text : List Char) : List Char :=
  text ++ List.replicate ((8 - text.length % 8) % 8) '='

/-- The bytes taken apart: what the last two say must be the checksum of the others. -/
def openRaw (raw : Bytes) : Except StrKeyError (ℕ × Bytes) :=
  if raw.length < 3 then .error (.tooShort raw.length)
  else
    let version := raw.headD 0
    let payload := (raw.drop 1).take (raw.length - 3)
    let expected := crcOf (raw.getD (raw.length - 2) 0) (raw.getD (raw.length - 1) 0)
    let actual := crc16Xmodem (raw.take (raw.length - 2))
    if expected ≠ actual then .error (.crcMismatch expected actual)
    else .ok (version.toNat, payload)

/-- `strkey_decode` -/
def strkeyDecode (text : String) : Except StrKeyError (ℕ × Bytes) :=
  match b32decode (padText (Codes.stripBlanks (chars text))) with
  | .error e => .error (.base32 e)
  | .ok raw => openRaw raw

/-- `address_from_public_key` -/
def addressFromPublicKey (pubkey32 : Bytes) : Except StrKeyError String :=
  if pubkey32.length ≠ 32 then .error (.publicKeyLength pubkey32.length)
  else strkeyEncode versionByteAccountPublic pubkey32

/-- `public_key_from_address` -/
def publicKeyFromAddress (address : String) : Except StrKeyError Bytes :=
  match strkeyDecode address with
  | .error e => .error e
  | .ok (version, payload) =>
      if version ≠ versionByteAccountPublic then .error (.notAccount version)
      else if payload.length ≠ 32 then .error (.payloadLength payload.length)
      else .ok payload

/-! ## One wrong character -/

variable {ds : List ℕ}

/-! ## Quanta -/

theorem byteBits_bytesOf_whole (hlt : ∀ d ∈ ds, d < 32) (hwhole : ds.length % 8 = 0) :
    byteBits (bytesOf ds) = bitsOf 5 ds := by
  have hpad : padOf ds.length = 0 := by
    rw [padOf, hwhole]
  rw [byteBits_bytesOf hlt (by rw [hpad]; decide), List.take_of_length_le]
  rw [length_bitsOf]
  omega

theorem length_bytesOf_whole (hlt : ∀ d ∈ ds, d < 32) (hwhole : ds.length % 8 = 0) :
    (bytesOf ds).length = ds.length / 8 * 5 := by
  have h := congrArg List.length (byteBits_bytesOf_whole hlt hwhole)
  rw [length_byteBits, length_bitsOf] at h
  omega

theorem bytesOf_append_whole {es : List ℕ} (hds : ∀ d ∈ ds, d < 32) (hes : ∀ e ∈ es, e < 32)
    (hwhole : ds.length % 8 = 0) (hwhole' : es.length % 8 = 0) :
    bytesOf (ds ++ es) = bytesOf ds ++ bytesOf es := by
  have hboth : (ds ++ es).length % 8 = 0 := by
    rw [List.length_append]
    omega
  refine byteBits_injective ?_
  rw [byteBits_append, byteBits_bytesOf_whole (List.forall_mem_append.mpr ⟨hds, hes⟩) hboth,
    byteBits_bytesOf_whole hds hwhole, byteBits_bytesOf_whole hes hwhole', bitsOf_append]

theorem bytesOf_quantum (hlt : ∀ d ∈ ds, d < 32) (hlength : ds.length = 8) :
    bytesOf ds = toBytesBig 5 (value 32 ds) := by
  refine byteBits_injective ?_
  have hbits : bitsOf 5 ds = bits (5 * ds.length) (value 32 ds) := bitsOf_eq_bits hlt
  rw [byteBits_bytesOf_whole hlt (by rw [hlength]), hbits, hlength, byteBits_toBytesBig]

theorem toBytesBig_xor (size : ℕ) : ∀ n m, toBytesBig size (n ^^^ m) =
    List.zipWith (· ^^^ ·) (toBytesBig size n) (toBytesBig size m) := by
  induction size with
  | zero => exact fun _ _ => rfl
  | succ size ih =>
    intro n m
    have hdiv : (n ^^^ m) / 256 = n / 256 ^^^ m / 256 := Nat.xor_div_two_pow (n := 8)
    have hmod : (n ^^^ m) % 256 = n % 256 ^^^ m % 256 := Nat.xor_mod_two_pow (n := 8)
    rw [toBytesBig, hdiv, hmod, ih, UInt8.ofNat_xor, toBytesBig, toBytesBig,
      List.zipWith_append (by rw [length_toBytesBig, length_toBytesBig])]
    rfl

/-! ## The difference of a slip -/

/-- What a slip of the digit `j` of a quantum changes in its bytes. -/
def slip (j δ : ℕ) : Bytes := toBytesBig 5 (value 32 ((List.replicate 8 0).set j δ))

/-- The checksum of a slip is not zero. -/
theorem crc_slip : ∀ j < 8, ∀ δ < 32, δ ≠ 0 → crc16Xmodem (slip j δ) ≠ 0 := by decide +kernel

/-- A slip across the last byte of the key and the checksum, or within the checksum. -/
theorem crc_slip_last : ∀ j < 8, ∀ δ < 32, δ ≠ 0 → crc16Xmodem ((slip j δ).take 3) ≠
    crcOf ((slip j δ).getD 3 0) ((slip j δ).getD 4 0) := by decide +kernel

theorem zipWith_xor_set {d : ℕ} : ∀ {ds : List ℕ} {j : ℕ} (hj : j < ds.length),
    List.zipWith (· ^^^ ·) ds (ds.set j d) = (List.replicate ds.length 0).set j (ds[j] ^^^ d) := by
  have hself : ∀ ds : List ℕ, List.zipWith (· ^^^ ·) ds ds = List.replicate ds.length 0 := by
    intro ds
    induction ds with
    | nil => rfl
    | cons d ds ih => rw [List.zipWith_cons_cons, Nat.xor_self, ih, List.length_cons, List.replicate_succ]
  intro ds
  induction ds with
  | nil => exact fun hj => absurd hj (Nat.not_lt_zero _)
  | cons e ds ih =>
    intro j hj
    cases j with
    | zero =>
      rw [List.set_cons_zero, List.zipWith_cons_cons, hself, List.length_cons, List.replicate_succ,
        List.set_cons_zero]
      rfl
    | succ j =>
      rw [List.set_cons_succ, List.zipWith_cons_cons, Nat.xor_self, ih (Nat.lt_of_succ_lt_succ hj),
        List.length_cons, List.replicate_succ, List.set_cons_succ]
      rfl

/-- The bytes of a quantum and of the quantum with the slip. -/
theorem zipWith_quantum {d j : ℕ} (hlt : ∀ e ∈ ds, e < 32) (hd : d < 32) (hlength : ds.length = 8)
    (hj : j < ds.length) :
    List.zipWith (· ^^^ ·) (bytesOf ds) (bytesOf (ds.set j d)) = slip j (ds[j] ^^^ d) := by
  have hset : ∀ e ∈ ds.set j d, e < 32 := fun e he =>
    (List.mem_or_eq_of_mem_set he).elim (hlt e) fun h => h ▸ hd
  rw [bytesOf_quantum hlt hlength, bytesOf_quantum hset (by rw [List.length_set, hlength]),
    ← toBytesBig_xor, slip, ← hlength, ← zipWith_xor_set hj]
  exact congrArg (toBytesBig 5) (value_xor (w := 5) (List.length_set).symm hlt hset)

/-! ## The checksum -/

theorem crcOf_eq_xor (low high : UInt8) :
    crcOf low high = BitVec.ofNat 16 low.toNat ^^^ (BitVec.ofNat 16 high.toNat <<< 8) := by
  refine BitVec.eq_of_getLsbD_eq fun i hi => ?_
  rw [crcOf, BitVec.getLsbD_or, BitVec.getLsbD_xor]
  by_cases hlow : i < 8
  · simp [hlow]
  · have hzero : low.toNat.testBit i = false :=
      Nat.testBit_lt_two_pow (lt_of_lt_of_le low.toNat_lt (Nat.pow_le_pow_right (by omega) (by omega)))
    simp [BitVec.getLsbD_ofNat, hzero]

theorem crcOf_xor (a b c d : UInt8) : crcOf (a ^^^ b) (c ^^^ d) = crcOf a c ^^^ crcOf b d := by
  simp only [crcOf_eq_xor, Crc.ofNat_xor, BitVec.shiftLeft_xor_distrib]
  ac_rfl

theorem crcOf_crcBytes (crc : BitVec 16) :
    crcOf (UInt8.ofNat crc.toNat) (UInt8.ofNat (crc.toNat >>> 8)) = crc := by
  refine BitVec.eq_of_getLsbD_eq fun i hi => ?_
  have hbit : ∀ n k, k < 16 → (BitVec.ofNat 16 (UInt8.ofNat n).toNat).getLsbD k =
      (decide (k < 8) && n.testBit k) := by
    intro n k hk
    rw [BitVec.getLsbD_ofNat, UInt8.toNat_ofNat', Nat.testBit_mod_two_pow]
    simp [hk]
  rw [crcOf, BitVec.getLsbD_or, BitVec.getLsbD_shiftLeft, hbit _ _ hi, hbit _ _ (by omega),
    Nat.testBit_shiftRight]
  by_cases hlow : i < 8
  · simp [hlow, BitVec.getLsbD]
  · have hhigh : i - 8 < 8 := by omega
    have hback : 8 + (i - 8) = i := by omega
    simp [hlow, hhigh, hback, hi, BitVec.getLsbD]

/-- Bytes with their checksum behind them are opened, and with another they are refused. -/
theorem openRaw_append {version : UInt8} {payload : Bytes} {low high : UInt8} :
    openRaw (version :: payload ++ [low, high]) =
      if crcOf low high ≠ crc16Xmodem (version :: payload) then
        .error (.crcMismatch (crcOf low high) (crc16Xmodem (version :: payload)))
      else .ok (version.toNat, payload) := by
  have hlength : (version :: payload ++ [low, high]).length = payload.length + 3 := by simp
  have hlow : (version :: payload ++ [low, high]).getD (payload.length + 1) 0 = low := by
    rw [List.getD_eq_getElem?_getD, List.getElem?_append_right (by simp)]
    simp
  have hhigh : (version :: payload ++ [low, high]).getD (payload.length + 2) 0 = high := by
    rw [List.getD_eq_getElem?_getD, List.getElem?_append_right (by simp)]
    simp
  have hbody : (version :: payload ++ [low, high]).take (payload.length + 1) = version :: payload := by
    simp
  have hpayload : ((version :: payload ++ [low, high]).drop 1).take payload.length = payload := by
    simp
  rw [openRaw, if_neg (by rw [hlength]; omega)]
  simp only [hlength, Nat.add_sub_cancel, Nat.reduceSubDiff, hlow, hhigh, hbody, hpayload]
  rfl

/-! ## Addresses -/

theorem not_isBlank_symbol : ∀ d < 32, Codes.isBlank (symbol d) = false := by decide

theorem stripBlanks_symbols (hlt : ∀ d ∈ ds, d < 32) :
    Codes.stripBlanks (ds.map symbol) = ds.map symbol := by
  have hall : ∀ c ∈ ds.map symbol, Codes.isBlank c = false := by
    intro c hc
    obtain ⟨d, hd, rfl⟩ := List.mem_map.mp hc
    exact not_isBlank_symbol d (hlt d hd)
  have hdrop : ∀ cs : List Char, (∀ c ∈ cs, Codes.isBlank c = false) →
      cs.dropWhile Codes.isBlank = cs := by
    intro cs hcs
    rw [List.dropWhile_eq_self_iff]
    intro hpos
    simp [hcs _ (List.getElem_mem hpos)]
  rw [Codes.stripBlanks, hdrop _ hall, hdrop _ (by simpa using hall), List.reverse_reverse]

/-- A text of whole quanta is opened as the bytes of its digits. -/
theorem strkeyDecode_symbols (hlt : ∀ d ∈ ds, d < 32) (hwhole : ds.length % 8 = 0) :
    strkeyDecode (String.ofList (ds.map symbol)) = openRaw (bytesOf ds) := by
  have hpad : padOf ds.length = 0 := by
    rw [padOf, hwhole]
  have hpadded : Padded ds (ds.map symbol) :=
    ⟨hlt, by rw [hpad]; simp, by rw [hpad]; decide⟩
  have htext : padText (ds.map symbol) = ds.map symbol := by
    rw [padText, List.length_map, hwhole]
    exact List.append_nil _
  rw [strkeyDecode, chars_ofList, stripBlanks_symbols hlt, htext, hpadded.decode]

/-- The bytes of the address of a key. -/
def sealed (key : Bytes) : Bytes :=
  let head := UInt8.ofNat versionByteAccountPublic :: key
  head ++ crcBytes (crc16Xmodem head)

variable {key : Bytes}

theorem length_sealed (hkey : key.length = 32) : (sealed key).length = 35 := by
  simp [sealed, crcBytes, hkey]

theorem addressFromPublicKey_eq (hkey : key.length = 32) :
    addressFromPublicKey key = .ok (String.ofList ((digitsOf (sealed key)).map symbol)) := by
  have hencoded : rstripPad (b32encode (sealed key)) = (digitsOf (sealed key)).map symbol := by
    refine rstripPad_append _ fun c hc => ?_
    obtain ⟨d, hd, rfl⟩ := List.mem_map.mp hc
    exact (symbol_ne_pad d (digitsOf_lt hd)).1
  rw [addressFromPublicKey, if_neg (not_not.mpr hkey), strkeyEncode, if_neg (by decide)]
  exact congrArg (fun cs => Except.ok (String.ofList cs)) hencoded

theorem length_digits_sealed (hkey : key.length = 32) : (digitsOf (sealed key)).length = 56 := by
  rw [length_digitsOf, length_sealed hkey]

theorem bytesOf_digits_sealed (hkey : key.length = 32) :
    bytesOf (digitsOf (sealed key)) = sealed key := by
  refine byteBits_injective ?_
  rw [byteBits_bytesOf_whole (fun d hd => digitsOf_lt hd) (by rw [length_digits_sealed hkey]),
    bitsOf_digitsOf, length_sealed hkey]
  exact List.append_nil _

theorem publicKeyFromAddress_address (hkey : key.length = 32) :
    publicKeyFromAddress (String.ofList ((digitsOf (sealed key)).map symbol)) = .ok key := by
  have hopen : openRaw (sealed key) = .ok (versionByteAccountPublic, key) := by
    rw [sealed, crcBytes, openRaw_append, crcOf_crcBytes, if_neg (not_not.mpr rfl)]
    rfl
  rw [publicKeyFromAddress, strkeyDecode_symbols (fun d hd => digitsOf_lt hd)
    (by rw [length_digits_sealed hkey]), bytesOf_digits_sealed hkey, hopen]
  simp only [ne_eq, not_true_eq_false, if_false, hkey]

/-! ## A slip is detected -/

/-- The last two bytes are the checksum of those before them. -/
def Sealed (raw : Bytes) : Prop :=
  ∃ (body : Bytes) (low high : UInt8), body ≠ [] ∧ raw = body ++ [low, high] ∧
    crcOf low high = crc16Xmodem body

theorem exists_of_openRaw {raw : Bytes} {version : ℕ} {payload : Bytes}
    (h : openRaw raw = .ok (version, payload)) :
    ∃ v low high : UInt8, raw = v :: payload ++ [low, high] ∧ version = v.toNat ∧
      crcOf low high = crc16Xmodem (v :: payload) := by
  have hlength : 3 ≤ raw.length := by
    by_contra hshort
    rw [openRaw, if_pos (by omega)] at h
    cases h
  obtain ⟨body, low, high, rfl, hbody⟩ : ∃ (body : Bytes) (low high : UInt8),
      raw = body ++ [low, high] ∧ 1 ≤ body.length := by
    rcases List.eq_nil_or_concat raw with rfl | ⟨front, high, rfl⟩
    · cases hlength
    · rcases List.eq_nil_or_concat front with rfl | ⟨body, low, rfl⟩
      · simp at hlength
      · refine ⟨body, low, high, by simp, ?_⟩
        simp only [List.concat_eq_append, List.length_append, List.length_singleton] at hlength
        omega
  cases body with
  | nil => cases hbody
  | cons v rest =>
    rw [openRaw_append] at h
    split_ifs at h with hcrc
    obtain ⟨rfl, rfl⟩ := Prod.mk.inj (Except.ok.inj h)
    exact ⟨v, low, high, rfl, rfl, not_not.mp hcrc⟩

theorem sealed_of_openRaw {raw : Bytes} {version : ℕ} {payload : Bytes}
    (h : openRaw raw = .ok (version, payload)) : Sealed raw := by
  obtain ⟨v, low, high, hraw, -, hcrc⟩ := exists_of_openRaw h
  exact ⟨v :: payload, low, high, List.cons_ne_nil _ _, hraw, hcrc⟩

theorem sealed_sealed (key : Bytes) : Sealed (sealed key) :=
  ⟨_, _, _, List.cons_ne_nil _ _, rfl, crcOf_crcBytes _⟩

theorem polynomial_constant : polynomial.getLsbD 0 = true := by decide

theorem Sealed.crc_eq {body : Bytes} {low high : UInt8} (h : Sealed (body ++ [low, high])) :
    crcOf low high = crc16Xmodem body := by
  obtain ⟨body', low', high', -, heq, hcrc⟩ := h
  obtain ⟨rfl, hlast⟩ := List.append_inj' heq rfl
  simp only [List.cons.injEq, and_true] at hlast
  obtain ⟨rfl, rfl⟩ := hlast
  exact hcrc

variable {before block block' : Bytes} {j δ : ℕ}

/-- A slip in front of the last quantum leaves a difference in the register. -/
theorem not_sealed_slip {middle : Bytes} {low high : UInt8} (hj : j < 8) (hδ : δ < 32) (hne : δ ≠ 0)
    (hlength : block.length = block'.length)
    (hslip : List.zipWith (· ^^^ ·) block block' = slip j δ)
    (h : Sealed (before ++ block ++ middle ++ [low, high])) :
    ¬Sealed (before ++ block' ++ middle ++ [low, high]) := by
  intro h'
  have hcrc := h.crc_eq.symm.trans h'.crc_eq
  simp only [crc16Xmodem, Crc.feedAll_append] at hcrc
  have hregister := Crc.feedAll_injective polynomial_constant _ hcrc
  rw [← BitVec.xor_eq_zero_iff, ← Crc.feedAll_xor _ _ _ hlength, hslip, BitVec.xor_self] at hregister
  exact crc_slip j hj δ hδ hne hregister

/-- A slip of the last quantum changes what is computed and what is stored, each its own way. -/
theorem not_sealed_slip_last (hj : j < 8) (hδ : δ < 32) (hne : δ ≠ 0) (hblock : block.length = 5)
    (hblock' : block'.length = 5) (hslip : List.zipWith (· ^^^ ·) block block' = slip j δ)
    (h : Sealed (before ++ block)) : ¬Sealed (before ++ block') := by
  intro h'
  match block, hblock, block', hblock' with
  | [a, b, c, low, high], _, [a', b', c', low', high'], _ =>
    have hcrc : crcOf low high = crc16Xmodem (before ++ [a, b, c]) :=
      Sealed.crc_eq (by rw [List.append_assoc]; exact h)
    have hcrc' : crcOf low' high' = crc16Xmodem (before ++ [a', b', c']) :=
      Sealed.crc_eq (by rw [List.append_assoc]; exact h')
    have hdiff : crcOf (low ^^^ low') (high ^^^ high') =
        crc16Xmodem (List.zipWith (· ^^^ ·) [a, b, c] [a', b', c']) := by
      have hfeed : Crc.feedAll polynomial (crc16Xmodem before ^^^ crc16Xmodem before)
          (List.zipWith (· ^^^ ·) [a, b, c] [a', b', c']) =
            Crc.feedAll polynomial (crc16Xmodem before) [a, b, c] ^^^
              Crc.feedAll polynomial (crc16Xmodem before) [a', b', c'] :=
        Crc.feedAll_xor polynomial _ _ rfl
      rw [BitVec.xor_self] at hfeed
      rw [crcOf_xor, hcrc, hcrc', crc16Xmodem, crc16Xmodem, Crc.feedAll_append, Crc.feedAll_append]
      exact hfeed.symm
    refine crc_slip_last j hj δ hδ hne ?_
    rw [← hslip]
    exact hdiff.symm

/-- Digits and the same digits with one replaced do not both stand for sealed bytes. -/
theorem not_sealed_set {ds : List ℕ} (hlt : ∀ d ∈ ds, d < 32) (hwhole : ds.length % 8 = 0) {i d : ℕ}
    (hi : i < ds.length) (hd : d < 32) (hne : ds[i] ≠ d) (h : Sealed (bytesOf ds)) :
    ¬Sealed (bytesOf (ds.set i d)) := by
  -- the quantum of the digit, and those around it
  obtain ⟨front, quantum, back, hds, hfront, hquantum⟩ : ∃ front quantum back : List ℕ,
      ds = front ++ (quantum ++ back) ∧ front.length = i / 8 * 8 ∧ quantum.length = 8 := by
    refine ⟨ds.take (i / 8 * 8), (ds.drop (i / 8 * 8)).take 8, (ds.drop (i / 8 * 8)).drop 8, ?_, ?_, ?_⟩
    · rw [List.take_append_drop, List.take_append_drop]
    · rw [List.length_take]
      omega
    · rw [List.length_take, List.length_drop]
      omega
  subst hds
  obtain ⟨hfrontLt, hlt⟩ := List.forall_mem_append.mp hlt
  obtain ⟨hquantumLt, hbackLt⟩ := List.forall_mem_append.mp hlt
  simp only [List.length_append] at hwhole hi
  have hj : i % 8 < quantum.length := by omega
  have hset : (front ++ (quantum ++ back)).set i d = front ++ (quantum.set (i % 8) d ++ back) := by
    rw [List.set_append_right _ _ (by omega), List.set_append_left _ _ (by omega)]
    congr 3
    omega
  have hdigit : (front ++ (quantum ++ back))[i] = quantum[i % 8] := by
    rw [List.getElem_append_right (by omega), List.getElem_append_left (by omega)]
    congr 1
    omega
  have hsetLt : ∀ e ∈ quantum.set (i % 8) d, e < 32 := fun e he =>
    (List.mem_or_eq_of_mem_set he).elim (hquantumLt e) fun h => h ▸ hd
  have hbytes : ∀ q : List ℕ, (∀ e ∈ q, e < 32) → q.length = 8 →
      bytesOf (front ++ (q ++ back)) = bytesOf front ++ (bytesOf q ++ bytesOf back) := by
    intro q hq hlength
    rw [bytesOf_append_whole hfrontLt (List.forall_mem_append.mpr ⟨hq, hbackLt⟩) (by omega)
      (by rw [List.length_append]; omega), bytesOf_append_whole hq hbackLt (by omega) (by omega)]
  have hslip := zipWith_quantum hquantumLt hd hquantum hj
  have hδ : quantum[i % 8] ^^^ d ≠ 0 := fun h => hne (hdigit.trans (Nat.xor_eq_zero_iff.mp h))
  have hδlt : quantum[i % 8] ^^^ d < 32 :=
    Nat.xor_lt_two_pow (n := 5) (hquantumLt _ (List.getElem_mem hj)) hd
  have hlength : (bytesOf quantum).length = 5 := by
    rw [length_bytesOf_whole hquantumLt (by omega), hquantum]
  have hlength' : (bytesOf (quantum.set (i % 8) d)).length = 5 := by
    rw [length_bytesOf_whole hsetLt (by rw [List.length_set]; omega), List.length_set, hquantum]
  have hback : (bytesOf back).length % 5 = 0 := by
    rw [length_bytesOf_whole hbackLt (by omega), Nat.mul_mod_left]
  rw [hbytes quantum hquantumLt hquantum] at h
  rw [hset, hbytes _ hsetLt (by rw [List.length_set, hquantum])]
  rcases List.eq_nil_or_concat (bytesOf back) with hnil | ⟨rest, high, hrest⟩
  · rw [hnil, List.append_nil] at h ⊢
    exact not_sealed_slip_last (by omega) hδlt hδ hlength hlength' hslip h
  · rcases List.eq_nil_or_concat rest with rfl | ⟨middle, low, rfl⟩
    · rw [hrest] at hback
      cases hback
    · have hend : bytesOf back = middle ++ [low, high] := by simp [hrest]
      rw [hend, ← List.append_assoc, ← List.append_assoc] at h ⊢
      exact not_sealed_slip (by omega) hδlt hδ (hlength.trans hlength'.symm) hslip h

/-- The address of a key is read back as the key, and with any one character replaced by
another of the alphabet it is refused. -/
theorem address_detects_slip {key : Bytes} (hkey : key.length = 32) :
    ∃ address, addressFromPublicKey key = .ok address ∧ publicKeyFromAddress address = .ok key ∧
      ∀ (i : ℕ) (c : Char), i < (chars address).length → c ∈ alphabet →
        (chars address)[i]? ≠ some c →
        ∃ e, publicKeyFromAddress (String.ofList ((chars address).set i c)) = .error e := by
  refine ⟨_, addressFromPublicKey_eq hkey, publicKeyFromAddress_address hkey, ?_⟩
  intro i c hi hc hne
  rw [chars_ofList] at hi hne ⊢
  rw [List.length_map] at hi
  obtain ⟨d, hdigit⟩ : ∃ d, digit c = some d := by
    cases h : digit c with
    | some d => exact ⟨d, rfl⟩
    | none => exact absurd hc (List.idxOf?_eq_none_iff.mp h)
  obtain ⟨hd, rfl⟩ := of_digit hdigit
  have hlt : ∀ e ∈ digitsOf (sealed key), e < 32 := fun e he => digitsOf_lt he
  have hwhole : (digitsOf (sealed key)).length % 8 = 0 := by rw [length_digits_sealed hkey]
  have hsetLt : ∀ e ∈ (digitsOf (sealed key)).set i d, e < 32 := fun e he =>
    (List.mem_or_eq_of_mem_set he).elim (hlt e) fun h => h ▸ hd
  have hne : (digitsOf (sealed key))[i] ≠ d := by
    rintro rfl
    exact hne (by rw [List.getElem?_map, List.getElem?_eq_getElem hi]; rfl)
  have hsealed : Sealed (bytesOf (digitsOf (sealed key))) := by
    rw [bytesOf_digits_sealed hkey]
    exact sealed_sealed key
  have hbroken := not_sealed_set hlt hwhole hi hd hne hsealed
  rw [← List.map_set, publicKeyFromAddress, strkeyDecode_symbols hsetLt (by rwa [List.length_set])]
  cases hopen : openRaw (bytesOf ((digitsOf (sealed key)).set i d)) with
  | error e => exact ⟨e, rfl⟩
  | ok opened => exact absurd (sealed_of_openRaw hopen) hbroken

theorem address_detects_slip_zero :
    (List.replicate 32 (0 : UInt8)).length = 32 ∧
      ∃ address, addressFromPublicKey (List.replicate 32 0) = .ok address ∧
        publicKeyFromAddress address = .ok (List.replicate 32 0) ∧
        ∀ (i : ℕ) (c : Char), i < (chars address).length → c ∈ alphabet →
          (chars address)[i]? ≠ some c →
          ∃ e, publicKeyFromAddress (String.ofList ((chars address).set i c)) = .error e :=
  ⟨rfl, @address_detects_slip (List.replicate 32 0) rfl⟩

end Stellar
end Recto
