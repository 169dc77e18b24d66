import Recto.Data.Positional
import Recto.Text.Chars

/-!
# Base58

The encoders and decoders of the Solana, Ripple, Tron and Bitcoin modules: one
loop, over the alphabet of each module. A byte string and its text have as many
leading zeros, and the rest is one number in two bases.
-/

namespace Recto
namespace Base58

open Positional

/-- The symbols of the 58 digits, and the one that stands for a leading zero. -/
structure Alphabet where
  symbols : List Char
  first : Char
  length_eq : symbols.length = 58
  nodup : symbols.Nodup
  head_eq : symbols.head? = some first

/-- What the decoders raise, each a `ValueError`. -/
inductive Base58Error where
  | notInAlphabet (c : Char)
  | tooShort (length : ℕ)
  | badChecksum (expected carried : Bytes)
  deriving DecidableEq, Repr

namespace Alphabet

variable (a : Alphabet)

def symbol (r : ℕ) : Char := a.symbols.getD r a.first

/-- The digit of a symbol. -/
def index (c : Char) : Option ℕ := a.symbols.idxOf? c

/-- `base58_encode` -/
def encode (data : Bytes) : String :=
  let leadingZeros := (data.takeWhile (· = 0)).length
  let n := value 256 (data.map UInt8.toNat)
  let out := (digits 58 n n).map a.symbol
  String.ofList (List.replicate leadingZeros a.first ++ out.reverse)

/-- The number a text writes, by the loop of `base58_decode`. -/
def read : ℕ → List Char → Except Base58Error ℕ
  | n, [] => .ok n
  | n, c :: cs =>
      match a.index c with
      | none => .error (.notInAlphabet c)
      | some i => read (n * 58 + i) cs

/-- `base58_decode` -/
def decode (text : String) : Except Base58Error Bytes :=
  let leadingOnes := ((chars text).takeWhile (· = a.first)).length
  match a.read 0 (chars text) with
  | .error e => .error e
  | .ok n => .ok (List.replicate leadingOnes 0 ++ ((digits 256 n n).map UInt8.ofNat).reverse)

/-- The first four bytes of the double hash. -/
def checksum (sha256 : Bytes → Bytes) (payload : Bytes) : Bytes :=
  (sha256 (sha256 payload)).take 4

/-- `base58check_encode` -/
def checkEncode (sha256 : Bytes → Bytes) (payload : Bytes) : String :=
  a.encode (payload ++ checksum sha256 payload)

/-- `base58check_decode` -/
def checkDecode (sha256 : Bytes → Bytes) (text : String) : Except Base58Error Bytes :=
  match a.decode text with
  | .error e => .error e
  | .ok raw =>
      if raw.length < 5 then .error (.tooShort raw.length)
      else
        let payload := raw.take (raw.length - 4)
        let carried := raw.drop (raw.length - 4)
        let expected := checksum sha256 payload
        if carried ≠ expected then .error (.badChecksum expected carried) else .ok payload

end Alphabet

/-! ## The modules -/

/-- `_BASE58_ALPHABET` of the Solana module. -/
def solanaAlphabet : Alphabet where
  symbols :=
    ['1', '2', '3', '4', '5', '6', '7', '8', '9', 'A', 'B', 'C', 'D', 'E', 'F', 'G', 'H', 'J', 'K',
      'L', 'M', 'N', 'P', 'Q', 'R', 'S', 'T', 'U', 'V', 'W', 'X', 'Y', 'Z', 'a', 'b', 'c', 'd', 'e',
      'f', 'g', 'h', 'i', 'j', 'k', 'm', 'n', 'o', 'p', 'q', 'r', 's', 't', 'u', 'v', 'w', 'x', 'y',
      'z']
  first := '1'
  length_eq := rfl
  nodup := by decide
  head_eq := rfl

/-- `RIPPLE_BASE58_ALPHABET` -/
def rippleAlphabet : Alphabet where
  symbols :=
    ['r', 'p', 's', 'h', 'n', 'a', 'f', '3', '9', 'w', 'B', 'U', 'D', 'N', 'E', 'G', 'H', 'J', 'K',
      'L', 'M', '4', 'P', 'Q', 'R', 'S', 'T', '7', 'V', 'W', 'X', 'Y', 'Z', '2', 'b', 'c', 'd', 'e',
      'C', 'g', '6', '5', 'j', 'k', 'm', '8', 'o', 'F', 'q', 'i', '1', 't', 'u', 'v', 'A', 'x', 'y',
      'z']
  first := 'r'
  length_eq := rfl
  nodup := by decide
  head_eq := rfl

/-- `_BASE58_ALPHABET` of the Tron module. -/
def tronAlphabet : Alphabet where
  symbols :=
    ['1', '2', '3', '4', '5', '6', '7', '8', '9', 'A', 'B', 'C', 'D', 'E', 'F', 'G', 'H', 'J', 'K',
      'L', 'M', 'N', 'P', 'Q', 'R', 'S', 'T', 'U', 'V', 'W', 'X', 'Y', 'Z', 'a', 'b', 'c', 'd', 'e',
      'f', 'g', 'h', 'i', 'j', 'k', 'm', 'n', 'o', 'p', 'q', 'r', 's', 't', 'u', 'v', 'w', 'x', 'y',
      'z']
  first := '1'
  length_eq := rfl
  nodup := by decide
  head_eq := rfl

/-- `_BASE58_ALPHABET` of the Bitcoin module. -/
def bitcoinAlphabet : Alphabet where
  symbols :=
    ['1', '2', '3', '4', '5', '6', '7', '8', '9', 'A', 'B', 'C', 'D', 'E', 'F', 'G', 'H', 'J', 'K',
      'L', 'M', 'N', 'P', 'Q', 'R', 'S', 'T', 'U', 'V', 'W', 'X', 'Y', 'Z', 'a', 'b', 'c', 'd', 'e',
      'f', 'g', 'h', 'i', 'j', 'k', 'm', 'n', 'o', 'p', 'q', 'r', 's', 't', 'u', 'v', 'w', 'x', 'y',
      'z']
  first := '1'
  length_eq := rfl
  nodup := by decide
  head_eq := rfl

def Solana.base58Encode : Bytes → String := solanaAlphabet.encode

def Solana.base58Decode : String → Except Base58Error Bytes := solanaAlphabet.decode

def Ripple.base58Encode : Bytes → String := rippleAlphabet.encode

def Ripple.base58Decode : String → Except Base58Error Bytes := rippleAlphabet.decode

def Ripple.base58checkEncode (sha256 : Bytes → Bytes) : Bytes → String :=
  rippleAlphabet.checkEncode sha256

def Ripple.base58checkDecode (sha256 : Bytes → Bytes) : String → Except Base58Error Bytes :=
  rippleAlphabet.checkDecode sha256

def Tron.base58checkEncode (sha256 : Bytes → Bytes) : Bytes → String :=
  tronAlphabet.checkEncode sha256

def Tron.base58checkDecode (sha256 : Bytes → Bytes) : String → Except Base58Error Bytes :=
  tronAlphabet.checkDecode sha256

def Bitcoin.base58checkEncode (sha256 : Bytes → Bytes) : Bytes → String :=
  bitcoinAlphabet.checkEncode sha256

/-! ## Symbols and digits -/

namespace Alphabet

variable {a : Alphabet}

theorem index_symbol {r : ℕ} (h : r < 58) : a.index (a.symbol r) = some r := by
  have hr : r < a.symbols.length := by rw [a.length_eq]; exact h
  rw [symbol, List.getD_eq_getElem?_getD, List.getElem?_eq_getElem hr, Option.getD_some, index,
    List.idxOf?_eq_some_iff]
  refine ⟨hr, rfl, fun j hj heq => ?_⟩
  exact absurd ((a.nodup.getElem_inj_iff).mp heq) (by omega)

theorem of_index {c : Char} {r : ℕ} (h : a.index c = some r) : r < 58 ∧ a.symbol r = c := by
  obtain ⟨hr, heq, -⟩ := List.idxOf?_eq_some_iff.mp h
  refine ⟨a.length_eq ▸ hr, ?_⟩
  rw [symbol, List.getD_eq_getElem?_getD, List.getElem?_eq_getElem hr, Option.getD_some, heq]

theorem index_eq_none {c : Char} : a.index c = none ↔ c ∉ a.symbols := List.idxOf?_eq_none_iff

theorem symbol_zero : a.symbol 0 = a.first := by
  have h := a.head_eq
  rw [List.head?_eq_getElem?] at h
  rw [symbol, List.getD_eq_getElem?_getD, h, Option.getD_some]

theorem symbol_eq_first {r : ℕ} (h : r < 58) : a.symbol r = a.first ↔ r = 0 := by
  constructor
  · intro heq
    have hindex := index_symbol (a := a) h
    rw [heq, ← symbol_zero, index_symbol (by norm_num)] at hindex
    exact (Option.some.inj hindex).symm
  · rintro rfl
    exact symbol_zero

/-- Text over the alphabet is its digits' symbols. -/
theorem exists_digits {cs : List Char} (h : ∀ c ∈ cs, c ∈ a.symbols) :
    ∃ ds : List ℕ, cs = ds.map a.symbol ∧ ∀ d ∈ ds, d < 58 := by
  induction cs with
  | nil => exact ⟨[], rfl, by simp⟩
  | cons c cs ih =>
    obtain ⟨ds, rfl, hds⟩ := ih fun c' hc' => h c' (List.mem_cons_of_mem c hc')
    cases hc : a.index c with
    | none => exact absurd (h c (by simp)) (index_eq_none.mp hc)
    | some d =>
      obtain ⟨hd, rfl⟩ := of_index hc
      exact ⟨d :: ds, rfl, List.forall_mem_cons.mpr ⟨hd, hds⟩⟩

theorem read_map (n : ℕ) {ds : List ℕ} (h : ∀ d ∈ ds, d < 58) :
    a.read n (ds.map a.symbol) = .ok (ds.foldl (fun n d => n * 58 + d) n) := by
  induction ds generalizing n with
  | nil => rfl
  | cons d ds ih =>
    simp only [List.map_cons, read, index_symbol (h d (by simp)), List.foldl_cons]
    exact ih _ fun d' hd' => h d' (List.mem_cons_of_mem d hd')

theorem read_refused (n : ℕ) {cs : List Char} (h : ¬∀ c ∈ cs, c ∈ a.symbols) :
    ∃ c ∈ cs, c ∉ a.symbols ∧ a.read n cs = .error (.notInAlphabet c) := by
  induction cs generalizing n with
  | nil => exact absurd (by simp) h
  | cons c cs ih =>
    cases hc : a.index c with
    | none => exact ⟨c, by simp, index_eq_none.mp hc, by simp only [read, hc]⟩
    | some d =>
      have hmem : c ∈ a.symbols := by
        by_contra hnot
        rw [index_eq_none.mpr hnot] at hc
        cases hc
      obtain ⟨c', hc', hnot, hread⟩ := ih (n * 58 + d) fun hall =>
        h (List.forall_mem_cons.mpr ⟨hmem, hall⟩)
      exact ⟨c', List.mem_cons_of_mem c hc', hnot, by simp only [read, hc, hread]⟩

/-! ## Both loops as a change of base -/

theorem zeros_map_toNat (data : Bytes) :
    zeros (data.map UInt8.toNat) = (data.takeWhile (· = 0)).length := by
  have hzero : ((fun d : ℕ => decide (d = 0)) ∘ UInt8.toNat) = fun b : UInt8 => decide (b = 0) := by
    funext b
    simp [← UInt8.toNat_inj]
  rw [zeros, List.takeWhile_map, List.length_map, hzero]

theorem zeros_eq_first {ds : List ℕ} (h : ∀ d ∈ ds, d < 58) :
    ((ds.map a.symbol).takeWhile (· = a.first)).length = zeros ds := by
  induction ds with
  | nil => rfl
  | cons d ds ih =>
    have hfirst := symbol_eq_first (a := a) (h d (by simp))
    have hrest := ih fun d' hd' => h d' (List.mem_cons_of_mem d hd')
    by_cases hd : d = 0
    · simpa [zeros, hd, symbol_zero] using hrest
    · simp [zeros, hd, hfirst]

theorem encode_eq (data : Bytes) :
    a.encode data = String.ofList ((rebase 256 58 (data.map UInt8.toNat)).map a.symbol) := by
  simp only [encode, rebase, List.map_append, List.map_replicate, symbol_zero, List.map_reverse,
    zeros_map_toNat]

theorem decode_eq {text : String} {ds : List ℕ} (htext : chars text = ds.map a.symbol)
    (h : ∀ d ∈ ds, d < 58) : a.decode text = .ok ((rebase 58 256 ds).map UInt8.ofNat) := by
  simp only [decode, htext, read_map 0 h, zeros_eq_first h, rebase, List.map_append,
    List.map_replicate, List.map_reverse]
  rfl

theorem map_bytes_toNat {ds : List ℕ} (h : ∀ d ∈ ds, d < 256) :
    (ds.map UInt8.ofNat).map UInt8.toNat = ds := by
  rw [List.map_map]
  conv_rhs => rw [← List.map_id ds]
  refine List.map_congr_left fun d hd => ?_
  simpa using h d hd

theorem decode_encode (data : Bytes) : a.decode (a.encode data) = .ok data := by
  have hbytes : ∀ d ∈ data.map UInt8.toNat, d < 256 := by
    intro d hd
    obtain ⟨b, -, rfl⟩ := List.mem_map.mp hd
    exact b.toNat_lt
  rw [encode_eq, decode_eq (chars_ofList _) (rebase_lt (by norm_num) _),
    rebase_rebase (by norm_num) (by norm_num) hbytes, List.map_map]
  simp [Function.comp_def]

theorem encode_decode {text : String} (h : ∀ c ∈ chars text, c ∈ a.symbols) :
    ∃ data, a.decode text = .ok data ∧ a.encode data = text := by
  obtain ⟨ds, htext, hds⟩ := exists_digits h
  refine ⟨_, decode_eq htext hds, ?_⟩
  rw [encode_eq, map_bytes_toNat (rebase_lt (by norm_num) _),
    rebase_rebase (by norm_num) (by norm_num) hds, ← htext]
  simp

theorem decode_refused {text : String} (h : ¬∀ c ∈ chars text, c ∈ a.symbols) :
    ∃ c ∈ chars text, c ∉ a.symbols ∧ a.decode text = .error (.notInAlphabet c) := by
  obtain ⟨c, hc, hnot, hread⟩ := read_refused 0 h
  exact ⟨c, hc, hnot, by simp only [decode, hread]⟩

/-- The checksum is split off where it was put. -/
theorem checkDecode_checkEncode {sha256 : Bytes → Bytes} (hsha : ∀ raw, (sha256 raw).length = 32)
    {payload : Bytes} (h : payload ≠ []) :
    a.checkDecode sha256 (a.checkEncode sha256 payload) = .ok payload := by
  have hfour : (checksum sha256 payload).length = 4 := by simp [checksum, hsha]
  have hpos : 0 < payload.length := List.length_pos_of_ne_nil h
  have hsplit : (payload ++ checksum sha256 payload).length - 4 = payload.length := by
    rw [List.length_append]
    omega
  have hlong : ¬(payload ++ checksum sha256 payload).length < 5 := by
    rw [List.length_append]
    omega
  simp only [checkDecode, checkEncode, decode_encode, if_neg hlong, hsplit, List.take_left,
    List.drop_left, ne_eq, not_true_eq_false, if_false]

end Alphabet

/-! ## What the modules' functions are to each other -/

/-- The two functions are inverse between the byte strings and the texts over the alphabet, and every
other text is refused for a character that is not of it. -/
structure Inverse (symbols : List Char) (encode : Bytes → String)
    (decode : String → Except Base58Error Bytes) : Prop where
  back : ∀ data, decode (encode data) = .ok data
  onto : ∀ text, (∀ c ∈ chars text, c ∈ symbols) →
    ∃ data, decode text = .ok data ∧ encode data = text
  refused : ∀ text, (¬∀ c ∈ chars text, c ∈ symbols) →
    ∃ c ∈ chars text, c ∉ symbols ∧ decode text = .error (.notInAlphabet c)

theorem Alphabet.inverse (a : Alphabet) : Inverse a.symbols a.encode a.decode where
  back := decode_encode
  onto _ := encode_decode
  refused _ := decode_refused

/-- Base58 of both alphabets is one to one, Base58Check gives every payload back, and the encoders of
all modules but Ripple's are Solana's. -/
theorem base58_bijective (sha256 : Bytes → Bytes) (hsha : ∀ raw, (sha256 raw).length = 32) :
    Inverse solanaAlphabet.symbols Solana.base58Encode Solana.base58Decode ∧
      Inverse rippleAlphabet.symbols Ripple.base58Encode Ripple.base58Decode ∧
      (∀ payload ≠ [], Ripple.base58checkDecode sha256 (Ripple.base58checkEncode sha256 payload) =
          .ok payload ∧
        Tron.base58checkDecode sha256 (Tron.base58checkEncode sha256 payload) = .ok payload) ∧
      ∀ payload,
        Bitcoin.base58checkEncode sha256 payload =
            Solana.base58Encode (payload ++ (sha256 (sha256 payload)).take 4) ∧
          Tron.base58checkEncode sha256 payload =
            Solana.base58Encode (payload ++ (sha256 (sha256 payload)).take 4) := by
  refine ⟨solanaAlphabet.inverse, rippleAlphabet.inverse, fun payload h => ⟨?_, ?_⟩, fun _ =>
    ⟨rfl, rfl⟩⟩
  · exact Alphabet.checkDecode_checkEncode hsha h
  · exact Alphabet.checkDecode_checkEncode hsha h

/-- SHA-256 as far as the payload of one zero byte needs it. -/
def sampleSha256 (raw : Bytes) : Bytes :=
  if raw = [0] then
    [0x6e, 0x34, 0xb, 0x9c, 0xff, 0xb3, 0x7a, 0x98, 0x9c, 0xa5, 0x44, 0xe6, 0xbb, 0x78, 0xa, 0x2c,
      0x78, 0x90, 0x1d, 0x3f, 0xb3, 0x37, 0x38, 0x76, 0x85, 0x11, 0xa3, 0x6, 0x17, 0xaf, 0xa0, 0x1d]
  else
    [0x14, 0x6, 0xe0, 0x58, 0x81, 0xe2, 0x99, 0x36, 0x77, 0x66, 0xd3, 0x13, 0xe2, 0x6c, 0x5, 0x56,
      0x4e, 0xc9, 0x1b, 0xf7, 0x21, 0xd3, 0x17, 0x26, 0xbd, 0x6e, 0x46, 0xe6, 0x6, 0x89, 0x53, 0x9a]

/-- One zero byte as a payload, in both alphabets. -/
theorem base58_bijective_sample :
    Bitcoin.base58checkEncode sampleSha256 [0] = "1Wh4bh" ∧
      Ripple.base58checkEncode sampleSha256 [0] = "rW6hb6" ∧
      Solana.base58Encode [0, 0x14, 0x6, 0xe0, 0x58] = "1Wh4bh" ∧
      Ripple.base58checkDecode sampleSha256 (Ripple.base58checkEncode sampleSha256 [0]) =
        .ok [0] := by
  have hlength : ∀ raw, (sampleSha256 raw).length = 32 := by
    intro raw
    unfold sampleSha256
    split_ifs <;> rfl
  have h := base58_bijective sampleSha256 hlength
  have hencoded : Bitcoin.base58checkEncode sampleSha256 [0] = "1Wh4bh" := by decide +kernel
  refine ⟨hencoded, by decide +kernel, ?_, (h.2.2.1 [0] (by decide)).1⟩
  rw [← hencoded, (h.2.2.2 [0]).1]
  rfl

end Base58
end Recto
