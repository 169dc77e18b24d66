import Recto.Data.Bits
import Recto.Data.Records
import Recto.Data.Sponge
import Recto.Ethereum.RlpCanonical
import Recto.Ethereum.RlpRoundTrip

/-!
# Base32

`base64.b32encode` and `base64.b32decode`, quantum by quantum. The decoder looks
at the padding and at the alphabet; of the last digit it drops the bits that do
not fill a byte, whatever they are.

A text and the bytes it stands for are one string of bits in groups of five and
of eight. The encoder fills the last group with zeros. The decoder reads the
groups of five and forgets what is left of the last one.
-/

namespace Recto
namespace Base32

open Positional Rlp

def alphabet : List Char := "ABCDEFGHIJKLMNOPQRSTUVWXYZ234567".toList

def symbol (d : ℕ) : Char := alphabet.getD d 'A'

def digit (c : Char) : Option ℕ := alphabet.idxOf? c

/-! ## Encoding -/

/-- `b32tab2[x]` -/
def pair (x : ℕ) : List ℕ := [x / 32, x % 32]

/-- The eight digits of a quantum. -/
def eight (c : ℕ) : List ℕ :=
  pair (c >>> 30) ++ pair ((c >>> 20) % 1024) ++ pair ((c >>> 10) % 1024) ++ pair (c % 1024)

/-- How many of the last eight digits are padding. -/
def unused : ℕ → ℕ
  | 1 => 6
  | 2 => 4
  | 3 => 3
  | 4 => 1
  | _ => 0

/-- The digits in front of the padding. -/
def digitsOf (s : Bytes) : List ℕ :=
  let leftover := s.length % 5
  let s := if leftover = 0 then s else s ++ List.replicate (5 - leftover) 0
  let encoded := (blocks 5 s).flatMap fun q => eight (fromBytesBig q)
  encoded.take (encoded.length - unused leftover)

/-- `base64.b32encode` -/
def b32encode (s : Bytes) : List Char :=
  (digitsOf s).map symbol ++ List.replicate (unused (s.length % 5)) '='

/-- `encoded.rstrip("=")` -/
def rstripPad (cs : List Char) : List Char := (cs.reverse.dropWhile (· = '=')).reverse

/-! ## Decoding -/

/-- What `b32decode` raises, each a `ValueError`. -/
inductive Base32Error where
  | notAscii
  | incorrectPadding
  | nonBase32Digit
  deriving DecidableEq, Repr

/-- `acc = (acc << 5) + b32rev[c]` over a quantum. -/
def readQuantum : ℕ → List Char → Option ℕ
  | acc, [] => some acc
  | acc, c :: cs => (digit c).bind fun d => readQuantum ((acc <<< 5) + d) cs

/-- `base64.b32decode` -/
def b32decode (s : List Char) : Except Base32Error Bytes :=
  if ¬s.all fun c => c.toNat < 128 then .error .notAscii
  else if s.length % 8 ≠ 0 then .error .incorrectPadding
  else
    let text := rstripPad s
    let padchars := s.length - text.length
    match (blocksOf 8 ((text.length + 7) / 8) text).mapM (readQuantum 0) with
    | none => .error .nonBase32Digit
    | some accs =>
        if padchars ∉ [0, 1, 3, 4, 6] then .error .incorrectPadding
        else
          let decoded := accs.flatMap (toBytesBig 5)
          if padchars ≠ 0 ∧ decoded ≠ [] then
            let last := toBytesBig 5 (accs.getLastD 0 <<< (5 * padchars))
            .ok (decoded.take (decoded.length - 5) ++ last.take ((43 - 5 * padchars) / 8))
          else .ok decoded

/-! ## Base32 as a string of bits -/

variable {s raw : Bytes} {cs : List Char} {ds : List ℕ}

/-- The bits of a byte string. -/
def byteBits (s : Bytes) : List Bool := bitsOf 8 (s.map UInt8.toNat)

@[simp] theorem length_byteBits (s : Bytes) : (byteBits s).length = 8 * s.length := by
  rw [byteBits, length_bitsOf, List.length_map]

theorem byteBits_append (s t : Bytes) : byteBits (s ++ t) = byteBits s ++ byteBits t := by
  rw [byteBits, List.map_append, bitsOf_append]
  rfl

theorem byteBits_flatten (bs : List Bytes) : byteBits bs.flatten = bs.flatMap byteBits := by
  induction bs with
  | nil => rfl
  | cons b bs ih => rw [List.flatten_cons, byteBits_append, ih, List.flatMap_cons]

theorem byteBits_take (s : Bytes) (k : ℕ) : byteBits (s.take k) = (byteBits s).take (8 * k) := by
  rw [byteBits, List.map_take, bitsOf_take]
  rfl

theorem byteBits_injective {s t : Bytes} (h : byteBits s = byteBits t) : s = t := by
  have hlt : ∀ u : Bytes, ∀ d ∈ u.map UInt8.toNat, d < 2 ^ 8 := by
    intro u d hd
    obtain ⟨b, -, rfl⟩ := List.mem_map.mp hd
    exact b.toNat_lt
  exact List.map_injective_iff.mpr (fun _ _ => UInt8.toNat_inj.mp)
    (bitsOf_injective (by omega) (hlt s) (hlt t) h)

theorem byteBits_toBytesBig (size : ℕ) : ∀ n, byteBits (toBytesBig size n) = bits (8 * size) n := by
  induction size with
  | zero => exact fun _ => rfl
  | succ size ih =>
    intro n
    have hbyte : byteBits [UInt8.ofNat (n % 256)] = bits 8 n := by
      rw [byteBits, List.map_singleton, toNat_ofNat_small (Nat.mod_lt _ (by omega)), bitsOf_cons,
        bitsOf_nil, List.append_nil]
      exact bits_mod 8 n
    rw [toBytesBig, byteBits_append, ih, hbyte, Nat.mul_succ, bits_add]
    rfl

theorem bits_fromBytesBig (s : Bytes) : bits (8 * s.length) (fromBytesBig s) = byteBits s := by
  rw [← byteBits_toBytesBig, toBytesBig_fromBytesBig]

/-! ## Encoding -/

theorem bitsOf_pair (x : ℕ) : bitsOf 5 (pair x) = bits 10 x := by
  have hlow : bits 5 (x % 32) = bits 5 x := bits_mod 5 x
  rw [pair, bitsOf_cons, bitsOf_cons, bitsOf_nil, List.append_nil, hlow]
  exact (bits_add 5 5 x).symm

theorem bitsOf_eight (c : ℕ) : bitsOf 5 (eight c) = bits 40 c := by
  have hlow : ∀ x, bits 10 (x % 1024) = bits 10 x := bits_mod 10
  simp only [eight, bitsOf_append, bitsOf_pair, hlow, Nat.shiftRight_eq_div_pow]
  have h₁ : bits 20 c = bits 10 (c / 2 ^ 10) ++ bits 10 c := bits_add 10 10 c
  have h₂ : bits 30 c = bits 10 (c / 2 ^ 20) ++ bits 20 c := bits_add 10 20 c
  have h₃ : bits 40 c = bits 10 (c / 2 ^ 30) ++ bits 30 c := bits_add 10 30 c
  rw [h₃, h₂, h₁, List.append_assoc, List.append_assoc]

@[simp] theorem length_eight (c : ℕ) : (eight c).length = 8 := rfl

theorem eight_lt {c d : ℕ} (hc : c < 2 ^ 40) (hd : d ∈ eight c) : d < 32 := by
  have hpair : ∀ {x : ℕ}, x < 1024 → d ∈ pair x → d < 32 := by
    intro x hx hd
    simp only [pair, List.mem_cons, List.not_mem_nil, or_false] at hd
    omega
  simp only [eight, List.mem_append, Nat.shiftRight_eq_div_pow] at hd
  rcases hd with ((hd | hd) | hd) | hd
  · exact hpair (by omega) hd
  all_goals exact hpair (Nat.mod_lt _ (by omega)) hd

/-- The bytes with the zeros that complete the last quantum. -/
def filled (s : Bytes) : Bytes :=
  if s.length % 5 = 0 then s else s ++ List.replicate (5 - s.length % 5) 0

theorem filled_eq (s : Bytes) :
    filled s = s ++ List.replicate ((5 - s.length % 5) % 5) 0 := by
  rw [filled]
  split_ifs with h
  · simp [h]
  · rw [Nat.mod_eq_of_lt (show 5 - s.length % 5 < 5 by omega)]

theorem length_filled (s : Bytes) : (filled s).length = (s.length + 4) / 5 * 5 := by
  rw [filled_eq, List.length_append, List.length_replicate]
  omega

theorem mem_blocks_filled {q : Bytes} (hq : q ∈ blocks 5 (filled s)) : q.length = 5 :=
  length_of_mem_blocks hq

/-- The digits of all quanta. -/
def wholeDigits (s : Bytes) : List ℕ := (blocks 5 (filled s)).flatMap fun q => eight (fromBytesBig q)

theorem digitsOf_eq (s : Bytes) :
    digitsOf s = (wholeDigits s).take ((wholeDigits s).length - unused (s.length % 5)) := rfl

theorem bitsOf_wholeDigits (s : Bytes) : bitsOf 5 (wholeDigits s) = byteBits (filled s) := by
  have hquantum : ∀ q ∈ blocks 5 (filled s), bitsOf 5 (eight (fromBytesBig q)) = byteBits q := by
    intro q hq
    rw [bitsOf_eight, ← bits_fromBytesBig, mem_blocks_filled hq]
  have hflatten : (blocks 5 (filled s)).flatten = filled s :=
    flatten_blocksOf (by rw [length_filled]; omega)
  calc bitsOf 5 (wholeDigits s)
      = (blocks 5 (filled s)).flatMap fun q => bitsOf 5 (eight (fromBytesBig q)) :=
        List.flatMap_assoc
    _ = (blocks 5 (filled s)).flatMap byteBits := List.flatMap_congr hquantum
    _ = byteBits (filled s) := by rw [← byteBits_flatten, hflatten]

theorem length_wholeDigits (s : Bytes) : (wholeDigits s).length = (s.length + 4) / 5 * 8 := by
  have h := congrArg List.length (bitsOf_wholeDigits s)
  rw [length_bitsOf, length_byteBits, length_filled] at h
  omega

@[simp] theorem length_digitsOf (s : Bytes) : (digitsOf s).length = (8 * s.length + 4) / 5 := by
  rw [digitsOf_eq, List.length_take, length_wholeDigits]
  have hrest : s.length % 5 < 5 := Nat.mod_lt _ (by omega)
  generalize hleft : s.length % 5 = leftover at hrest ⊢
  interval_cases leftover <;> simp only [unused] <;> omega

theorem digitsOf_lt {d : ℕ} (hd : d ∈ digitsOf s) : d < 32 := by
  obtain ⟨q, hq, hd⟩ := List.mem_flatMap.mp (List.mem_of_mem_take (digitsOf_eq s ▸ hd))
  have hlt := fromBytesBig_lt q
  rw [mem_blocks_filled hq] at hlt
  exact eight_lt hlt hd

/-- The encoder writes the bits of the bytes, and zeros that complete the last digit. -/
theorem bitsOf_digitsOf (s : Bytes) : bitsOf 5 (digitsOf s) =
    byteBits s ++ List.replicate (5 * ((8 * s.length + 4) / 5) - 8 * s.length) false := by
  have hlength := length_digitsOf s
  have hzeros : byteBits (List.replicate ((5 - s.length % 5) % 5) 0) =
      List.replicate (8 * ((5 - s.length % 5) % 5)) false := by
    rw [byteBits, List.map_replicate]
    exact bitsOf_replicate_zero 8 _
  rw [digitsOf_eq, List.length_take] at hlength
  rw [digitsOf_eq, List.take_eq_take_min, hlength, bitsOf_take, bitsOf_wholeDigits, filled_eq,
    byteBits_append, hzeros, List.take_append, List.take_of_length_le (by rw [length_byteBits]; omega),
    length_byteBits, List.take_replicate]
  congr 2
  omega

/-! ## The alphabet -/

theorem digit_symbol : ∀ d < 32, digit (symbol d) = some d := by decide

theorem symbol_ne_pad : ∀ d < 32, symbol d ≠ '=' ∧ (symbol d).toNat < 128 := by decide

theorem of_digit {c : Char} {d : ℕ} (h : digit c = some d) : d < 32 ∧ symbol d = c := by
  obtain ⟨hd, heq, -⟩ := List.idxOf?_eq_some_iff.mp h
  refine ⟨hd, ?_⟩
  rw [symbol, List.getD_eq_getElem?_getD, List.getElem?_eq_getElem hd, Option.getD_some, heq]

theorem exists_digits (h : ∀ c ∈ cs, ∃ d, digit c = some d) :
    ∃ ds : List ℕ, cs = ds.map symbol ∧ ∀ d ∈ ds, d < 32 := by
  induction cs with
  | nil => exact ⟨[], rfl, by simp⟩
  | cons c cs ih =>
    obtain ⟨⟨d, hc⟩, hcs⟩ := List.forall_mem_cons.mp h
    obtain ⟨ds, rfl, hds⟩ := ih hcs
    obtain ⟨hd, rfl⟩ := of_digit hc
    exact ⟨d :: ds, rfl, List.forall_mem_cons.mpr ⟨hd, hds⟩⟩

theorem map_symbol_injective {es : List ℕ} (hds : ∀ d ∈ ds, d < 32) (hes : ∀ e ∈ es, e < 32)
    (h : ds.map symbol = es.map symbol) : ds = es := by
  induction ds generalizing es with
  | nil => exact (List.map_eq_nil_iff.mp h.symm).symm
  | cons d ds ih =>
    cases es with
    | nil => cases h
    | cons e es =>
      obtain ⟨hd, hds⟩ := List.forall_mem_cons.mp hds
      obtain ⟨he, hes⟩ := List.forall_mem_cons.mp hes
      obtain ⟨hfirst, hrest⟩ := List.cons.inj h
      have hdigit := congrArg digit hfirst
      rw [digit_symbol d hd, digit_symbol e he] at hdigit
      rw [Option.some.inj hdigit, ih hds hes hrest]

/-! ## Padding -/

theorem rstripPad_append (p : ℕ) {cs : List Char} (h : ∀ c ∈ cs, c ≠ '=') :
    rstripPad (cs ++ List.replicate p '=') = cs := by
  have hdrop : cs.reverse.dropWhile (· = '=') = cs.reverse := by
    rw [List.dropWhile_eq_self_iff]
    intro hpos
    simpa using h _ (List.mem_reverse.mp (List.getElem_mem hpos))
  rw [rstripPad, List.reverse_append, List.reverse_replicate,
    List.dropWhile_append_of_pos (by simp), hdrop, List.reverse_reverse]

theorem eq_rstripPad_append (cs : List Char) :
    cs = rstripPad cs ++ List.replicate (cs.length - (rstripPad cs).length) '=' := by
  have hsplit := List.takeWhile_append_dropWhile (p := (· = '=')) (l := cs.reverse)
  have htake : cs.reverse.takeWhile (· = '=') =
      List.replicate (cs.reverse.takeWhile (· = '=')).length '=' :=
    List.eq_replicate_of_mem fun c hc => by simpa using List.mem_takeWhile_imp hc
  have hcs := congrArg List.reverse hsplit
  rw [List.reverse_append, List.reverse_reverse, htake, List.reverse_replicate] at hcs
  have hlength := congrArg List.length hcs
  rw [List.length_append, List.length_replicate] at hlength
  rw [rstripPad]
  conv_lhs => rw [← hcs]
  congr 2
  omega

/-! ## Reading quanta -/

theorem readQuantum_map (acc : ℕ) (h : ∀ d ∈ ds, d < 32) :
    readQuantum acc (ds.map symbol) = some (ds.foldl (fun n d => n * 32 + d) acc) := by
  induction ds generalizing acc with
  | nil => rfl
  | cons d ds ih =>
    obtain ⟨hd, hds⟩ := List.forall_mem_cons.mp h
    rw [List.map_cons, readQuantum, digit_symbol d hd, Option.bind_some, ih _ hds,
      Nat.shiftLeft_eq]
    rfl

theorem exists_digit_of_readQuantum {acc v : ℕ} (h : readQuantum acc cs = some v) :
    ∀ c ∈ cs, ∃ d, digit c = some d := by
  induction cs generalizing acc with
  | nil => simp
  | cons c cs ih =>
    obtain ⟨d, hd, hrest⟩ := Option.bind_eq_some_iff.mp h
    exact List.forall_mem_cons.mpr ⟨⟨d, hd⟩, ih hrest⟩

theorem mapM_readQuantum_map (count : ℕ) (h : ∀ d ∈ ds, d < 32) :
    (blocksOf 8 count (ds.map symbol)).mapM (readQuantum 0) =
      some ((blocksOf 8 count ds).map (value 32)) := by
  rw [map_blocksOf, mapM_eq_some_iff, List.forall₂_map_left_iff, List.forall₂_map_right_iff,
    List.forall₂_same]
  intro b hb
  exact readQuantum_map 0 fun d hd => h d (mem_of_mem_blocksOf hb hd)

/-- Quanta that can be read are digits. -/
theorem exists_digits_of_mapM {count : ℕ} {accs : List ℕ} (hcount : cs.length ≤ count * 8)
    (h : (blocksOf 8 count cs).mapM (readQuantum 0) = some accs) :
    ∃ ds : List ℕ, cs = ds.map symbol ∧ ∀ d ∈ ds, d < 32 := by
  refine exists_digits fun c hc => ?_
  rw [← flatten_blocksOf hcount] at hc
  obtain ⟨b, hb, hc⟩ := List.mem_flatten.mp hc
  obtain ⟨v, -, hv⟩ := exists_mem_of_mapM h hb
  exact exists_digit_of_readQuantum hv c hc

/-! ## Decoding -/

/-- The padding that completes a last quantum of digits. -/
def padOf (count : ℕ) : ℕ := (8 - count % 8) % 8

/-- The text is digits and their padding, of a length the decoder allows. -/
structure Padded (ds : List ℕ) (cs : List Char) : Prop where
  lt : ∀ d ∈ ds, d < 32
  eq : cs = ds.map symbol ++ List.replicate (padOf ds.length) '='
  allowed : padOf ds.length ∈ [0, 1, 3, 4, 6]

/-- The bytes of the quanta, the last of them short. -/
def bytesOf (ds : List ℕ) : Bytes :=
  let accs := (blocksOf 8 ((ds.length + 7) / 8) ds).map (value 32)
  let padchars := padOf ds.length
  let decoded := accs.flatMap (toBytesBig 5)
  if padchars ≠ 0 ∧ decoded ≠ [] then
    let last := toBytesBig 5 (accs.getLastD 0 <<< (5 * padchars))
    decoded.take (decoded.length - 5) ++ last.take ((43 - 5 * padchars) / 8)
  else decoded

theorem Padded.length_eq (h : Padded ds cs) : cs.length = ds.length + padOf ds.length := by
  rw [h.eq, List.length_append, List.length_map, List.length_replicate]

theorem Padded.decode (h : Padded ds cs) : b32decode cs = .ok (bytesOf ds) := by
  have hascii : (cs.all fun c => c.toNat < 128) = true := by
    rw [List.all_eq_true, h.eq]
    simp only [decide_eq_true_eq]
    refine List.forall_mem_append.mpr ⟨fun c hc => ?_, fun c hc => ?_⟩
    · obtain ⟨d, hd, rfl⟩ := List.mem_map.mp hc
      exact (symbol_ne_pad d (h.lt d hd)).2
    · rw [List.eq_of_mem_replicate hc]
      decide
  have htext : rstripPad cs = ds.map symbol := by
    rw [h.eq]
    refine rstripPad_append _ fun c hc => ?_
    obtain ⟨d, hd, rfl⟩ := List.mem_map.mp hc
    exact (symbol_ne_pad d (h.lt d hd)).1
  have hwhole : cs.length % 8 = 0 := by
    rw [h.length_eq, padOf]
    omega
  have hpad : cs.length - ds.length = padOf ds.length := by
    rw [h.length_eq]
    omega
  rw [b32decode, if_neg (not_not.mpr hascii), if_neg (not_not.mpr hwhole), htext]
  simp only [List.length_map, hpad, mapM_readQuantum_map _ h.lt, h.allowed, not_true_eq_false,
    if_false]
  rw [bytesOf]
  split_ifs <;> rfl

theorem exists_padded (h : b32decode cs = .ok raw) : ∃ ds, Padded ds cs ∧ raw = bytesOf ds := by
  suffices hds : ∃ ds, Padded ds cs by
    obtain ⟨ds, hds⟩ := hds
    rw [hds.decode] at h
    exact ⟨ds, hds, (Except.ok.inj h).symm⟩
  rw [b32decode] at h
  split_ifs at h with hascii hwhole
  simp only at h
  generalize haccs : (blocksOf 8 (((rstripPad cs).length + 7) / 8) (rstripPad cs)).mapM
    (readQuantum 0) = accs at h
  have hsplit := eq_rstripPad_append cs
  match accs with
  | none => cases h
  | some accs =>
    obtain ⟨ds, htext, hlt⟩ := exists_digits_of_mapM (by omega) haccs
    rw [htext, List.length_map] at hsplit h
    split_ifs at h with hallowed
    all_goals
      have hlength := congrArg List.length hsplit
      rw [List.length_append, List.length_map, List.length_replicate] at hlength
      have hpad : cs.length - ds.length = padOf ds.length := by
        simp only [List.mem_cons, List.not_mem_nil, or_false] at hallowed
        rw [padOf]
        omega
      exact ⟨ds, hlt, hpad ▸ hsplit, hpad ▸ hallowed⟩

/-- `b32decode` reads digits and their padding, and nothing else. -/
theorem b32decode_eq_ok : b32decode cs = .ok raw ↔ ∃ ds, Padded ds cs ∧ raw = bytesOf ds := by
  refine ⟨exists_padded, ?_⟩
  rintro ⟨ds, hds, rfl⟩
  exact hds.decode

theorem byteBits_flatMap (size : ℕ) (vs : List ℕ) :
    byteBits (vs.flatMap (toBytesBig size)) = vs.flatMap (bits (8 * size)) := by
  induction vs with
  | nil => rfl
  | cons v vs ih =>
    rw [List.flatMap_cons, byteBits_append, byteBits_toBytesBig, ih, List.flatMap_cons]

/-- Whole quanta are their bits. -/
theorem byteBits_whole {count : ℕ} (hlt : ∀ d ∈ ds, d < 32) (hlength : ds.length = count * 8) :
    byteBits (((blocksOf 8 count ds).map (value 32)).flatMap (toBytesBig 5)) = bitsOf 5 ds := by
  have hquantum : ∀ b ∈ blocksOf 8 count ds, bits 40 (value 32 b) = bitsOf 5 b := by
    intro b hb
    have hbits := bitsOf_eq_bits (w := 5) fun d hd => hlt d (mem_of_mem_blocksOf hb hd)
    rw [length_of_mem_blocksOf hlength.ge hb] at hbits
    exact hbits.symm
  rw [byteBits_flatMap, List.flatMap_map, List.flatMap_congr hquantum]
  conv_rhs => rw [← flatten_blocksOf hlength.le]
  exact (bitsOf_flatten 5 _).symm

/-- A last quantum of fewer digits keeps the bytes its digits fill. -/
theorem byteBits_short (hlt : ∀ d ∈ ds, d < 32) {p : ℕ} (hp : ds.length + p = 8)
    {k : ℕ} (hk : 8 * k ≤ 5 * ds.length) :
    byteBits ((toBytesBig 5 (value 32 ds <<< (5 * p))).take k) = (bitsOf 5 ds).take (8 * k) := by
  have hbits : bits 40 (value 32 ds * 2 ^ (5 * p)) =
      bitsOf 5 ds ++ bits (5 * p) (value 32 ds * 2 ^ (5 * p)) := by
    have hwidth : 40 = 5 * ds.length + 5 * p := by omega
    have hdigits : bitsOf 5 ds = bits (5 * ds.length) (value 32 ds) := bitsOf_eq_bits hlt
    rw [hwidth, bits_add, Nat.mul_div_cancel _ (Nat.two_pow_pos _), hdigits]
  rw [byteBits_take, byteBits_toBytesBig, Nat.shiftLeft_eq]
  change (bits 40 _).take _ = _
  rw [hbits, List.take_append_of_le_length (by rw [length_bitsOf]; exact hk)]

/-- Whole quanta and a short one are decoded apart. -/
theorem bytesOf_append {front rest : List ℕ} {count : ℕ} (hfront : front.length = count * 8)
    (hpos : 0 < rest.length) (hshort : rest.length < 8) :
    bytesOf (front ++ rest) =
      ((blocksOf 8 count front).map (value 32)).flatMap (toBytesBig 5) ++
        (toBytesBig 5 (value 32 rest <<< (5 * (8 - rest.length)))).take
          ((43 - 5 * (8 - rest.length)) / 8) := by
  have hlength : (front ++ rest).length = count * 8 + rest.length := by
    rw [List.length_append, hfront]
  have hcount : ((front ++ rest).length + 7) / 8 = count + 1 := by omega
  have hpad : padOf (front ++ rest).length = 8 - rest.length := by
    rw [padOf, hlength]
    omega
  have hblocks : blocksOf 8 (count + 1) (front ++ rest) = blocksOf 8 count front ++ [rest] := by
    rw [blocksOf_append hfront.ge, ← hfront, List.drop_length, List.nil_append,
      List.take_of_length_le hshort.le]
  have hne : ∀ before : Bytes, before ++ toBytesBig 5 (value 32 rest) ≠ [] := by
    intro before h
    have hnil := congrArg List.length (List.append_eq_nil_iff.mp h).2
    rw [length_toBytesBig] at hnil
    cases hnil
  rw [bytesOf]
  simp only [hcount, hpad, hblocks, List.map_append, List.map_singleton, List.flatMap_append,
    List.flatMap_singleton, List.getLastD_concat]
  rw [if_pos ⟨by omega, hne _⟩, List.length_append, length_toBytesBig, Nat.add_sub_cancel,
    List.take_left]

/-- The decoder reads the bits of the digits, as far as they fill bytes. -/
theorem byteBits_bytesOf (hlt : ∀ d ∈ ds, d < 32) (hpad : padOf ds.length ∈ [0, 1, 3, 4, 6]) :
    byteBits (bytesOf ds) = (bitsOf 5 ds).take (8 * (5 * ds.length / 8)) := by
  simp only [List.mem_cons, List.not_mem_nil, or_false] at hpad
  by_cases hzero : padOf ds.length = 0
  · have hwhole : ds.length = (ds.length + 7) / 8 * 8 := by
      rw [padOf] at hzero
      omega
    rw [bytesOf]
    simp only [hzero, ne_eq, not_true_eq_false, false_and, if_false]
    rw [byteBits_whole hlt hwhole, List.take_of_length_le (by rw [length_bitsOf]; omega)]
  · -- the whole quanta in front, and the short one
    obtain ⟨front, rest, hds, hfront⟩ : ∃ front rest, ds = front ++ rest ∧
        front.length = ds.length / 8 * 8 :=
      ⟨ds.take (ds.length / 8 * 8), ds.drop (ds.length / 8 * 8), (List.take_append_drop _ ds).symm,
        by rw [List.length_take]; omega⟩
    have hlength : ds.length = ds.length / 8 * 8 + rest.length := by
      conv_lhs => rw [hds, List.length_append, hfront]
    rw [padOf] at hpad hzero
    have hfrontLt : ∀ d ∈ front, d < 32 := fun d hd => hlt d (hds ▸ List.mem_append_left _ hd)
    have hrestLt : ∀ d ∈ rest, d < 32 := fun d hd => hlt d (hds ▸ List.mem_append_right _ hd)
    have hkept : (43 - 5 * (8 - rest.length)) / 8 = 5 * rest.length / 8 := by omega
    have hbytes := @bytesOf_append front rest _ hfront (by omega) (by omega)
    rw [← hds] at hbytes
    rw [hbytes, byteBits_append, byteBits_whole hfrontLt hfront,
      byteBits_short hrestLt (by omega) (by omega), hkept]
    have hcut : 8 * (5 * ds.length / 8) = 5 * front.length + 8 * (5 * rest.length / 8) := by omega
    have hbits : bitsOf 5 ds = bitsOf 5 front ++ bitsOf 5 rest := by
      rw [← bitsOf_append, ← hds]
    rw [hcut, hbits, ← length_bitsOf 5 front, List.take_length_add_append]

end Base32
end Recto
