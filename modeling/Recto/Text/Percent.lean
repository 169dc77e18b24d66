import Recto.Text.Encoding

/-!
# Percent encoding

`Uri.EscapeDataString` writes every character but the unreserved ones as the
triplets of its UTF-8 bytes; `Uri.UnescapeDataString` reads them back and leaves
alone what is not a character.
-/

namespace Recto

/-- The unreserved characters of RFC 3986. -/
def isUnreserved (c : Char) : Bool :=
  let n := c.toNat
  (48 ≤ n && n ≤ 57) || (65 ≤ n && n ≤ 90) || (97 ≤ n && n ≤ 122) || n = 45 || n = 46 || n = 95 || n = 126

def upperHexDigit (n : ℕ) : Char := Char.ofNat (if n < 10 then 48 + n else 55 + n)

def triplet (b : UInt8) : List Char :=
  ['%', upperHexDigit (b.toNat / 16), upperHexDigit (b.toNat % 16)]

def escapeCharacter (c : Char) : List Char :=
  if isUnreserved c = true then [c] else (String.utf8EncodeChar c).flatMap triplet

/-- `Uri.EscapeDataString`, and `quote` without safe characters. -/
def escapeDataString (cs : List Char) : List Char := cs.flatMap escapeCharacter

/-- The bytes of a number of triplets. -/
def tripletBytes : ℕ → List Char → Option Bytes
  | 0, _ => some []
  | n + 1, '%' :: high :: low :: rest => do
      let a ← hexDigitValue high
      let b ← hexDigitValue low
      let bytes ← tripletBytes n rest
      return UInt8.ofNat (16 * a + b) :: bytes
  | _ + 1, _ => none

/-- How many bytes the character of a leading byte has. -/
def runeLength (lead : UInt8) : ℕ :=
  if lead.toNat < 128 then 1 else if lead.toNat < 224 then 2 else if lead.toNat < 240 then 3 else 4

/-- The character some triplets spell at the start of a text, with its bytes. -/
def decodeRune (cs : List Char) : Option (Char × ℕ) := do
  let lead ← tripletBytes 1 cs
  let n := runeLength (lead.headD 0)
  let bytes ← tripletBytes n cs
  match decodeUtf8 bytes with
  | [c] => if String.utf8EncodeChar c = bytes then some (c, n) else none
  | _ => none

/-- The text behind some characters that are already read. -/
def unescapeFrom : ℕ → List Char → List Char
  | _, [] => []
  | skip + 1, _ :: cs => unescapeFrom skip cs
  | 0, c :: cs =>
      match decodeRune (c :: cs) with
      | some (r, n) => r :: unescapeFrom (3 * n - 1) cs
      | none => c :: unescapeFrom 0 cs

/-- `Uri.UnescapeDataString` -/
def unescapeDataString (cs : List Char) : List Char := unescapeFrom 0 cs

/-- A text of unreserved characters, separators and triplets. -/
inductive PercentEncoded : List Char → Prop where
  | nil : PercentEncoded []
  | plain {c : Char} {cs : List Char} (h : isUnreserved c = true ∨ c = '&' ∨ c = '=')
      (rest : PercentEncoded cs) : PercentEncoded (c :: cs)
  | triplet (b : UInt8) {cs : List Char} (rest : PercentEncoded cs) :
      PercentEncoded (Recto.triplet b ++ cs)

theorem PercentEncoded.append {a b : List Char} (ha : PercentEncoded a) (hb : PercentEncoded b) :
    PercentEncoded (a ++ b) := by
  induction ha with
  | nil => exact hb
  | plain h _ ih => exact .plain h ih
  | triplet byte _ ih =>
    rw [List.append_assoc]
    exact .triplet byte ih

theorem percentEncoded_plain {cs : List Char}
    (h : ∀ c ∈ cs, isUnreserved c = true ∨ c = '&' ∨ c = '=') : PercentEncoded cs := by
  induction cs with
  | nil => exact .nil
  | cons c cs ih =>
    exact .plain (h c List.mem_cons_self) (ih fun d hd => h d (List.mem_cons_of_mem _ hd))

theorem percentEncoded_triplets (bytes : Bytes) : PercentEncoded (bytes.flatMap triplet) := by
  induction bytes with
  | nil => exact .nil
  | cons b bytes ih => exact .triplet b ih

theorem percentEncoded_escape (cs : List Char) : PercentEncoded (escapeDataString cs) := by
  induction cs with
  | nil => exact .nil
  | cons c cs ih =>
    refine PercentEncoded.append ?_ ih
    unfold escapeCharacter
    split_ifs with h
    · exact .plain (.inl h) .nil
    · exact percentEncoded_triplets _

theorem hexDigitValue_upperHexDigit : ∀ d < 16, hexDigitValue (upperHexDigit d) = some d := by decide

theorem upperHexDigit_ne : ∀ d < 16, upperHexDigit d ≠ '&' ∧ upperHexDigit d ≠ '=' := by decide

/-- What is escaped holds no separator. -/
theorem not_separator_of_mem_escape {cs : List Char} {d : Char} (h : d ∈ escapeDataString cs) :
    d ≠ '&' ∧ d ≠ '=' := by
  obtain ⟨c, -, hd⟩ := List.mem_flatMap.mp h
  unfold escapeCharacter at hd
  split_ifs at hd with hc
  · obtain rfl := List.mem_singleton.mp hd
    constructor <;> rintro rfl <;> exact absurd hc (by decide)
  · obtain ⟨b, -, hd⟩ := List.mem_flatMap.mp hd
    have hb : b.toNat < 256 := b.toNat_lt
    simp only [triplet, List.mem_cons, List.not_mem_nil, or_false] at hd
    obtain rfl | rfl | rfl := hd
    · exact ⟨by decide, by decide⟩
    · exact upperHexDigit_ne _ (by omega)
    · exact upperHexDigit_ne _ (by omega)

theorem tripletBytes_cons (n : ℕ) (b : UInt8) (rest : List Char) :
    tripletBytes (n + 1) (triplet b ++ rest) = (tripletBytes n rest).map (b :: ·) := by
  have hb : b.toNat < 256 := b.toNat_lt
  have hvalue : UInt8.ofNat (16 * (b.toNat / 16) + b.toNat % 16) = b := ofNat_eq_of_toNat (by omega)
  simp only [triplet, List.cons_append, List.nil_append, tripletBytes,
    hexDigitValue_upperHexDigit _ (show b.toNat / 16 < 16 by omega),
    hexDigitValue_upperHexDigit _ (show b.toNat % 16 < 16 by omega), Option.bind_eq_bind,
    Option.bind_some, hvalue]
  cases tripletBytes n rest <;> rfl

theorem tripletBytes_flatMap (bytes : Bytes) (rest : List Char) :
    tripletBytes bytes.length (bytes.flatMap triplet ++ rest) = some bytes := by
  induction bytes with
  | nil => rfl
  | cons b bytes ih =>
    rw [List.flatMap_cons, List.append_assoc, List.length_cons, tripletBytes_cons, ih]
    rfl

/-- The leading byte of a character tells how many bytes it has. -/
theorem runeLength_lead (c : Char) : ∃ lead bytes, String.utf8EncodeChar c = lead :: bytes ∧
    runeLength lead = bytes.length + 1 := by
  have hlt : c.toNat < 1114112 := by
    have := c.valid
    simp only [UInt32.isValidChar, Nat.isValidChar] at this
    exact (show c.val.toNat < 1114112 by omega)
  have hc : c.val.toNat = c.toNat := rfl
  unfold String.utf8EncodeChar
  simp only [hc]
  split_ifs with h₁ h₂ h₃
  · refine ⟨_, _, rfl, ?_⟩
    have := toNat_ofNat_small (show c.toNat < 256 by omega)
    rw [runeLength, this, if_pos (by omega)]
    rfl
  · refine ⟨_, _, rfl, ?_⟩
    have := toNat_ofNat_small (show c.toNat / 64 % 32 + 192 < 256 by omega)
    rw [runeLength, this, if_neg (by omega), if_pos (by omega)]
    rfl
  · refine ⟨_, _, rfl, ?_⟩
    have := toNat_ofNat_small (show c.toNat / 4096 % 16 + 224 < 256 by omega)
    rw [runeLength, this, if_neg (by omega), if_neg (by omega), if_pos (by omega)]
    rfl
  · refine ⟨_, _, rfl, ?_⟩
    have := toNat_ofNat_small (show c.toNat / 262144 % 8 + 240 < 256 by omega)
    rw [runeLength, this, if_neg (by omega), if_neg (by omega), if_neg (by omega)]
    rfl

theorem decodeRune_escaped (c : Char) (rest : List Char) :
    decodeRune ((String.utf8EncodeChar c).flatMap triplet ++ rest) =
      some (c, (String.utf8EncodeChar c).length) := by
  obtain ⟨lead, bytes, hbytes, hlength⟩ := runeLength_lead c
  have hlead : tripletBytes 1 ((String.utf8EncodeChar c).flatMap triplet ++ rest) = some [lead] := by
    rw [hbytes, List.flatMap_cons, List.append_assoc, tripletBytes_cons]
    rfl
  have hall : tripletBytes (runeLength lead) ((String.utf8EncodeChar c).flatMap triplet ++ rest) =
      some (String.utf8EncodeChar c) := by
    rw [hlength, ← List.length_cons (a := lead), ← hbytes]
    exact tripletBytes_flatMap _ rest
  have hdecode : decodeUtf8 (String.utf8EncodeChar c) = [c] := by
    have h := decodeUtf8_encodeChar c []
    rwa [List.append_nil] at h
  simp only [decodeRune, hlead, Option.bind_eq_bind, Option.bind_some, List.headD_cons, hall, hdecode,
    if_true]
  rw [hlength, hbytes, List.length_cons]

theorem unescapeFrom_skip (read rest : List Char) :
    unescapeFrom read.length (read ++ rest) = unescapeFrom 0 rest := by
  induction read with
  | nil => rfl
  | cons c read ih => exact ih

theorem unescapeFrom_character (c : Char) (rest : List Char) :
    unescapeFrom 0 (escapeCharacter c ++ rest) = c :: unescapeFrom 0 rest := by
  unfold escapeCharacter
  split_ifs with h
  · have hne : c ≠ '%' := by
      rintro rfl
      exact absurd h (by decide)
    have hnone : decodeRune (c :: rest) = none := by
      unfold decodeRune tripletBytes
      split
      · rename_i heq
        cases heq
      · rename_i heq
        injection heq with hc
        exact absurd hc hne
      · rfl
    simp only [List.cons_append, List.nil_append, unescapeFrom, hnone]
  · have hrune := decodeRune_escaped c rest
    obtain ⟨lead, bytes, hbytes, -⟩ := runeLength_lead c
    rw [hbytes, List.flatMap_cons, List.append_assoc] at hrune ⊢
    have hlength : 3 * (lead :: bytes).length - 1 =
        ([upperHexDigit (lead.toNat / 16), upperHexDigit (lead.toNat % 16)] ++
          bytes.flatMap triplet).length := by
      have hflat : (bytes.flatMap triplet).length = 3 * bytes.length := by
        simp [List.length_flatMap, triplet, Nat.mul_comm]
      rw [List.length_append, hflat]
      simp only [List.length_cons, List.length_nil]
      omega
    show (match decodeRune (triplet lead ++ (bytes.flatMap triplet ++ rest)) with
      | some (r, n) => r :: unescapeFrom (3 * n - 1) ([upperHexDigit (lead.toNat / 16),
          upperHexDigit (lead.toNat % 16)] ++ (bytes.flatMap triplet ++ rest))
      | none => '%' :: unescapeFrom 0 ([upperHexDigit (lead.toNat / 16),
          upperHexDigit (lead.toNat % 16)] ++ (bytes.flatMap triplet ++ rest))) = _
    rw [hrune]
    dsimp only
    rw [hlength, ← List.append_assoc, unescapeFrom_skip]

/-- Reading undoes writing. -/
theorem unescape_escape (cs : List Char) : unescapeDataString (escapeDataString cs) = cs := by
  unfold unescapeDataString escapeDataString
  induction cs with
  | nil => rfl
  | cons c cs ih => rw [List.flatMap_cons, unescapeFrom_character, ih]

theorem escape_unreserved {cs : List Char} (h : ∀ c ∈ cs, isUnreserved c = true) :
    escapeDataString cs = cs := by
  unfold escapeDataString
  induction cs with
  | nil => rfl
  | cons c cs ih =>
    rw [List.flatMap_cons, ih fun d hd => h d (List.mem_cons_of_mem _ hd), escapeCharacter,
      if_pos (h c List.mem_cons_self)]
    rfl

theorem unescape_unreserved {cs : List Char} (h : ∀ c ∈ cs, isUnreserved c = true) :
    unescapeDataString cs = cs := by
  have hread := unescape_escape cs
  rwa [escape_unreserved h] at hread

end Recto
