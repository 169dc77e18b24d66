import Recto.Json.Dumps

/-!
# Bytes and their text forms

The encodings the bootloader writes byte strings in: ASCII, lower-case
hexadecimal, and unpadded URL-safe base64. Each decoder is Python's own, with
its leniency: `bytes.fromhex` skips whitespace between bytes, and
`base64.urlsafe_b64decode` skips every character outside the alphabet.
-/

namespace Recto

/-- `s.encode("ascii")` -/
def encodeAscii (s : String) : Except PyError Bytes :=
  if (chars s).all fun c => c.toNat < 128 then .ok ((chars s).map fun c => UInt8.ofNat c.toNat)
  else .error .unicodeEncodeError

/-- `raw.decode("ascii")` -/
def decodeAscii (raw : Bytes) : Option String :=
  if raw.all fun b => b.toNat < 128 then
    some (String.ofList (raw.map fun b => Char.ofNat b.toNat))
  else none

/-! ## Hexadecimal -/

/-- `raw.hex()` -/
def hex (raw : Bytes) : String :=
  String.ofList (raw.flatMap fun b => [Json.hexDigit (b.toNat / 16), Json.hexDigit (b.toNat % 16)])

/-- The value of one hexadecimal digit, in either case. -/
def hexDigitValue (c : Char) : Option ℕ :=
  if '0' ≤ c ∧ c ≤ '9' then some (c.toNat - 48)
  else if 'a' ≤ c ∧ c ≤ 'f' then some (c.toNat - 87)
  else if 'A' ≤ c ∧ c ≤ 'F' then some (c.toNat - 55)
  else none

/-- C's `isspace` on ASCII. -/
def isAsciiSpace (c : Char) : Bool := c = ' ' || (9 ≤ c.toNat && c.toNat ≤ 13)

/-- Pairs of digits, with whitespace between the pairs only. -/
def fromHexChars : List Char → Option Bytes
  | [] => some []
  | c :: cs =>
      if isAsciiSpace c then fromHexChars cs
      else
        match cs with
        | [] => none
        | d :: cs =>
            match hexDigitValue c, hexDigitValue d with
            | some hi, some lo => (fromHexChars cs).map (UInt8.ofNat (hi * 16 + lo) :: ·)
            | _, _ => none

/-- `bytes.fromhex(s)` -/
def fromHex (s : String) : Option Bytes := fromHexChars (chars s)

theorem hexDigitValue_hexDigit : ∀ d < 16, hexDigitValue (Json.hexDigit d) = some d := by decide

theorem not_isAsciiSpace_hexDigit : ∀ d < 16, isAsciiSpace (Json.hexDigit d) = false := by
  decide

theorem fromHex_hex (raw : Bytes) : fromHex (hex raw) = some raw := by
  simp only [fromHex, hex, chars_ofList]
  induction raw with
  | nil => rfl
  | cons b raw ih =>
    have hb := b.toNat_lt
    have hhi : b.toNat / 16 < 16 := by omega
    have hlo : b.toNat % 16 < 16 := by omega
    have hsum : b.toNat / 16 * 16 + b.toNat % 16 = b.toNat := by omega
    simp [fromHexChars, not_isAsciiSpace_hexDigit _ hhi, hexDigitValue_hexDigit _ hhi,
      hexDigitValue_hexDigit _ hlo, ih, hsum]

theorem hex_injective : Function.Injective hex := by
  intro a b h
  have ha := fromHex_hex a
  rw [h, fromHex_hex b] at ha
  exact (Option.some.inj ha).symm

/-! ## URL-safe base64 -/

/-- The character of one six-bit group. -/
def b64Char (n : ℕ) : Char :=
  if n < 26 then Char.ofNat (65 + n)
  else if n < 52 then Char.ofNat (71 + n)
  else if n < 62 then Char.ofNat (n - 4)
  else if n = 62 then '-'
  else '_'

/-- The group of a character, in the standard and the URL-safe alphabet. -/
def b64Value (c : Char) : Option ℕ :=
  if 'A' ≤ c ∧ c ≤ 'Z' then some (c.toNat - 65)
  else if 'a' ≤ c ∧ c ≤ 'z' then some (c.toNat - 71)
  else if '0' ≤ c ∧ c ≤ '9' then some (c.toNat + 4)
  else if c = '-' ∨ c = '+' then some 62
  else if c = '_' ∨ c = '/' then some 63
  else none

/-- The groups of three bytes, and of the one or two left over. -/
def b64uChars : Bytes → List Char
  | [] => []
  | [a] => [b64Char (a.toNat / 4), b64Char (a.toNat % 4 * 16)]
  | [a, b] =>
      [b64Char (a.toNat / 4), b64Char (a.toNat % 4 * 16 + b.toNat / 16), b64Char (b.toNat % 16 * 4)]
  | a :: b :: c :: rest =>
      b64Char (a.toNat / 4) :: b64Char (a.toNat % 4 * 16 + b.toNat / 16) ::
        b64Char (b.toNat % 16 * 4 + c.toNat / 64) :: b64Char (c.toNat % 64) :: b64uChars rest

/-- `base64.urlsafe_b64encode(raw).rstrip(b"=")` -/
def b64u (raw : Bytes) : String := String.ofList (b64uChars raw)

/-- `binascii.a2b_base64` past its first characters: how many of the current group were read, the
bits left of the last one, and the pads since. A group ends at its pads, and then nothing more is
read. -/
def a2bBase64 : List Char → ℕ → ℕ → ℕ → Option Bytes
  | [], quad, _, _ => if quad = 0 then some [] else none
  | c :: cs, quad, left, pads =>
      if c = '=' then
        if 2 ≤ quad then
          if 4 ≤ quad + (pads + 1) then some [] else a2bBase64 cs quad left (pads + 1)
        else a2bBase64 cs quad left pads
      else
        match b64Value c with
        | none => a2bBase64 cs quad left pads
        | some n =>
            match quad with
            | 0 => a2bBase64 cs 1 n 0
            | 1 => (a2bBase64 cs 2 (n % 16) 0).map (UInt8.ofNat (left * 4 + n / 16) :: ·)
            | 2 => (a2bBase64 cs 3 (n % 4) 0).map (UInt8.ofNat (left * 16 + n / 4) :: ·)
            | _ => (a2bBase64 cs 0 0 0).map (UInt8.ofNat (left * 64 + n) :: ·)

/-- `base64.urlsafe_b64decode(s + "=" * (-len(s) % 4))`, refusing what is not ASCII. -/
def unb64u (s : String) : Option Bytes :=
  let cs := chars s
  if cs.all fun c => c.toNat < 128 then
    a2bBase64 (cs ++ List.replicate ((4 - cs.length % 4) % 4) '=') 0 0 0
  else none

/-- `unb64u` of a text given by its characters. -/
def unb64uChars (cs : List Char) : Option Bytes :=
  if cs.all fun c => c.toNat < 128 then
    a2bBase64 (cs ++ List.replicate ((4 - cs.length % 4) % 4) '=') 0 0 0
  else none

theorem unb64u_eq (s : String) : unb64u s = unb64uChars (chars s) := rfl

theorem b64Value_b64Char : ∀ n < 64, b64Value (b64Char n) = some n := by decide

theorem b64Char_ne_pad : ∀ n < 64, b64Char n ≠ '=' := by decide

theorem b64Char_ascii : ∀ n < 64, (b64Char n).toNat < 128 := by decide

/-- What holds of every character of the alphabet holds of every character written. -/
theorem forall_mem_b64uChars {p : Char → Prop} (h : ∀ n < 64, p (b64Char n)) (raw : Bytes) :
    ∀ c ∈ b64uChars raw, p c := by
  induction raw using b64uChars.induct with
  | case1 => simp [b64uChars]
  | case2 a =>
    have ha := a.toNat_lt
    simp only [b64uChars, List.forall_mem_cons]
    exact ⟨h _ (by omega), h _ (by omega), by simp⟩
  | case3 a b =>
    have ha := a.toNat_lt
    have hb := b.toNat_lt
    simp only [b64uChars, List.forall_mem_cons]
    exact ⟨h _ (by omega), h _ (by omega), h _ (by omega), by simp⟩
  | case4 a b c rest ih =>
    have ha := a.toNat_lt
    have hb := b.toNat_lt
    have hc := c.toNat_lt
    simp only [b64uChars, List.forall_mem_cons]
    exact ⟨h _ (by omega), h _ (by omega), h _ (by omega), h _ (by omega), ih⟩

theorem b64uChars_ascii (raw : Bytes) : ∀ c ∈ b64uChars raw, c.toNat < 128 :=
  forall_mem_b64uChars b64Char_ascii raw

theorem length_b64uChars_cons (a b c : UInt8) (rest : Bytes) :
    (b64uChars (a :: b :: c :: rest)).length = (b64uChars rest).length + 4 := by
  simp [b64uChars]

theorem length_b64uChars (raw : Bytes) : (b64uChars raw).length = (4 * raw.length + 2) / 3 := by
  induction raw using b64uChars.induct with
  | case1 => rfl
  | case2 a => simp [b64uChars]
  | case3 a b => simp [b64uChars]
  | case4 a b c rest ih =>
    rw [length_b64uChars_cons, ih]
    simp only [List.length_cons]
    omega

theorem a2bBase64_group (cs : List Char) (quad left pads : ℕ) {n : ℕ} (h : n < 64) :
    a2bBase64 (b64Char n :: cs) quad left pads =
      match quad with
      | 0 => a2bBase64 cs 1 n 0
      | 1 => (a2bBase64 cs 2 (n % 16) 0).map (UInt8.ofNat (left * 4 + n / 16) :: ·)
      | 2 => (a2bBase64 cs 3 (n % 4) 0).map (UInt8.ofNat (left * 16 + n / 4) :: ·)
      | _ => (a2bBase64 cs 0 0 0).map (UInt8.ofNat (left * 64 + n) :: ·) := by
  rw [a2bBase64, if_neg (b64Char_ne_pad n h), b64Value_b64Char n h]

theorem ofNat_eq_of_toNat {a : UInt8} {n : ℕ} (h : n = a.toNat) : UInt8.ofNat n = a := by
  rw [h, UInt8.ofNat_toNat]

theorem a2bBase64_b64uChars (raw : Bytes) :
    a2bBase64 (b64uChars raw ++
      List.replicate ((4 - (b64uChars raw).length % 4) % 4) '=') 0 0 0 = some raw := by
  induction raw using b64uChars.induct with
  | case1 => rfl
  | case2 a =>
    have ha := a.toNat_lt
    simp only [b64uChars, List.cons_append, List.nil_append, List.length_cons, List.length_nil,
      a2bBase64_group _ _ _ _ (show a.toNat / 4 < 64 by omega),
      a2bBase64_group _ _ _ _ (show a.toNat % 4 * 16 < 64 by omega)]
    simp only [List.replicate, a2bBase64, Nat.reduceAdd, Nat.reduceMod, Nat.reduceSub, Nat.reduceLeDiff,
      if_true, if_false, Option.map_some]
    rw [ofNat_eq_of_toNat (a := a) (by omega)]
  | case3 a b =>
    have ha := a.toNat_lt
    have hb := b.toNat_lt
    simp only [b64uChars, List.cons_append, List.nil_append, List.length_cons, List.length_nil,
      a2bBase64_group _ _ _ _ (show a.toNat / 4 < 64 by omega),
      a2bBase64_group _ _ _ _ (show a.toNat % 4 * 16 + b.toNat / 16 < 64 by omega),
      a2bBase64_group _ _ _ _ (show b.toNat % 16 * 4 < 64 by omega)]
    simp only [List.replicate, a2bBase64, Nat.reduceAdd, Nat.reduceMod, Nat.reduceSub, Nat.reduceLeDiff,
      if_true, Option.map_some]
    rw [ofNat_eq_of_toNat (a := a) (by omega), ofNat_eq_of_toNat (a := b) (by omega)]
  | case4 a b c rest ih =>
    have ha := a.toNat_lt
    have hb := b.toNat_lt
    have hc := c.toNat_lt
    rw [length_b64uChars_cons, Nat.add_mod_right]
    simp only [b64uChars, List.cons_append,
      a2bBase64_group _ _ _ _ (show a.toNat / 4 < 64 by omega),
      a2bBase64_group _ _ _ _ (show a.toNat % 4 * 16 + b.toNat / 16 < 64 by omega),
      a2bBase64_group _ _ _ _ (show b.toNat % 16 * 4 + c.toNat / 64 < 64 by omega),
      a2bBase64_group _ _ _ _ (show c.toNat % 64 < 64 by omega), ih, Option.map_some]
    rw [ofNat_eq_of_toNat (a := a) (by omega), ofNat_eq_of_toNat (a := b) (by omega),
      ofNat_eq_of_toNat (a := c) (by omega)]

/-- Decoding inverts encoding. -/
theorem unb64u_b64u (raw : Bytes) : unb64u (b64u raw) = some raw := by
  have hall : (b64uChars raw).all (fun c => c.toNat < 128) = true := by
    simpa using b64uChars_ascii raw
  simp only [unb64u, b64u, chars_ofList, hall, if_true]
  exact a2bBase64_b64uChars raw

end Recto
