import Mathlib.Tactic

/-!
# The characters of a string

A string is stored as its UTF-8 bytes. `chars` decodes them byte by byte, by
structural recursion, so that what is defined through it evaluates in small
steps; it is `String.toList` under another program.
-/

namespace Recto

abbrev Bytes := List UInt8

/-- The characters a well-formed UTF-8 text encodes. -/
def decodeUtf8 : Bytes → List Char
  | [] => []
  | a :: rest =>
      if a.toNat < 128 then Char.ofNat a.toNat :: decodeUtf8 rest
      else
        match rest with
        | [] => []
        | b :: rest =>
            if a.toNat < 224 then
              Char.ofNat ((a.toNat - 192) * 64 + (b.toNat - 128)) :: decodeUtf8 rest
            else
              match rest with
              | [] => []
              | c :: rest =>
                  if a.toNat < 240 then
                    Char.ofNat ((a.toNat - 224) * 4096 + (b.toNat - 128) * 64 + (c.toNat - 128)) ::
                      decodeUtf8 rest
                  else
                    match rest with
                    | [] => []
                    | d :: rest =>
                        Char.ofNat ((a.toNat - 240) * 262144 + (b.toNat - 128) * 4096 +
                          (c.toNat - 128) * 64 + (d.toNat - 128)) :: decodeUtf8 rest

/-- The characters of a string. -/
def chars (s : String) : List Char := decodeUtf8 s.toByteArray.data.toList

/-- Characters in UTF-8. -/
def encodeUtf8 (cs : List Char) : Bytes := cs.flatMap String.utf8EncodeChar

/-- `s.encode("utf-8")` -/
def utf8 (s : String) : Bytes := encodeUtf8 (chars s)

theorem decodeUtf8_one {a : UInt8} (h : a.toNat < 128) (rest : Bytes) :
    decodeUtf8 (a :: rest) = Char.ofNat a.toNat :: decodeUtf8 rest := by
  rw [decodeUtf8.eq_def]
  simp only [if_pos h]

theorem decodeUtf8_two {a : UInt8} (h : 128 ≤ a.toNat) (h' : a.toNat < 224) (b : UInt8)
    (rest : Bytes) :
    decodeUtf8 (a :: b :: rest) =
      Char.ofNat ((a.toNat - 192) * 64 + (b.toNat - 128)) :: decodeUtf8 rest := by
  rw [decodeUtf8.eq_def]
  simp only [if_neg (Nat.not_lt.mpr h), if_pos h']

theorem decodeUtf8_three {a : UInt8} (h : 224 ≤ a.toNat) (h' : a.toNat < 240) (b c : UInt8)
    (rest : Bytes) :
    decodeUtf8 (a :: b :: c :: rest) =
      Char.ofNat ((a.toNat - 224) * 4096 + (b.toNat - 128) * 64 + (c.toNat - 128)) ::
        decodeUtf8 rest := by
  rw [decodeUtf8.eq_def]
  simp only [if_neg (show ¬a.toNat < 128 by omega), if_neg (Nat.not_lt.mpr h), if_pos h']

theorem decodeUtf8_four {a : UInt8} (h : 240 ≤ a.toNat) (b c d : UInt8) (rest : Bytes) :
    decodeUtf8 (a :: b :: c :: d :: rest) =
      Char.ofNat ((a.toNat - 240) * 262144 + (b.toNat - 128) * 4096 + (c.toNat - 128) * 64 +
        (d.toNat - 128)) :: decodeUtf8 rest := by
  rw [decodeUtf8.eq_def]
  simp only [if_neg (show ¬a.toNat < 128 by omega), if_neg (show ¬a.toNat < 224 by omega),
    if_neg (Nat.not_lt.mpr h)]

theorem toNat_ofNat_small {n : ℕ} (h : n < 256) : (UInt8.ofNat n).toNat = n := by
  simp only [UInt8.toNat_ofNat']
  exact Nat.mod_eq_of_lt h

theorem ofNat_of_toNat {c : Char} {n : ℕ} (h : n = c.toNat) : Char.ofNat n = c := by
  rw [h, Char.ofNat_toNat]

/-- Decoding reads one encoded character back. -/
theorem decodeUtf8_encodeChar (c : Char) (rest : Bytes) :
    decodeUtf8 (String.utf8EncodeChar c ++ rest) = c :: decodeUtf8 rest := by
  have hc : c.val.toNat = c.toNat := rfl
  have hlt : c.toNat < 1114112 := by
    have := c.valid
    simp only [UInt32.isValidChar, Nat.isValidChar] at this
    omega
  unfold String.utf8EncodeChar
  simp only [hc]
  split_ifs with h₁ h₂ h₃
  · have ha := toNat_ofNat_small (show c.toNat < 256 by omega)
    rw [List.cons_append, List.nil_append, decodeUtf8_one (by omega), ha, Char.ofNat_toNat]
  · have ha := toNat_ofNat_small (show c.toNat / 64 % 32 + 192 < 256 by omega)
    have hb := toNat_ofNat_small (show c.toNat % 64 + 128 < 256 by omega)
    simp only [List.cons_append, List.nil_append]
    rw [decodeUtf8_two (by omega) (by omega), ofNat_of_toNat (c := c) (by omega)]
  · have ha := toNat_ofNat_small (show c.toNat / 4096 % 16 + 224 < 256 by omega)
    have hb := toNat_ofNat_small (show c.toNat / 64 % 64 + 128 < 256 by omega)
    have hd := toNat_ofNat_small (show c.toNat % 64 + 128 < 256 by omega)
    simp only [List.cons_append, List.nil_append]
    rw [decodeUtf8_three (by omega) (by omega), ofNat_of_toNat (c := c) (by omega)]
  · have ha := toNat_ofNat_small (show c.toNat / 262144 % 8 + 240 < 256 by omega)
    have hb := toNat_ofNat_small (show c.toNat / 4096 % 64 + 128 < 256 by omega)
    have hd := toNat_ofNat_small (show c.toNat / 64 % 64 + 128 < 256 by omega)
    have he := toNat_ofNat_small (show c.toNat % 64 + 128 < 256 by omega)
    simp only [List.cons_append, List.nil_append]
    rw [decodeUtf8_four (by omega), ofNat_of_toNat (c := c) (by omega)]

@[simp] theorem decodeUtf8_encodeUtf8 (cs : List Char) : decodeUtf8 (encodeUtf8 cs) = cs := by
  induction cs with
  | nil => rfl
  | cons c cs ih =>
    unfold encodeUtf8 at ih ⊢
    rw [List.flatMap_cons, decodeUtf8_encodeChar, ih]

theorem encodeUtf8_injective : Function.Injective encodeUtf8 :=
  Function.LeftInverse.injective decodeUtf8_encodeUtf8

@[simp] theorem chars_ofList (cs : List Char) : chars (String.ofList cs) = cs := by
  have h : (String.ofList cs).toByteArray.data.toList = encodeUtf8 cs := by
    simp [String.toByteArray_ofList, List.utf8Encode, encodeUtf8]
  rw [chars, h, decodeUtf8_encodeUtf8]

@[simp] theorem chars_eq_toList (s : String) : chars s = s.toList := by
  conv_lhs => rw [← String.ofList_toList (s := s)]
  exact chars_ofList s.toList

theorem utf8_injective : Function.Injective utf8 := by
  intro s t h
  have hchars := encodeUtf8_injective h
  rw [chars_eq_toList, chars_eq_toList] at hchars
  exact String.toList_inj.mp hchars

end Recto
