import Recto.Ethereum.EncodeValue

/-!
# Declared types and what the encoder takes for them

What the name of a type declares, against what the encoder checks. The encoder
stops at the first part of a value it cannot encode; a part that it can encode
although the type does not have it goes through.
-/

namespace Recto
namespace TypedData

/-! ## Where the encoder stops -/

/-- The exception of a computation. -/
def errorOf {ε α : Type} : Except ε α → Option ε
  | .ok _ => none
  | .error e => some e

/-- What an integer is refused with. -/
def integerStop (isSigned : Bool) (n : ℤ) : Option PyError :=
  if n < 0 ∧ isSigned = false then some .valueError
  else if -2 ^ 256 ≤ n ∧ n < 2 ^ 256 then none
  else some .overflowError

def refuseUnless (fits : Bool) : Option PyError := if fits then none else some .valueError

/-- What a scalar is refused with, by its kind, its size or its range. -/
def scalarStop (ints : IntReader) (t : String) (value : Value) : Option PyError :=
  let raw := hexOrBytesToBytes value
  if t = "string" then refuseUnless (match value with
    | .str _ => true
    | _ => false)
  else if t = "bytes" then refuseUnless raw.isSome
  else if startsWith t "bytes" then
    refuseUnless ((sizeIn ints t).any fun n => raw.any fun raw => raw.length ≤ n)
  else if t = "address" then refuseUnless (match value with
    | .str s => (chars (cleaned s)).length = 40 ∧ (fromHex (cleaned s)).isSome
    | _ => false)
  else if t = "bool" then refuseUnless (match value with
    | .bool _ => true
    | _ => false)
  else if startsWith t "uint" || startsWith t "int" then
    match widthOf ints t, intOf ints value with
    | some _, some n => integerStop (startsWith t "int") n
    | _, _ => some .valueError
  else some .valueError

section
variable (ints : IntReader) (types : Types)

/-- What a value that is no dictionary is refused with, where the type is no array. -/
def flatStop (t : String) (value : Value) : Option PyError :=
  match types.get? t with
  | some fields => fields.head?.map fun f => notADict value f.name
  | none => scalarStop ints t value

mutual
/-- What a value is refused with, part by part in the order they are encoded. -/
def stopValue (t : String) : Value → Option PyError
  | .list items =>
      if isArray t then stopItems (innerType t) items else flatStop ints types t (.list items)
  | .dict entries =>
      if isArray t then some .valueError
      else
        match types.get? t with
        | some fields => fields.findSome? fun f => stopEntry f.name f.type entries
        | none => scalarStop ints t (.dict entries)
  | value => if isArray t then some .valueError else flatStop ints types t value
def stopItems (inner : String) : List Value → Option PyError
  | [] => none
  | item :: items => (stopValue inner item).or (stopItems inner items)
def stopEntry (name t : String) : List (String × Value) → Option PyError
  | [] => some .valueError
  | (key, value) :: entries => if key = name then stopValue t value else stopEntry name t entries
end
end

variable {ints : IntReader} {keccak256 : Bytes → Bytes} {types : Types} {t : String} {value : Value}

theorem errorOf_toBytes32 (n : ℤ) :
    errorOf (toBytes32 n) = if 0 ≤ n ∧ n < 2 ^ 256 then none else some .overflowError := by
  unfold toBytes32
  split_ifs <;> rfl

theorem errorOf_encodeInteger (isSigned : Bool) (n : ℤ) :
    errorOf (encodeInteger isSigned n) = integerStop isSigned n := by
  unfold encodeInteger integerStop
  cases isSigned with
  | false =>
    simp only [Bool.false_eq_true, if_false, and_true]
    by_cases hn : n < 0
    · rw [if_pos hn, if_pos hn]
      rfl
    · rw [if_neg hn, if_neg hn, errorOf_toBytes32]
      exact if_congr ⟨fun h => ⟨by omega, h.2⟩, fun h => ⟨by omega, h.2⟩⟩ rfl rfl
  | true =>
    simp only [if_true, Bool.true_eq_false, and_false, if_false]
    rw [errorOf_toBytes32]
    by_cases hn : n < 0
    · rw [if_pos hn]
      exact if_congr ⟨fun h => ⟨by omega, by omega⟩, fun h => ⟨by omega, by omega⟩⟩ rfl rfl
    · rw [if_neg hn]
      exact if_congr ⟨fun h => ⟨by omega, h.2⟩, fun h => ⟨by omega, h.2⟩⟩ rfl rfl

theorem errorOf_encodeScalar :
    errorOf (encodeScalar ints keccak256 t value) = scalarStop ints t value := by
  unfold encodeScalar scalarStop
  simp only
  split_ifs with hstring hbytes hsized haddress hbool hinteger
  · cases value <;> rfl
  · cases hexOrBytesToBytes value <;> rfl
  · cases sizeIn ints t with
    | none => rfl
    | some n =>
      cases hexOrBytesToBytes value with
      | none => rfl
      | some raw => by_cases hlong : n < raw.length <;> simp [refuseUnless, hlong, errorOf]
  · cases value with
    | str s =>
      by_cases hlength : (chars (cleaned s)).length = 40
      · cases hraw : fromHex (cleaned s) <;>
          simp [-chars_eq_toList, refuseUnless, hlength, hraw, errorOf]
      · simp [-chars_eq_toList, refuseUnless, hlength, errorOf]
    | _ => rfl
  · cases value <;> rfl
  · cases widthOf ints t with
    | none => cases intOf ints value <;> rfl
    | some bits =>
      cases intOf ints value with
      | none => rfl
      | some n => exact errorOf_encodeInteger _ n
  · rfl

/-! ## The encoder stops where it says -/

theorem errorOf_map {ε α β : Type} (f : α → β) (x : Except ε α) : errorOf (x.map f) = errorOf x := by
  cases x <;> rfl

theorem errorOf_mapM {ε α β : Type} (f : α → Except ε β) (xs : List α) :
    errorOf (xs.mapM f) = xs.findSome? fun x => errorOf (f x) := by
  induction xs with
  | nil => rfl
  | cons x xs ih =>
    rw [List.mapM_cons, List.findSome?_cons]
    cases f x with
    | error e => rfl
    | ok y =>
      rw [← ih]
      cases xs.mapM f <;> rfl

theorem errorOf_structHash (h : t ∈ types) (encoded : Except PyError (List Bytes)) :
    errorOf (structHash keccak256 types t encoded) = errorOf encoded := by
  obtain ⟨text, htext⟩ := exists_encodeType h
  rw [structHash, htext]
  cases encoded <;> rfl

theorem errorOf_notADict (fields : List Field) (value : Value) :
    errorOf (fields.mapM fun f => (.error (notADict value f.name) : Except PyError Bytes)) =
      fields.head?.map fun f => notADict value f.name := by
  rw [errorOf_mapM]
  cases fields <;> rfl

theorem errorOf_encodeFlat :
    errorOf (encodeFlat ints keccak256 types t value) = flatStop ints types t value := by
  unfold encodeFlat flatStop
  cases hfields : types.get? t with
  | none => exact errorOf_encodeScalar
  | some fields =>
    simp only [errorOf_structHash (Dict.mem_of_get? hfields), errorOf_notADict]

theorem errorOf_leaf
    (hencode : encodeValue ints keccak256 types t value =
      if isArray t then .error .valueError else encodeFlat ints keccak256 types t value)
    (hstop : stopValue ints types t value =
      if isArray t then some .valueError else flatStop ints types t value) :
    errorOf (encodeValue ints keccak256 types t value) = stopValue ints types t value := by
  rw [hencode, hstop]
  split_ifs
  · rfl
  · exact errorOf_encodeFlat

mutual
theorem errorOf_encodeValue : ∀ (t : String) (value : Value),
    errorOf (encodeValue ints keccak256 types t value) = stopValue ints types t value
  | t, .list items => by
    rw [encodeValue, stopValue]
    split_ifs with harray
    · rw [errorOf_map, errorOf_encodeItems _ items]
    · exact errorOf_encodeFlat
  | t, .dict entries => by
    rw [encodeValue, stopValue]
    split_ifs with harray
    · rfl
    cases hfields : types.get? t with
    | none => exact errorOf_encodeScalar
    | some fields =>
      have hentry : ∀ f : Field, errorOf (encodeEntry ints keccak256 types f.name f.type entries) =
          stopEntry ints types f.name f.type entries :=
        fun f => errorOf_encodeEntry f.name f.type entries
      simp only [errorOf_structHash (Dict.mem_of_get? hfields), errorOf_mapM, hentry]
  | t, .none => errorOf_leaf (by simp only [encodeValue]) (by simp only [stopValue])
  | t, .bool b => errorOf_leaf (by simp only [encodeValue]) (by simp only [stopValue])
  | t, .int n => errorOf_leaf (by simp only [encodeValue]) (by simp only [stopValue])
  | t, .float x => errorOf_leaf (by simp only [encodeValue]) (by simp only [stopValue])
  | t, .str s => errorOf_leaf (by simp only [encodeValue]) (by simp only [stopValue])
  | t, .bytes raw => errorOf_leaf (by simp only [encodeValue]) (by simp only [stopValue])
theorem errorOf_encodeItems : ∀ (inner : String) (items : List Value),
    errorOf (encodeItems ints keccak256 types inner items) = stopItems ints types inner items
  | inner, [] => rfl
  | inner, item :: items => by
    have hitem := errorOf_encodeValue inner item
    have hitems := errorOf_encodeItems inner items
    rw [encodeItems, stopItems, ← hitem, ← hitems]
    cases encodeValue ints keccak256 types inner item with
    | error e => rfl
    | ok part => cases encodeItems ints keccak256 types inner items <;> rfl
theorem errorOf_encodeEntry : ∀ (name t : String) (entries : List (String × Value)),
    errorOf (encodeEntry ints keccak256 types name t entries) = stopEntry ints types name t entries
  | name, t, [] => rfl
  | name, t, (key, value) :: entries => by
    rw [encodeEntry, stopEntry]
    split_ifs with hkey
    · exact errorOf_encodeValue t value
    · exact errorOf_encodeEntry name t entries
end

/-! ## What a type's name declares -/

/-- The numeral between the last brackets. -/
def countOf (t : String) : Option ℕ :=
  let digits := (((chars t).reverse.drop 1).takeWhile (· ≠ '[')).reverse
  if '[' ∈ chars t ∧ digits ≠ [] ∧ digits.all Char.isDigit then
    some (digits.foldl (fun n c => n * 10 + (c.toNat - 48)) 0)
  else none

inductive Declared where
  | uint (bits : ℕ)
  | int (bits : ℕ)
  /-- `bytesN` -/
  | bytes (size : ℕ)
  /-- `T[k]` -/
  | fixed (inner : String) (count : ℕ)
  | other
  deriving DecidableEq

/-- `uintM`, `intM` and `bytesN` with a width the encoder knows, and `T[k]`. -/
def declared (ints : IntReader) (types : Types) (t : String) : Declared :=
  if isArray t then (countOf t).elim .other fun count => .fixed (innerType t) count
  else if t ∈ types ∨ t = "string" ∨ t = "bytes" ∨ t = "address" ∨ t = "bool" then .other
  else if startsWith t "bytes" then (sizeIn ints t).elim .other .bytes
  else if startsWith t "uint" || startsWith t "int" then
    (widthOf ints t).elim .other fun bits => if startsWith t "int" then .int bits else .uint bits
  else .other

/-- The values of a declared type. -/
def OfType (ints : IntReader) : Declared → Value → Prop
  | .uint bits, value => ∃ n, intOf ints value = some n ∧ 0 ≤ n ∧ n < 2 ^ bits
  | .int bits, value =>
      ∃ n, intOf ints value = some n ∧ -2 ^ (bits - 1) ≤ n ∧ n < 2 ^ (bits - 1)
  | .bytes size, value => ∃ raw, hexOrBytesToBytes value = some raw ∧ raw.length = size
  | .fixed _ count, value => ∃ items, value = .list items ∧ items.length = count
  | .other, _ => True

/-- Integers and `bytesN`, whose encoding is the value in 32 bytes. -/
def Declared.IsScalar : Declared → Prop
  | .uint _ | .int _ | .bytes _ => True
  | .fixed _ _ | .other => False

/-- The integer or the bytes of two values are the same. -/
def SameValue (ints : IntReader) : Declared → Value → Value → Prop
  | .uint _, v, w => intOf ints v = intOf ints w
  | .int _, v, w => intOf ints v = intOf ints w
  | .bytes _, v, w => hexOrBytesToBytes v = hexOrBytesToBytes w
  | _, _, _ => True

/-- The encoder takes the values of the type alone, in 32 bytes where it is scalar, and refuses every
other value with a `ValueError`. -/
structure TakesExactly (ints : IntReader) (keccak256 : Bytes → Bytes) (types : Types) (t : String)
    (value : Value) : Prop where
  only : ∀ enc, encodeValue ints keccak256 types t value = .ok enc →
    OfType ints (declared ints types t) value
  refused : ¬OfType ints (declared ints types t) value →
    encodeValue ints keccak256 types t value = .error .valueError
  all : (declared ints types t).IsScalar → OfType ints (declared ints types t) value →
    ∃ enc, encodeValue ints keccak256 types t value = .ok enc ∧ enc.length = 32

/-- An integer is not outside the width on a side the encoder lets through, bytes are not too few,
and the elements of a fixed array are as many as declared unless one of them is refused first. -/
def WithinType (ints : IntReader) (types : Types) : Declared → Value → Prop
  | .uint bits, value => ∀ n, intOf ints value = some n → n < 2 ^ bits
  | .int bits, value =>
      ∀ n, intOf ints value = some n → -2 ^ (bits - 1) ≤ n ∧ n < 2 ^ (bits - 1)
  | .bytes size, value => ∀ raw, hexOrBytesToBytes value = some raw → size ≤ raw.length
  | .fixed inner count, value => ∀ items, value = .list items →
      items.length = count ∨ stopItems ints types inner items = some .valueError
  | .other, _ => True

/-! ## The encoder at each of them -/

/-- A type that is no array, no struct and none of the scalars without a width. -/
structure Sized (types : Types) (t : String) : Prop where
  array : isArray t = false
  struct : t ∉ types
  string : t ≠ "string"
  bytes : t ≠ "bytes"
  address : t ≠ "address"
  bool : t ≠ "bool"

/-- What a name can declare, and how the encoder gets to it. -/
theorem declared_cases (ints : IntReader) (types : Types) (t : String) :
    declared ints types t = .other ∨
      (isArray t = true ∧ ∃ count, declared ints types t = .fixed (innerType t) count) ∨
      Sized types t ∧
        ((startsWith t "bytes" = true ∧
            ∃ size, sizeIn ints t = some size ∧ declared ints types t = .bytes size) ∨
          startsWith t "bytes" = false ∧ (startsWith t "uint" || startsWith t "int") = true ∧
            ∃ bits, widthOf ints t = some bits ∧
              declared ints types t = if startsWith t "int" then .int bits else .uint bits) := by
  unfold declared
  by_cases harray : isArray t = true
  · rw [if_pos harray]
    cases countOf t with
    | none => exact Or.inl rfl
    | some count => exact Or.inr (Or.inl ⟨harray, count, rfl⟩)
  rw [if_neg harray]
  by_cases hnamed : t ∈ types ∨ t = "string" ∨ t = "bytes" ∨ t = "address" ∨ t = "bool"
  · rw [if_pos hnamed]
    exact Or.inl rfl
  have hsized : Sized types t := by
    push Not at hnamed
    obtain ⟨h1, h2, h3, h4, h5⟩ := hnamed
    exact ⟨by simpa using harray, h1, h2, h3, h4, h5⟩
  rw [if_neg hnamed]
  by_cases hbytes : startsWith t "bytes" = true
  · rw [if_pos hbytes]
    cases sizeIn ints t with
    | none => exact Or.inl rfl
    | some size => exact Or.inr (Or.inr ⟨hsized, Or.inl ⟨hbytes, size, rfl, rfl⟩⟩)
  rw [if_neg hbytes]
  by_cases hinteger : (startsWith t "uint" || startsWith t "int") = true
  · rw [if_pos hinteger]
    cases widthOf ints t with
    | none => exact Or.inl rfl
    | some bits =>
      exact Or.inr (Or.inr ⟨hsized, Or.inr ⟨by simpa using hbytes, hinteger, bits, rfl, rfl⟩⟩)
  · rw [if_neg hinteger]
    exact Or.inl rfl

theorem encodeValue_sized (h : Sized types t) :
    encodeValue ints keccak256 types t value = encodeScalar ints keccak256 t value := by
  have hget : types.get? t = none := Dict.get?_eq_none_iff.mpr h.struct
  cases value <;> simp only [encodeValue, encodeFlat, h.array, hget, Bool.false_eq_true, if_false]

theorem encode_bytes {size : ℕ} (h : Sized types t) (hbytes : startsWith t "bytes" = true)
    (hsize : sizeIn ints t = some size) :
    encodeValue ints keccak256 types t value =
      match hexOrBytesToBytes value with
      | none => .error .valueError
      | some raw =>
          if size < raw.length then .error .valueError
          else .ok (raw ++ List.replicate (32 - raw.length) 0) := by
  rw [encodeValue_sized h]
  unfold encodeScalar
  rewrite [if_neg h.string, if_neg h.bytes, if_pos hbytes, hsize]
  rfl

theorem encode_integer {bits : ℕ} (h : Sized types t) (hbytes : startsWith t "bytes" = false)
    (hinteger : (startsWith t "uint" || startsWith t "int") = true)
    (hwidth : widthOf ints t = some bits) :
    encodeValue ints keccak256 types t value =
      match intOf ints value with
      | none => .error .valueError
      | some n => encodeInteger (startsWith t "int") n := by
  rw [encodeValue_sized h]
  unfold encodeScalar
  rewrite [if_neg h.string, if_neg h.bytes, if_neg (by simp [hbytes]), if_neg h.address,
    if_neg h.bool, if_pos hinteger, hwidth]
  rfl

theorem sizeIn_le {size : ℕ} (h : sizeIn ints t = some size) : size ≤ 32 := by
  unfold sizeIn at h
  split at h
  · cases h
  · split_ifs at h
    have := Option.some.inj h
    omega

theorem widthOf_bounds {bits : ℕ} (h : widthOf ints t = some bits) : 8 ≤ bits ∧ bits ≤ 256 := by
  unfold widthOf at h
  split at h
  · cases h
  · split_ifs at h
    have := Option.some.inj h
    omega

/-! ## The claims of a type against the encoder -/

theorem pow_le_pow_256 {bits : ℕ} (h : bits ≤ 256) : (2 : ℤ) ^ bits ≤ 2 ^ 256 :=
  pow_le_pow_right₀ (by norm_num) h

theorem two_mul_pow {bits : ℕ} (h : 8 ≤ bits) : (2 : ℤ) ^ bits = 2 * 2 ^ (bits - 1) := by
  conv_lhs => rw [show bits = bits - 1 + 1 by omega, pow_succ]
  ring

/-- An integer in 32 bytes, taken around below zero. -/
theorem encodeInteger_ok {isSigned : Bool} {n : ℤ} {enc : Bytes}
    (h : encodeInteger isSigned n = .ok enc) :
    (0 ≤ n ∨ isSigned = true) ∧ -2 ^ 256 ≤ n ∧ n < 2 ^ 256 ∧ enc.length = 32 ∧
      (Rlp.fromBytesBig enc : ℤ) = if n < 0 then 2 ^ 256 + n else n := by
  have hbytes : ∀ k : ℤ, toBytes32 k = .ok enc →
      0 ≤ k ∧ k < 2 ^ 256 ∧ enc.length = 32 ∧ (Rlp.fromBytesBig enc : ℤ) = k := by
    intro k hk
    unfold toBytes32 at hk
    split_ifs at hk with hrange
    obtain rfl := Except.ok.inj hk
    have hsmall : k.toNat < 256 ^ 32 := by
      have : (256 : ℕ) ^ 32 = 2 ^ 256 := by norm_num
      omega
    refine ⟨hrange.1, hrange.2, Rlp.length_toBytesBig _ _, ?_⟩
    rw [Rlp.fromBytesBig_toBytesBig hsmall]
    omega
  have hstop := errorOf_encodeInteger isSigned n
  rw [h] at hstop
  unfold integerStop at hstop
  unfold encodeInteger at h
  cases isSigned with
  | false =>
    simp only [Bool.false_eq_true, if_false] at h
    by_cases hn : n < 0
    · rw [if_pos hn] at h
      cases h
    · rw [if_neg hn] at h
      obtain ⟨hlow, hhigh, hlength, hvalue⟩ := hbytes n h
      exact ⟨Or.inl hlow, by omega, hhigh, hlength, by rw [if_neg hn, hvalue]⟩
  | true =>
    simp only [if_true] at h
    obtain ⟨hlow, hhigh, hlength, hvalue⟩ := hbytes _ h
    refine ⟨Or.inr rfl, ?_, ?_, hlength, hvalue⟩
    · split_ifs at hlow hhigh <;> omega
    · split_ifs at hlow hhigh <;> omega

theorem exists_encodeInteger {isSigned : Bool} {n : ℤ} (h : 0 ≤ n ∨ isSigned = true)
    (hlow : -2 ^ 256 ≤ n) (hhigh : n < 2 ^ 256) : ∃ enc, encodeInteger isSigned n = .ok enc := by
  have hstop := errorOf_encodeInteger isSigned n
  have hsign : ¬(n < 0 ∧ isSigned = false) := by
    rintro ⟨hn, hs⟩
    rcases h with h | h
    · omega
    · rw [hs] at h
      cases h
  rw [integerStop, if_neg hsign, if_pos ⟨hlow, hhigh⟩] at hstop
  cases henc : encodeInteger isSigned n with
  | ok enc => exact ⟨enc, rfl⟩
  | error e =>
    rw [henc] at hstop
    cases hstop

theorem encodeInteger_ne_valueError {isSigned : Bool} {n : ℤ} (h : 0 ≤ n ∨ isSigned = true) :
    encodeInteger isSigned n ≠ .error .valueError := by
  intro herror
  have hstop := errorOf_encodeInteger isSigned n
  rw [herror, integerStop] at hstop
  split_ifs at hstop with hsign
  · rcases h with h | h
    · omega
    · rw [h] at hsign
      cases hsign.2
  · cases hstop
  · cases hstop

/-- A type whose values are read and then encoded: the encoder takes exactly these where `Within`
keeps out what it lets through although the type does not have it. -/
theorem takesExactly_read_iff {α : Type} {d : Declared} {read : Value → Option α}
    {encode : α → Except PyError Bytes} {Good Within : α → Prop}
    (hdeclared : declared ints types t = d)
    (hnone : read value = none → encodeValue ints keccak256 types t value = .error .valueError)
    (hsome : ∀ a, read value = some a → encodeValue ints keccak256 types t value = encode a)
    (hof : OfType ints d value ↔ ∃ a, read value = some a ∧ Good a)
    (hgood : ∀ a, Good a → Within a)
    (hwritten : d.IsScalar → ∀ a, Good a → ∃ enc, encode a = .ok enc ∧ enc.length = 32)
    (hrefused : ∀ a, Within a → ¬Good a → encode a = .error .valueError)
    (hthrough : ∀ a, ¬Within a → encode a ≠ .error .valueError) :
    TakesExactly ints keccak256 types t value ↔ ∀ a, read value = some a → Within a := by
  constructor
  · intro h a ha
    by_contra hpast
    have hnot : ¬OfType ints d value := by
      rw [hof]
      rintro ⟨b, hb, hin⟩
      obtain rfl := Option.some.inj (ha.symm.trans hb)
      exact hpast (hgood a hin)
    have herror := h.refused (hdeclared ▸ hnot)
    rw [hsome a ha] at herror
    exact hthrough a hpast herror
  · intro h
    refine ⟨fun enc henc => ?_, fun hnot => ?_, fun hscalar hin => ?_⟩
    · rw [hdeclared, hof]
      cases ha : read value with
      | none =>
        rw [hnone ha] at henc
        cases henc
      | some a =>
        rw [hsome a ha] at henc
        refine ⟨a, rfl, ?_⟩
        by_contra hout
        rw [hrefused a (h a ha) hout] at henc
        cases henc
    · rw [hdeclared, hof] at hnot
      cases ha : read value with
      | none => exact hnone ha
      | some a =>
        rw [hsome a ha]
        exact hrefused a (h a ha) fun hin => hnot ⟨a, ha, hin⟩
    · rw [hdeclared, hof] at hin
      obtain ⟨a, ha, hin⟩ := hin
      rw [hsome a ha]
      exact hwritten (hdeclared ▸ hscalar) a hin

theorem takesExactly_uint_iff {bits : ℕ} (hbits : bits ≤ 256)
    (hdeclared : declared ints types t = .uint bits)
    (hencode : encodeValue ints keccak256 types t value = match intOf ints value with
      | none => .error .valueError
      | some n => encodeInteger false n) :
    TakesExactly ints keccak256 types t value ↔ WithinType ints types (.uint bits) value := by
  have hpow := pow_le_pow_256 hbits
  have hpos : (0 : ℤ) < 2 ^ bits := by positivity
  refine takesExactly_read_iff hdeclared (fun hn => by rw [hencode, hn]) (fun n hn => by rw [hencode, hn])
    Iff.rfl (fun n hn => hn.2) ?_ ?_ ?_
  · rintro - n ⟨hlow, hhigh⟩
    obtain ⟨enc, henc⟩ := @exists_encodeInteger false n (Or.inl hlow) (by omega)
      (hhigh.trans_le hpow)
    exact ⟨enc, henc, (encodeInteger_ok henc).2.2.2.1⟩
  · intro n hwithin hnot
    have hneg : n < 0 := by
      by_contra hge
      exact hnot ⟨by omega, hwithin⟩
    simp only [encodeInteger, Bool.false_eq_true, if_false, if_pos hneg]
  · intro n hwide
    exact encodeInteger_ne_valueError (Or.inl (by omega))

theorem takesExactly_int_iff {bits : ℕ} (hlow : 8 ≤ bits) (hbits : bits ≤ 256)
    (hdeclared : declared ints types t = .int bits)
    (hencode : encodeValue ints keccak256 types t value = match intOf ints value with
      | none => .error .valueError
      | some n => encodeInteger true n) :
    TakesExactly ints keccak256 types t value ↔ WithinType ints types (.int bits) value := by
  have hpow := pow_le_pow_256 hbits
  have htwice := two_mul_pow hlow
  have hpos : (0 : ℤ) < 2 ^ (bits - 1) := by positivity
  refine takesExactly_read_iff hdeclared (fun hn => by rw [hencode, hn]) (fun n hn => by rw [hencode, hn])
    Iff.rfl (fun n hn => hn) ?_ ?_ ?_
  · rintro - n ⟨hleast, hhigh⟩
    obtain ⟨enc, henc⟩ := @exists_encodeInteger true n (Or.inr rfl) (by omega) (by omega)
    exact ⟨enc, henc, (encodeInteger_ok henc).2.2.2.1⟩
  · intro n hwithin hnot
    exact absurd hwithin hnot
  · intro n _
    exact encodeInteger_ne_valueError (Or.inr rfl)

theorem takesExactly_bytes_iff {size : ℕ} (hsize : size ≤ 32)
    (hdeclared : declared ints types t = .bytes size)
    (hencode : encodeValue ints keccak256 types t value = match hexOrBytesToBytes value with
      | none => .error .valueError
      | some raw =>
          if size < raw.length then .error .valueError
          else .ok (raw ++ List.replicate (32 - raw.length) 0)) :
    TakesExactly ints keccak256 types t value ↔ WithinType ints types (.bytes size) value := by
  refine takesExactly_read_iff hdeclared (fun hn => by rw [hencode, hn]) (fun n hn => by rw [hencode, hn])
    Iff.rfl (fun raw hlength => hlength.ge) ?_ ?_ ?_
  · intro _ raw hlength
    refine ⟨_, if_neg (by omega), ?_⟩
    rw [List.length_append, List.length_replicate]
    omega
  · intro raw hle hne
    exact if_pos (lt_of_le_of_ne hle (Ne.symm hne))
  · intro raw hshort
    simp only [if_neg (show ¬size < raw.length by omega)]
    exact nofun

def Value.items? : Value → Option (List Value)
  | .list items => some items
  | _ => Option.none

theorem Value.items?_eq_some {items : List Value} : value.items? = some items ↔ value = .list items := by
  cases value <;> simp [Value.items?]

theorem takesExactly_fixed_iff {count : ℕ} (harray : isArray t = true)
    (hdeclared : declared ints types t = .fixed (innerType t) count) :
    TakesExactly ints keccak256 types t value ↔
      WithinType ints types (.fixed (innerType t) count) value := by
  have hstop : ∀ items, errorOf (encodeValue ints keccak256 types t (.list items)) =
      stopItems ints types (innerType t) items := by
    intro items
    rw [errorOf_encodeValue, stopValue, if_pos harray]
  have hof : OfType ints (.fixed (innerType t) count) value ↔
      ∃ items, value.items? = some items ∧ items.length = count := by
    simp only [OfType, Value.items?_eq_some]
  have hwithin : WithinType ints types (.fixed (innerType t) count) value ↔
      ∀ items, value.items? = some items →
        items.length = count ∨ stopItems ints types (innerType t) items = some .valueError := by
    simp only [WithinType, Value.items?_eq_some]
  have hsome : ∀ items, value.items? = some items →
      encodeValue ints keccak256 types t value = encodeValue ints keccak256 types t (.list items) := by
    intro items hitems
    rw [Value.items?_eq_some.mp hitems]
  rw [hwithin]
  refine takesExactly_read_iff hdeclared ?_ hsome hof (fun items => Or.inl)
    (fun hscalar => hscalar.elim) ?_ ?_
  · intro hnone
    cases value with
    | list items => cases hnone
    | _ => simp only [encodeValue, harray, if_true]
  · intro items hwithin hlength
    have herror := hstop items
    rw [hwithin.resolve_left hlength] at herror
    cases henc : encodeValue ints keccak256 types t (.list items) with
    | ok enc => rw [henc] at herror; cases herror
    | error e =>
      rw [henc] at herror
      rw [Option.some.inj herror]
  · intro items hpast herror
    have hstopped := hstop items
    rw [herror] at hstopped
    exact hpast (Or.inr hstopped.symm)

theorem takesExactly_iff :
    TakesExactly ints keccak256 types t value ↔
      WithinType ints types (declared ints types t) value := by
  rcases declared_cases ints types t with hother | ⟨harray, count, hfixed⟩ |
      ⟨hsized, ⟨hbytes, size, hsize, hdeclared⟩ | ⟨hbytes, hinteger, bits, hwidth, hdeclared⟩⟩
  · rw [hother]
    refine ⟨fun _ => trivial, fun _ => ⟨fun _ _ => ?_, fun hnot => ?_, fun hscalar => ?_⟩⟩
    · rw [hother]
      trivial
    · rw [hother] at hnot
      exact absurd trivial hnot
    · rw [hother] at hscalar
      exact hscalar.elim
  · rw [hfixed]
    exact takesExactly_fixed_iff harray hfixed
  · rw [hdeclared]
    exact takesExactly_bytes_iff (sizeIn_le hsize) hdeclared (encode_bytes hsized hbytes hsize)
  · have hencode : encodeValue ints keccak256 types t value = _ :=
      encode_integer hsized hbytes hinteger hwidth
    obtain ⟨hlow, hhigh⟩ := widthOf_bounds hwidth
    cases hsigned : startsWith t "int" with
    | true =>
      simp only [hsigned, if_true] at hdeclared hencode
      rw [hdeclared]
      exact takesExactly_int_iff hlow hhigh hdeclared hencode
    | false =>
      simp only [hsigned, Bool.false_eq_true, if_false] at hdeclared hencode
      rw [hdeclared]
      exact takesExactly_uint_iff hhigh hdeclared hencode

theorem of_ok_integer {isSigned : Bool} {v : Value} {enc : Bytes}
    (hencode : encodeValue ints keccak256 types t v = match intOf ints v with
      | none => .error .valueError
      | some n => encodeInteger isSigned n)
    (h : encodeValue ints keccak256 types t v = .ok enc) :
    ∃ n, intOf ints v = some n ∧ (0 ≤ n ∨ isSigned = true) ∧ -2 ^ 256 ≤ n ∧ n < 2 ^ 256 ∧
      (Rlp.fromBytesBig enc : ℤ) = if n < 0 then 2 ^ 256 + n else n := by
  rw [hencode] at h
  cases hn : intOf ints v with
  | none => simp only [hn] at h; cases h
  | some n =>
    simp only [hn] at h
    obtain ⟨hsign, hlow, hhigh, -, hvalue⟩ := encodeInteger_ok h
    exact ⟨n, rfl, hsign, hlow, hhigh, hvalue⟩

/-- Values within the type are told apart by their encodings. -/
theorem sameValue_of_encode {v w : Value} {enc : Bytes}
    (hv : WithinType ints types (declared ints types t) v)
    (hw : WithinType ints types (declared ints types t) w)
    (hencv : encodeValue ints keccak256 types t v = .ok enc)
    (hencw : encodeValue ints keccak256 types t w = .ok enc) :
    SameValue ints (declared ints types t) v w := by
  rcases declared_cases ints types t with hother | ⟨-, count, hfixed⟩ |
      ⟨hsized, ⟨hbytes, size, hsize, hdeclared⟩ | ⟨hbytes, hinteger, bits, hwidth, hdeclared⟩⟩
  · rw [hother]
    trivial
  · rw [hfixed]
    trivial
  · have hraw : ∀ u, WithinType ints types (declared ints types t) u →
        encodeValue ints keccak256 types t u = .ok enc →
        ∃ raw, hexOrBytesToBytes u = some raw ∧ raw = enc.take size := by
      intro u hu henc
      rw [hdeclared] at hu
      rw [encode_bytes hsized hbytes hsize] at henc
      cases hraw : hexOrBytesToBytes u with
      | none => simp only [hraw] at henc; cases henc
      | some raw =>
        simp only [hraw] at henc
        split_ifs at henc with hlong
        obtain rfl := Except.ok.inj henc
        have hlength : size = raw.length := Nat.le_antisymm (hu raw hraw) (by omega)
        exact ⟨raw, rfl, by rw [hlength, List.take_left]⟩
    rw [hdeclared]
    obtain ⟨raw, hrawv, rfl⟩ := hraw v hv hencv
    obtain ⟨raw', hraww, rfl⟩ := hraw w hw hencw
    exact hrawv.trans hraww.symm
  · have hencode : ∀ u, encodeValue ints keccak256 types t u = _ :=
      fun u => encode_integer hsized hbytes hinteger hwidth
    obtain ⟨hlow, hhigh⟩ := widthOf_bounds hwidth
    have hpow := pow_le_pow_256 hhigh
    have htwice := two_mul_pow hlow
    obtain ⟨n, hn, hsign, -, -, hvalue⟩ := of_ok_integer (hencode v) hencv
    obtain ⟨m, hm, hsign', -, -, hvalue'⟩ := of_ok_integer (hencode w) hencw
    rw [hvalue] at hvalue'
    have hsame : n = m := by
      rw [hdeclared] at hv hw
      cases hsigned : startsWith t "int" with
      | false =>
        simp only [hsigned, Bool.false_eq_true, or_false] at hsign hsign'
        rwa [if_neg (by omega), if_neg (by omega)] at hvalue'
      | true =>
        simp only [hsigned, if_true] at hv hw
        have hnv := hv n hn
        have hmw := hw m hm
        split_ifs at hvalue' <;> omega
    rw [hdeclared]
    split_ifs
    · exact hn.trans (hsame ▸ hm.symm)
    · exact hn.trans (hsame ▸ hm.symm)

/-- For every two values of a type: the encoder takes exactly the values declared, and no two
integers or `bytesN` values for one encoding, precisely when neither value is one that goes past the
checks: an integer too wide, bytes too few, or a fixed array of another count whose elements are not
refused. -/
theorem declared_values_iff (ints : IntReader) (keccak256 : Bytes → Bytes) (types : Types)
    (t : String) (v w : Value) :
    (TakesExactly ints keccak256 types t v ∧ TakesExactly ints keccak256 types t w ∧
      ∀ enc, encodeValue ints keccak256 types t v = .ok enc →
        encodeValue ints keccak256 types t w = .ok enc →
          SameValue ints (declared ints types t) v w) ↔
      WithinType ints types (declared ints types t) v ∧
        WithinType ints types (declared ints types t) w := by
  rw [takesExactly_iff, takesExactly_iff]
  constructor
  · rintro ⟨hv, hw, -⟩
    exact ⟨hv, hw⟩
  · rintro ⟨hv, hw⟩
    exact ⟨hv, hw, fun enc hencv hencw => sameValue_of_encode hv hw hencv hencw⟩

/-- `int` on decimal text. -/
def sampleInts : IntReader where
  ofText := Json.intOfString
  ofLiteral := Json.intOfString

/-- 256 goes through as a `uint8`. -/
theorem wide_integer_encoded :
    ¬∀ (types : Types) (t : String) (v w : Value),
      TakesExactly sampleInts id types t v ∧ TakesExactly sampleInts id types t w ∧
        ∀ enc, encodeValue sampleInts id types t v = .ok enc →
          encodeValue sampleInts id types t w = .ok enc →
            SameValue sampleInts (declared sampleInts types t) v w := by
  intro h
  have hdeclared : declared sampleInts ∅ "uint8" = .uint 8 := by decide +kernel
  have hwithin := takesExactly_iff.mp (h ∅ "uint8" (.int 256) (.int 0)).1
  rw [hdeclared] at hwithin
  have := hwithin 256 rfl
  norm_num at this

end TypedData
end Recto
