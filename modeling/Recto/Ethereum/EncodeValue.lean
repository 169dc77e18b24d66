import Recto.Ethereum.RlpRoundTrip
import Recto.Ethereum.TypedData
import Recto.Text.Handles

/-!
# The values of typed data

The encoder of one field's value. It reads the width of an integer type, the size
of a `bytesN` and the inner type of an array from the type's name, and checks
less of the value than the name says: an integer has to fit 32 bytes whatever its
width, fewer bytes than `N` are padded, and the count of a fixed array is not
looked at.
-/

namespace Recto
namespace TypedData

open Rlp (toBytesBig)

/-- A value of a message. -/
inductive Value where
  | none
  | bool (b : Bool)
  | int (n : ℤ)
  | float (x : JsonFloat)
  | str (s : String)
  | bytes (raw : Bytes)
  | list (items : List Value)
  | dict (entries : List (String × Value))

/-- What `int` reads of a text; nothing where it raises `ValueError`. -/
structure IntReader where
  /-- `int(s)` -/
  ofText : String → Option ℤ
  /-- `int(s, 0)`, which goes by the text's own base. -/
  ofLiteral : String → Option ℤ

/-! ## The text of a type -/

/-- `t.endswith("]")` -/
def isArray (t : String) : Bool := (chars t).getLast? = some ']'

/-- `t[:t.rfind("[")]`; without a bracket the last character is cut. -/
def innerType (t : String) : String :=
  String.ofList <|
    if '[' ∈ chars t then (((chars t).reverse.dropWhile (· ≠ '[')).drop 1).reverse
    else (chars t).dropLast

/-- `t[len(start):]` -/
def after (start t : String) : String := String.ofList ((chars t).drop (chars start).length)

/-! ## Scalars -/

/-- `value[2:] if value.startswith(("0x", "0X")) else value` -/
def cleaned (s : String) : String :=
  if startsWith s "0x" || startsWith s "0X" then after "0x" s else s

/-- `_hex_or_bytes_to_bytes`; nothing where it raises, which is a `ValueError`. -/
def hexOrBytesToBytes : Value → Option Bytes
  | .bytes raw => some raw
  | .str s => fromHex (cleaned s)
  | _ => none

/-- The integer of a value, `True` and `False` among them; nothing where a `ValueError` is raised. -/
def intOf (ints : IntReader) : Value → Option ℤ
  | .str s => ints.ofLiteral s
  | .int n => some n
  | .bool b => some (if b then 1 else 0)
  | _ => none

/-- `n.to_bytes(32, "big")` -/
def toBytes32 (n : ℤ) : Except PyError Bytes :=
  if 0 ≤ n ∧ n < 2 ^ 256 then .ok (toBytesBig 32 n.toNat) else .error .overflowError

/-- The integer as its type encodes it. -/
def encodeInteger (isSigned : Bool) (n : ℤ) : Except PyError Bytes :=
  if isSigned then toBytes32 (if n < 0 then 2 ^ 256 + n else n)
  else if n < 0 then .error .valueError
  else toBytes32 n

/-- The width an integer type's name gives. -/
def bitsOf (ints : IntReader) (t : String) : Option ℤ :=
  let bitsStr := if startsWith t "int" then after "int" t else after "uint" t
  if bitsStr = "" then some 256 else ints.ofText bitsStr

/-- The width, where the encoder knows it. -/
def widthOf (ints : IntReader) (t : String) : Option ℕ :=
  match bitsOf ints t with
  | none => none
  | some bits => if bits < 8 ∨ 256 < bits ∨ bits % 8 ≠ 0 then none else some bits.toNat

/-- The size a `bytesN` type's name gives, where it is one to thirty-two. -/
def sizeIn (ints : IntReader) (t : String) : Option ℕ :=
  match ints.ofText (after "bytes" t) with
  | none => none
  | some n => if n < 1 ∨ 32 < n then none else some n.toNat

/-- The part of `_encode_value` for the types that are neither an array nor of the table. -/
def encodeScalar (ints : IntReader) (keccak256 : Bytes → Bytes) (t : String) (value : Value) :
    Except PyError Bytes :=
  if t = "string" then
    match value with
    | .str s => .ok (keccak256 (utf8 s))
    | _ => .error .valueError
  else if t = "bytes" then
    match hexOrBytesToBytes value with
    | none => .error .valueError
    | some raw => .ok (keccak256 raw)
  else if startsWith t "bytes" then
    match sizeIn ints t with
    | none => .error .valueError
    | some n =>
        match hexOrBytesToBytes value with
        | none => .error .valueError
        | some raw =>
            if n < raw.length then .error .valueError
            else .ok (raw ++ List.replicate (32 - raw.length) 0)
  else if t = "address" then
    match value with
    | .str s =>
        if (chars (cleaned s)).length ≠ 40 then .error .valueError
        else
          match fromHex (cleaned s) with
          | none => .error .valueError
          | some raw => .ok (List.replicate 12 0 ++ raw)
    | _ => .error .valueError
  else if t = "bool" then
    match value with
    | .bool b => .ok (List.replicate 31 0 ++ [if b then 1 else 0])
    | _ => .error .valueError
  else if startsWith t "uint" || startsWith t "int" then
    match widthOf ints t with
    | none => .error .valueError
    | some _ =>
        match intOf ints value with
        | none => .error .valueError
        | some n => encodeInteger (startsWith t "int") n
  else .error .valueError

/-! ## Structs and arrays -/

/-- `name not in value` and `value[name]`, of a value that is no dictionary. -/
def notADict (value : Value) (name : String) : PyError :=
  match value with
  | .str s => if (chars s).tails.any fun rest => (chars name).isPrefixOf rest then .typeError else .valueError
  | .list items =>
      if items.any fun item => match item with
        | .str s => s = name
        | _ => false then .typeError
      else .valueError
  | _ => .typeError

/-- `_struct_hash`, the fields' encodings given. -/
def structHash (keccak256 : Bytes → Bytes) (types : Types) (structName : String)
    (encoded : Except PyError (List Bytes)) : Except PyError Bytes :=
  match encodeType types structName with
  | .error _ => .error .valueError
  | .ok text =>
      match encoded with
      | .error e => .error e
      | .ok parts => .ok (keccak256 (keccak256 (utf8 text) ++ parts.flatten))

section
variable (ints : IntReader) (keccak256 : Bytes → Bytes) (types : Types)

/-- A value that is no dictionary, for a type that is no array. -/
def encodeFlat (t : String) (value : Value) : Except PyError Bytes :=
  match types.get? t with
  | some fields => structHash keccak256 types t
      (fields.mapM fun f => .error (notADict value f.name))
  | none => encodeScalar ints keccak256 t value

mutual
/-- `_encode_value` -/
def encodeValue (t : String) : Value → Except PyError Bytes
  | .list items =>
      if isArray t then (encodeItems (innerType t) items).map fun parts => keccak256 parts.flatten
      else encodeFlat ints keccak256 types t (.list items)
  | .dict entries =>
      if isArray t then .error .valueError
      else
        match types.get? t with
        | some fields => structHash keccak256 types t
            (fields.mapM fun f => encodeEntry f.name f.type entries)
        | none => encodeScalar ints keccak256 t (.dict entries)
  | value => if isArray t then .error .valueError else encodeFlat ints keccak256 types t value
/-- The elements of an array, in their order. -/
def encodeItems (inner : String) : List Value → Except PyError (List Bytes)
  | [] => .ok []
  | item :: items =>
      match encodeValue inner item with
      | .error e => .error e
      | .ok part =>
          match encodeItems inner items with
          | .error e => .error e
          | .ok parts => .ok (part :: parts)
/-- The field of a struct. -/
def encodeEntry (name t : String) : List (String × Value) → Except PyError Bytes
  | [] => .error .valueError
  | (key, value) :: entries => if key = name then encodeValue t value else encodeEntry name t entries
end
end

end TypedData
end Recto
