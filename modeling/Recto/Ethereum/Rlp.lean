import Recto.Text.Chars

/-!
# Recursive length prefix

The items, the encoder and the decoder of the RLP functions. The decoder reads
one shared buffer by offsets: an inner item is bounded by the buffer, and a list
checks only that its items end where it does.
-/

namespace Recto
namespace Rlp

/-! ## Big-endian numbers -/

/-- `n.bit_length()` -/
def bitLength (n : ℕ) : ℕ := if n = 0 then 0 else n.log2 + 1

/-- `n.to_bytes(size, "big")`, for a number that fits. -/
def toBytesBig : ℕ → ℕ → Bytes
  | 0, _ => []
  | size + 1, n => toBytesBig size (n / 256) ++ [UInt8.ofNat (n % 256)]

/-- `int.from_bytes(raw, "big")` -/
def fromBytesBig (raw : Bytes) : ℕ := raw.foldl (fun n b => n * 256 + b.toNat) 0

/-- `(n.bit_length() + 7) // 8` -/
def byteLength (n : ℕ) : ℕ := (bitLength n + 7) / 8

/-! ## Encoding -/

/-- What `rlp_encode` is called with. -/
inductive Item where
  | bytes (data : Bytes)
  | int (n : ℤ)
  | str (s : String)
  | list (items : List Item)
  /-- A value of any other type, by its type's name. -/
  | other (type : String)

/-- The `ValueError`s of the encoder. -/
inductive EncodeError where
  | negative (n : ℤ)
  | unsupported (type : String)
  /-- `bytes([...])` of a number that is no byte. -/
  | notAByte
  deriving DecidableEq, Repr

/-- `bytes([n])` -/
def oneByte (n : ℕ) : Except EncodeError Bytes :=
  if n < 256 then .ok [UInt8.ofNat n] else .error .notAByte

def encodeLength (length offset : ℕ) : Except EncodeError Bytes :=
  if length < 56 then oneByte (offset + length)
  else do
    let nbytes := byteLength length
    let first ← oneByte (offset + 55 + nbytes)
    pure (first ++ toBytesBig nbytes length)

def encodeString (data : Bytes) : Except EncodeError Bytes :=
  match data with
  | [b] => if b.toNat < 0x80 then .ok [b] else do pure ((← encodeLength 1 0x80) ++ data)
  | _ => do pure ((← encodeLength data.length 0x80) ++ data)

mutual
def encode : Item → Except EncodeError Bytes
  | .bytes data => encodeString data
  | .int n =>
      if n < 0 then .error (.negative n)
      else if n = 0 then encodeString []
      else encodeString (toBytesBig (byteLength n.toNat) n.toNat)
  | .str s => encodeString (utf8 s)
  | .list items => do
      let encoded ← encodeAll items
      pure ((← encodeLength encoded.length 0xC0) ++ encoded)
  | .other type => .error (.unsupported type)
/-- `b"".join(rlp_encode(x) for x in items)` -/
def encodeAll : List Item → Except EncodeError Bytes
  | [] => .ok []
  | x :: xs => do pure ((← encode x) ++ (← encodeAll xs))
end

/-! ## Decoding -/

/-- What `rlp_decode` returns. -/
inductive Decoded where
  | bytes (data : Bytes)
  | list (items : List Decoded)
  deriving Repr

/-- The `ValueError`s of the decoder. -/
inductive DecodeError where
  | pastEnd
  | shortStringTruncated
  | longStringLengthTruncated
  | longStringBodyTruncated
  | shortListTruncated
  | longListLengthTruncated
  | longListBodyTruncated
  | overshoot
  | trailing (count : ℕ)
  deriving DecidableEq, Repr

/-- `data[start:stop]` -/
def slice (data : Bytes) (start stop : ℕ) : Bytes := (data.drop start).take (stop - start)

/-- Where an item that begins at `offset` ends. -/
abbrev After (data : Bytes) (offset : ℕ) := { stop : ℕ // offset < stop ∧ offset < data.length }

mutual
def decodeOne (data : Bytes) (offset : ℕ) : Except DecodeError (Decoded × After data offset) :=
  if h : offset < data.length then
    let first := data[offset].toNat
    if first < 0x80 then .ok (.bytes [data[offset]], ⟨offset + 1, by omega⟩)
    else if first < 0xB8 then
      let stop := offset + 1 + (first - 0x80)
      if data.length < stop then .error .shortStringTruncated
      else .ok (.bytes (slice data (offset + 1) stop), ⟨stop, by omega⟩)
    else if first < 0xC0 then
      let nlen := first - 0xB7
      if data.length < offset + 1 + nlen then .error .longStringLengthTruncated
      else
        let start := offset + 1 + nlen
        let stop := start + fromBytesBig (slice data (offset + 1) start)
        if data.length < stop then .error .longStringBodyTruncated
        else .ok (.bytes (slice data start stop), ⟨stop, by omega⟩)
    else if first < 0xF8 then
      let stop := offset + 1 + (first - 0xC0)
      if data.length < stop then .error .shortListTruncated
      else
        match decodeList data (offset + 1) stop with
        | .error e => .error e
        | .ok items => .ok (.list items, ⟨stop, by omega⟩)
    else
      let nlen := first - 0xF7
      if data.length < offset + 1 + nlen then .error .longListLengthTruncated
      else
        let start := offset + 1 + nlen
        let stop := start + fromBytesBig (slice data (offset + 1) start)
        if data.length < stop then .error .longListBodyTruncated
        else
          match decodeList data start stop with
          | .error e => .error e
          | .ok items => .ok (.list items, ⟨stop, by omega⟩)
  else .error .pastEnd
termination_by (data.length - offset, 0)
decreasing_by
  · exact Prod.Lex.left _ _ (by omega)
  · exact Prod.Lex.left _ _ (by omega)
/-- The items from `start` on, up to `stop`. -/
def decodeList (data : Bytes) (start stop : ℕ) : Except DecodeError (List Decoded) :=
  if start < stop then
    match decodeOne data start with
    | .error e => .error e
    | .ok (item, ⟨cursor, _⟩) =>
        match decodeList data cursor stop with
        | .error e => .error e
        | .ok items => .ok (item :: items)
  else if start ≠ stop then .error .overshoot
  else .ok []
termination_by (data.length - start, 1)
decreasing_by
  · exact Prod.Lex.right _ (by omega)
  · exact Prod.Lex.left _ _ (by omega)
end

def decode (data : Bytes) : Except DecodeError Decoded :=
  match decodeOne data 0 with
  | .error e => .error e
  | .ok (item, ⟨rest, _⟩) =>
      if rest ≠ data.length then .error (.trailing (data.length - rest)) else .ok item

mutual
/-- What an item is decoded to: a number to its minimal big-endian bytes, a text to its UTF-8
bytes. -/
def Item.decoded : Item → Decoded
  | .bytes data => .bytes data
  | .int n => .bytes (toBytesBig (byteLength n.toNat) n.toNat)
  | .str s => .bytes (utf8 s)
  | .list items => .list (decodedAll items)
  | .other _ => .list []
def decodedAll : List Item → List Decoded
  | [] => []
  | x :: xs => x.decoded :: decodedAll xs
end

end Rlp
end Recto
