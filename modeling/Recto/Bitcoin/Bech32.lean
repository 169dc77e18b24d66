import Recto.Text.Handles

/-!
# Bech32 addresses

The checksum, the regrouping of bits and the address functions of the Bitcoin
module. A version 0 address carries the bech32 constant, a later one that of
bech32m.
-/

namespace Recto
namespace Bech32

/-- `_BECH32_CHARSET` -/
def charset : List Char :=
  ['q', 'p', 'z', 'r', 'y', '9', 'x', '8', 'g', 'f', '2', 't', 'v', 'd', 'w', '0',
    's', '3', 'j', 'n', '5', '4', 'k', 'h', 'c', 'e', '6', 'm', 'u', 'a', '7', 'l']

def bech32Const : ℕ := 1

def bech32mConst : ℕ := 0x2BC830A3

/-! ## The checksum -/

def generator : List ℕ := [0x3B6A57B2, 0x26508E6D, 0x1EA119FA, 0x3D4233DD, 0x2A1462B3]

/-- One turn of the loop of `_bech32_polymod`. -/
def polymodStep (chk v : ℕ) : ℕ :=
  let b := chk >>> 25
  let chk := ((chk &&& 0x1FFFFFF) <<< 5) ^^^ v
  generator.zipIdx.foldl (fun chk g => if (b >>> g.2) &&& 1 ≠ 0 then chk ^^^ g.1 else chk) chk

def polymod (values : List ℕ) : ℕ := values.foldl polymodStep 1

def hrpExpand (hrp : List Char) : List ℕ :=
  hrp.map (fun c => c.toNat >>> 5) ++ [0] ++ hrp.map fun c => c.toNat &&& 31

def createChecksum (hrp : List Char) (data : List ℕ) (specConst : ℕ) : List ℕ :=
  let values := hrpExpand hrp ++ data
  let polymod := polymod (values ++ [0, 0, 0, 0, 0, 0]) ^^^ specConst
  (List.range 6).map fun i => (polymod >>> (5 * (5 - i))) &&& 31

/-- The constant an address is checksummed against. -/
def verifyChecksum (hrp : List Char) (data : List ℕ) : Option ℕ :=
  let polymod := polymod (hrpExpand hrp ++ data)
  if polymod = bech32Const then some bech32Const
  else if polymod = bech32mConst then some bech32mConst
  else none

/-! ## Regrouping -/

/-- The inner loop of `_convert_bits`: the full groups among the low `bits` bits of `acc`, the
highest first, and how many bits are left. `bits` turns are enough. -/
def groups (acc toBits : ℕ) : ℕ → ℕ → List ℕ × ℕ
  | 0, bits => ([], bits)
  | turns + 1, bits =>
      if toBits ≤ bits then
        let bits := bits - toBits
        let rest := groups acc toBits turns bits
        (((acc >>> bits) &&& (2 ^ toBits - 1)) :: rest.1, rest.2)
      else ([], bits)

/-- The variables of the loop of `_convert_bits`. -/
structure Regrouping where
  acc : ℕ
  bits : ℕ
  ret : List ℕ

/-- One turn of the loop; `none` when the value is no group. -/
def regroup (fromBits toBits : ℕ) (s : Regrouping) (value : ℕ) : Option Regrouping :=
  if value >>> fromBits ≠ 0 then none
  else
    let acc := ((s.acc <<< fromBits) ||| value) &&& (2 ^ (fromBits + toBits - 1) - 1)
    let emitted := groups acc toBits (s.bits + fromBits) (s.bits + fromBits)
    some { acc := acc, bits := emitted.2, ret := s.ret ++ emitted.1 }

/-- `_convert_bits` -/
def convertBits (data : List ℕ) (fromBits toBits : ℕ) (pad : Bool) : Option (List ℕ) :=
  match data.foldlM (regroup fromBits toBits) ⟨0, 0, []⟩ with
  | none => none
  | some s =>
      if pad then
        if s.bits ≠ 0 then some (s.ret ++ [(s.acc <<< (toBits - s.bits)) &&& (2 ^ toBits - 1)])
        else some s.ret
      else if fromBits ≤ s.bits ∨ (s.acc <<< (toBits - s.bits)) &&& (2 ^ toBits - 1) ≠ 0 then none
      else some s.ret

/-! ## Addresses -/

/-- What the address functions raise. -/
inductive AddressError where
  | badWitnessVersion (version : ℤ)
  | notConverted
  | indexError
  | badLength (length : ℕ)
  | mixedCase
  | badSeparator
  | notInCharset (c : Char)
  | badChecksum
  | programNotConverted
  | versionZeroNotBech32
  | laterVersionNotBech32m
  | badVersionZeroLength (length : ℕ)
  deriving DecidableEq, Repr

/-- `bech32_encode` -/
def encode (hrp : String) (witnessVersion : ℤ) (program : Bytes) : Except AddressError String :=
  if witnessVersion < 0 ∨ 16 < witnessVersion then .error (.badWitnessVersion witnessVersion)
  else
    let specConst := if witnessVersion = 0 then bech32Const else bech32mConst
    match convertBits (program.map UInt8.toNat) 8 5 true with
    | none => .error .notConverted
    | some converted =>
        let data := witnessVersion.toNat :: converted
        let combined := data ++ createChecksum (chars hrp) data specConst
        match combined.mapM fun d => charset[d]? with
        | none => .error .indexError
        | some text => .ok (String.ofList (chars hrp ++ '1' :: text))

/-- `s.upper()`, as far as ASCII. -/
def upper (s : String) : String := String.ofList ((chars s).map Char.toUpper)

/-- `s.rfind(c)`; `none` for -1. -/
def rfind (c : Char) (s : List Char) : Option ℕ :=
  (s.reverse.findIdx? (· = c)).map fun i => s.length - 1 - i

/-- The groups the characters stand for, or the first character that stands for none. -/
def fromCharset : List Char → Except AddressError (List ℕ)
  | [] => .ok []
  | c :: cs =>
      match charset.idxOf? c with
      | none => .error (.notInCharset c)
      | some d =>
          match fromCharset cs with
          | .error e => .error e
          | .ok ds => .ok (d :: ds)

/-- The part of `bech32_decode` after the checksum: `data` are the groups, `spec` their constant. -/
def decodeProgram (data : List ℕ) (spec : ℕ) : Except AddressError (ℕ × Bytes) :=
  match data with
  | [] => .error .indexError
  | witnessVersion :: rest =>
      match convertBits (rest.take (data.length - 7)) 5 8 false with
      | none => .error .programNotConverted
      | some program =>
          if witnessVersion = 0 ∧ spec ≠ bech32Const then .error .versionZeroNotBech32
          else if witnessVersion ≠ 0 ∧ spec ≠ bech32mConst then .error .laterVersionNotBech32m
          else if witnessVersion = 0 ∧ program.length ≠ 20 ∧ program.length ≠ 32 then
            .error (.badVersionZeroLength program.length)
          else .ok (witnessVersion, program.map UInt8.ofNat)

/-- `bech32_decode` -/
def decode (addr : String) : Except AddressError (String × ℕ × Bytes) :=
  if chars addr = [] ∨ 90 < (chars addr).length then .error (.badLength (chars addr).length)
  else if lower addr ≠ addr ∧ upper addr ≠ addr then .error .mixedCase
  else
    let addr := chars (lower addr)
    match rfind '1' addr with
    | none => .error .badSeparator
    | some sep =>
        if sep < 1 ∨ addr.length < sep + 7 then .error .badSeparator
        else
          let hrp := addr.take sep
          match fromCharset (addr.drop (sep + 1)) with
          | .error e => .error e
          | .ok data =>
              match verifyChecksum hrp data with
              | none => .error .badChecksum
              | some spec =>
                  match decodeProgram data spec with
                  | .error e => .error e
                  | .ok (witnessVersion, program) =>
                      .ok (String.ofList hrp, witnessVersion, program)

end Bech32
end Recto
