import Recto.Text.CharTables
import Recto.Text.Encoding

/-!
# The bucket of a client

`CodeAttemptLimiter.bucket`: one bucket per IPv4 address and per IPv6 /64. What
`ipaddress` does with a text is written out: an address is a number, with the scope
that an IPv6 text may carry.
-/

namespace Recto
namespace Codes

/-! ## Reading an address -/

def isDigit (c : Char) : Bool := '0' ≤ c && c ≤ '9'

/-- `int(text, 10)`, digits given. -/
def decimal (cs : List Char) : ℕ := cs.foldl (fun n c => 10 * n + (c.toNat - '0'.toNat)) 0

/-- `_parse_octet` -/
def parseOctet (cs : List Char) : Option ℕ :=
  if cs ≠ [] ∧ cs.all isDigit = true ∧ cs.length ≤ 3 ∧ (cs = ['0'] ∨ cs.head? ≠ some '0') ∧
      decimal cs ≤ 255 then
    some (decimal cs)
  else none

/-- The number of an IPv4 text. -/
def ipv4OfText (cs : List Char) : Option ℕ :=
  match cs.splitOn '.' with
  | [a, b, c, d] => do
      let a ← parseOctet a
      let b ← parseOctet b
      let c ← parseOctet c
      let d ← parseOctet d
      pure (((a * 256 + b) * 256 + c) * 256 + d)
  | _ => none

/-- `_parse_hextet` -/
def parseHextet (cs : List Char) : Option ℕ :=
  if cs = [] ∨ 4 < cs.length then none
  else cs.foldlM (fun n c => (hexDigitValue c).map fun d => 16 * n + d) 0

/-- Hextets read after those already read. -/
def parseHextets (n : ℕ) (parts : List (List Char)) : Option ℕ :=
  parts.foldlM (fun n part => (parseHextet part).map fun h => 65536 * n + h) n

/-- `'%x' % n` -/
def hexText (n : ℕ) : List Char := Nat.toDigits 16 n

/-- An IPv4 text at the end stands for two hextets. -/
def withoutSuffix (parts : List (List Char)) : Option (List (List Char)) :=
  match parts.getLast? with
  | some last =>
      if '.' ∈ last then do
        let n ← ipv4OfText last
        pure (parts.dropLast ++ [hexText (n / 65536), hexText (n % 65536)])
      else some parts
  | none => some parts

/-- The places strictly inside where nothing stands: `::`. -/
def skips (parts : List (List Char)) : List ℕ :=
  (List.range parts.length).filter fun i =>
    decide (1 ≤ i) && decide (i + 1 < parts.length) && decide (parts[i]? = some [])

/-- `_ip_int_from_string` of an IPv6 text. -/
def ipv6OfText (cs : List Char) : Option ℕ := do
  let parts := cs.splitOn ':'
  if parts.length < 3 then none
  let parts ← withoutSuffix parts
  if 9 < parts.length then none
  match skips parts with
  | [] =>
      if parts.length = 8 ∧ parts.head? ≠ some [] ∧ parts.getLast? ≠ some [] then
        parseHextets 0 parts
      else none
  | [skip] =>
      let leads := decide (parts.head? = some [])
      let trails := decide (parts.getLast? = some [])
      -- a colon at an end is read only as half of `::`
      if leads ∧ skip ≠ 1 ∨ trails ∧ skip + 2 ≠ parts.length then none
      let hi := if leads then [] else parts.take skip
      let lo := if trails then [] else parts.drop (skip + 1)
      if 8 < hi.length + lo.length + 1 then none
      let n ← parseHextets 0 hi
      parseHextets (n * 65536 ^ (8 - (hi.length + lo.length))) lo
  | _ => none

/-- An address: its number, and the scope of an IPv6 text. -/
inductive Address where
  | v4 (n : ℕ)
  | v6 (n : ℕ) (scope : Option (List Char))
  deriving DecidableEq, Repr

/-- `ipaddress.ip_address` -/
def ipAddress (cs : List Char) : Option Address :=
  match ipv4OfText cs with
  | some n => some (.v4 n)
  | none =>
      if '/' ∈ cs then none
      else
        match cs.splitOn '%' with
        | [text] => (ipv6OfText text).map fun n => .v6 n none
        | [text, scope] =>
            if scope = [] then none else (ipv6OfText text).map fun n => .v6 n (some scope)
        | _ => none

/-! ## Writing an address -/

/-- `str` of an IPv4 address -/
def ipv4Text (n : ℕ) : List Char :=
  ['.'].intercalate
    ([n / 16777216 % 256, n / 65536 % 256, n / 256 % 256, n % 256].map fun o => Nat.toDigits 10 o)

/-- The first longest run of zeros: where it starts and how long it is. -/
def zeroRun (hextets : List ℕ) : ℕ × ℕ :=
  let runs := (List.range hextets.length).map fun i =>
    (i, ((hextets.drop i).takeWhile fun h => decide (h = 0)).length)
  runs.foldl (fun best run => if best.2 < run.2 then run else best) (0, 0)

/-- `_compress_hextets` -/
def compressHextets (hextets : List ℕ) : List (List Char) :=
  let (start, length) := zeroRun hextets
  let texts := hextets.map hexText
  if 1 < length then
    (if start = 0 then [[]] else []) ++ texts.take start ++ [[]] ++ texts.drop (start + length) ++
      (if start + length = hextets.length then [[]] else [])
  else texts

/-- `_string_from_ip_int` -/
def ipv6Text (n : ℕ) : List Char :=
  [':'].intercalate
    (compressHextets ((List.range 8).map fun i => n / 65536 ^ (7 - i) % 65536))

/-- The /64 network of an address, as `ip_network` writes it: the scope stays where the address is
the network's own. -/
def networkText (n : ℕ) (scope : Option (List Char)) : List Char :=
  let base := n - n % 2 ^ 64
  let zone := if base = n then (scope.map fun s => '%' :: s).getD [] else []
  ipv6Text base ++ zone ++ ['/', '6', '4']

/-! ## The bucket -/

/-- `isspace`, for one character of a client header. -/
def isBlank (c : Char) : Bool :=
  let n := c.toNat
  (9 ≤ n && n ≤ 13) || (28 ≤ n && n ≤ 32) || n = 0x85 || n = 0xA0 || n = 0x1680 ||
    (0x2000 ≤ n && n ≤ 0x200A) || n = 0x2028 || n = 0x2029 || n = 0x202F || n = 0x205F || n = 0x3000

/-- `client.strip()` -/
def stripBlanks (cs : List Char) : List Char :=
  ((cs.dropWhile isBlank).reverse.dropWhile isBlank).reverse

/-- The upper 96 bits of an IPv4-mapped address, and of `_NAT64`. -/
def mappedPart : ℕ := 0xFFFF

def nat64Part : ℕ := 0x64FF9B0000000000000000

/-- `bucket` -/
def bucket (t : CharTables) (client : String) : String :=
  let value := stripBlanks (chars client)
  String.ofList <|
    match ipAddress value with
    | some (.v4 n) => ipv4Text n
    | some (.v6 n scope) =>
        if n / 2 ^ 32 = mappedPart ∨ n / 2 ^ 32 = nat64Part then ipv4Text (n % 2 ^ 32)
        else networkText n scope
    | none => t.lower value

end Codes
end Recto
