import Recto.Json.Dumps

/-!
# `json.loads`

A recursive-descent reader over the characters of the text, in the order of
CPython's scanner: literals (its three non-standard ones included), numbers,
strings with their escapes, lists and objects, whitespace only where JSON has
it, and nothing after the value. A repeated key of an object keeps its first
place and its last value. Any refusal is the one `ValueError` that
`json.JSONDecodeError` is. Each call takes fuel; the length of the text is
enough, since a call without a character to read fails at once.
-/

namespace Recto
namespace Json

/-- The whitespace JSON has between tokens. -/
def isWs (c : Char) : Bool := c = ' ' || c = '\t' || c = '\n' || c = '\r'

def skipWs (cs : List Char) : List Char := cs.dropWhile isWs

/-- The value of one hexadecimal digit, in either case. -/
def hexValue (c : Char) : Option ℕ :=
  if '0' ≤ c ∧ c ≤ '9' then some (c.toNat - 48)
  else if 'a' ≤ c ∧ c ≤ 'f' then some (c.toNat - 87)
  else if 'A' ≤ c ∧ c ≤ 'F' then some (c.toNat - 55)
  else none

/-- Four hexadecimal digits. -/
def scanHex4 : List Char → Option (ℕ × List Char)
  | a :: b :: c :: d :: rest =>
      match hexValue a, hexValue b, hexValue c, hexValue d with
      | some a, some b, some c, some d => some (((a * 16 + b) * 16 + c) * 16 + d, rest)
      | _, _, _, _ => none
  | _ => none

/-- What follows `\u`: one code unit, or two that make a supplementary character. A lone surrogate
reads as U+FFFD, since a Lean character cannot hold it. -/
def scanUnicode (cs : List Char) : Option (Char × List Char) :=
  match scanHex4 cs with
  | none => none
  | some (unit, rest) =>
      if 55296 ≤ unit ∧ unit ≤ 56319 then
        match rest with
        | '\\' :: 'u' :: tail =>
            match scanHex4 tail with
            | none => none
            | some (low, rest') =>
                if 56320 ≤ low ∧ low ≤ 57343 then
                  some (Char.ofNat (65536 + (unit - 55296) * 1024 + (low - 56320)), rest')
                else some ('\uFFFD', rest)
        | _ => some ('\uFFFD', rest)
      else if 56320 ≤ unit ∧ unit ≤ 57343 then some ('\uFFFD', rest)
      else some (Char.ofNat unit, rest)

/-- What follows a backslash. -/
def scanEscape : List Char → Option (Char × List Char)
  | [] => none
  | c :: rest =>
      if c = 'u' then scanUnicode rest
      else if c = '"' then some ('"', rest)
      else if c = '\\' then some ('\\', rest)
      else if c = '/' then some ('/', rest)
      else if c = 'b' then some (Char.ofNat 8, rest)
      else if c = 'f' then some (Char.ofNat 12, rest)
      else if c = 'n' then some ('\n', rest)
      else if c = 'r' then some ('\r', rest)
      else if c = 't' then some ('\t', rest)
      else none

/-- The characters of a string literal after its opening quote. -/
def scanString : ℕ → List Char → Option (List Char × List Char)
  | 0, _ => none
  | _ + 1, [] => none
  | fuel + 1, c :: rest =>
      if c = '"' then some ([], rest)
      else if c = '\\' then
        match scanEscape rest with
        | none => none
        | some (ch, rest) => (scanString fuel rest).map fun p => (ch :: p.1, p.2)
      else if c.toNat < 32 then none
      else (scanString fuel rest).map fun p => (c :: p.1, p.2)

/-- The number a run of decimal digits spells. -/
def digitsToNat (ds : List Char) : ℕ := Nat.ofDigitChars 10 ds 0

/-- The fraction of a number, when one is there: its digits. -/
def scanFraction : List Char → Option (List Char) × List Char
  | '.' :: rest =>
      let ds := rest.takeWhile Char.isDigit
      if ds = [] then (none, '.' :: rest) else (some ds, rest.dropWhile Char.isDigit)
  | cs => (none, cs)

/-- The exponent of a number, when one is there. -/
def scanExponent : List Char → Option ℤ × List Char
  | [] => (none, [])
  | c :: rest =>
      if c = 'e' ∨ c = 'E' then
        let (negative, body) :=
          match rest with
          | '-' :: tail => (true, tail)
          | '+' :: tail => (false, tail)
          | tail => (false, tail)
        let ds := body.takeWhile Char.isDigit
        if ds = [] then (none, c :: rest)
        else (some (if negative then -(digitsToNat ds : ℤ) else digitsToNat ds),
          body.dropWhile Char.isDigit)
      else (none, c :: rest)

/-- The integer part of a number: a lone zero, or a run of digits. -/
def intDigits : List Char → List Char
  | '0' :: _ => ['0']
  | cs => cs.takeWhile Char.isDigit

/-- A number after its sign: an integer unless a fraction or an exponent follows. -/
def scanNumber (negative : Bool) (cs : List Char) : Option (Json × List Char) :=
  let ds := intDigits cs
  if ds = [] then none
  else
    let (fraction, rest) := scanFraction (cs.drop ds.length)
    let (exponent, rest) := scanExponent rest
    let sign : ℤ := if negative then -1 else 1
    match fraction, exponent with
    | none, none => some (.int (sign * digitsToNat ds), rest)
    | _, _ =>
        let fraction := fraction.getD []
        some (.float (JsonFloat.ofDecimal (sign * digitsToNat (ds ++ fraction))
          (exponent.getD 0 - fraction.length)), rest)

/-- A fixed word. -/
def scanWord (word : List Char) (value : Json) (cs : List Char) : Option (Json × List Char) :=
  if word.isPrefixOf cs then some (value, cs.drop word.length) else none

/-- The dictionary a list of pairs builds: the last value of a key wins. -/
def dictOfPairs (pairs : List (String × Json)) : List (String × Json) :=
  pairs.foldl (fun d p => setItem p.1 p.2 d) []

mutual
/-- One value at the head of the text. -/
def scanOnce : ℕ → List Char → Option (Json × List Char)
  | 0, _ => none
  | _ + 1, [] => none
  | fuel + 1, c :: rest =>
      if c = '"' then
        (scanString (rest.length + 1) rest).map fun p => (.str (String.ofList p.1), p.2)
      else if c = '{' then
        match skipWs rest with
        | '}' :: tail => some (.obj [], tail)
        | body => (scanFields fuel body).map fun p => (.obj (dictOfPairs p.1), p.2)
      else if c = '[' then
        match skipWs rest with
        | ']' :: tail => some (.arr [], tail)
        | body => (scanElements fuel body).map fun p => (.arr p.1, p.2)
      else if c = 'n' then scanWord "null".toList .null (c :: rest)
      else if c = 't' then scanWord "true".toList (.bool true) (c :: rest)
      else if c = 'f' then scanWord "false".toList (.bool false) (c :: rest)
      else if c = 'N' then scanWord "NaN".toList (.float .nan) (c :: rest)
      else if c = 'I' then scanWord "Infinity".toList (.float .infinity) (c :: rest)
      else if c = '-' then
        if rest.head? = some 'I' then
          scanWord "-Infinity".toList (.float .negInfinity) (c :: rest)
        else scanNumber true rest
      else scanNumber false (c :: rest)
/-- The elements of a list, from the first one to the closing bracket. -/
def scanElements : ℕ → List Char → Option (List Json × List Char)
  | 0, _ => none
  | fuel + 1, cs =>
      match scanOnce fuel cs with
      | none => none
      | some (x, rest) =>
          match skipWs rest with
          | ']' :: tail => some ([x], tail)
          | ',' :: tail => (scanElements fuel (skipWs tail)).map fun p => (x :: p.1, p.2)
          | _ => none
/-- The fields of an object, from the first key to the closing brace. -/
def scanFields : ℕ → List Char → Option (List (String × Json) × List Char)
  | 0, _ => none
  | fuel + 1, '"' :: cs =>
      match scanString (cs.length + 1) cs with
      | none => none
      | some (key, rest) =>
          match skipWs rest with
          | ':' :: rest =>
              match scanOnce fuel (skipWs rest) with
              | none => none
              | some (x, rest) =>
                  match skipWs rest with
                  | '}' :: tail => some ([(String.ofList key, x)], tail)
                  | ',' :: tail =>
                      (scanFields fuel (skipWs tail)).map fun p =>
                        ((String.ofList key, x) :: p.1, p.2)
                  | _ => none
          | _ => none
  | _ + 1, _ => none
end

/-- The whole text is one value, with whitespace around it. -/
def parse (cs : List Char) : Option Json :=
  match scanOnce (cs.length + 1) (skipWs cs) with
  | some (x, rest) => if skipWs rest = [] then some x else none
  | none => none

/-- `json.loads(text)` -/
def loads (text : String) : Except PyError Json :=
  match parse (chars text) with
  | some x => .ok x
  | none => .error .valueError

end Json
end Recto
