import Recto.Json.Value
import Mathlib.Data.List.Sort

/-!
# `json.dumps`, sorted and compact

The form `json.dumps(value, sort_keys=True, separators=(",", ":"))` writes:
keys in code-point order, no spaces, and every character outside printable
ASCII escaped as UTF-16 code units. `render` writes a value in the order it
has; `canon` sorts the fields at every level, so `dumps` is the two together.
-/

namespace Recto
namespace Json

/-- One lower-case hexadecimal digit. -/
def hexDigit (n : ℕ) : Char :=
  if n < 10 then Char.ofNat (48 + n) else Char.ofNat (87 + n)

/-- Four hexadecimal digits of a UTF-16 code unit. -/
def hex4 (n : ℕ) : List Char :=
  [hexDigit (n / 4096 % 16), hexDigit (n / 256 % 16), hexDigit (n / 16 % 16), hexDigit (n % 16)]

/-- A `\u` escape of one code unit. -/
def unicodeEscape (n : ℕ) : List Char := '\\' :: 'u' :: hex4 n

/-- One character inside a string literal. -/
def escapeChar (c : Char) : List Char :=
  if c = '"' then ['\\', '"']
  else if c = '\\' then ['\\', '\\']
  else if c = '\n' then ['\\', 'n']
  else if c = '\r' then ['\\', 'r']
  else if c = '\t' then ['\\', 't']
  else if c.toNat = 12 then ['\\', 'f']
  else if c.toNat = 8 then ['\\', 'b']
  else if 32 ≤ c.toNat ∧ c.toNat ≤ 126 then [c]
  else if c.toNat < 65536 then unicodeEscape c.toNat
  else
    unicodeEscape (55296 + (c.toNat - 65536) / 1024) ++
      unicodeEscape (56320 + (c.toNat - 65536) % 1024)

/-- A string literal. -/
def quote (s : String) : List Char := '"' :: (chars s).flatMap escapeChar ++ ['"']

/-- An integer literal. -/
def renderInt (n : ℤ) : List Char :=
  if n < 0 then '-' :: Nat.toDigits 10 n.natAbs else Nat.toDigits 10 n.natAbs

mutual
/-- The text of a value, its fields in the order they have. -/
def render : Json → List Char
  | .null => "null".toList
  | .bool true => "true".toList
  | .bool false => "false".toList
  | .int n => renderInt n
  | .float x => x.dumps
  | .str s => quote s
  | .arr xs => '[' :: renderElements xs
  | .obj fields => '{' :: renderFields fields
/-- The elements of a list and its closing bracket. -/
def renderElements : List Json → List Char
  | [] => [']']
  | [x] => render x ++ [']']
  | x :: y :: xs => render x ++ ',' :: renderElements (y :: xs)
/-- The fields of an object and its closing brace. -/
def renderFields : List (String × Json) → List Char
  | [] => ['}']
  | [(k, x)] => quote k ++ ':' :: (render x ++ ['}'])
  | (k, x) :: f :: fs => quote k ++ ':' :: (render x ++ ',' :: renderFields (f :: fs))
end

/-- The order of keys: strings compare by code point. -/
def fieldLE (f g : String × Json) : Prop := f.1 ≤ g.1

instance : DecidableRel fieldLE := fun f g => inferInstanceAs (Decidable (f.1 ≤ g.1))

/-- The fields in key order. -/
def sortFields (fields : List (String × Json)) : List (String × Json) :=
  fields.insertionSort fieldLE

mutual
/-- The value with the fields of every object in key order. -/
def canon : Json → Json
  | .arr xs => .arr (canonElements xs)
  | .obj fields => .obj (sortFields (canonFields fields))
  | x => x
def canonElements : List Json → List Json
  | [] => []
  | x :: xs => canon x :: canonElements xs
def canonFields : List (String × Json) → List (String × Json)
  | [] => []
  | (k, x) :: fs => (k, canon x) :: canonFields fs
end

/-- `json.dumps(value, sort_keys=True, separators=(",", ":"))` -/
def dumps (x : Json) : List Char := (canon x).render

@[simp] theorem canon_null : canon .null = .null := rfl
@[simp] theorem canon_int (n : ℤ) : canon (.int n) = .int n := rfl
@[simp] theorem canon_str (s : String) : canon (.str s) = .str s := rfl

theorem canonElements_strs (xs : List String) : canonElements (xs.map .str) = xs.map .str := by
  induction xs with
  | nil => rfl
  | cons x xs ih => simp [canonElements, ih]

example : String.ofList (dumps (.obj [("b", .int (-7)), ("a", .arr [.str "é\n", .null])])) =
    "\x7b\"a\":[\"\\u00e9\\n\",null],\"b\":-7\x7d" := by decide

end Json
end Recto
