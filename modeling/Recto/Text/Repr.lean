import Recto.Text.Encoding

/-!
# `str` and `repr` of JSON values

What an f-string writes for a value of untrusted input. Which characters beyond
ASCII `repr` shows as they are is Unicode's to say, and comes as a parameter.
-/

namespace Recto
namespace Json

/-- `"%02x"`, the last two hexadecimal digits. -/
def hex2 (n : ℕ) : List Char := [hexDigit (n / 16 % 16), hexDigit (n % 16)]

/-- One character inside a `repr` with the given quote. -/
def reprChar (printable : Char → Bool) (delimiter c : Char) : List Char :=
  if c = delimiter ∨ c = '\\' then ['\\', c]
  else if c = '\n' then ['\\', 'n']
  else if c = '\r' then ['\\', 'r']
  else if c = '\t' then ['\\', 't']
  else if 32 ≤ c.toNat ∧ c.toNat ≤ 126 then [c]
  else if 128 ≤ c.toNat ∧ printable c then [c]
  else if c.toNat < 256 then '\\' :: 'x' :: hex2 c.toNat
  else if c.toNat < 65536 then '\\' :: 'u' :: hex4 c.toNat
  else '\\' :: 'U' :: hex4 (c.toNat / 65536) ++ hex4 (c.toNat % 65536)

/-- `repr(s)`: single quotes, unless only they occur in it. -/
def reprStr (printable : Char → Bool) (s : String) : List Char :=
  let delimiter := if '\'' ∈ chars s ∧ '"' ∉ chars s then '"' else '\''
  delimiter :: (chars s).flatMap (reprChar printable delimiter) ++ [delimiter]

mutual
/-- `repr(x)` -/
def pyRepr (printable : Char → Bool) : Json → List Char
  | .null => "None".toList
  | .bool true => "True".toList
  | .bool false => "False".toList
  | .int n => renderInt n
  | .float x => x.repr
  | .str s => reprStr printable s
  | .arr xs => '[' :: reprElements printable xs
  | .obj fields => '\x7b' :: reprFields printable fields
def reprElements (printable : Char → Bool) : List Json → List Char
  | [] => [']']
  | [x] => pyRepr printable x ++ [']']
  | x :: y :: xs => pyRepr printable x ++ ',' :: ' ' :: reprElements printable (y :: xs)
def reprFields (printable : Char → Bool) : List (String × Json) → List Char
  | [] => ['\x7d']
  | [(k, x)] => reprStr printable k ++ ':' :: ' ' :: (pyRepr printable x ++ ['\x7d'])
  | (k, x) :: f :: fs =>
      reprStr printable k ++ ':' :: ' ' :: (pyRepr printable x ++
        ',' :: ' ' :: reprFields printable (f :: fs))
end

/-- `str(x)`: a string is itself. -/
def pyStr (printable : Char → Bool) : Json → String
  | .str s => s
  | x => String.ofList (pyRepr printable x)

@[simp] theorem pyStr_str (printable : Char → Bool) (s : String) :
    pyStr printable (.str s) = s := rfl

example : pyStr (fun _ => true) (.arr [.str "it's", .null, .int (-3)]) =
    "[\"it's\", None, -3]" := by decide

end Json
end Recto
