import Recto.Data.Dict
import Recto.Text.Chars

/-!
# JSON values as Python holds them

`json.loads` gives `None`, booleans, unbounded integers, floats, strings,
lists and dictionaries. Strings are Lean strings: a lone surrogate, which only
Python can hold, is outside the model. A float is kept at the exact decimal
value of its literal. The Python operations on such values that a caller may
apply to untrusted input (`int`, `str`, truth, `==`, `hash`, subscripts) are
given here with the exception each of them raises.
-/

namespace Recto

/-- A JSON number written with a fraction or an exponent: `mantissa * 10 ^ exponent`. -/
inductive JsonFloat where
  | decimal (mantissa : ℤ) (exponent : ℤ)
  | infinity
  | negInfinity
  | nan
  deriving DecidableEq, Repr

inductive Json where
  | null
  | bool (b : Bool)
  | int (n : ℤ)
  | float (x : JsonFloat)
  | str (s : String)
  | arr (xs : List Json)
  | obj (fields : List (String × Json))
  deriving Repr

/-- The exceptions Python's own operations raise on JSON values. -/
inductive PyError where
  | typeError
  | valueError
  | keyError
  | indexError
  | attributeError
  | overflowError
  | unicodeEncodeError
  | stopIteration
  | osError
  | runtimeError
  deriving DecidableEq, Repr

namespace JsonFloat

/-- Trailing zeros of the mantissa moved into the exponent, `fuel` of them at most. -/
def stripZeros : ℕ → ℤ → ℤ → JsonFloat
  | 0, m, e => .decimal m e
  | fuel + 1, m, e => if m % 10 = 0 then stripZeros fuel (m / 10) (e + 1) else .decimal m e

/-- The one form of each finite value. -/
def normal (m e : ℤ) : JsonFloat :=
  if m = 0 then .decimal 0 0 else stripZeros (Nat.size m.natAbs) m e

/-- Half way between the largest finite double and the next power of two. -/
def overflowBound : ℤ := 2 ^ 1024 - 2 ^ 970

/-- The float a literal denotes, taken as exact; past the largest double it is infinite. -/
def ofDecimal (m e : ℤ) : JsonFloat :=
  if overflowBound * 10 ^ (-e).toNat ≤ m.natAbs * 10 ^ e.toNat then
    if 0 < m then .infinity else .negInfinity
  else normal m e

/-- The value of a finite float. -/
def toRat? : JsonFloat → Option ℚ
  | .decimal m e => some (m * (10 : ℚ) ^ e)
  | _ => none

/-- `int(x)`: towards zero, refusing what is not finite. -/
def toInt : JsonFloat → Except PyError ℤ
  | .decimal m e =>
      .ok (if 0 ≤ e then m * 10 ^ e.toNat else m.tdiv (10 ^ (-e).toNat))
  | .infinity => .error .overflowError
  | .negInfinity => .error .overflowError
  | .nan => .error .valueError

/-- Zeros. -/
def zeros (n : ℤ) : List Char := List.replicate n.toNat '0'

/-- The digits `ds` with the decimal point after `point` of them, as `repr` writes a float:
positional between `1e-4` and `1e16`, with an exponent outside. -/
def reprDigits (ds : List Char) (point : ℤ) : List Char :=
  if -4 < point ∧ point ≤ 16 then
    if point ≤ 0 then '0' :: '.' :: zeros (-point) ++ ds
    else if (ds.length : ℤ) ≤ point then ds ++ zeros (point - ds.length) ++ ['.', '0']
    else ds.take point.toNat ++ '.' :: ds.drop point.toNat
  else
    let e := point - 1
    let exponent := Nat.toDigits 10 e.natAbs
    let padded := if exponent.length < 2 then '0' :: exponent else exponent
    ds.take 1 ++ (if ds.length = 1 then [] else '.' :: ds.drop 1) ++
      'e' :: (if e < 0 then '-' else '+') :: padded

/-- `repr(x)` for a float in normal form. -/
def repr : JsonFloat → List Char
  | .infinity => "inf".toList
  | .negInfinity => "-inf".toList
  | .nan => "nan".toList
  | .decimal m e =>
      if m = 0 then "0.0".toList
      else
        let ds := Nat.toDigits 10 m.natAbs
        (if m < 0 then ['-'] else []) ++ reprDigits ds (ds.length + e)

/-- How `json.dumps` writes a float: `repr`, with its own names for what is not finite. -/
def dumps : JsonFloat → List Char
  | .infinity => "Infinity".toList
  | .negInfinity => "-Infinity".toList
  | .nan => "NaN".toList
  | x => x.repr

end JsonFloat

namespace Json

mutual
/-- Structural equality, as a program. -/
def beq : Json → Json → Bool
  | .null, .null => true
  | .bool a, .bool b => a == b
  | .int a, .int b => a == b
  | .float a, .float b => a == b
  | .str a, .str b => a == b
  | .arr xs, .arr ys => beqList xs ys
  | .obj xs, .obj ys => beqFields xs ys
  | _, _ => false
def beqList : List Json → List Json → Bool
  | [], [] => true
  | x :: xs, y :: ys => beq x y && beqList xs ys
  | _, _ => false
def beqFields : List (String × Json) → List (String × Json) → Bool
  | [], [] => true
  | (k, x) :: xs, (l, y) :: ys => k == l && beq x y && beqFields xs ys
  | _, _ => false
end

mutual
theorem beq_iff : ∀ x y : Json, beq x y = true ↔ x = y
  | .null, y => by cases y <;> simp [beq]
  | .bool a, y => by cases y <;> simp [beq]
  | .int a, y => by cases y <;> simp [beq]
  | .float a, y => by cases y <;> simp [beq]
  | .str a, y => by cases y <;> simp [beq]
  | .arr xs, y => by cases y <;> simp [beq, beqList_iff xs]
  | .obj xs, y => by cases y <;> simp [beq, beqFields_iff xs]
theorem beqList_iff : ∀ xs ys : List Json, beqList xs ys = true ↔ xs = ys
  | [], ys => by cases ys <;> simp [beqList]
  | x :: xs, ys => by cases ys <;> simp [beqList, beq_iff x, beqList_iff xs]
theorem beqFields_iff : ∀ xs ys : List (String × Json), beqFields xs ys = true ↔ xs = ys
  | [], ys => by cases ys <;> simp [beqFields]
  | (k, x) :: xs, ys => by
      cases ys <;> simp [beqFields, beq_iff x, beqFields_iff xs, Prod.ext_iff, and_assoc]
end

instance : DecidableEq Json := fun x y => decidable_of_iff _ (beq_iff x y)

/-- `d.get(key)` on a JSON object; `none` when the key is absent. -/
def field? (fields : List (String × Json)) (key : String) : Option Json := fields.lookup key

/-- `x[key]` with a string key: only an object takes one. -/
def getItem (x : Json) (key : String) : Except PyError Json :=
  match x with
  | .obj fields =>
      match field? fields key with
      | some v => .ok v
      | none => .error .keyError
  | _ => .error .typeError

/-- `x.get(key)`: only a dictionary has the method, and an absent key reads as `None`. -/
def get (x : Json) (key : String) : Except PyError Json :=
  match x with
  | .obj fields => .ok ((field? fields key).getD .null)
  | _ => .error .attributeError

/-- `x.get(key, fallback)` -/
def getOr (x : Json) (key : String) (fallback : Json) : Except PyError Json :=
  match x with
  | .obj fields => .ok ((field? fields key).getD fallback)
  | _ => .error .attributeError

/-- `bool(x)` -/
def truthy : Json → Bool
  | .null => false
  | .bool b => b
  | .int n => n != 0
  | .float (.decimal m _) => m != 0
  | .float _ => true
  | .str s => s != ""
  | .arr xs => !xs.isEmpty
  | .obj fields => !fields.isEmpty

/-- The whitespace `str.strip` drops, as far as ASCII. -/
def isSpace (c : Char) : Bool :=
  c = ' ' || (9 ≤ c.toNat && c.toNat ≤ 13) || (28 ≤ c.toNat && c.toNat ≤ 31)

/-- Decimal digits with single underscores between them, as `int` reads them. -/
def digitsValue : List Char → ℕ → Bool → Option ℕ
  | [], acc, afterDigit => if afterDigit then some acc else none
  | c :: cs, acc, afterDigit =>
      if c.isDigit then digitsValue cs (acc * 10 + (c.toNat - 48)) true
      else if c = '_' && afterDigit then digitsValue cs acc false
      else none

/-- `int(s)` on a string of ASCII characters: spaces around it, a sign, digits. -/
def intOfString (s : String) : Option ℤ :=
  let cs := (((chars s).dropWhile isSpace).reverse.dropWhile isSpace).reverse
  match cs with
  | '-' :: ds => (digitsValue ds 0 false).map fun n => -(n : ℤ)
  | '+' :: ds => (digitsValue ds 0 false).map fun n => (n : ℤ)
  | ds => (digitsValue ds 0 false).map fun n => (n : ℤ)

/-- `int(x)` -/
def toInt : Json → Except PyError ℤ
  | .bool b => .ok (if b then 1 else 0)
  | .int n => .ok n
  | .float x => x.toInt
  | .str s =>
      match intOfString s with
      | some n => .ok n
      | none => .error .valueError
  | _ => .error .typeError

/-- `list(x)`, for its refusal only: strings, lists and dictionaries iterate. -/
def checkList : Json → Except PyError Unit
  | .str _ => .ok ()
  | .arr _ => .ok ()
  | .obj _ => .ok ()
  | _ => .error .typeError

/-- What `==` and `hash` see of a value that can be a dictionary key or a set member: the number
kinds compare by value across each other. -/
inductive Key where
  | none
  | number (q : ℚ)
  | infinity
  | negInfinity
  | nan
  | str (s : String)
  deriving DecidableEq

/-- The key of a hashable value; `hash` of a list or a dictionary is a `TypeError`. -/
def hashKey : Json → Except PyError Key
  | .null => .ok .none
  | .bool b => .ok (.number (if b then 1 else 0))
  | .int n => .ok (.number n)
  | .float (.decimal m e) => .ok (.number (m * (10 : ℚ) ^ e))
  | .float .infinity => .ok .infinity
  | .float .negInfinity => .ok .negInfinity
  | .float .nan => .ok .nan
  | .str s => .ok (.str s)
  | .arr _ => .error .typeError
  | .obj _ => .error .typeError

@[simp] theorem hashKey_str (s : String) : hashKey (.str s) = .ok (.str s) := rfl

@[simp] theorem getItem_obj (fields : List (String × Json)) (key : String) :
    getItem (.obj fields) key =
      match fields.lookup key with
      | some v => .ok v
      | none => .error .keyError := rfl

@[simp] theorem get_obj (fields : List (String × Json)) (key : String) :
    get (.obj fields) key = .ok ((fields.lookup key).getD .null) := rfl

end Json
end Recto
