import Mathlib.Data.List.TakeWhile
import Recto.Text.Encoding
import Recto.Json.Value

/-!
# Names and times as text

What the record readers do with text: `strip`, `lower`, the grammar of an opaque
subject handle, and the UTC minute a card shows.
-/

namespace Recto

/-- What stops a record: a refusal by name, or an exception no caller expects. -/
inductive Refused (ρ : Type) where
  | named (refusal : ρ)
  | raised (e : PyError)
  deriving DecidableEq, Repr

/-- `s.strip()` -/
def strip (s : String) : String :=
  String.ofList
    (((chars s).dropWhile Json.isSpace).reverse.dropWhile Json.isSpace).reverse

theorem strip_eq_self {s : String} (h : ∀ c ∈ chars s, Json.isSpace c = false) : strip s = s := by
  have hdrop : ∀ cs : List Char, (∀ c ∈ cs, Json.isSpace c = false) →
      cs.dropWhile Json.isSpace = cs := by
    intro cs hcs
    rw [List.dropWhile_eq_self_iff]
    intro hpos
    simp [hcs _ (List.getElem_mem hpos)]
  unfold strip
  rw [hdrop _ h, hdrop _ (by simpa using h), List.reverse_reverse]
  simp

/-- `s.lower()`, as far as ASCII. -/
def lower (s : String) : String := String.ofList ((chars s).map Char.toLower)

/-- `s.startswith(start)` -/
def startsWith (s start : String) : Bool := (chars start).isPrefixOf (chars s)

def isLowerHex (c : Char) : Bool := ('0' ≤ c && c ≤ '9') || ('a' ≤ c && c ≤ 'f')

def isB64uChar (c : Char) : Bool :=
  ('A' ≤ c && c ≤ 'Z') || ('a' ≤ c && c ≤ 'z') || ('0' ≤ c && c ≤ '9') || c = '_' || c = '-'

/-- The text is `n` characters of a class. -/
def isRun (p : Char → Bool) (n : ℕ) (s : String) : Bool :=
  (chars s).length = n && (chars s).all p

/-- `normalize_subject`: 43 base64url characters, the one spelling of 32 bytes; `none` when it
raises. -/
def normalizeSubject (subject : Json) : Option String :=
  match subject with
  | .str text =>
      let s := strip text
      if isRun isB64uChar 43 s then
        match unb64u s with
        | some raw => if raw.length = 32 ∧ b64u raw = s then some s else none
        | none => none
      else none
  | _ => none

/-! ## Dates -/

structure CivilDate where
  year : ℤ
  month : ℤ
  day : ℤ
  deriving DecidableEq, Repr

/-- The proleptic Gregorian date of a day counted from 1970-01-01, by eras of 400 years that begin
in March. -/
def civilOfDays (days : ℤ) : CivilDate :=
  let z := days + 719468
  let era := z / 146097
  let doe := z % 146097
  let yoe := (doe - doe / 1460 + doe / 36524 - doe / 146096) / 365
  let doy := doe - (365 * yoe + yoe / 4 - yoe / 100)
  let mp := (5 * doy + 2) / 153
  let month := if mp < 10 then mp + 3 else mp - 9
  { year := yoe + era * 400 + if month ≤ 2 then 1 else 0
    month
    day := doy - (153 * mp + 2) / 5 + 1 }

/-- Two digits at least. -/
def pad2 (n : ℤ) : String :=
  let ds := Nat.toDigits 10 n.natAbs
  String.ofList (if ds.length < 2 then '0' :: ds else ds)

/-- `time.strftime("%Y-%m-%d %H:%MZ", time.gmtime(unix))`, for a time after 1970. A `time_t` has 64
bits, a year of `struct tm` 32 and a year of Python's tuple 31. -/
def utcMinute (unix : ℤ) : Except PyError String :=
  if 2 ^ 63 ≤ unix then .error .overflowError
  else
    let date := civilOfDays (unix / 86400)
    if 2147485547 < date.year then .error .osError
    else if 2147483647 < date.year then .error .overflowError
    else
      .ok (String.ofList (Nat.toDigits 10 date.year.natAbs) ++ "-" ++ pad2 date.month ++ "-" ++
        pad2 date.day ++ " " ++ pad2 (unix % 86400 / 3600) ++ ":" ++ pad2 (unix % 3600 / 60) ++ "Z")

example : utcMinute 1760000000 = .ok "2025-10-09 08:53Z" := by decide

end Recto
