import Recto.Capability.Jwt
import Recto.Json.RoundTrip
import Mathlib.Data.String.Basic

/-!
# The phone's canonical JSON

`CanonicalJson.Encode` of the phone writes the object trees it signs. A C#
string is its UTF-16 code units, keys are sorted by them, and a value of any
other type is refused. On trees without floats whose keys lie in the basic
plane the bytes are those of the host's `json.dumps`.
-/

namespace Recto
namespace Phone

open Capability

/-- The exceptions of .NET the phone's code can raise. -/
inductive ClrError where
  | invalidOperation
  | argumentOutOfRange
  deriving DecidableEq, Repr

/-! ## Strings -/

/-- The UTF-16 code units of a character. -/
def utf16Units (c : Char) : List ℕ :=
  if c.toNat < 65536 then [c.toNat]
  else [55296 + (c.toNat - 65536) / 1024, 56320 + (c.toNat - 65536) % 1024]

/-- The `char`s of a C# string. -/
def utf16 (s : String) : List ℕ := (chars s).flatMap utf16Units

/-- Characters of one code unit each. -/
theorem units_eq_map {cs : List Char} (h : ∀ c ∈ cs, c.toNat < 65536) :
    cs.flatMap utf16Units = cs.map Char.toNat := by
  induction cs with
  | nil => rfl
  | cons c cs ih =>
    rw [List.flatMap_cons, ih fun d hd => h d (List.mem_cons_of_mem _ hd), utf16Units,
      if_pos (h c List.mem_cons_self)]
    rfl

def isHighSurrogate (c : ℕ) : Bool := 55296 ≤ c && c ≤ 56319

def isLowSurrogate (c : ℕ) : Bool := 56320 ≤ c && c ≤ 57343

/-- `AppendUnicodeEscape` -/
def appendUnicodeEscape (c : ℕ) : List Char := '\\' :: 'u' :: Json.hex4 c

/-- What `WriteString` appends for one `char`. -/
def escapeUnit (c : ℕ) : List Char :=
  if c = 34 then ['\\', '"']
  else if c = 92 then ['\\', '\\']
  else if c = 8 then ['\\', 'b']
  else if c = 12 then ['\\', 'f']
  else if c = 10 then ['\\', 'n']
  else if c = 13 then ['\\', 'r']
  else if c = 9 then ['\\', 't']
  else if c < 32 then appendUnicodeEscape c
  else if c < 127 then [Char.ofNat c]
  else appendUnicodeEscape c

/-- The loop of `WriteString`: a surrogate pair is written in one turn. -/
def writeUnits : List ℕ → List Char
  | [] => []
  | [c] => escapeUnit c
  | c :: d :: rest =>
      if isHighSurrogate c && isLowSurrogate d then
        appendUnicodeEscape c ++ (appendUnicodeEscape d ++ writeUnits rest)
      else escapeUnit c ++ writeUnits (d :: rest)

/-- `WriteString` -/
def writeString (value : String) : List Char := '"' :: writeUnits (utf16 value) ++ ['"']

/-! ## Values -/

/-- `StringComparer.Ordinal` on the keys of written fields. -/
def ordinalLE (f g : String × List Char) : Prop := utf16 f.1 ≤ utf16 g.1

instance : DecidableRel ordinalLE := fun f g =>
  inferInstanceAs (Decidable (utf16 f.1 ≤ utf16 g.1))

/-- The elements of an array, separated, and its closing bracket. -/
def joinElements : List (List Char) → List Char
  | [] => [']']
  | [t] => t ++ [']']
  | t :: u :: ts => t ++ ',' :: joinElements (u :: ts)

/-- The fields of an object, separated, and its closing brace. -/
def joinFields : List (String × List Char) → List Char
  | [] => ['}']
  | [(k, t)] => writeString k ++ ':' :: (t ++ ['}'])
  | (k, t) :: f :: fs => writeString k ++ ':' :: (t ++ ',' :: joinFields (f :: fs))

mutual
/-- `WriteValue` -/
def writeValue : Json → Except ClrError (List Char)
  | .null => .ok "null".toList
  | .bool b => .ok (if b then "true".toList else "false".toList)
  | .str s => .ok (writeString s)
  | .int n => .ok (Json.renderInt n)
  | .obj fields => do
      let written ← writeFields fields
      pure ('{' :: joinFields (written.insertionSort ordinalLE))
  | .arr xs => do
      let written ← writeElements xs
      pure ('[' :: joinElements written)
  | .float _ => .error .invalidOperation
def writeElements : List Json → Except ClrError (List (List Char))
  | [] => pure []
  | x :: xs => do
      let t ← writeValue x
      let ts ← writeElements xs
      pure (t :: ts)
def writeFields : List (String × Json) → Except ClrError (List (String × List Char))
  | [] => pure []
  | (k, x) :: fs => do
      let t ← writeValue x
      let ts ← writeFields fs
      pure ((k, t) :: ts)
end

/-- `CanonicalJson.Encode` -/
def encode (value : Json) : Except ClrError Bytes := do
  let text ← writeValue value
  pure (encodeUtf8 text)

/-! ## Agreement with the host -/

theorem writeUnits_eq (us : List ℕ) : writeUnits us = us.flatMap escapeUnit := by
  induction us using writeUnits.induct with
  | case1 => rfl
  | case2 c => simp [writeUnits]
  | case3 c d rest h ih =>
    have hpair := h
    simp only [isHighSurrogate, isLowSurrogate, Bool.and_eq_true, decide_eq_true_eq] at hpair
    have hc : escapeUnit c = appendUnicodeEscape c := by
      unfold escapeUnit
      repeat rw [if_neg (by omega)]
    have hd : escapeUnit d = appendUnicodeEscape d := by
      unfold escapeUnit
      repeat rw [if_neg (by omega)]
    rw [writeUnits, if_pos h, ih, List.flatMap_cons, List.flatMap_cons, hc, hd]
  | case4 c d rest h ih =>
    rw [writeUnits, if_neg h, ih]
    rfl

theorem escapeUnit_toNat {c : Char} (h : c.toNat < 65536) :
    escapeUnit c.toNat = Json.escapeChar c := by
  have hchar : ∀ d : Char, c = d ↔ c.toNat = d.toNat := fun d =>
    ⟨fun h => h ▸ rfl, fun h => Char.toNat_inj.mp h⟩
  simp only [escapeUnit, Json.escapeChar, hchar, Json.unicodeEscape, appendUnicodeEscape]
  have hq : '"'.toNat = 34 := rfl
  have hb : '\\'.toNat = 92 := rfl
  have hn : '\n'.toNat = 10 := rfl
  have hr : '\r'.toNat = 13 := rfl
  have ht : '\t'.toNat = 9 := rfl
  rw [hq, hb, hn, hr, ht, Char.ofNat_toNat]
  split_ifs <;> first | rfl | omega

/-- One character, by its code units. -/
theorem flatMap_escapeUnit (c : Char) :
    (utf16Units c).flatMap escapeUnit = Json.escapeChar c := by
  unfold utf16Units
  split_ifs with h
  · simp only [List.flatMap_cons, List.flatMap_nil, List.append_nil]
    exact escapeUnit_toNat h
  · have hlarge : ∀ n, 127 ≤ n → escapeUnit n = Json.unicodeEscape n := by
      intro n hn
      unfold escapeUnit
      repeat rw [if_neg (by omega)]
      rfl
    have hchar : ∀ d : Char, d.toNat < 65536 → c ≠ d := by
      rintro d hd rfl
      exact h hd
    simp only [List.flatMap_cons, List.flatMap_nil, List.append_nil,
      hlarge _ (show 127 ≤ 55296 + (c.toNat - 65536) / 1024 by omega),
      hlarge _ (show 127 ≤ 56320 + (c.toNat - 65536) % 1024 by omega)]
    unfold Json.escapeChar
    rw [if_neg (hchar _ (by decide)), if_neg (hchar _ (by decide)), if_neg (hchar _ (by decide)),
      if_neg (hchar _ (by decide)), if_neg (hchar _ (by decide)), if_neg (by omega),
      if_neg (by omega), if_neg (by omega), if_neg h]

theorem writeString_eq_quote (s : String) : writeString s = Json.quote s := by
  unfold writeString Json.quote utf16
  rw [writeUnits_eq, List.flatMap_assoc]
  simp only [flatMap_escapeUnit]

/-- Every character is one code unit. -/
def IsBasic (s : String) : Prop := ∀ c ∈ chars s, c.toNat < 65536

instance (s : String) : Decidable (IsBasic s) :=
  List.decidableBAll (fun c : Char => c.toNat < 65536) (chars s)

theorem utf16_of_isBasic {s : String} (h : IsBasic s) : utf16 s = (chars s).map Char.toNat := by
  unfold utf16
  rw [List.map_eq_flatMap]
  refine List.flatMap_congr fun c hc => ?_
  rw [utf16Units, if_pos (h c hc)]

theorem map_toNat_lt (cs ds : List Char) :
    cs.map Char.toNat < ds.map Char.toNat ↔ cs < ds := by
  induction cs generalizing ds with
  | nil => cases ds <;> simp
  | cons c cs ih =>
    cases ds with
    | nil => simp
    | cons d ds =>
      simp only [List.map_cons, List.cons_lt_cons_iff, ih, Char.toNat_inj]
      rfl

/-- Ordinal order is code-point order on the basic plane. -/
theorem ordinalLE_iff {f g : String × Json} (hf : IsBasic f.1) (hg : IsBasic g.1)
    (t u : List Char) : Json.fieldLE f g ↔ ordinalLE (f.1, t) (g.1, u) := by
  unfold Json.fieldLE ordinalLE
  rw [utf16_of_isBasic hf, utf16_of_isBasic hg, chars_eq_toList, chars_eq_toList,
    String.le_iff_toList_le, ← not_lt, ← map_toNat_lt]
  exact not_lt

mutual
/-- The trees `Encode` takes, with keys in the basic plane. -/
def Encodable : Json → Prop
  | .float _ => False
  | .arr xs => EncodableElements xs
  | .obj fields => EncodableFields fields
  | _ => True
def EncodableElements : List Json → Prop
  | [] => True
  | x :: xs => Encodable x ∧ EncodableElements xs
def EncodableFields : List (String × Json) → Prop
  | [] => True
  | (k, x) :: fs => IsBasic k ∧ Encodable x ∧ EncodableFields fs
end

theorem joinElements_render (xs : List Json) :
    joinElements (xs.map Json.render) = Json.renderElements xs := by
  induction xs with
  | nil => rfl
  | cons x xs ih =>
    cases xs with
    | nil => rfl
    | cons y xs =>
      simp only [List.map_cons] at ih ⊢
      rw [joinElements, ih, Json.renderElements]

theorem joinFields_render (fs : List (String × Json)) :
    joinFields (fs.map fun f => (f.1, Json.render f.2)) = Json.renderFields fs := by
  induction fs with
  | nil => rfl
  | cons f fs ih =>
    obtain ⟨k, x⟩ := f
    cases fs with
    | nil => simp [joinFields, Json.renderFields, writeString_eq_quote]
    | cons g fs =>
      simp only [List.map_cons] at ih ⊢
      rw [joinFields, ih, Json.renderFields, writeString_eq_quote]

/-- The keys of an object that is encodable. -/
theorem EncodableFields.isBasic {fs : List (String × Json)} (h : EncodableFields fs) :
    ∀ f ∈ fs, IsBasic f.1 := by
  induction fs with
  | nil => simp
  | cons f fs ih => exact List.forall_mem_cons.mpr ⟨h.1, ih h.2.2⟩

theorem isBasic_of_mem_canonFields {fs : List (String × Json)} (h : ∀ f ∈ fs, IsBasic f.1) :
    ∀ g ∈ Json.canonFields fs, IsBasic g.1 := by
  intro g hg
  have hkey : g.1 ∈ fs.map Prod.fst := by
    rw [← Json.map_fst_canonFields]
    exact List.mem_map_of_mem hg
  obtain ⟨f, hf, hfg⟩ := List.mem_map.mp hkey
  exact hfg ▸ h f hf

/-- Sorting the written fields is writing the sorted ones. -/
theorem insertionSort_written {fs : List (String × Json)} (h : ∀ f ∈ fs, IsBasic f.1) :
    (fs.map fun f => (f.1, Json.render f.2)).insertionSort ordinalLE =
      (Json.sortFields fs).map fun f => (f.1, Json.render f.2) :=
  (List.map_insertionSort _ _ _ fs fun f hf g hg =>
    ordinalLE_iff (h f hf) (h g hg) _ _).symm

mutual
theorem writeValue_eq : ∀ x : Json, Encodable x → writeValue x = .ok (Json.dumps x)
  | .null, _ => rfl
  | .bool b, _ => by cases b <;> rfl
  | .int _, _ => rfl
  | .str s, _ => by rw [writeValue, writeString_eq_quote, Json.dumps, Json.canon_str, Json.render]
  | .float _, h => h.elim
  | .arr xs, h => by
      rw [writeValue, writeElements_eq xs h, Json.dumps, Json.canon, Json.render,
        ← joinElements_render]
      rfl
  | .obj fields, h => by
      rw [writeValue, writeFields_eq fields h, Json.dumps, Json.canon, Json.render,
        ← joinFields_render, ← insertionSort_written (isBasic_of_mem_canonFields h.isBasic)]
      rfl
theorem writeElements_eq : ∀ xs : List Json, EncodableElements xs →
    writeElements xs = .ok ((Json.canonElements xs).map Json.render)
  | [], _ => rfl
  | x :: xs, h => by
      rw [writeElements, writeValue_eq x h.1, writeElements_eq xs h.2]
      rfl
theorem writeFields_eq : ∀ fs : List (String × Json), EncodableFields fs →
    writeFields fs = .ok ((Json.canonFields fs).map fun f => (f.1, Json.render f.2))
  | [], _ => rfl
  | (k, x) :: fs, h => by
      rw [writeFields, writeValue_eq x h.2.1, writeFields_eq fs h.2.2]
      rfl
end

/-- The phone and the host write the same bytes. -/
theorem encode_eq {x : Json} (h : Encodable x) : encode x = .ok (canonicalJson x) := by
  rw [encode, writeValue_eq x h]
  rfl

end Phone
end Recto
