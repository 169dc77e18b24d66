import Recto.Json.RoundTrip

/-!
# `json.loads` within the interpreter's limits

CPython's scanner stops for two reasons that no text is malformed for: a list
or an object past the depth the interpreter recurses to, and an integer literal
of more digits than `int` converts. Neither is a `json.JSONDecodeError`. The
scanner is given here with both, and what `json.dumps(…, indent=2)` writes is
read back by it where it keeps to them.
-/

namespace Recto
namespace Json

/-- Why `json.loads` gives no value. -/
inductive LoadsError where
  /-- `json.JSONDecodeError` -/
  | decode
  /-- The plain `ValueError` of an integer literal with too many digits. -/
  | digits
  /-- `RecursionError` -/
  | recursion
  deriving DecidableEq, Repr

/-- The exception each of them is. -/
def LoadsError.raised : LoadsError → PyError
  | .decode => .valueError
  | .digits => .valueError
  | .recursion => .runtimeError

/-- `sys.get_int_max_str_digits()` -/
def maxIntDigits : ℕ := 4300

/-- The decimal digits of an integer; JSON has no leading zeros, so a literal has as many. -/
def digitCount (n : ℤ) : ℕ := (Nat.toDigits 10 n.natAbs).length

/-- A value that opens no list and no object. -/
def scanLeaf (cs : List Char) : Except LoadsError (Json × List Char) :=
  match scanOnce 1 cs with
  | none => .error .decode
  | some (.int n, rest) =>
      if maxIntDigits < digitCount n then .error .digits else .ok (.int n, rest)
  | some p => .ok p

mutual
/-- One value at the head of the text, with lists and objects nested `depth` deep at most. -/
def scanWithin : ℕ → ℕ → List Char → Except LoadsError (Json × List Char)
  | 0, _, _ => .error .decode
  | _ + 1, _, [] => .error .decode
  | fuel + 1, depth, c :: rest =>
      if c = '{' then
        if depth = 0 then .error .recursion
        else
          match skipWs rest with
          | '}' :: tail => .ok (.obj [], tail)
          | body => (fieldsWithin fuel (depth - 1) body).map fun p => (.obj (dictOfPairs p.1), p.2)
      else if c = '[' then
        if depth = 0 then .error .recursion
        else
          match skipWs rest with
          | ']' :: tail => .ok (.arr [], tail)
          | body => (elementsWithin fuel (depth - 1) body).map fun p => (.arr p.1, p.2)
      else scanLeaf (c :: rest)
/-- The elements of a list, from the first one to the closing bracket. -/
def elementsWithin : ℕ → ℕ → List Char → Except LoadsError (List Json × List Char)
  | 0, _, _ => .error .decode
  | fuel + 1, depth, cs =>
      match scanWithin fuel depth cs with
      | .error e => .error e
      | .ok (x, rest) =>
          match skipWs rest with
          | ']' :: tail => .ok ([x], tail)
          | ',' :: tail => (elementsWithin fuel depth (skipWs tail)).map fun p => (x :: p.1, p.2)
          | _ => .error .decode
/-- The fields of an object, from the first key to the closing brace. -/
def fieldsWithin : ℕ → ℕ → List Char → Except LoadsError (List (String × Json) × List Char)
  | 0, _, _ => .error .decode
  | fuel + 1, depth, '"' :: cs =>
      match scanString (cs.length + 1) cs with
      | none => .error .decode
      | some (key, rest) =>
          match skipWs rest with
          | ':' :: rest =>
              match scanWithin fuel depth (skipWs rest) with
              | .error e => .error e
              | .ok (x, rest) =>
                  match skipWs rest with
                  | '}' :: tail => .ok ([(String.ofList key, x)], tail)
                  | ',' :: tail =>
                      (fieldsWithin fuel depth (skipWs tail)).map fun p =>
                        ((String.ofList key, x) :: p.1, p.2)
                  | _ => .error .decode
          | _ => .error .decode
  | _ + 1, _, _ => .error .decode
end

/-- `json.loads(text)` under an interpreter that recurses `depth` deep. A list or an object takes
two calls and a character, so fuel for twice the length is enough. -/
def loadsWithin (depth : ℕ) (cs : List Char) : Except LoadsError Json :=
  match scanWithin (2 * cs.length + 2) depth (skipWs cs) with
  | .error e => .error e
  | .ok (x, rest) => if skipWs rest = [] then .ok x else .error .decode

/-! ## `json.dumps(…, indent=2)` -/

/-- A new line at a level of nesting. -/
def lineAt (level : ℕ) : List Char := '\n' :: List.replicate (2 * level) ' '

mutual
/-- The text of a value at a level of nesting, its fields in the order they have. -/
def pretty : ℕ → Json → List Char
  | level, .arr xs => '[' :: prettyElements level xs
  | level, .obj fields => '{' :: prettyFields level fields
  | _, x => render x
/-- The elements of a list, each on its line, and its closing bracket. -/
def prettyElements : ℕ → List Json → List Char
  | _, [] => [']']
  | level, [x] => lineAt (level + 1) ++ (pretty (level + 1) x ++ (lineAt level ++ [']']))
  | level, x :: y :: xs =>
      lineAt (level + 1) ++ (pretty (level + 1) x ++ ',' :: prettyElements level (y :: xs))
/-- The fields of an object, each on its line, and its closing brace. -/
def prettyFields : ℕ → List (String × Json) → List Char
  | _, [] => ['}']
  | level, [(k, x)] =>
      lineAt (level + 1) ++ (quote k ++ ':' :: ' ' :: (pretty (level + 1) x ++
        (lineAt level ++ ['}'])))
  | level, (k, x) :: f :: fs =>
      lineAt (level + 1) ++ (quote k ++ ':' :: ' ' :: (pretty (level + 1) x ++
        ',' :: prettyFields level (f :: fs)))
end

mutual
/-- Somewhere an integer that `int.__repr__` does not write. -/
def holdsLongInt : Json → Bool
  | .int n => maxIntDigits < digitCount n
  | .arr xs => holdsLongIntElements xs
  | .obj fields => holdsLongIntFields fields
  | _ => false
def holdsLongIntElements : List Json → Bool
  | [] => false
  | x :: xs => holdsLongInt x || holdsLongIntElements xs
def holdsLongIntFields : List (String × Json) → Bool
  | [] => false
  | (_, x) :: fs => holdsLongInt x || holdsLongIntFields fs
end

/-- `json.dumps(x, sort_keys=True, indent=2)` -/
def dumpsIndented (x : Json) : Except PyError (List Char) :=
  if holdsLongInt (canon x) then .error .valueError else .ok (pretty 0 (canon x))

/-! ## Reading it back -/

mutual
/-- No float, no repeated key, and lists and objects nested `depth` deep at most. -/
def Nests : ℕ → Json → Prop
  | _, .float _ => False
  | depth, .arr xs => 0 < depth ∧ NestsElements (depth - 1) xs
  | depth, .obj fields =>
      0 < depth ∧ (fields.map Prod.fst).Nodup ∧ NestsFields (depth - 1) fields
  | _, _ => True
def NestsElements : ℕ → List Json → Prop
  | _, [] => True
  | depth, x :: xs => Nests depth x ∧ NestsElements depth xs
def NestsFields : ℕ → List (String × Json) → Prop
  | _, [] => True
  | depth, (_, x) :: fs => Nests depth x ∧ NestsFields depth fs
end

mutual
theorem Nests.mono : ∀ {depth depth' : ℕ} {x : Json}, Nests depth x → depth ≤ depth' →
    Nests depth' x
  | _, _, .null, _, _ => trivial
  | _, _, .bool _, _, _ => trivial
  | _, _, .int _, _, _ => trivial
  | _, _, .float _, h, _ => h
  | _, _, .str _, _, _ => trivial
  | _, _, .arr _, h, hle => ⟨h.1.trans_le hle, NestsElements.mono h.2 (Nat.sub_le_sub_right hle 1)⟩
  | _, _, .obj _, h, hle =>
      ⟨h.1.trans_le hle, h.2.1, NestsFields.mono h.2.2 (Nat.sub_le_sub_right hle 1)⟩
theorem NestsElements.mono : ∀ {depth depth' : ℕ} {xs : List Json}, NestsElements depth xs →
    depth ≤ depth' → NestsElements depth' xs
  | _, _, [], _, _ => trivial
  | _, _, _ :: _, h, hle => ⟨Nests.mono h.1 hle, NestsElements.mono h.2 hle⟩
theorem NestsFields.mono : ∀ {depth depth' : ℕ} {fs : List (String × Json)}, NestsFields depth fs →
    depth ≤ depth' → NestsFields depth' fs
  | _, _, [], _, _ => trivial
  | _, _, _ :: _, h, hle => ⟨Nests.mono h.1 hle, NestsFields.mono h.2 hle⟩
end

theorem skipWs_lineAt (level : ℕ) (cs : List Char) : skipWs (lineAt level ++ cs) = skipWs cs := by
  have hspaces : ∀ n, skipWs (List.replicate n ' ' ++ cs) = skipWs cs := by
    intro n
    induction n with
    | zero => rfl
    | succ n ih =>
      rw [List.replicate_succ, List.cons_append, skipWs, List.dropWhile_cons_of_pos rfl]
      exact ih
  rw [lineAt, List.cons_append, skipWs, List.dropWhile_cons_of_pos rfl]
  exact hspaces _

theorem numberEnds_lineAt (level : ℕ) (cs : List Char) : NumberEnds (lineAt level ++ cs) := by
  rintro c tail ⟨⟩
  decide

theorem startsValue_pretty {depth : ℕ} (level : ℕ) {x : Json} (h : Nests depth x) :
    StartsValue (pretty level x) := by
  cases x with
  | null => exact ⟨'n', _, rfl, rfl, by decide⟩
  | bool b => cases b <;> exact ⟨_, _, rfl, rfl, by decide⟩
  | int n => exact startsValue_render (x := .int n) trivial
  | float x => exact h.elim
  | str s => exact ⟨'"', _, rfl, rfl, by decide⟩
  | arr xs => exact ⟨'[', _, rfl, rfl, by decide⟩
  | obj fields => exact ⟨'{', _, rfl, rfl, by decide⟩

/-- What is neither a list nor an object is read as a leaf. -/
theorem scanWithin_leaf {c : Char} {tail : List Char} (fuel depth : ℕ) (hbrace : c ≠ '{')
    (hbracket : c ≠ '[') : scanWithin (fuel + 1) depth (c :: tail) = scanLeaf (c :: tail) := by
  rw [scanWithin, if_neg hbrace, if_neg hbracket]

theorem scanLeaf_int {n : ℤ} {rest : List Char} (h : digitCount n ≤ maxIntDigits)
    (hr : NumberEnds rest) : scanLeaf (renderInt n ++ rest) = .ok (.int n, rest) := by
  simp only [scanLeaf, scanOnce_int 0 n hr, if_neg (not_lt.mpr h)]

theorem renderInt_cons (n : ℤ) : ∃ c tail, renderInt n = c :: tail ∧ c ≠ '{' ∧ c ≠ '[' := by
  rw [renderInt]
  split_ifs
  · exact ⟨'-', _, rfl, by decide⟩
  · obtain ⟨c, tail, hc, hdigit⟩ := (intPart_toDigits n.natAbs).startsDigit []
    rw [List.append_nil] at hc
    refine ⟨c, tail, hc, ?_, ?_⟩ <;> rintro rfl <;> exact absurd hdigit (by decide)

theorem skipWs_space (cs : List Char) : skipWs (' ' :: cs) = skipWs cs := by
  rw [skipWs, List.dropWhile_cons_of_pos rfl, skipWs]

theorem skipWs_prettyElements {depth : ℕ} {x : Json} {xs : List Json} (level : ℕ) (rest : List Char)
    (h : Nests depth x) :
    ∃ c tail, skipWs (prettyElements level (x :: xs) ++ rest) = c :: tail ∧ c ≠ ']' := by
  obtain ⟨c, tail, hc, hws, hne⟩ := startsValue_pretty (level + 1) h
  have hstart : ∀ cs, skipWs (lineAt (level + 1) ++ (c :: (tail ++ cs))) = c :: (tail ++ cs) :=
    fun cs => (skipWs_lineAt _ _).trans (skipWs_cons hws _)
  cases xs <;>
    simp only [prettyElements, List.append_assoc, hc, List.cons_append, hstart] <;>
    exact ⟨c, _, rfl, hne⟩

theorem skipWs_prettyFields (level : ℕ) (k : String) (x : Json) (fs : List (String × Json))
    (rest : List Char) :
    ∃ tail, skipWs (prettyFields level ((k, x) :: fs) ++ rest) = '"' :: tail := by
  cases fs <;>
    exact ⟨_, by
      simp only [prettyFields, List.append_assoc, skipWs_lineAt, quote_append]
      exact skipWs_cons rfl _⟩

theorem nestsFields_iff {depth : ℕ} {fs : List (String × Json)} :
    NestsFields depth fs ↔ ∀ f ∈ fs, Nests depth f.2 := by
  induction fs with
  | nil => simp [NestsFields]
  | cons f fs ih => simp [NestsFields, ih]

mutual
theorem Nests.canon : ∀ {depth : ℕ} {x : Json}, Nests depth x → Nests depth (canon x)
  | _, .null, _ => trivial
  | _, .bool _, _ => trivial
  | _, .int _, _ => trivial
  | _, .float _, h => h
  | _, .str _, _ => trivial
  | _, .arr _, h => ⟨h.1, NestsElements.canon h.2⟩
  | _, .obj fs, h => by
      have hperm := sortFields_perm (canonFields fs)
      refine ⟨h.1, ?_, nestsFields_iff.mpr fun f hf => ?_⟩
      · rw [(hperm.map Prod.fst).nodup_iff, map_fst_canonFields]
        exact h.2.1
      · exact nestsFields_iff.mp (NestsFields.canon h.2.2) f (hperm.mem_iff.mp hf)
theorem NestsElements.canon : ∀ {depth : ℕ} {xs : List Json}, NestsElements depth xs →
    NestsElements depth (canonElements xs)
  | _, [], _ => trivial
  | _, _ :: _, h => ⟨Nests.canon h.1, NestsElements.canon h.2⟩
theorem NestsFields.canon : ∀ {depth : ℕ} {fs : List (String × Json)}, NestsFields depth fs →
    NestsFields depth (canonFields fs)
  | _, [], _ => trivial
  | _, _ :: _, h => ⟨Nests.canon h.1, NestsFields.canon h.2⟩
end

mutual
/-- A value is read back from the head of its text, with fuel for twice its length. -/
theorem scanWithin_pretty : ∀ (x : Json) (fuel depth level : ℕ) (rest : List Char), Nests depth x →
    holdsLongInt x = false → 2 * (pretty level x).length ≤ fuel → NumberEnds rest →
      scanWithin fuel depth (pretty level x ++ rest) = .ok (x, rest)
  | .null, fuel + 1, _, _, _, _, _, _, _ => by
      simp [pretty, render, scanWithin, scanLeaf, scanOnce, scanWord]
  | .bool true, fuel + 1, _, _, _, _, _, _, _ => by
      simp [pretty, render, scanWithin, scanLeaf, scanOnce, scanWord]
  | .bool false, fuel + 1, _, _, _, _, _, _, _ => by
      simp [pretty, render, scanWithin, scanLeaf, scanOnce, scanWord]
  | .int n, fuel + 1, depth, level, rest, _, hshort, _, hr => by
      obtain ⟨c, tail, hc, hbrace, hbracket⟩ := renderInt_cons n
      have hleaf := scanLeaf_int (n := n) (by simpa [holdsLongInt] using hshort) hr
      rw [pretty, render, hc, List.cons_append]
      · rw [scanWithin_leaf _ _ hbrace hbracket, ← List.cons_append, ← hc, hleaf]
      · simp
      · simp
  | .float _, _, _, _, _, h, _, _, _ => h.elim
  | .str s, fuel + 1, _, _, rest, _, _, _, _ => by
      rw [pretty, render, quote_append, scanWithin_leaf _ _ (by decide) (by decide), scanLeaf,
        scanOnce]
      · simp only [if_true, scanString_quote, Option.map_some, String.ofList_toList]
      · simp
      · simp
  | .arr [], fuel + 1, depth, level, rest, h, _, _, _ => by
      have hdepth : depth ≠ 0 := Nat.pos_iff_ne_zero.mp h.1
      simp [pretty, prettyElements, scanWithin, skipWs, isWs, hdepth]
  | .arr (x :: xs), fuel + 1, depth, level, rest, h, hshort, hf, _ => by
      have hdepth : depth ≠ 0 := Nat.pos_iff_ne_zero.mp h.1
      have hbody := elementsWithin_pretty x xs fuel (depth - 1) level rest h.2 hshort
        (by simp only [pretty, List.length_cons] at hf; omega)
      obtain ⟨c, tail, hc, hne⟩ := skipWs_prettyElements level rest h.2.1
      rw [pretty, List.cons_append, scanWithin, if_neg (by decide), if_pos rfl, if_neg hdepth]
      rw [hc] at hbody ⊢
      split
      · rename_i heq
        exact absurd (List.cons.inj heq).1 hne
      · rw [hbody]
        rfl
  | .obj [], fuel + 1, depth, level, rest, h, _, _, _ => by
      have hdepth : depth ≠ 0 := Nat.pos_iff_ne_zero.mp h.1
      simp [pretty, prettyFields, scanWithin, skipWs, isWs, hdepth]
  | .obj ((k, x) :: fs), fuel + 1, depth, level, rest, h, hshort, hf, _ => by
      have hdepth : depth ≠ 0 := Nat.pos_iff_ne_zero.mp h.1
      have hbody := fieldsWithin_pretty k x fs fuel (depth - 1) level rest h.2.2 hshort
        (by simp only [pretty, List.length_cons] at hf; omega)
      obtain ⟨tail, hc⟩ := skipWs_prettyFields level k x fs rest
      rw [pretty, List.cons_append, scanWithin, if_pos rfl, if_neg hdepth]
      rw [hc] at hbody ⊢
      simp [hbody, dictOfPairs_of_nodup h.2.1, Except.map]
  | x, 0, _, level, _, h, _, hf, _ => by
      obtain ⟨c, tail, hc, -⟩ := startsValue_pretty level h
      simp [hc] at hf
termination_by structural _ fuel => fuel
theorem elementsWithin_pretty : ∀ (x : Json) (xs : List Json) (fuel depth level : ℕ)
    (rest : List Char), NestsElements depth (x :: xs) → holdsLongIntElements (x :: xs) = false →
      2 * (prettyElements level (x :: xs)).length + 1 ≤ fuel →
        elementsWithin fuel depth (skipWs (prettyElements level (x :: xs) ++ rest)) =
          .ok (x :: xs, rest)
  | x, [], fuel + 1, depth, level, rest, h, hshort, hf => by
      simp only [prettyElements, List.length_append] at hf
      simp only [holdsLongIntElements, Bool.or_eq_false_iff] at hshort
      have hx := scanWithin_pretty x fuel depth (level + 1) (lineAt level ++ ([']'] ++ rest)) h.1
        hshort.1 (by omega) (numberEnds_lineAt _ _)
      simp only [prettyElements, List.append_assoc, skipWs_lineAt,
        ((startsValue_pretty (level + 1) h.1).append _).skipWs_eq, elementsWithin, hx]
      simp [skipWs, isWs]
  | x, y :: xs, fuel + 1, depth, level, rest, h, hshort, hf => by
      rw [prettyElements] at hf
      simp only [List.length_append, List.length_cons] at hf
      rw [holdsLongIntElements, Bool.or_eq_false_iff] at hshort
      have hx := scanWithin_pretty x fuel depth (level + 1)
        (',' :: (prettyElements level (y :: xs) ++ rest)) h.1 hshort.1 (by omega)
        (numberEnds_comma _)
      have hxs := elementsWithin_pretty y xs fuel depth level rest h.2 hshort.2 (by omega)
      rw [prettyElements, List.append_assoc, List.append_assoc, List.cons_append, skipWs_lineAt,
        ((startsValue_pretty (level + 1) h.1).append _).skipWs_eq, elementsWithin, hx]
      simp only [skipWs_cons (show isWs ',' = false from rfl), hxs]
      rfl
  | _, _, 0, _, _, _, _, _, hf => by omega
termination_by structural _ _ fuel => fuel
theorem fieldsWithin_pretty : ∀ (k : String) (x : Json) (fs : List (String × Json))
    (fuel depth level : ℕ) (rest : List Char), NestsFields depth ((k, x) :: fs) →
      holdsLongIntFields ((k, x) :: fs) = false →
        2 * (prettyFields level ((k, x) :: fs)).length + 1 ≤ fuel →
          fieldsWithin fuel depth (skipWs (prettyFields level ((k, x) :: fs) ++ rest)) =
            .ok ((k, x) :: fs, rest)
  | k, x, [], fuel + 1, depth, level, rest, h, hshort, hf => by
      simp only [prettyFields, List.length_append, List.length_cons] at hf
      simp only [holdsLongIntFields, Bool.or_eq_false_iff] at hshort
      have hx := scanWithin_pretty x fuel depth (level + 1) (lineAt level ++ '}' :: rest) h.1
        hshort.1 (by omega) (numberEnds_lineAt _ _)
      simp only [prettyFields, List.append_assoc, skipWs_lineAt, quote_append, List.cons_append,
        skipWs_cons (show isWs '"' = false from rfl), fieldsWithin, scanString_quote,
        skipWs_cons (show isWs ':' = false from rfl), skipWs_space,
        ((startsValue_pretty (level + 1) h.1).append _).skipWs_eq, hx,
        skipWs_cons (show isWs '}' = false from rfl), String.ofList_toList, List.nil_append]
  | k, x, (l, y) :: fs, fuel + 1, depth, level, rest, h, hshort, hf => by
      rw [prettyFields] at hf
      simp only [List.length_append, List.length_cons] at hf
      rw [holdsLongIntFields, Bool.or_eq_false_iff] at hshort
      have hx := scanWithin_pretty x fuel depth (level + 1)
        (',' :: (prettyFields level ((l, y) :: fs) ++ rest)) h.1 hshort.1 (by omega)
        (numberEnds_comma _)
      have hfs := fieldsWithin_pretty l y fs fuel depth level rest h.2 hshort.2 (by omega)
      simp only [prettyFields, List.append_assoc, skipWs_lineAt, quote_append, List.cons_append,
        skipWs_cons (show isWs '"' = false from rfl), fieldsWithin, scanString_quote,
        skipWs_cons (show isWs ':' = false from rfl), skipWs_space,
        ((startsValue_pretty (level + 1) h.1).append _).skipWs_eq, hx,
        skipWs_cons (show isWs ',' = false from rfl), hfs, Except.map, String.ofList_toList]
  | _, _, _, 0, _, _, _, _, _, hf => by omega
termination_by structural _ _ _ fuel => fuel
end

/-- What is written is read back, by an interpreter that recurses as deep. -/
theorem loadsWithin_dumpsIndented {depth : ℕ} {x : Json} {text : List Char} (h : Nests depth x)
    (htext : dumpsIndented x = .ok text) : loadsWithin depth text = .ok (canon x) := by
  rw [dumpsIndented] at htext
  split_ifs at htext with hshort
  obtain rfl := Except.ok.inj htext
  have hread := scanWithin_pretty (canon x) (2 * (pretty 0 (canon x)).length + 2) depth 0 []
    h.canon (Bool.eq_false_of_not_eq_true hshort) (by omega) numberEnds_nil
  rw [List.append_nil] at hread
  simp only [loadsWithin, (startsValue_pretty 0 h.canon).skipWs_eq, hread]
  rfl

end Json
end Recto
