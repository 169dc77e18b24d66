import Recto.Json.Numbers

/-!
# Reading back what was written

`json.loads` inverts the rendering of every value it can itself give, so
`dumps` determines the value up to the order of fields. The induction is on the
value; the reader's fuel is bounded by the length of the text it still has to
read.
-/

namespace Recto
namespace Json

/-! ## Characters and strings -/

theorem hexValue_hexDigit : ∀ d < 16, hexValue (hexDigit d) = some d := by decide

theorem scanHex4_hex4 {n : ℕ} (h : n < 65536) (rest : List Char) :
    scanHex4 (hex4 n ++ rest) = some (n, rest) := by
  have h3 := hexValue_hexDigit (n / 4096 % 16) (Nat.mod_lt _ (by norm_num))
  have h2 := hexValue_hexDigit (n / 256 % 16) (Nat.mod_lt _ (by norm_num))
  have h1 := hexValue_hexDigit (n / 16 % 16) (Nat.mod_lt _ (by norm_num))
  have h0 := hexValue_hexDigit (n % 16) (Nat.mod_lt _ (by norm_num))
  have hn : ((n / 4096 % 16 * 16 + n / 256 % 16) * 16 + n / 16 % 16) * 16 + n % 16 = n := by omega
  simp only [hex4, List.cons_append, List.nil_append, scanHex4, h3, h2, h1, h0, hn]

theorem toNat_not_surrogate (c : Char) : c.toNat < 55296 ∨ 57343 < c.toNat ∧ c.toNat < 1114112 := by
  have h := c.valid
  simp only [UInt32.isValidChar, Nat.isValidChar] at h
  change c.val.toNat < 55296 ∨ 57343 < c.val.toNat ∧ c.val.toNat < 1114112
  omega

/-- A character of the basic plane is one code unit. -/
theorem scanUnicode_hex4 {c : Char} (h : c.toNat < 65536) (rest : List Char) :
    scanUnicode (hex4 c.toNat ++ rest) = some (c, rest) := by
  have hs := toNat_not_surrogate c
  rw [scanUnicode, scanHex4_hex4 h]
  have hhi : ¬(55296 ≤ c.toNat ∧ c.toNat ≤ 56319) := by omega
  have hlo : ¬(56320 ≤ c.toNat ∧ c.toNat ≤ 57343) := by omega
  simp only [if_neg hhi, if_neg hlo, Char.ofNat_toNat]

/-- A supplementary character is a surrogate pair. -/
theorem scanUnicode_pair {c : Char} (h : 65536 ≤ c.toNat) (rest : List Char) :
    scanUnicode (hex4 (55296 + (c.toNat - 65536) / 1024) ++
      (unicodeEscape (56320 + (c.toNat - 65536) % 1024) ++ rest)) = some (c, rest) := by
  have hs := toNat_not_surrogate c
  have hmod : (c.toNat - 65536) % 1024 < 1024 := Nat.mod_lt _ (by norm_num)
  rw [scanUnicode, scanHex4_hex4 (by omega)]
  have hhi : 55296 ≤ 55296 + (c.toNat - 65536) / 1024 ∧
      55296 + (c.toNat - 65536) / 1024 ≤ 56319 := by omega
  have hlo : 56320 ≤ 56320 + (c.toNat - 65536) % 1024 ∧
      56320 + (c.toNat - 65536) % 1024 ≤ 57343 := by omega
  have hn : 65536 + (55296 + (c.toNat - 65536) / 1024 - 55296) * 1024 +
      (56320 + (c.toNat - 65536) % 1024 - 56320) = c.toNat := by omega
  have hread := scanHex4_hex4 (n := 56320 + (c.toNat - 65536) % 1024) (by omega) rest
  simp only [if_pos hhi, unicodeEscape, List.cons_append, hread, if_pos hlo, hn, Char.ofNat_toNat]

theorem scanString_escaped (fuel : ℕ) {body rest : List Char} {c : Char}
    (h : scanEscape body = some (c, rest)) :
    scanString (fuel + 1) ('\\' :: body) = (scanString fuel rest).map fun p => (c :: p.1, p.2) := by
  simp [scanString, h]

theorem scanString_plain (fuel : ℕ) {c : Char} (hq : c ≠ '"') (hb : c ≠ '\\') (hc : 32 ≤ c.toNat)
    (rest : List Char) :
    scanString (fuel + 1) (c :: rest) = (scanString fuel rest).map fun p => (c :: p.1, p.2) := by
  simp [scanString, hq, hb, Nat.not_lt.mpr hc]

theorem scanString_unicodeEscape (fuel : ℕ) {c : Char} {body rest : List Char}
    (h : scanUnicode body = some (c, rest)) :
    scanString (fuel + 1) ('\\' :: 'u' :: body) =
      (scanString fuel rest).map fun p => (c :: p.1, p.2) :=
  scanString_escaped fuel (by simpa [scanEscape] using h)

theorem char_eq_of_toNat {c d : Char} (h : c.toNat = d.toNat) : c = d :=
  Char.ext (UInt32.toNat_inj.mp h)

/-- Reading back one character, whichever form it was written in. -/
theorem scanString_escapeChar (fuel : ℕ) (c : Char) (rest : List Char) :
    scanString (fuel + 1) (escapeChar c ++ rest) =
      (scanString fuel rest).map fun p => (c :: p.1, p.2) := by
  unfold escapeChar
  split_ifs with hq hb hn hr ht hff hbs hp hu
  · subst hq
    exact scanString_escaped fuel rfl
  · subst hb
    exact scanString_escaped fuel rfl
  · subst hn
    exact scanString_escaped fuel rfl
  · subst hr
    exact scanString_escaped fuel rfl
  · subst ht
    exact scanString_escaped fuel rfl
  · rw [char_eq_of_toNat (d := Char.ofNat 12) hff]
    exact scanString_escaped fuel rfl
  · rw [char_eq_of_toNat (d := Char.ofNat 8) hbs]
    exact scanString_escaped fuel rfl
  · exact scanString_plain fuel hq hb hp.1 rest
  · exact scanString_unicodeEscape fuel (scanUnicode_hex4 hu rest)
  · rw [List.append_assoc]
    exact scanString_unicodeEscape fuel (scanUnicode_pair (Nat.not_lt.mp hu) rest)

theorem escapeChar_ne_nil (c : Char) : 1 ≤ (escapeChar c).length := by
  unfold escapeChar unicodeEscape
  repeat' split
  all_goals simp

theorem length_le_flatMap_escapeChar (cs : List Char) :
    cs.length ≤ (cs.flatMap escapeChar).length := by
  induction cs with
  | nil => simp
  | cons c cs ih =>
    have hc := escapeChar_ne_nil c
    simp only [List.flatMap_cons, List.length_append, List.length_cons]
    omega

theorem scanString_flatMap (cs : List Char) (rest : List Char) :
    ∀ fuel, cs.length < fuel →
      scanString fuel (cs.flatMap escapeChar ++ '"' :: rest) = some (cs, rest) := by
  induction cs with
  | nil =>
    intro fuel h
    obtain ⟨fuel, rfl⟩ := Nat.exists_eq_succ_of_ne_zero (by omega : fuel ≠ 0)
    simp [scanString]
  | cons c cs ih =>
    intro fuel h
    obtain ⟨fuel, rfl⟩ := Nat.exists_eq_succ_of_ne_zero (by omega : fuel ≠ 0)
    rw [List.flatMap_cons, List.append_assoc, scanString_escapeChar,
      ih fuel (by simpa using h)]
    rfl

/-- A string literal after its opening quote, with fuel for the whole text. -/
theorem scanString_quote (s : String) (rest : List Char) :
    scanString ((s.toList.flatMap escapeChar ++ '"' :: rest).length + 1)
      (s.toList.flatMap escapeChar ++ '"' :: rest) = some (s.toList, rest) := by
  apply scanString_flatMap
  have h := length_le_flatMap_escapeChar s.toList
  simp only [List.length_append]
  omega

theorem quote_append (s : String) (rest : List Char) :
    quote s ++ rest = '"' :: (s.toList.flatMap escapeChar ++ '"' :: rest) := by
  simp [quote]

/-! ## Values -/

mutual
/-- What `json.loads` can give: every float is one that a literal denotes, and no object repeats a
key. -/
def Proper : Json → Prop
  | .float x => x.IsDenoted
  | .arr xs => ProperElements xs
  | .obj fields => (fields.map Prod.fst).Nodup ∧ ProperFields fields
  | _ => True
def ProperElements : List Json → Prop
  | [] => True
  | x :: xs => Proper x ∧ ProperElements xs
def ProperFields : List (String × Json) → Prop
  | [] => True
  | (_, x) :: fs => Proper x ∧ ProperFields fs
end

theorem skipWs_cons {c : Char} (h : isWs c = false) (rest : List Char) :
    skipWs (c :: rest) = c :: rest := by
  simp [skipWs, h]

/-- The first character of a value is neither whitespace nor the end of a list. -/
def StartsValue (cs : List Char) : Prop :=
  ∃ c tail, cs = c :: tail ∧ isWs c = false ∧ c ≠ ']'

theorem StartsValue.append {cs : List Char} (h : StartsValue cs) (rest : List Char) :
    StartsValue (cs ++ rest) := by
  obtain ⟨c, tail, rfl, hc⟩ := h
  exact ⟨c, tail ++ rest, rfl, hc⟩

theorem StartsValue.skipWs_eq {cs : List Char} (h : StartsValue cs) : skipWs cs = cs := by
  obtain ⟨c, tail, rfl, hws, -⟩ := h
  exact skipWs_cons hws tail

theorem startsValue_of_isDigit {c : Char} (h : c.isDigit = true) (tail : List Char) :
    StartsValue (c :: tail) := by
  refine ⟨c, tail, rfl, ?_, ?_⟩
  · by_contra hws
    simp only [isWs, Bool.not_eq_false, Bool.or_eq_true, decide_eq_true_eq] at hws
    rcases hws with ((rfl | rfl) | rfl) | rfl <;> exact absurd h (by decide)
  · rintro rfl
    exact absurd h (by decide)

theorem startsValue_toDigits (n : ℕ) : StartsValue (Nat.toDigits 10 n) := by
  cases hd : Nat.toDigits 10 n with
  | nil => simp at hd
  | cons c cs => exact startsValue_of_isDigit (isDigit_toDigits (n := n) (hd ▸ List.mem_cons_self)) cs

theorem startsValue_dumps (x : JsonFloat) : StartsValue x.dumps := by
  cases x with
  | infinity => exact ⟨'I', _, rfl, rfl, by decide⟩
  | negInfinity => exact ⟨'-', _, rfl, rfl, by decide⟩
  | nan => exact ⟨'N', _, rfl, rfl, by decide⟩
  | decimal m e =>
    by_cases hm : m = 0
    · rw [hm]
      exact ⟨'0', _, rfl, rfl, by decide⟩
    · obtain ⟨c, tail, hdigits, hc⟩ := startsDigit_reprDigits m.natAbs
        ((Nat.toDigits 10 m.natAbs).length + e)
      rw [dumps_decimal hm, hdigits]
      split_ifs
      · exact ⟨'-', _, rfl, rfl, by decide⟩
      · exact startsValue_of_isDigit hc tail

theorem startsValue_render {x : Json} (h : Proper x) : StartsValue (render x) := by
  cases x with
  | null => exact ⟨'n', _, rfl, rfl, by decide⟩
  | bool b => cases b <;> exact ⟨_, _, rfl, rfl, by decide⟩
  | int n =>
    simp only [render, renderInt]
    split_ifs
    · exact ⟨'-', _, rfl, rfl, by decide⟩
    · exact startsValue_toDigits _
  | float x => exact startsValue_dumps x
  | str s => exact ⟨'"', _, rfl, rfl, by decide⟩
  | arr xs => exact ⟨'[', _, rfl, rfl, by decide⟩
  | obj fields => exact ⟨'{', _, rfl, rfl, by decide⟩

theorem startsValue_renderElements {x : Json} {xs : List Json} (h : Proper x) :
    StartsValue (renderElements (x :: xs)) := by
  cases xs <;> exact (startsValue_render h).append _

/-- Building a dictionary from pairs with distinct keys keeps them as they are. -/
theorem foldl_setItem_append {ν : Type} (fs d : List (String × ν))
    (h : ((d ++ fs).map Prod.fst).Nodup) :
    fs.foldl (fun d p => setItem p.1 p.2 d) d = d ++ fs := by
  induction fs generalizing d with
  | nil => simp
  | cons f fs ih =>
    have hf : f.1 ∉ d.map Prod.fst := by
      rw [List.map_append, List.nodup_append] at h
      intro hm
      exact h.2.2 _ hm _ (by simp) rfl
    have hset : setItem f.1 f.2 d = d ++ [f] := by
      clear ih h
      induction d with
      | nil => rfl
      | cons g d ihd =>
        simp only [List.map_cons, List.mem_cons, not_or] at hf
        simp [setItem, Ne.symm hf.1, ihd hf.2]
    rw [List.foldl_cons, hset, ih (d ++ [f]) (by simpa using h)]
    simp

theorem dictOfPairs_of_nodup {fs : List (String × Json)} (h : (fs.map Prod.fst).Nodup) :
    dictOfPairs fs = fs :=
  foldl_setItem_append fs [] (by simpa using h)

mutual
/-- One value is read back from the head of the text, with fuel for its own length. -/
theorem scanOnce_render : ∀ (x : Json) (fuel : ℕ) (rest : List Char), Proper x →
    (render x).length ≤ fuel → NumberEnds rest → scanOnce fuel (render x ++ rest) = some (x, rest)
  | .null, fuel + 1, rest, _, _, _ => by simp [render, scanOnce, scanWord]
  | .bool true, fuel + 1, rest, _, _, _ => by simp [render, scanOnce, scanWord]
  | .bool false, fuel + 1, rest, _, _, _ => by simp [render, scanOnce, scanWord]
  | .int n, fuel + 1, rest, _, _, hr => scanOnce_int fuel n hr
  | .float _, fuel + 1, rest, hp, _, hr => scanOnce_float fuel hp hr
  | .str s, fuel + 1, rest, _, _, _ => by
      rw [render, quote_append, scanOnce]
      simp only [if_true, scanString_quote, Option.map_some, String.ofList_toList]
  | .arr [], fuel + 1, rest, _, _, _ => by
      simp [render, renderElements, scanOnce, skipWs, isWs]
  | .arr (x :: xs), fuel + 1, rest, hp, hf, _ => by
      have hstart : StartsValue (renderElements (x :: xs) ++ rest) :=
        (startsValue_renderElements hp.1).append rest
      have hbody := scanElements_render x xs fuel rest hp
        (by simp only [render, List.length_cons] at hf; omega)
      rw [render, List.cons_append, scanOnce]
      simp only [Char.reduceEq, if_false, if_true, hstart.skipWs_eq]
      obtain ⟨c, tail, hc, -, hne⟩ := hstart
      rw [hc] at hbody ⊢
      split
      · rename_i heq
        exact absurd (List.cons.inj heq).1 hne
      · simp [hbody]
  | .obj [], fuel + 1, rest, _, _, _ => by
      simp [render, renderFields, scanOnce, skipWs, isWs]
  | .obj ((k, x) :: fs), fuel + 1, rest, hp, hf, _ => by
      have hbody := scanFields_render k x fs fuel rest hp.2
        (by simp only [render, List.length_cons] at hf; omega)
      have hquote : ∃ tail, renderFields ((k, x) :: fs) ++ rest = '"' :: tail := by
        cases fs <;> exact ⟨_, by simp only [renderFields, quote_append]; rfl⟩
      obtain ⟨tail, htail⟩ := hquote
      rw [render, List.cons_append, scanOnce]
      rw [htail] at hbody ⊢
      simp only [Char.reduceEq, if_false, if_true, skipWs_cons (show isWs '"' = false from rfl)]
      simp [hbody, dictOfPairs_of_nodup hp.1]
  | x, 0, rest, hp, hf, _ => by
      obtain ⟨c, tail, hc, -⟩ := startsValue_render hp
      simp [hc] at hf
theorem scanElements_render : ∀ (x : Json) (xs : List Json) (fuel : ℕ) (rest : List Char),
    ProperElements (x :: xs) → (renderElements (x :: xs)).length ≤ fuel →
      scanElements fuel (renderElements (x :: xs) ++ rest) = some (x :: xs, rest)
  | x, [], fuel + 1, rest, hp, hf => by
      have hx := scanOnce_render x fuel (']' :: rest) hp.1
        (by simp only [renderElements, List.length_append, List.length_singleton] at hf; omega)
        (numberEnds_bracket rest)
      simp [renderElements, scanElements, hx, skipWs, isWs]
  | x, y :: xs, fuel + 1, rest, hp, hf => by
      simp only [renderElements, List.length_append, List.length_cons] at hf
      have hx := scanOnce_render x fuel (',' :: (renderElements (y :: xs) ++ rest)) hp.1
        (by omega) (numberEnds_comma _)
      have hxs := scanElements_render y xs fuel rest hp.2 (by omega)
      have hstart : StartsValue (renderElements (y :: xs) ++ rest) :=
        (startsValue_renderElements hp.2.1).append rest
      simp [renderElements, scanElements, hx, skipWs_cons (show isWs ',' = false from rfl),
        hstart.skipWs_eq, hxs]
  | _, [], 0, _, _, hf => by simp [renderElements] at hf
  | _, _ :: _, 0, _, _, hf => by simp [renderElements] at hf
theorem scanFields_render : ∀ (k : String) (x : Json) (fs : List (String × Json)) (fuel : ℕ)
    (rest : List Char), ProperFields ((k, x) :: fs) → (renderFields ((k, x) :: fs)).length ≤ fuel →
      scanFields fuel (renderFields ((k, x) :: fs) ++ rest) = some ((k, x) :: fs, rest)
  | k, x, [], fuel + 1, rest, hp, hf => by
      simp only [renderFields, List.length_append, List.length_cons, List.length_nil] at hf
      have hx := scanOnce_render x fuel ('}' :: rest) hp.1 (by omega) (numberEnds_brace rest)
      simp only [renderFields, List.append_assoc, quote_append, scanFields, List.cons_append,
        List.nil_append, scanString_quote, skipWs_cons (show isWs ':' = false from rfl),
        ((startsValue_render hp.1).append _).skipWs_eq, hx,
        skipWs_cons (show isWs '}' = false from rfl), String.ofList_toList]
  | k, x, (l, y) :: fs, fuel + 1, rest, hp, hf => by
      simp only [renderFields, List.length_append, List.length_cons] at hf
      have hx := scanOnce_render x fuel (',' :: (renderFields ((l, y) :: fs) ++ rest)) hp.1
        (by omega) (numberEnds_comma _)
      have hfs := scanFields_render l y fs fuel rest hp.2 (by omega)
      have hquote : skipWs (renderFields ((l, y) :: fs) ++ rest) =
          renderFields ((l, y) :: fs) ++ rest := by
        cases fs <;> simp only [renderFields, quote_append] <;>
          exact skipWs_cons rfl _
      simp only [renderFields, List.append_assoc, quote_append, scanFields, List.cons_append,
        scanString_quote, skipWs_cons (show isWs ':' = false from rfl),
        ((startsValue_render hp.1).append _).skipWs_eq, hx,
        skipWs_cons (show isWs ',' = false from rfl), hquote, hfs, Option.map_some,
        String.ofList_toList]
  | _, _, [], 0, _, _, hf => by simp [renderFields, quote] at hf
  | _, _, _ :: _, 0, _, _, hf => by simp [renderFields, quote] at hf
end

/-- `json.loads` of the rendering of a value is the value. -/
theorem parse_render {x : Json} (h : Proper x) : parse (render x) = some x := by
  have hread := scanOnce_render x ((render x).length + 1) [] h (by omega) numberEnds_nil
  rw [List.append_nil] at hread
  simp only [parse, (startsValue_render h).skipWs_eq, hread]
  simp [skipWs]

theorem loads_render {x : Json} (h : Proper x) : loads (String.ofList (render x)) = .ok x := by
  simp [loads, parse_render h]

/-- The rendering determines a value. -/
theorem render_injective {x y : Json} (hx : Proper x) (hy : Proper y) (h : render x = render y) :
    x = y := by
  have hread := parse_render hx
  rw [h, parse_render hy] at hread
  exact (Option.some.inj hread).symm

/-! ## The canonical form -/

theorem properFields_iff {fs : List (String × Json)} :
    ProperFields fs ↔ ∀ f ∈ fs, Proper f.2 := by
  induction fs with
  | nil => simp [ProperFields]
  | cons f fs ih => simp [ProperFields, ih]

theorem sortFields_perm (fs : List (String × Json)) : (sortFields fs).Perm fs :=
  List.perm_insertionSort _ _

theorem map_fst_canonFields (fs : List (String × Json)) :
    (canonFields fs).map Prod.fst = fs.map Prod.fst := by
  induction fs with
  | nil => rfl
  | cons f fs ih => simp [canonFields, ih]

mutual
theorem Proper.canon : ∀ {x : Json}, Proper x → Proper (canon x)
  | .null, _ => trivial
  | .bool _, _ => trivial
  | .int _, _ => trivial
  | .float _, h => h
  | .str _, _ => trivial
  | .arr _, h => ProperElements.canon h
  | .obj fs, h => by
      have hperm := sortFields_perm (canonFields fs)
      refine ⟨?_, properFields_iff.mpr fun f hf => ?_⟩
      · rw [(hperm.map Prod.fst).nodup_iff, map_fst_canonFields]
        exact h.1
      · exact properFields_iff.mp (ProperFields.canon h.2) f (hperm.mem_iff.mp hf)
theorem ProperElements.canon : ∀ {xs : List Json}, ProperElements xs → ProperElements (canonElements xs)
  | [], _ => trivial
  | _ :: _, h => ⟨Proper.canon h.1, ProperElements.canon h.2⟩
theorem ProperFields.canon : ∀ {fs : List (String × Json)}, ProperFields fs →
    ProperFields (canonFields fs)
  | [], _ => trivial
  | _ :: _, h => ⟨Proper.canon h.1, ProperFields.canon h.2⟩
end

/-- Reading back a dump gives the value with its fields sorted. -/
theorem loads_dumps {x : Json} (h : Proper x) : loads (String.ofList (dumps x)) = .ok (canon x) :=
  loads_render h.canon

/-- Equal dumps come from values that differ in the order of fields only. -/
theorem canon_eq_of_dumps_eq {x y : Json} (hx : Proper x) (hy : Proper y) (h : dumps x = dumps y) :
    canon x = canon y :=
  render_injective hx.canon hy.canon h

/-! ## Values without floats -/

mutual
/-- No float anywhere, and no object with a repeated key. -/
def Plain : Json → Prop
  | .float _ => False
  | .arr xs => PlainElements xs
  | .obj fields => (fields.map Prod.fst).Nodup ∧ PlainFields fields
  | _ => True
def PlainElements : List Json → Prop
  | [] => True
  | x :: xs => Plain x ∧ PlainElements xs
def PlainFields : List (String × Json) → Prop
  | [] => True
  | (_, x) :: fs => Plain x ∧ PlainFields fs
end

mutual
theorem Plain.proper : ∀ {x : Json}, Plain x → Proper x
  | .null, _ => trivial
  | .bool _, _ => trivial
  | .int _, _ => trivial
  | .float _, h => h.elim
  | .str _, _ => trivial
  | .arr _, h => PlainElements.proper h
  | .obj _, h => ⟨h.1, PlainFields.proper h.2⟩
theorem PlainElements.proper : ∀ {xs : List Json}, PlainElements xs → ProperElements xs
  | [], _ => trivial
  | _ :: _, h => ⟨Plain.proper h.1, PlainElements.proper h.2⟩
theorem PlainFields.proper : ∀ {fs : List (String × Json)}, PlainFields fs → ProperFields fs
  | [], _ => trivial
  | _ :: _, h => ⟨Plain.proper h.1, PlainFields.proper h.2⟩
end

end Json
end Recto
