import Mathlib.Data.List.DropRight
import Recto.Data.Positional
import Recto.Data.Traverse
import Recto.Text.Chars

/-!
# Derivation paths of the phone

`Bip32.ParsePath` splits a trimmed path, drops the empty parts and reads each
number with the permissive reader of .NET. The documented grammar is stricter,
and the two agree exactly on the paths without a tolerated spelling.
-/

namespace Recto
namespace Wallet

/-- `Char.IsWhiteSpace` -/
def isWhiteSpace (c : Char) : Bool :=
  let n := c.toNat
  (9 ≤ n && n ≤ 13) || n = 32 || n = 0x85 || n = 0xA0 || n = 0x1680 ||
    (0x2000 ≤ n && n ≤ 0x200A) || n = 0x2028 || n = 0x2029 || n = 0x202F || n = 0x205F || n = 0x3000

/-- `string.Trim()` -/
def trim (cs : List Char) : List Char := (cs.dropWhile isWhiteSpace).rdropWhile isWhiteSpace

/-! ## Numbers -/

/-- The white space `NumberStyles.Integer` allows around a number. -/
def isNumberWhite (c : Char) : Bool := c.toNat = 32 || (9 ≤ c.toNat && c.toNat ≤ 13)

/-- The number some decimal digits spell. -/
def decimal (ds : List Char) : ℕ := Positional.value 10 (ds.map fun c => c.toNat - 48)

/-- Digits, then white space, then NULs; below `2 ^ 32`, and nothing but zero under a minus sign. -/
def readDigits (negative : Bool) (cs : List Char) : Option ℕ :=
  let ds := cs.takeWhile Char.isDigit
  let rest := (cs.dropWhile Char.isDigit).dropWhile isNumberWhite
  if ds ≠ [] ∧ rest.all (fun c => c.toNat = 0) = true ∧ decimal ds < 2 ^ 32 ∧
      (negative = true → decimal ds = 0) then some (decimal ds)
  else none

/-- `uint.TryParse(seg, NumberStyles.Integer, CultureInfo.InvariantCulture, out idx)` -/
def uintTryParse (cs : List Char) : Option ℕ :=
  match cs.dropWhile isNumberWhite with
  | '-' :: rest => readDigits true rest
  | '+' :: rest => readDigits false rest
  | rest => readDigits false rest

/-! ## `ParsePath` -/

/-- `HardenedOffset` -/
def hardenedOffset : ℕ := 2 ^ 31

inductive Bip32Error where
  /-- `ArgumentException` -/
  | argument (message : String)
  /-- `InvalidOperationException` -/
  | invalidOperation (message : String)
  deriving DecidableEq, Repr

/-- An index below `2 ^ 31`, with the high bit of a hardened one. -/
def indexOf (hardened : Bool) (idx : ℕ) : ℕ := if hardened then idx + hardenedOffset else idx

/-- Does the segment end in a hardened marker? -/
def isMarked (seg : List Char) : Bool :=
  seg.getLast? = some '\'' || seg.getLast? = some 'h' || seg.getLast? = some 'H'

/-- The segment without its marker. -/
def unmarked (seg : List Char) : List Char := if isMarked seg then seg.dropLast else seg

/-- One turn of the loop. -/
def parseSegment (seg : List Char) : Except Bip32Error ℕ :=
  match uintTryParse (unmarked seg) with
  | none => .error (.argument ("BIP-32 path segment '" ++ String.ofList seg ++ "' is not a valid uint."))
  | some idx =>
      if idx < hardenedOffset then .ok (indexOf (isMarked seg) idx)
      else .error (.argument ("BIP-32 path segment '" ++ String.ofList seg ++ "' overflows uint31; " ++
        "index must be < 2^31 before the hardened bit is applied."))

/-- What is split: nothing for the root alone, else the path without its root. -/
def pathBody : List Char → Option (List Char)
  | ['m'] => none
  | ['M'] => none
  | 'm' :: '/' :: body => some body
  | 'M' :: '/' :: body => some body
  | body => some body

/-- `Bip32.ParsePath` -/
def parsePath (path : String) : Except Bip32Error (List ℕ) :=
  if (chars path).all isWhiteSpace then .error (.argument "Derivation path is required.")
  else match pathBody (trim (chars path)) with
    | none => .ok []
    | some body => ((body.splitOn '/').filter fun seg => seg ≠ []).mapM parseSegment

/-! ## The documented grammar -/

/-- Plain digits below `2 ^ 31`, and the marker `'` or `h`. -/
def documentedSegment (seg : List Char) : Option ℕ :=
  let hardened := seg.getLast? = some '\'' || seg.getLast? = some 'h'
  let ds := if hardened then seg.dropLast else seg
  if ds ≠ [] ∧ ds.all Char.isDigit = true ∧ decimal ds < hardenedOffset then
    some (indexOf hardened (decimal ds))
  else none

/-- `m` alone, or an optional `m/` and segments separated by single slashes. -/
def documentedChars : List Char → Option (List ℕ)
  | ['m'] => some []
  | 'm' :: '/' :: body => (body.splitOn '/').mapM documentedSegment
  | body => (body.splitOn '/').mapM documentedSegment

/-- What the documentation has the path mean. -/
def documentedPath (path : String) : Option (List ℕ) := documentedChars (trim (chars path))

/-! ## Tolerated spellings -/

/-- A sign, white space or a NUL in a number, or an upper-case marker. -/
def TidySegment (seg : List Char) : Prop :=
  seg ≠ [] ∧ seg.getLast? ≠ some 'H' ∧
    ∀ c ∈ seg, c ≠ '+' ∧ c ≠ '-' ∧ isNumberWhite c = false ∧ c.toNat ≠ 0

/-- No tolerated spelling: a lower-case root, no empty part, and tidy segments. -/
def TidyPath (cs : List Char) : Prop :=
  cs ≠ ['M'] ∧ ¬['M', '/'] <+: cs ∧
    ∀ body ∈ pathBody cs, ∀ seg ∈ body.splitOn '/', TidySegment seg

/-- A part that is no number below `2 ^ 31`, however it is spelled. -/
def GarbledSegment (seg : List Char) : Prop :=
  seg ≠ [] ∧ ∀ idx ∈ uintTryParse (unmarked seg), hardenedOffset ≤ idx

/-- Some part of the path is garbled. -/
def Garbled (cs : List Char) : Prop :=
  ∃ body ∈ pathBody cs, ∃ seg ∈ body.splitOn '/', GarbledSegment seg

/-! ## Segments -/

section
variable {seg ds : List Char} {i : ℕ}

theorem isDigit_tidy {c : Char} (h : c.isDigit = true) :
    c ≠ '+' ∧ c ≠ '-' ∧ isNumberWhite c = false ∧ c.toNat ≠ 0 ∧ c ≠ 'H' ∧ c ≠ 'h' ∧ c ≠ '\'' := by
  have hc : 48 ≤ c.toNat ∧ c.toNat ≤ 57 := by
    simp only [Char.isDigit, Bool.and_eq_true, decide_eq_true_eq, ge_iff_le,
      UInt32.le_iff_toNat_le] at h
    exact h
  have hne : ∀ d : Char, (d.toNat < 48 ∨ 57 < d.toNat) → c ≠ d := by
    rintro d hd rfl
    omega
  refine ⟨hne _ (by decide), hne _ (by decide), ?_, by omega, hne _ (by decide), hne _ (by decide),
    hne _ (by decide)⟩
  simp only [isNumberWhite, Bool.or_eq_false_iff, decide_eq_false_iff_not, Bool.and_eq_false_iff]
  omega

theorem readDigits_of_digits (hne : ds ≠ []) (hds : ∀ c ∈ ds, c.isDigit = true) :
    readDigits false ds = if decimal ds < 2 ^ 32 then some (decimal ds) else none := by
  have htake : ds.takeWhile Char.isDigit = ds := List.takeWhile_eq_self_iff.mpr hds
  have hdrop : ds.dropWhile Char.isDigit = [] := List.dropWhile_eq_nil_iff.mpr hds
  simp [readDigits, htake, hdrop, hne]

theorem uintTryParse_of_digits (hne : ds ≠ []) (hds : ∀ c ∈ ds, c.isDigit = true) :
    uintTryParse ds = if decimal ds < 2 ^ 32 then some (decimal ds) else none := by
  cases ds with
  | nil => exact absurd rfl hne
  | cons c cs =>
    obtain ⟨hplus, hminus, hwhite, -⟩ := isDigit_tidy (hds c List.mem_cons_self)
    rw [← readDigits_of_digits hne hds, uintTryParse, List.dropWhile_cons_of_neg (by simp [hwhite])]
    split
    · rename_i h
      exact absurd (List.cons.inj h).1 hminus
    · rename_i h
      exact absurd (List.cons.inj h).1 hplus
    · rfl

/-- Without signs, white space and NULs only digits are read. -/
theorem digits_of_uintTryParse (htidy : ∀ c ∈ ds, c ≠ '+' ∧ c ≠ '-' ∧ isNumberWhite c = false ∧
    c.toNat ≠ 0) (h : uintTryParse ds = some i) : ds ≠ [] ∧ ∀ c ∈ ds, c.isDigit = true := by
  have hwhite : ∀ {cs : List Char}, (∀ c ∈ cs, c ∈ ds) → cs.dropWhile isNumberWhite = cs := by
    intro cs hcs
    cases cs with
    | nil => rfl
    | cons c cs =>
      exact List.dropWhile_cons_of_neg (by simp [(htidy c (hcs c List.mem_cons_self)).2.2.1])
  have hread : readDigits false ds = some i := by
    rw [uintTryParse, hwhite fun _ hc => hc] at h
    split at h
    · exact absurd rfl (htidy '-' List.mem_cons_self).2.1
    · exact absurd rfl (htidy '+' List.mem_cons_self).1
    · exact h
  unfold readDigits at hread
  dsimp only at hread
  rw [hwhite fun c hc => (List.dropWhile_suffix _).subset hc] at hread
  obtain ⟨⟨hne, hrest, -⟩, -⟩ := Option.ite_none_right_eq_some.mp hread
  have hrest : ds.dropWhile Char.isDigit = [] := by
    refine List.eq_nil_iff_forall_not_mem.mpr fun c hc => ?_
    have hzero := List.all_eq_true.mp hrest c hc
    exact (htidy c ((List.dropWhile_suffix _).subset hc)).2.2.2 (by simpa using hzero)
  have hdigits := List.dropWhile_eq_nil_iff.mp hrest
  refine ⟨?_, hdigits⟩
  rintro rfl
  exact hne rfl

theorem unmarked_eq (hlast : seg.getLast? ≠ some 'H') :
    isMarked seg = decide (seg.getLast? = some '\'' ∨ seg.getLast? = some 'h') ∧
      unmarked seg = if seg.getLast? = some '\'' ∨ seg.getLast? = some 'h' then seg.dropLast else seg := by
  have hmarked : isMarked seg = decide (seg.getLast? = some '\'' ∨ seg.getLast? = some 'h') := by
    simp [isMarked, hlast]
  refine ⟨hmarked, ?_⟩
  rw [unmarked, hmarked]
  simp only [decide_eq_true_eq]

theorem parseSegment_eq_ok : parseSegment seg = .ok i ↔
    ∃ idx, uintTryParse (unmarked seg) = some idx ∧ idx < hardenedOffset ∧
      i = indexOf (isMarked seg) idx := by
  unfold parseSegment
  cases huint : uintTryParse (unmarked seg) with
  | none => simp
  | some idx =>
    by_cases hlt : idx < hardenedOffset
    · simp [hlt, eq_comm]
    · simp [hlt]

theorem documentedSegment_eq_some : documentedSegment seg = some i ↔
    ∃ hardened ds, (hardened = decide (seg.getLast? = some '\'' ∨ seg.getLast? = some 'h')) ∧
      ds = (if seg.getLast? = some '\'' ∨ seg.getLast? = some 'h' then seg.dropLast else seg) ∧
      ds ≠ [] ∧ (∀ c ∈ ds, c.isDigit = true) ∧ decimal ds < hardenedOffset ∧
      i = indexOf hardened (decimal ds) := by
  have hor : (decide (seg.getLast? = some '\'') || decide (seg.getLast? = some 'h')) =
      decide (seg.getLast? = some '\'' ∨ seg.getLast? = some 'h') := by
    rw [Bool.decide_or]
  unfold documentedSegment
  dsimp only
  simp only [hor, decide_eq_true_eq, Option.ite_none_right_eq_some, List.all_eq_true,
    Option.some.injEq]
  constructor
  · rintro ⟨⟨hne, hds, hlt⟩, rfl⟩
    exact ⟨_, _, rfl, rfl, hne, hds, hlt, rfl⟩
  · rintro ⟨_, _, rfl, rfl, hne, hds, hlt, rfl⟩
    exact ⟨⟨hne, hds, hlt⟩, rfl⟩

/-- Digits and one lower-case marker are tidy. -/
theorem tidySegment_of_documented (h : documentedSegment seg = some i) : TidySegment seg := by
  obtain ⟨-, ds, -, hds, hne, hdigits, -⟩ := documentedSegment_eq_some.mp h
  split_ifs at hds with hlast
  · obtain ⟨c, hc⟩ : ∃ c, seg.getLast? = some c := by
      rcases hlast with hlast | hlast
      · exact ⟨_, hlast⟩
      · exact ⟨_, hlast⟩
    have hseg : seg = ds ++ [c] := by
      rw [hds, List.dropLast_append_getLast? c hc]
    have hmark : c = '\'' ∨ c = 'h' := by simpa [hc] using hlast
    refine ⟨by simp [hseg], ?_, fun d hd => ?_⟩
    · rcases hmark with rfl | rfl
      · simp [hc]
      · simp [hc]
    · rw [hseg, List.mem_append, List.mem_singleton] at hd
      rcases hd with hd | rfl
      · exact ⟨(isDigit_tidy (hdigits d hd)).1, (isDigit_tidy (hdigits d hd)).2.1,
          (isDigit_tidy (hdigits d hd)).2.2.1, (isDigit_tidy (hdigits d hd)).2.2.2.1⟩
      · rcases hmark with rfl | rfl
        · decide
        · decide
  · subst hds
    refine ⟨hne, fun hH => ?_, fun d hd => ?_⟩
    · exact (isDigit_tidy (hdigits _ (List.mem_of_getLast? hH))).2.2.2.2.1 rfl
    · exact ⟨(isDigit_tidy (hdigits d hd)).1, (isDigit_tidy (hdigits d hd)).2.1,
        (isDigit_tidy (hdigits d hd)).2.2.1, (isDigit_tidy (hdigits d hd)).2.2.2.1⟩

/-- On a tidy segment the code and the documentation read the same index. -/
theorem parseSegment_of_tidy (htidy : TidySegment seg) :
    (parseSegment seg).toOption = documentedSegment seg := by
  obtain ⟨hmarked, hunmarked⟩ := unmarked_eq htidy.2.1
  have hmem : ∀ c ∈ unmarked seg, c ∈ seg := by
    intro c hc
    rw [unmarked] at hc
    split_ifs at hc with hm
    · exact List.mem_of_mem_dropLast hc
    · exact hc
  refine Option.ext fun i => ?_
  have hok : (parseSegment seg).toOption = some i ↔ parseSegment seg = .ok i := by
    cases parseSegment seg with
    | error e => simp [Except.toOption]
    | ok j => simp [Except.toOption]
  rw [hok, parseSegment_eq_ok, documentedSegment_eq_some, hmarked, hunmarked]
  constructor
  · rintro ⟨idx, huint, hlt, rfl⟩
    obtain ⟨hne, hdigits⟩ := digits_of_uintTryParse
      (fun c hc => htidy.2.2 c (hmem c (hunmarked ▸ hc))) huint
    rw [uintTryParse_of_digits hne hdigits] at huint
    obtain ⟨-, heq⟩ := Option.ite_none_right_eq_some.mp huint
    obtain rfl := Option.some.inj heq
    exact ⟨_, _, rfl, rfl, hne, hdigits, hlt, rfl⟩
  · rintro ⟨_, _, rfl, rfl, hne, hdigits, hlt, rfl⟩
    refine ⟨_, ?_, hlt, rfl⟩
    rw [uintTryParse_of_digits hne hdigits, if_pos]
    exact lt_trans hlt (by decide)

theorem garbledSegment_iff : GarbledSegment seg ↔ seg ≠ [] ∧ (parseSegment seg).toOption = none := by
  have hnone : (parseSegment seg).toOption = none ↔ ∀ i, parseSegment seg ≠ .ok i := by
    cases parseSegment seg with
    | error e => simp [Except.toOption]
    | ok j => simp [Except.toOption]
  rw [GarbledSegment, hnone]
  refine and_congr_right fun _ => ⟨?_, ?_⟩
  · rintro h i hi
    obtain ⟨idx, huint, hlt, -⟩ := parseSegment_eq_ok.mp hi
    exact absurd hlt (not_lt.mpr (h idx huint))
  · intro h idx huint
    by_contra hlt
    exact h _ (parseSegment_eq_ok.mpr ⟨idx, huint, not_le.mp hlt, rfl⟩)

end

/-! ## Paths -/

section
variable {cs body : List Char}

/-- The segments of a body that are read. -/
def parseBody (body : List Char) : Option (List ℕ) :=
  ((body.splitOn '/').filter fun seg => seg ≠ []).mapM fun seg => (parseSegment seg).toOption

theorem parseBody_eq_none : parseBody body = none ↔ ∃ seg ∈ body.splitOn '/', GarbledSegment seg := by
  simp only [parseBody, mapM_eq_none_iff, List.mem_filter, decide_eq_true_eq, garbledSegment_iff,
    and_assoc]

theorem parseBody_of_tidy (h : ∀ seg ∈ body.splitOn '/', TidySegment seg) :
    parseBody body = (body.splitOn '/').mapM documentedSegment := by
  have hfilter : ((body.splitOn '/').filter fun seg => seg ≠ []) = body.splitOn '/' :=
    List.filter_eq_self.mpr fun seg hseg => decide_eq_true (h seg hseg).1
  rw [parseBody, hfilter]
  exact mapM_congr fun seg hseg => parseSegment_of_tidy (h seg hseg)

theorem documentedSegment_of_garbled {seg : List Char} (h : GarbledSegment seg) :
    documentedSegment seg = none := by
  refine Option.eq_none_iff_forall_ne_some.mpr fun i hi => ?_
  have hcode := parseSegment_of_tidy (tidySegment_of_documented hi)
  rw [(garbledSegment_iff.mp h).2] at hcode
  exact absurd (hcode.trans hi) (Option.some_ne_none i).symm

/-- The code and the documentation on one body: they agree when a part is garbled and when all are
tidy. -/
theorem parseBody_eq_iff : parseBody body = (body.splitOn '/').mapM documentedSegment ↔
    (∃ seg ∈ body.splitOn '/', GarbledSegment seg) ∨ ∀ seg ∈ body.splitOn '/', TidySegment seg := by
  constructor
  · intro h
    by_cases hgarbled : ∃ seg ∈ body.splitOn '/', GarbledSegment seg
    · exact .inl hgarbled
    · refine .inr fun seg hseg => ?_
      rw [← parseBody_eq_none, h, mapM_eq_none_iff] at hgarbled
      obtain ⟨i, hi⟩ := Option.ne_none_iff_exists'.mp fun hnone => hgarbled ⟨seg, hseg, hnone⟩
      exact tidySegment_of_documented hi
  · rintro (⟨seg, hseg, hgarbled⟩ | htidy)
    · rw [parseBody_eq_none.mpr ⟨seg, hseg, hgarbled⟩]
      exact (mapM_eq_none_iff.mpr ⟨seg, hseg, documentedSegment_of_garbled hgarbled⟩).symm
    · exact parseBody_of_tidy htidy

theorem trim_eq_nil : trim cs = [] ↔ cs.all isWhiteSpace = true := by
  rw [trim, List.rdropWhile_eq_nil_iff, List.all_eq_true]
  constructor
  · intro h c hc
    rw [← List.takeWhile_append_dropWhile (p := isWhiteSpace) (l := cs), List.mem_append] at hc
    rcases hc with hc | hc
    · exact List.mem_takeWhile_imp hc
    · exact h c hc
  · intro h c hc
    exact h c ((List.dropWhile_suffix _).subset hc)

theorem toOption_parsePath {path : String} (h : trim (chars path) ≠ []) :
    (parsePath path).toOption =
      match pathBody (trim (chars path)) with
      | none => some []
      | some body => parseBody body := by
  rw [parsePath, if_neg fun hblank => h (trim_eq_nil.mpr hblank)]
  cases pathBody (trim (chars path)) with
  | none => rfl
  | some body => exact toOption_mapM _ _

/-- Apart from the root alone and an upper-case root, both split the same body. -/
theorem documentedChars_cases (cs : List Char) : cs = ['m'] ∨ cs = ['M'] ∨ ['M', '/'] <+: cs ∨
    (cs ≠ ['M'] ∧ ¬['M', '/'] <+: cs) ∧
      ∃ body, pathBody cs = some body ∧
        documentedChars cs = (body.splitOn '/').mapM documentedSegment := by
  by_cases hm : cs = ['m']
  · exact .inl hm
  by_cases hM : cs = ['M']
  · exact .inr (.inl hM)
  by_cases hroot : ['M', '/'] <+: cs
  · exact .inr (.inr (.inl hroot))
  refine .inr (.inr (.inr ⟨⟨hM, hroot⟩, ?_⟩))
  unfold pathBody documentedChars
  split
  · exact absurd rfl hm
  · exact absurd rfl hM
  · exact ⟨_, rfl, rfl⟩
  · exact absurd ⟨_, rfl⟩ hroot
  · rename_i hroot'' _
    refine ⟨_, rfl, ?_⟩
    split
    · exact absurd rfl hm
    · exact absurd rfl (hroot'' _)
    · rfl

theorem documentedChars_upper {body : List Char} : documentedChars ('M' :: '/' :: body) = none := by
  have hsplit : ('M' :: '/' :: body).splitOn '/' = ['M'] :: body.splitOn '/' :=
    List.splitOn_append_cons_self_of_not_mem (show '/' ∉ ['M'] by decide) body
  show (('M' :: '/' :: body).splitOn '/').mapM documentedSegment = none
  rw [hsplit, mapM_eq_none_iff]
  exact ⟨['M'], List.mem_cons_self, by decide +kernel⟩

/-- The code follows the documented grammar exactly on the paths without a tolerated spelling, and
on those both refuse. -/
theorem toOption_parsePath_eq_iff (path : String) :
    (parsePath path).toOption = documentedPath path ↔
      trim (chars path) = [] ∨ Garbled (trim (chars path)) ∨ TidyPath (trim (chars path)) := by
  by_cases hnil : trim (chars path) = []
  · have hblank : (parsePath path).toOption = none := by
      rw [parsePath, if_pos (trim_eq_nil.mp hnil)]
      rfl
    have hdoc : documentedPath path = none := by
      rw [documentedPath, hnil]
      decide +kernel
    simp only [hblank, hdoc, hnil, true_or]
  rw [toOption_parsePath hnil, documentedPath]
  generalize trim (chars path) = cs at hnil ⊢
  simp only [hnil, false_or]
  obtain rfl | rfl | ⟨body, rfl⟩ | ⟨⟨hM, hroot⟩, body, hbody, hdoc⟩ := documentedChars_cases cs
  · have htidy : TidyPath ['m'] := ⟨by decide, by decide, nofun⟩
    exact iff_of_true rfl (.inr htidy)
  · refine iff_of_false (by decide +kernel) ?_
    rintro (⟨_, hbody, -⟩ | ⟨hM, -⟩)
    · cases hbody
    · exact hM rfl
  · have hpath : pathBody (['M', '/'] ++ body) = some body := rfl
    have htidy : ¬TidyPath (['M', '/'] ++ body) := fun h => h.2.1 ⟨body, rfl⟩
    have hdoc : documentedChars (['M', '/'] ++ body) = none := documentedChars_upper
    simp only [hpath, hdoc, parseBody_eq_none, Garbled, htidy, or_false, Option.mem_some_iff,
      exists_eq_left']
  · simp only [hbody, hdoc, parseBody_eq_iff, Garbled, TidyPath, hM, hroot, Option.mem_some_iff,
      exists_eq_left', forall_eq', ne_eq, not_false_eq_true, true_and]

end

end Wallet
end Recto
