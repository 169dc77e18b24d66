import Recto.Text.Chars

/-!
# Letters beyond ASCII

What `str.isalnum` and `str.lower` take from the Unicode character database comes
as a table; how `lower` uses it is written out. A capital sigma is lowered by the
letters around it, past the characters that case ignores.
-/

namespace Recto

/-- The columns of the character database read here, and what they hold of the hyphen. -/
structure CharTables where
  isAlnum : Char → Bool
  /-- The full lower-case mapping of one character. -/
  lowerOf : Char → List Char
  cased : Char → Bool
  caseIgnorable : Char → Bool
  lowerOf_ne_nil : ∀ c, lowerOf c ≠ []
  hyphen_not_alnum : isAlnum '-' = false
  hyphen_lowerOf : lowerOf '-' = ['-']
  hyphen_notMem_lowerOf : ∀ c, c ≠ '-' → '-' ∉ lowerOf c
  hyphen_not_cased : cased '-' = false
  hyphen_not_ignorable : caseIgnorable '-' = false

namespace CharTables

variable (t : CharTables)

/-- The first character that case does not ignore is a cased one. -/
def casedFirst (cs : List Char) : Bool := (cs.dropWhile t.caseIgnorable).head?.any t.cased

/-- One character lowered, after those of `before` (the nearest first) and before `after`. -/
def lowerAt (before : List Char) (c : Char) (after : List Char) : List Char :=
  if c = 'Σ' then
    if t.casedFirst before && !t.casedFirst after then ['ς'] else ['σ']
  else t.lowerOf c

def lowerFrom (before : List Char) : List Char → List Char
  | [] => []
  | c :: after => t.lowerAt before c after ++ lowerFrom (c :: before) after

/-- `s.lower()` -/
def lower (cs : List Char) : List Char := t.lowerFrom [] cs

/-- `s.isalnum()` -/
def allAlnum (cs : List Char) : Bool := !cs.isEmpty && cs.all t.isAlnum

theorem ofNat_lower_ne_hyphen : ∀ n < 91, 65 ≤ n → Char.ofNat (n + 32) ≠ '-' := by decide

/-- The ASCII part of the tables, other characters standing for themselves. -/
def ascii : CharTables where
  isAlnum c := ('0' ≤ c && c ≤ '9') || ('A' ≤ c && c ≤ 'Z') || ('a' ≤ c && c ≤ 'z')
  lowerOf c := if 65 ≤ c.toNat ∧ c.toNat < 91 then [Char.ofNat (c.toNat + 32)] else [c]
  cased c := ('A' ≤ c && c ≤ 'Z') || ('a' ≤ c && c ≤ 'z')
  caseIgnorable c := c == '\'' || c == '.' || c == ':' || c == '^' || c.toNat == 96
  lowerOf_ne_nil c := by split_ifs <;> simp
  hyphen_not_alnum := by decide
  hyphen_lowerOf := by decide
  hyphen_notMem_lowerOf c hc := by
    split_ifs with h
    · simpa [eq_comm] using ofNat_lower_ne_hyphen c.toNat h.2 h.1
    · simpa [eq_comm] using hc
  hyphen_not_cased := by decide
  hyphen_not_ignorable := by decide

variable {t} {a b before : List Char}

/-! ## A hyphen ends what a letter can see -/

theorem casedFirst_append_hyphen (xs ys : List Char) :
    t.casedFirst (xs ++ '-' :: ys) = t.casedFirst xs := by
  induction xs with
  | nil =>
    have hstop : ¬t.caseIgnorable '-' = true := by simp [t.hyphen_not_ignorable]
    simp only [casedFirst, List.nil_append, List.dropWhile_cons_of_neg hstop, List.dropWhile_nil,
      List.head?_cons, List.head?_nil, Option.any_some, Option.any_none, t.hyphen_not_cased]
  | cons x xs ih =>
    by_cases h : t.caseIgnorable x = true
    · simpa only [casedFirst, List.cons_append, List.dropWhile_cons_of_pos h] using ih
    · simp only [casedFirst, List.cons_append, List.dropWhile_cons_of_neg h, List.head?_cons]

theorem lowerFrom_past_hyphen (before rest cs : List Char) :
    t.lowerFrom (before ++ '-' :: rest) cs = t.lowerFrom before cs := by
  induction cs generalizing before with
  | nil => rfl
  | cons c cs ih =>
    have hrest := ih (c :: before)
    rw [List.cons_append] at hrest
    simp only [lowerFrom, lowerAt, casedFirst_append_hyphen, hrest]

theorem lowerFrom_append_hyphen (before a b : List Char) :
    t.lowerFrom before (a ++ '-' :: b) = t.lowerFrom before a ++ '-' :: t.lower b := by
  induction a generalizing before with
  | nil =>
    have hne : ('-' : Char) ≠ 'Σ' := by decide
    have hrest := lowerFrom_past_hyphen (t := t) [] before b
    rw [List.nil_append] at hrest
    simp only [List.nil_append, lowerFrom, lowerAt, if_neg hne, t.hyphen_lowerOf, hrest, lower,
      List.singleton_append]
  | cons c a ih =>
    simp only [List.cons_append, lowerFrom, lowerAt, casedFirst_append_hyphen, ih,
      List.append_assoc]

/-- A text is lowered hyphen by hyphen. -/
theorem lower_append_hyphen (a b : List Char) :
    t.lower (a ++ '-' :: b) = t.lower a ++ '-' :: t.lower b :=
  lowerFrom_append_hyphen [] a b

/-! ## Where the hyphens of a lowered text come from -/

theorem hyphen_mem_lowerAt {c : Char} {after : List Char} :
    '-' ∈ t.lowerAt before c after ↔ c = '-' := by
  unfold lowerAt
  constructor
  · intro h
    by_contra hc
    split_ifs at h with hsigma
    · simp at h
    · simp at h
    · exact t.hyphen_notMem_lowerOf c hc h
  · rintro rfl
    rw [if_neg (by decide), t.hyphen_lowerOf]
    simp

theorem hyphen_mem_lowerFrom {cs : List Char} : '-' ∈ t.lowerFrom before cs ↔ '-' ∈ cs := by
  induction cs generalizing before with
  | nil => simp [lowerFrom]
  | cons c cs ih => simp [lowerFrom, hyphen_mem_lowerAt, ih, eq_comm]

theorem hyphen_mem_lower {cs : List Char} : '-' ∈ t.lower cs ↔ '-' ∈ cs := hyphen_mem_lowerFrom

/-- Other characters stay other characters. -/
theorem exists_mem_lowerFrom {cs : List Char} {c : Char} (hc : c ∈ cs) (hne : c ≠ '-') :
    ∃ d ∈ t.lowerFrom before cs, d ≠ '-' := by
  induction cs generalizing before with
  | nil => simp at hc
  | cons x cs ih =>
    rcases List.mem_cons.mp hc with rfl | hc
    · have hnil : t.lowerAt before c cs ≠ [] := by
        unfold lowerAt
        split_ifs
        · simp
        · simp
        · exact t.lowerOf_ne_nil c
      obtain ⟨d, hd⟩ := List.exists_mem_of_ne_nil _ hnil
      refine ⟨d, List.mem_append_left _ hd, ?_⟩
      rintro rfl
      exact hne (hyphen_mem_lowerAt.mp hd)
    · obtain ⟨d, hd, hdne⟩ : ∃ d ∈ t.lowerFrom (x :: before) cs, d ≠ '-' := ih hc
      exact ⟨d, List.mem_append_right _ hd, hdne⟩

theorem exists_of_mem_lowerFrom {cs : List Char} {d : Char} (hd : d ∈ t.lowerFrom before cs)
    (hne : d ≠ '-') : ∃ c ∈ cs, c ≠ '-' := by
  induction cs generalizing before with
  | nil => simp [lowerFrom] at hd
  | cons x cs ih =>
    rcases List.mem_append.mp hd with hd | hd
    · refine ⟨x, by simp, ?_⟩
      rintro rfl
      rw [lowerAt, if_neg (by decide), t.hyphen_lowerOf] at hd
      exact hne (List.mem_singleton.mp hd)
    · obtain ⟨c, hc, hcne⟩ := ih hd
      exact ⟨c, List.mem_cons_of_mem x hc, hcne⟩

/-- A cut at a hyphen of the lowered text is a cut at a hyphen of the text. -/
theorem exists_cut_of_lower {cs : List Char} (h : t.lower cs = a ++ '-' :: b) :
    ∃ x y, cs = x ++ '-' :: y ∧ t.lower x = a ∧ t.lower y = b := by
  induction hn : cs.length using Nat.strong_induction_on generalizing cs a with
  | _ n ih =>
    have hmem : '-' ∈ cs := hyphen_mem_lower.mp (by rw [h]; simp)
    obtain ⟨first, rest, rfl, hfirst⟩ := List.eq_append_cons_of_mem hmem
    rw [lower_append_hyphen] at h
    rcases List.append_eq_append_iff.mp h with ⟨more, rfl, hmore⟩ | ⟨more, hmore, hrest⟩
    · cases more with
      | nil =>
        simp only [List.nil_append, List.cons.injEq, true_and] at hmore
        exact ⟨first, rest, rfl, by simp, hmore⟩
      | cons c more =>
        -- The cut lies past the first hyphen.
        simp only [List.cons_append, List.cons.injEq] at hmore
        obtain ⟨rfl, hmore⟩ := hmore
        obtain ⟨x, y, rfl, rfl, hy⟩ := ih rest.length (by simp [← hn]; omega) hmore rfl
        exact ⟨first ++ '-' :: x, y, by simp, lower_append_hyphen first x, hy⟩
    · cases more with
      | nil =>
        simp only [List.nil_append, List.cons.injEq, true_and] at hrest
        exact ⟨first, rest, rfl, by simpa using hmore, hrest.symm⟩
      | cons c more =>
        -- Before the first hyphen there is none.
        simp only [List.cons_append, List.cons.injEq] at hrest
        have : '-' ∈ t.lower first := by rw [hmore, ← hrest.1]; simp
        exact absurd (hyphen_mem_lower.mp this) hfirst

end CharTables
end Recto
