import Mathlib.Data.List.DropRight
import Recto.Text.Chars

/-!
# Lines of text

`str.splitlines`, `strip` and `rstrip` over characters, with the line boundaries
and the whitespace of Unicode.
-/

namespace Recto
namespace Lines

/-- `str.isspace`, for one character. -/
def isSpace (c : Char) : Bool :=
  (9 ≤ c.toNat && c.toNat ≤ 13) || (28 ≤ c.toNat && c.toNat ≤ 32) || c.toNat = 0x85 ||
    c.toNat = 0xA0 || c.toNat = 0x1680 || (0x2000 ≤ c.toNat && c.toNat ≤ 0x200A) ||
    c.toNat = 0x2028 || c.toNat = 0x2029 || c.toNat = 0x202F || c.toNat = 0x205F ||
    c.toNat = 0x3000

/-- What ends a line, beside the two characters of `\r\n`. -/
def isBreak (c : Char) : Bool :=
  (10 ≤ c.toNat && c.toNat ≤ 13) || (28 ≤ c.toNat && c.toNat ≤ 30) || c.toNat = 0x85 ||
    c.toNat = 0x2028 || c.toNat = 0x2029

/-- The first character of a line put before the lines that follow it. -/
def consLine (c : Char) : List (List Char) → List (List Char)
  | [] => [[c]]
  | line :: lines => (c :: line) :: lines

/-- `s.splitlines()` -/
def splitLines : List Char → List (List Char)
  | [] => []
  | '\r' :: '\n' :: cs => [] :: splitLines cs
  | c :: cs => if isBreak c then [] :: splitLines cs else consLine c (splitLines cs)

/-- `s.rstrip()` -/
def rstrip (cs : List Char) : List Char := cs.rdropWhile isSpace

/-- `s.strip()` -/
def strip (cs : List Char) : List Char := rstrip (cs.dropWhile isSpace)

/-- `s.partition(sep)`, without the separator; `none` where it does not occur. -/
def partition (sep : Char) : List Char → Option (List Char × List Char)
  | [] => none
  | c :: cs => if c = sep then some ([], cs) else (partition sep cs).map fun p => (c :: p.1, p.2)

variable {line lines cs blank : List Char}

theorem isSpace_of_isBreak {c : Char} (h : isBreak c = true) : isSpace c = true := by
  simp only [isBreak, isSpace, Bool.or_eq_true, Bool.and_eq_true, decide_eq_true_eq] at h ⊢
  omega

theorem splitLines_cons {c : Char} (h : isBreak c = false) (cs : List Char) :
    splitLines (c :: cs) = consLine c (splitLines cs) := by
  have hc : c ≠ '\r' := by
    rintro rfl
    exact absurd h (by decide)
  rw [splitLines]
  · simp [h]
  · rintro cs' rfl
    exact absurd rfl hc

/-- A line that is ended is split off. -/
theorem splitLines_append (h : ∀ c ∈ line, isBreak c = false) {eol : List Char}
    (heol : eol = ['\n'] ∨ eol = ['\r', '\n']) (cs : List Char) :
    splitLines (line ++ eol ++ cs) = line :: splitLines cs := by
  induction line with
  | nil =>
    rcases heol with rfl | rfl
    · simp [splitLines, isBreak]
    · simp [splitLines]
  | cons c line ih =>
    obtain ⟨hc, hline⟩ := List.forall_mem_cons.mp h
    rw [List.cons_append, List.cons_append, splitLines_cons hc, ih hline]
    rfl

theorem splitLines_flatMap {entries : List (List Char)}
    (h : ∀ e ∈ entries, ∀ c ∈ e, isBreak c = false) {eol : List Char}
    (heol : eol = ['\n'] ∨ eol = ['\r', '\n']) (cs : List Char) :
    splitLines (entries.flatMap (· ++ eol) ++ cs) = entries ++ splitLines cs := by
  induction entries with
  | nil => rfl
  | cons e entries ih =>
    obtain ⟨he, hrest⟩ := List.forall_mem_cons.mp h
    rw [List.flatMap_cons, List.append_assoc, splitLines_append he heol, ih hrest]
    rfl

/-- The lines of whitespace are whitespace. -/
theorem splitLines_blank (h : ∀ c ∈ blank, isSpace c = true) :
    ∀ l ∈ splitLines blank, ∀ c ∈ l, isSpace c = true := by
  induction blank using splitLines.induct with
  | case1 => simp [splitLines]
  | case2 cs ih =>
    intro l hl
    rw [splitLines] at hl
    rcases List.mem_cons.mp hl with rfl | hl
    · simp
    · exact ih (fun c hc => h c (by simp [hc])) l hl
  | case3 c cs hnot hbreak ih =>
    intro l hl
    rw [splitLines, if_pos hbreak] at hl
    · rcases List.mem_cons.mp hl with rfl | hl
      · simp
      · exact ih (fun c hc => h c (by simp [hc])) l hl
    · exact hnot
  | case4 c cs hnot hbreak ih =>
    intro l hl
    rw [splitLines, if_neg hbreak] at hl
    · cases hrest : splitLines cs with
      | nil =>
        rw [hrest] at hl
        obtain rfl := List.mem_singleton.mp hl
        simpa using h c List.mem_cons_self
      | cons l' ls =>
        rw [hrest] at hl ih
        have hcs := ih fun c hc => h c (by simp [hc])
        rcases List.mem_cons.mp hl with rfl | hl
        · exact List.forall_mem_cons.mpr
            ⟨h c List.mem_cons_self, hcs l' List.mem_cons_self⟩
        · exact hcs l (by simp [hl])
    · exact hnot

theorem strip_blank (h : ∀ c ∈ blank, isSpace c = true) : strip blank = [] := by
  rw [strip, List.dropWhile_eq_nil_iff.mpr h]
  rfl

theorem strip_concat {c : Char} (h : isSpace c = true) (cs : List Char) :
    strip (cs ++ [c]) = strip cs := by
  rw [strip, strip, List.dropWhile_append]
  split_ifs with hall
  · have hnil : cs.dropWhile isSpace = [] := by simpa using hall
    rw [hnil]
    simp [h]
  · simp [rstrip, h]

/-! ## Lines that are not blank -/

/-- The lines that are not blank, without the whitespace around them. -/
def trimmedLines (cs : List Char) : List (List Char) :=
  ((splitLines cs).map strip).filter (· ≠ [])

/-- What a whitespace character at the end does to the lines: nothing, or it opens a line of its
own, or it stands on the last one. -/
inductive Trails (c : Char) : List (List Char) → List (List Char) → Prop where
  | same (ls : List (List Char)) : Trails c ls ls
  | opens (ls : List (List Char)) (b : List Char) (h : b = [] ∨ b = [c]) : Trails c ls (ls ++ [b])
  | extends (ls : List (List Char)) (l : List Char) : Trails c (ls ++ [l]) (ls ++ [l ++ [c]])

theorem Trails.cons {c : Char} {ls ls' : List (List Char)} (h : Trails c ls ls')
    (l : List Char) : Trails c (l :: ls) (l :: ls') := by
  cases h with
  | same => exact .same _
  | opens _ b hb => exact .opens (l :: ls) b hb
  | «extends» ls l' => exact .extends (l :: ls) l'

theorem Trails.consLine {c d : Char} {ls ls' : List (List Char)} (h : Trails c ls ls') :
    Trails c (Lines.consLine d ls) (Lines.consLine d ls') := by
  cases h with
  | same => exact .same _
  | opens _ b hb =>
    cases ls with
    | nil =>
      rcases hb with rfl | rfl
      · exact .same _
      · exact .extends [] [d]
    | cons l ls => exact .opens ((d :: l) :: ls) b hb
  | «extends» ls l =>
    cases ls with
    | nil => exact .extends [] (d :: l)
    | cons l' ls => exact .extends ((d :: l') :: ls) l

theorem trails_splitLines {w : Char} (cs : List Char) :
    Trails w (splitLines cs) (splitLines (cs ++ [w])) := by
  induction cs using splitLines.induct with
  | case1 =>
    by_cases hw : isBreak w = true
    · have : splitLines [w] = [[]] := by
        rw [splitLines, if_pos hw]
        · rfl
        · rintro cs' - h
          cases h
      exact this ▸ .opens [] [] (.inl rfl)
    · rw [List.nil_append, splitLines_cons (by simpa using hw)]
      exact .opens [] [w] (.inr rfl)
  | case2 cs ih =>
    simp only [splitLines, List.cons_append]
    exact ih.cons []
  | case3 c cs hnot hbreak ih =>
    have hleft : splitLines (c :: cs) = [] :: splitLines cs := by
      rw [splitLines, if_pos hbreak]
      exact hnot
    rw [hleft, List.cons_append]
    by_cases hjoin : c = '\r' ∧ cs = [] ∧ w = '\n'
    · obtain ⟨rfl, rfl, rfl⟩ := hjoin
      exact .same _
    · have hright : splitLines (c :: (cs ++ [w])) = [] :: splitLines (cs ++ [w]) := by
        rw [splitLines, if_pos hbreak]
        intro cs' hc hcs
        cases cs with
        | nil => exact hjoin ⟨hc, rfl, (List.cons.inj hcs).1⟩
        | cons d ds => exact hnot ds hc (by rw [(List.cons.inj hcs).1])
      exact hright ▸ ih.cons []
  | case4 c cs hnot hbreak ih =>
    rw [List.cons_append, splitLines_cons (by simpa using hbreak),
      splitLines_cons (by simpa using hbreak)]
    exact ih.consLine

theorem Trails.trimmed {c : Char} (hc : isSpace c = true) {ls ls' : List (List Char)}
    (h : Trails c ls ls') : (ls'.map strip).filter (· ≠ []) = (ls.map strip).filter (· ≠ []) := by
  cases h with
  | same => rfl
  | opens _ b hb =>
    have hblank : strip b = [] := by
      rcases hb with rfl | rfl
      · rfl
      · exact strip_blank (by simpa using hc)
    simp [hblank]
  | «extends» ls l => simp [strip_concat hc]

/-- Whitespace at the end of a text is on no trimmed line. -/
theorem trimmedLines_append (h : ∀ c ∈ blank, isSpace c = true) (cs : List Char) :
    trimmedLines (cs ++ blank) = trimmedLines cs := by
  induction blank using List.reverseRecOn with
  | nil => rw [List.append_nil]
  | append_singleton blank c ih =>
    rw [← List.append_assoc]
    exact ((trails_splitLines (cs ++ blank)).trimmed (h c (by simp))).trans
      (ih fun d hd => h d (by simp [hd]))

theorem trimmedLines_rstrip (cs : List Char) : trimmedLines (rstrip cs) = trimmedLines cs := by
  have hblank : ∀ c ∈ cs.rtakeWhile isSpace, isSpace c = true := fun c hc =>
    List.mem_rtakeWhile_imp hc
  conv_rhs => rw [← List.rdropWhile_append_rtakeWhile (p := isSpace) (l := cs)]
  exact (trimmedLines_append hblank _).symm

end Lines
end Recto
