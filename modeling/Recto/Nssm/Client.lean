import Recto.Capability.Jwt
import Recto.Data.Dict
import Recto.Phone.CanonicalJson
import Recto.Text.Lines

/-!
# What NSSM says

`recto.nssm`: the client guesses the encoding of what `nssm.exe` prints, and reads
the fields of a service and its extra environment out of the text. `nssm.exe` is a
parameter, with what it prints of the registry.
-/

namespace Recto
namespace Nssm

open Capability Phone Lines

abbrev Text := List Char

/-! ## UTF-16 -/

/-- The two bytes of a code unit. -/
def unitBytes (little : Bool) (unit : ℕ) : Bytes :=
  if little then [UInt8.ofNat (unit % 256), UInt8.ofNat (unit / 256)]
  else [UInt8.ofNat (unit / 256), UInt8.ofNat (unit % 256)]

def encodeUtf16 (little : Bool) (cs : Text) : Bytes :=
  (cs.flatMap utf16Units).flatMap (unitBytes little)

def unitsOf (little : Bool) : Bytes → Option (List ℕ)
  | [] => some []
  | [_] => none
  | a :: b :: rest =>
      (unitsOf little rest).map
        ((if little then b.toNat * 256 + a.toNat else a.toNat * 256 + b.toNat) :: ·)

/-- The characters of code units; `none` at a surrogate that stands alone. -/
def charsOfUnits : List ℕ → Option Text
  | [] => some []
  | u :: us =>
      if u < 0xD800 ∨ 0xE000 ≤ u then (charsOfUnits us).map (Char.ofNat u :: ·)
      else
        match us with
        | [] => none
        | v :: us =>
            if u < 0xDC00 ∧ 0xDC00 ≤ v ∧ v < 0xE000 then
              (charsOfUnits us).map
                (Char.ofNat (0x10000 + (u - 0xD800) * 1024 + (v - 0xDC00)) :: ·)
            else none

/-- `buf.decode("utf-16-le")`, or `"utf-16-be"` -/
def decodeUtf16 (little : Bool) (buf : Bytes) : Option Text := unitsOf little buf >>= charsOfUnits

/-! ## The encoding of a buffer -/

/-- `buf.decode("utf-16")` of a buffer that starts with a byte order mark. -/
def withMark : Bytes → Option Text
  | 0xFF :: 0xFE :: rest => decodeUtf16 true rest
  | 0xFE :: 0xFF :: rest => decodeUtf16 false rest
  | _ => none

/-- `buf[1::2]` -/
def oddBytes : Bytes → Bytes
  | _ :: b :: rest => b :: oddBytes rest
  | _ => []

/-- The signature of ASCII text that is wide-encoded. -/
def looksWide (buf : Bytes) : Bool :=
  4 ≤ buf.length && buf.length % 2 = 0 && (oddBytes buf).all (· = 0)

/-- `_decode_nssm` of bytes; the code page is the system's. -/
def decodeNssm (codepage : Bytes → Text) (buf : Bytes) : Text :=
  if buf = [] then []
  else
    match withMark buf with
    | some text => text
    | none =>
        match (if looksWide buf then decodeUtf16 true buf else none) with
        | some text => text
        | none => (decodeStrict buf).getD (codepage buf)

section
variable {cs : Text} {c : Char} (codepage : Bytes → Text)

theorem utf16Units_lt (c : Char) : ∀ u ∈ utf16Units c, u < 65536 := by
  have hlt : c.toNat < 1114112 := by
    have := c.valid
    simp only [UInt32.isValidChar, Nat.isValidChar] at this
    change c.val.toNat < 1114112
    omega
  intro u hu
  unfold utf16Units at hu
  split_ifs at hu with hbasic
  · obtain rfl := List.mem_singleton.mp hu
    exact hbasic
  · simp only [List.mem_cons, List.not_mem_nil, or_false] at hu
    omega

theorem unitsOf_flatMap (little : Bool) {us : List ℕ} (h : ∀ u ∈ us, u < 65536) :
    unitsOf little (us.flatMap (unitBytes little)) = some us := by
  induction us with
  | nil => rfl
  | cons u us ih =>
    obtain ⟨hu, hus⟩ := List.forall_mem_cons.mp h
    have hlow := toNat_ofNat_small (show u % 256 < 256 by omega)
    have hhigh := toNat_ofNat_small (show u / 256 < 256 by omega)
    have hunit : u / 256 * 256 + u % 256 = u := by omega
    cases little <;> simp [unitBytes, unitsOf, ih hus, hlow, hhigh, hunit]

theorem charsOfUnits_utf16Units (c : Char) (us : List ℕ) :
    charsOfUnits (utf16Units c ++ us) = (charsOfUnits us).map (c :: ·) := by
  have hnot := Json.toNat_not_surrogate c
  have hlt : c.toNat < 1114112 := by
    have := c.valid
    simp only [UInt32.isValidChar, Nat.isValidChar] at this
    change c.val.toNat < 1114112
    omega
  unfold utf16Units
  split_ifs with hbasic
  · rw [List.singleton_append, charsOfUnits.eq_def]
    simp only
    rw [if_pos (by omega), Char.ofNat_toNat]
  · have hchar : Char.ofNat (0x10000 + (55296 + (c.toNat - 65536) / 1024 - 0xD800) * 1024 +
        (56320 + (c.toNat - 65536) % 1024 - 0xDC00)) = c := ofNat_of_toNat (by omega)
    simp only [List.cons_append, List.nil_append]
    rw [charsOfUnits.eq_def]
    simp only
    rw [if_neg (by omega), if_pos (by omega), hchar]

/-- A text in UTF-16 is decoded. -/
theorem decodeUtf16_encodeUtf16 (little : Bool) (cs : Text) :
    decodeUtf16 little (encodeUtf16 little cs) = some cs := by
  have hlt : ∀ u ∈ cs.flatMap utf16Units, u < 65536 := by
    intro u hu
    obtain ⟨c, -, hc⟩ := List.mem_flatMap.mp hu
    exact utf16Units_lt c u hc
  rw [decodeUtf16, encodeUtf16, unitsOf_flatMap little hlt, Option.bind_eq_bind, Option.bind_some]
  induction cs with
  | nil => rfl
  | cons c cs ih =>
    rw [List.flatMap_cons, charsOfUnits_utf16Units, ih fun u hu => hlt u (by simp [hu])]
    rfl

/-! ## What is decoded -/

/-- No byte of a text without NUL is NUL, and none is of a byte order mark of UTF-16. -/
theorem bounds_of_mem_encodeUtf8 (h : '\x00' ∉ cs) :
    ∀ b ∈ encodeUtf8 cs, 0 < b.toNat ∧ b.toNat < 0xF8 := by
  intro b hb
  obtain ⟨c, hc, hb⟩ := List.mem_flatMap.mp hb
  have hval : c.val.toNat = c.toNat := rfl
  have hlt : c.toNat < 1114112 := by
    have := c.valid
    simp only [UInt32.isValidChar, Nat.isValidChar] at this
    omega
  have hpos : 0 < c.toNat := by
    rw [Nat.pos_iff_ne_zero]
    intro hzero
    have hnul : c = '\x00' := Char.toNat_inj.mp hzero
    exact h (hnul ▸ hc)
  unfold String.utf8EncodeChar at hb
  simp only [hval] at hb
  split_ifs at hb <;> simp only [List.mem_cons, List.not_mem_nil, or_false] at hb
  · have hbyte := toNat_ofNat_small (show c.toNat < 256 by omega)
    subst hb
    omega
  · have h₁ := toNat_ofNat_small (show c.toNat / 64 % 32 + 192 < 256 by omega)
    have h₂ := toNat_ofNat_small (show c.toNat % 64 + 128 < 256 by omega)
    rcases hb with rfl | rfl <;> omega
  · have h₁ := toNat_ofNat_small (show c.toNat / 4096 % 16 + 224 < 256 by omega)
    have h₂ := toNat_ofNat_small (show c.toNat / 64 % 64 + 128 < 256 by omega)
    have h₃ := toNat_ofNat_small (show c.toNat % 64 + 128 < 256 by omega)
    rcases hb with rfl | rfl | rfl <;> omega
  · have h₁ := toNat_ofNat_small (show c.toNat / 262144 % 8 + 240 < 256 by omega)
    have h₂ := toNat_ofNat_small (show c.toNat / 4096 % 64 + 128 < 256 by omega)
    have h₃ := toNat_ofNat_small (show c.toNat / 64 % 64 + 128 < 256 by omega)
    have h₄ := toNat_ofNat_small (show c.toNat % 64 + 128 < 256 by omega)
    rcases hb with rfl | rfl | rfl | rfl <;> omega

theorem withMark_eq_none {buf : Bytes} (h : ∀ b ∈ buf, b.toNat < 0xF8) : withMark buf = none := by
  unfold withMark
  split
  · exact absurd (h 0xFF List.mem_cons_self) (by decide)
  · exact absurd (h 0xFE List.mem_cons_self) (by decide)
  · rfl

theorem looksWide_eq_false {buf : Bytes} (h : ∀ b ∈ buf, 0 < b.toNat) : looksWide buf = false := by
  match buf with
  | [] => rfl
  | [_] => rfl
  | a :: b :: rest =>
    have hb : b ≠ 0 := by
      rintro rfl
      exact absurd (h 0 (by simp)) (by decide)
    simp [looksWide, oddBytes, hb]

/-- UTF-8 without NUL is taken for what it is. -/
theorem decodeNssm_utf8 (h : '\x00' ∉ cs) : decodeNssm codepage (encodeUtf8 cs) = cs := by
  have hbounds := bounds_of_mem_encodeUtf8 h
  have hmark := withMark_eq_none fun b hb => (hbounds b hb).2
  have hwide := looksWide_eq_false fun b hb => (hbounds b hb).1
  by_cases hnil : encodeUtf8 cs = []
  · have hcs : cs = [] := encodeUtf8_injective hnil
    rw [hcs]
    rfl
  · simp [decodeNssm, hnil, hmark, hwide, decodeStrict]

/-- So is UTF-16 after a byte order mark. -/
theorem decodeNssm_marked (little : Bool) (cs : Text) :
    decodeNssm codepage ((if little then [0xFF, 0xFE] else [0xFE, 0xFF]) ++ encodeUtf16 little cs) =
      cs := by
  unfold decodeNssm
  cases little <;> simp [withMark, decodeUtf16_encodeUtf16]

/-- The code units of a text below U+0100 have NUL for their high bytes. -/
theorem looksWide_encodeUtf16 (h : ∀ c ∈ cs, c.toNat < 256) (hlong : 2 ≤ cs.length) :
    looksWide (encodeUtf16 true cs) = true := by
  have hunits : cs.flatMap utf16Units = cs.map Char.toNat :=
    units_eq_map fun c hc => (h c hc).trans (by decide)
  have hlength : (encodeUtf16 true cs).length = 2 * cs.length := by
    rw [encodeUtf16, hunits]
    simp [List.length_flatMap, unitBytes, Function.comp_def, mul_comm]
  have hodd : ∀ ds : Text, (∀ c ∈ ds, c.toNat < 256) →
      (oddBytes ((ds.map Char.toNat).flatMap (unitBytes true))).all (· = 0) = true := by
    intro ds hds
    induction ds with
    | nil => rfl
    | cons c ds ih =>
      obtain ⟨hc, hds⟩ := List.forall_mem_cons.mp hds
      have hhigh : c.toNat / 256 = 0 := by omega
      simpa [unitBytes, oddBytes, hhigh] using ih hds
  rw [looksWide, hlength, encodeUtf16, hunits, hodd cs h]
  simp
  omega

theorem decodeNssm_wide (h : ∀ c ∈ cs, c.toNat < 256) (hlong : 2 ≤ cs.length) :
    decodeNssm codepage (encodeUtf16 true cs) = cs := by
  have hwide := looksWide_encodeUtf16 h hlong
  have hnil : encodeUtf16 true cs ≠ [] := by
    intro hnil
    rw [hnil] at hwide
    cases hwide
  have hmark : withMark (encodeUtf16 true cs) = none := by
    match cs, hlong with
    | c :: d :: ds, _ =>
      have hc := h c (by simp)
      have hunits : utf16Units c = [c.toNat] := if_pos (hc.trans (by decide))
      have hhigh : c.toNat / 256 = 0 := by omega
      simp [encodeUtf16, hunits, unitBytes, hhigh, withMark]
  simp [decodeNssm, hnil, hmark, hwide, decodeUtf16_encodeUtf16]

end

/-! ## The extra environment -/

/-- What a line of `AppEnvironmentExtra` sets, once it is stripped. -/
def readEntry (stripped : Text) : Option (Text × Text) :=
  match partition '=' stripped with
  | none => none
  | some (key, value) => if Lines.strip key = [] then none else some (Lines.strip key, value)

/-- `split_environment_extra` -/
def splitEnvironmentExtra (raw : Text) : List (Text × Text) :=
  (splitLines raw).filterMap fun line =>
    if Lines.strip line = [] then none else readEntry (Lines.strip line)

theorem splitEnvironmentExtra_eq (raw : Text) :
    splitEnvironmentExtra raw = (trimmedLines raw).filterMap readEntry := by
  unfold splitEnvironmentExtra trimmedLines
  induction splitLines raw with
  | nil => rfl
  | cons line lines ih =>
    by_cases hblank : Lines.strip line = []
    · simpa [hblank] using ih
    · rw [List.map_cons, List.filter_cons_of_pos (by simpa using hblank), List.filterMap_cons,
        List.filterMap_cons, if_neg hblank, ih]

/-! ## The registry -/

/-- A value that a registry string can hold. -/
abbrev Value := { text : Text // '\x00' ∉ text }

/-- A string of `AppEnvironmentExtra`. -/
abbrev Entry := { text : Text // '\x00' ∉ text ∧ ∀ c ∈ text, isBreak c = false }

/-- A service: its strings by parameter, and its extra environment. -/
structure Service where
  strings : Dict String Value
  environment : List Entry

abbrev Registry := Dict Text Service

/-- The buffer is the text in one of the encodings that `nssm.exe` prints: without a byte order mark
it widens ASCII alone. -/
def Printed (buf : Bytes) (text : Text) : Prop :=
  buf = encodeUtf8 text ∨ buf = [0xFF, 0xFE] ++ encodeUtf16 true text ∨
    (buf = encodeUtf16 true text ∧ (∀ c ∈ text, c.toNat < 128) ∧ 2 ≤ text.length)

def Blank (text : Text) : Prop := ∀ c ∈ text, isSpace c = true

/-- What `nssm.exe get` prints: a string and the end of its line, or a line for every string of a
multi-string. -/
structure NssmExe where
  printString : Value → Bytes
  printMulti : List Entry → Bytes
  printString_eq : ∀ v : Value, ∃ blank, Blank blank ∧ printString v = encodeUtf8 (v.1 ++ blank)
  printMulti_eq : ∀ entries : List Entry, ∃ eol blank, (eol = ['\n'] ∨ eol = ['\r', '\n']) ∧
    Blank blank ∧ Printed (printMulti entries) ((entries.map (·.1)).flatMap (· ++ eol) ++ blank)

/-- Why a call of the client raises; `embeddedNul` is the `ValueError` of the subprocess. -/
inductive NssmError where
  | notFound
  | failed
  | embeddedNul
  deriving DecidableEq, Repr

/-- `NssmConfig` -/
structure NssmConfig where
  appPath : Text
  appParameters : Text
  appDirectory : Text
  appEnvironmentExtra : List Text
  appExit : Text
  displayName : Text
  description : Text
  deriving DecidableEq, Repr

def Value.empty : Value := ⟨[], List.not_mem_nil⟩

namespace Service

/-- An unset parameter is the empty string. -/
def value (s : Service) (field : String) : Value := (s.strings.get? field).getD Value.empty

def set (s : Service) (field : String) (v : Value) : Service :=
  { s with strings := s.strings.set field v }

end Service

section
variable (exe : NssmExe) (codepage : Bytes → Text)

/-- `NssmClient.get` of a string -/
def readString (s : Service) (field : String) : Text :=
  rstrip (decodeNssm codepage (exe.printString (s.value field)))

/-- `NssmClient.get_all` of a service that there is -/
def getAll (s : Service) : NssmConfig where
  appPath := readString exe codepage s "Application"
  appParameters := readString exe codepage s "AppParameters"
  appDirectory := readString exe codepage s "AppDirectory"
  appEnvironmentExtra := (splitEnvironmentExtra
    (rstrip (decodeNssm codepage (exe.printMulti s.environment)))).map fun e => e.1 ++ '=' :: e.2
  appExit := readString exe codepage s "AppExit"
  displayName := readString exe codepage s "DisplayName"
  description := readString exe codepage s "Description"

variable {exe codepage}

theorem not_isSpace_nul : isSpace '\x00' = false := by decide

theorem not_mem_append_blank {text blank : Text} (h : '\x00' ∉ text) (hblank : Blank blank) :
    '\x00' ∉ text ++ blank := by
  intro hmem
  rcases List.mem_append.mp hmem with hmem | hmem
  · exact h hmem
  · exact absurd (hblank _ hmem) (by decide)

theorem rstrip_append_blank {blank : Text} (hblank : Blank blank) (text : Text) :
    rstrip (text ++ blank) = rstrip text := by
  induction blank using List.reverseRecOn with
  | nil => rw [List.append_nil]
  | append_singleton blank c ih =>
    rw [← List.append_assoc, rstrip, List.rdropWhile_concat_pos _ _ _ (hblank c (by simp))]
    exact ih fun d hd => hblank d (by simp [hd])

/-- A string is read as it stands, without the whitespace at its end. -/
theorem readString_eq (s : Service) (field : String) :
    readString exe codepage s field = rstrip (s.value field).1 := by
  obtain ⟨blank, hblank, hprint⟩ := exe.printString_eq (s.value field)
  rw [readString, hprint,
    decodeNssm_utf8 codepage (not_mem_append_blank (s.value field).2 hblank),
    rstrip_append_blank hblank]

/-- Whatever the encoding, the entries that are read are those of the registry. -/
theorem decoded_environment (exe : NssmExe) (codepage : Bytes → Text) (s : Service) : ∃ eol blank,
    (eol = ['\n'] ∨ eol = ['\r', '\n']) ∧ Blank blank ∧
      decodeNssm codepage (exe.printMulti s.environment) =
        (s.environment.map (·.1)).flatMap (· ++ eol) ++ blank := by
  obtain ⟨eol, blank, heol, hblank, hprinted⟩ := exe.printMulti_eq s.environment
  refine ⟨eol, blank, heol, hblank, ?_⟩
  rcases hprinted with hbuf | hbuf | ⟨hbuf, hascii, hlong⟩
  · rw [hbuf]
    refine decodeNssm_utf8 codepage (not_mem_append_blank ?_ hblank)
    intro hmem
    obtain ⟨line, hline, hmem⟩ := List.mem_flatMap.mp hmem
    obtain ⟨e, -, rfl⟩ := List.mem_map.mp hline
    rcases List.mem_append.mp hmem with hmem | hmem
    · exact e.2.1 hmem
    · rcases heol with rfl | rfl <;> simp at hmem
  · rw [hbuf]
    exact decodeNssm_marked codepage true _
  · rw [hbuf]
    exact decodeNssm_wide codepage (fun c hc => (hascii c hc).trans (by decide)) hlong

/-- What one string of the registry sets. -/
def Entry.sets (e : Entry) : Option (Text × Text) :=
  if Lines.strip e.1 = [] then none else readEntry (Lines.strip e.1)

theorem appEnvironmentExtra_eq (exe : NssmExe) (codepage : Bytes → Text) (s : Service) :
    (getAll exe codepage s).appEnvironmentExtra =
      (s.environment.filterMap Entry.sets).map fun e => e.1 ++ '=' :: e.2 := by
  obtain ⟨eol, blank, heol, hblank, hdecoded⟩ := decoded_environment exe codepage s
  have hlines : trimmedLines ((s.environment.map (·.1)).flatMap (· ++ eol) ++ blank) =
      ((s.environment.map fun e => Lines.strip e.1).filter (· ≠ [])) := by
    rw [trimmedLines_append hblank, trimmedLines]
    have hwhole : ∀ e ∈ s.environment.map (·.1), ∀ c ∈ e, isBreak c = false := by
      intro e he
      obtain ⟨e, -, rfl⟩ := List.mem_map.mp he
      exact e.2.2
    have hsplit := splitLines_flatMap hwhole heol []
    rw [List.append_nil] at hsplit
    rw [hsplit, splitLines, List.append_nil, List.map_map]
    rfl
  change (splitEnvironmentExtra (rstrip _)).map _ = _
  rw [splitEnvironmentExtra_eq, trimmedLines_rstrip, hdecoded, hlines]
  congr 1
  induction s.environment with
  | nil => rfl
  | cons e entries ih =>
    by_cases hempty : Lines.strip e.1 = []
    · simpa [hempty, Entry.sets] using ih
    · rw [List.map_cons, List.filter_cons_of_pos (by simpa using hempty), List.filterMap_cons,
        List.filterMap_cons, Entry.sets, if_neg hempty, ih]

end

end Nssm
end Recto
