import Recto.Data.Regroup
import Recto.Text.Base32
import Recto.Wallet.DerivationPath

/-!
# Mnemonics of the phone

`Bip39` writes entropy and its checksum in groups of eleven bits, one word each,
and reads a phrase back. A phrase with more space than it needs is the phrase
written from its own entropy.
-/

namespace Recto
namespace Wallet

open Positional Base32 Rlp

/-! ## Phrases -/

/-- `Split` with empty parts removed, joined by single spaces elsewhere. -/
def wordsBy (sep : Char → Bool) (cs : List Char) : List (List Char) :=
  (cs.splitOnP sep).filter fun w => w ≠ []

/-- `string.Join(' ', …)` -/
def joinWords (ws : List (List Char)) : List Char := [' '].intercalate ws

/-- Each run of spaces as one. -/
def collapse : List Char → List Char
  | [] => []
  | c :: cs => if c = ' ' ∧ cs.head? = some ' ' then collapse cs else c :: collapse cs

/-- A phrase with its ends trimmed and its runs of spaces collapsed. -/
def canonicalPhrase (m : String) : String := String.ofList (collapse (trim (chars m)))

/-! ## The list -/

/-- `Bip39Wordlist.Words` -/
structure WordList where
  words : List (List Char)
  length_words : words.length = 2048
  nodup : words.Nodup
  nonempty : ∀ w ∈ words, w ≠ []
  noSpace : ∀ w ∈ words, ∀ c ∈ w, isWhiteSpace c = false

inductive Bip39Error where
  /-- `ArgumentException` -/
  | argument (message : String)
  /-- `ArgumentOutOfRangeException` -/
  | outOfRange (message : String)
  deriving DecidableEq, Repr

/-- `Bip39Wordlist.Word` -/
def WordList.word (W : WordList) (index : ℕ) : Except Bip39Error (List Char) :=
  match W.words[index]? with
  | some w => .ok w
  | none => .error (.outOfRange ("BIP-39 wordlist index must be in [0, " ++ toString W.words.length ++
      "); got " ++ toString index ++ "."))

/-- `Bip39Wordlist.IndexOf`, with nothing for `-1`. -/
def WordList.indexOf (W : WordList) (word : List Char) : Option ℕ :=
  if word = [] then none else W.words.idxOf? word

/-- What the phone takes from its libraries. -/
structure MnemonicPrimitives where
  /-- `SHA256.HashData` -/
  sha256 : Bytes → Bytes
  length_sha256 : ∀ data, (sha256 data).length = 32
  /-- `Normalize(NormalizationForm.FormKD)` -/
  formKD : String → String
  /-- PBKDF2 with HMAC-SHA512, 2048 turns and 512 bits. -/
  pbkdf2 : Bytes → Bytes → Bytes

section
variable (W : WordList) (P : MnemonicPrimitives)

/-- The checksum of some entropy: the first bits of its hash. -/
def checksumOf (entropy : Bytes) (count : ℕ) : List Bool := (byteBits (P.sha256 entropy)).take count

/-- `Bip39.MnemonicFromEntropy` -/
def mnemonicFromEntropy (entropy : Bytes) : Except Bip39Error String := do
  let lengthBits := entropy.length * 8
  ensure (lengthBits ∈ [128, 160, 192, 224, 256]) (.argument
    ("BIP-39 entropy must be 128/160/192/224/256 bits; got " ++ toString lengthBits ++ "."))
  let checksumBits := lengthBits / 32
  let bits := byteBits entropy ++ checksumOf P entropy checksumBits
  let words ← (groups 11 ((lengthBits + checksumBits) / 11) bits).mapM W.word
  return String.ofList (joinWords words)

/-- `Bip39.TryRecoverEntropy` -/
def tryRecoverEntropy (mnemonic : String) : Option Bytes :=
  if (chars mnemonic).all isWhiteSpace then none
  else
    let words := wordsBy (· == ' ') (trim (chars mnemonic))
    if words.length ∈ [12, 15, 18, 21, 24] then do
      let bits := bitsOf 11 (← words.mapM W.indexOf)
      let checksumBits := words.length * 11 / 33
      let entropyBits := words.length * 11 - checksumBits
      let entropy := (groups 8 (entropyBits / 8) (bits.take entropyBits)).map UInt8.ofNat
      if bits.drop entropyBits = checksumOf P entropy checksumBits then some entropy else none
    else none

/-- `Bip39.ValidateMnemonic` -/
def validateMnemonic (mnemonic : String) : Bool := (tryRecoverEntropy W P mnemonic).isSome

/-- `Bip39.MnemonicToSeed` -/
def mnemonicToSeed (mnemonic passphrase : String) : Except Bip39Error Bytes := do
  ensure (¬(chars mnemonic).all isWhiteSpace = true) (.argument "Mnemonic is required.")
  let normalizedMnemonic := P.formKD (String.ofList (joinWords
    (wordsBy (fun c => c == ' ' || c == '\t' || c == '\n' || c == '\r') (trim (chars mnemonic)))))
  return P.pbkdf2 (utf8 normalizedMnemonic)
    (utf8 ("mnemonic" ++ P.formKD passphrase))

end

/-! ## Words and spaces -/

section
variable {cs : List Char} {ws : List (List Char)}

theorem wordsBy_space_cons (cs : List Char) :
    wordsBy (· == ' ') (' ' :: cs) = wordsBy (· == ' ') cs := by
  rw [wordsBy, List.splitOnP_cons_eq_if_modifyHead, if_pos (by rfl), List.filter_cons_of_neg (by simp)]
  rfl

/-- The first word of a text, and the words behind it. -/
theorem wordsBy_cons {c : Char} (hc : c ≠ ' ') (cs : List Char) :
    ∃ first rest, cs.splitOnP (· == ' ') = first :: rest ∧
      wordsBy (· == ' ') (c :: cs) = (c :: first) :: rest.filter fun w => w ≠ [] := by
  obtain ⟨first, rest, hsplit⟩ := List.exists_cons_of_ne_nil (List.splitOnP_ne_nil (· == ' ') cs)
  refine ⟨first, rest, hsplit, ?_⟩
  rw [wordsBy, List.splitOnP_cons_eq_if_modifyHead, if_neg (by simpa using hc), hsplit,
    List.modifyHead_cons, List.filter_cons_of_pos (by simp)]

theorem wordsBy_ne_nil (hne : cs ≠ []) (hlast : cs.getLast? ≠ some ' ') :
    wordsBy (· == ' ') cs ≠ [] := by
  induction cs with
  | nil => exact absurd rfl hne
  | cons c cs ih =>
    by_cases hc : c = ' '
    · subst hc
      rw [wordsBy_space_cons]
      cases cs with
      | nil => exact absurd rfl hlast
      | cons d cs => exact ih (List.cons_ne_nil d cs) (by simpa using hlast)
    · obtain ⟨first, rest, -, hwords⟩ := wordsBy_cons hc cs
      rw [hwords]
      exact List.cons_ne_nil _ _

/-- Collapsing the runs of a text that ends in no space joins its words by single spaces. -/
theorem collapse_eq (hlast : cs.getLast? ≠ some ' ') : collapse cs =
    (if cs.head? = some ' ' then [' '] else []) ++ joinWords (wordsBy (· == ' ') cs) := by
  induction cs with
  | nil => rfl
  | cons c cs ih =>
    have htail : cs.getLast? ≠ some ' ' := by
      cases cs with
      | nil => simp
      | cons d cs => simpa using hlast
    by_cases hc : c = ' '
    · subst hc
      have hne : cs ≠ [] := by
        rintro rfl
        exact hlast rfl
      rw [wordsBy_space_cons, collapse, ih htail]
      by_cases hhead : cs.head? = some ' '
      · simp [hhead]
      · simp [hhead]
    · obtain ⟨first, rest, hsplit, hwords⟩ := wordsBy_cons hc cs
      have hself : wordsBy (· == ' ') cs = (first :: rest).filter fun w => w ≠ [] := by
        rw [wordsBy, hsplit]
      rw [collapse, if_neg fun h => hc h.1, ih htail, hwords]
      simp only [List.head?_cons, Option.some.injEq, hc, if_false, List.nil_append]
      cases cs with
      | nil =>
        obtain ⟨rfl, rfl⟩ : first = [] ∧ rest = [] := by simpa [eq_comm] using hsplit
        rfl
      | cons d cs =>
        by_cases hd : d = ' '
        · subst hd
          have hfirst : first = [] := by
            rw [List.splitOnP_cons_eq_if_modifyHead, if_pos (by rfl)] at hsplit
            exact (List.cons.inj hsplit).1.symm
          subst hfirst
          have hrest := wordsBy_ne_nil (List.cons_ne_nil ' ' cs) htail
          rw [List.filter_cons_of_neg (by simp)] at hself
          rw [hself] at hrest ⊢
          rw [joinWords, joinWords, List.intercalate_cons_of_ne_nil hrest]
          rfl
        · have hfirst : first ≠ [] := by
            rw [List.splitOnP_cons_eq_if_modifyHead, if_neg (by simpa using hd)] at hsplit
            obtain ⟨f, r, hfr⟩ := List.exists_cons_of_ne_nil (List.splitOnP_ne_nil (· == ' ') cs)
            rw [hfr, List.modifyHead_cons] at hsplit
            rw [← (List.cons.inj hsplit).1]
            exact List.cons_ne_nil _ _
          rw [List.filter_cons_of_pos (by simpa using hfirst)] at hself
          rw [hself]
          simp only [List.head?_cons, Option.some.injEq, hd, if_false, List.nil_append, joinWords]
          rw [List.intercalate_cons_cons_left]

/-- The ends of a trimmed text are no white space. -/
theorem trim_head {c : Char} (h : (trim cs).head? = some c) : isWhiteSpace c = false := by
  obtain ⟨rest, hrest⟩ := List.rdropWhile_prefix isWhiteSpace (cs.dropWhile isWhiteSpace)
  have hhead : (cs.dropWhile isWhiteSpace).head? = some c := by
    rw [← hrest, List.head?_append, show (cs.dropWhile isWhiteSpace).rdropWhile isWhiteSpace = trim cs
      from rfl, h, Option.some_or]
  have hnot := List.head?_dropWhile_not isWhiteSpace cs
  rw [hhead] at hnot
  simpa using hnot

theorem trim_getLast {c : Char} (h : (trim cs).getLast? = some c) : isWhiteSpace c = false := by
  have hne : trim cs ≠ [] := by
    rintro hnil
    rw [hnil] at h
    cases h
  have hlast := List.rdropWhile_last_not isWhiteSpace (cs.dropWhile isWhiteSpace) hne
  rw [List.getLast?_eq_some_getLast hne, Option.some.injEq] at h
  exact Bool.eq_false_iff.mpr fun hwhite => hlast (h ▸ hwhite)

theorem isWhiteSpace_space : isWhiteSpace ' ' = true := rfl

/-- The words of a trimmed text, joined again. -/
theorem collapse_trim (cs : List Char) :
    collapse (trim cs) = joinWords (wordsBy (· == ' ') (trim cs)) := by
  have hlast : (trim cs).getLast? ≠ some ' ' := fun h =>
    absurd (trim_getLast h) (by rw [isWhiteSpace_space]; exact Bool.noConfusion)
  have hhead : (trim cs).head? ≠ some ' ' := fun h =>
    absurd (trim_head h) (by rw [isWhiteSpace_space]; exact Bool.noConfusion)
  rw [collapse_eq hlast, if_neg hhead, List.nil_append]

/-- Words of a phrase: not empty, and without white space. -/
def AreWords (ws : List (List Char)) : Prop :=
  ws ≠ [] ∧ ∀ w ∈ ws, w ≠ [] ∧ ∀ c ∈ w, isWhiteSpace c = false

theorem getLast?_joinWords (h : AreWords ws) :
    ∃ c, (joinWords ws).getLast? = some c ∧ isWhiteSpace c = false := by
  obtain ⟨hne, hws⟩ := h
  induction ws with
  | nil => exact absurd rfl hne
  | cons w ws ih =>
    by_cases hnil : ws = []
    · subst hnil
      obtain ⟨hw, hspace⟩ := hws w List.mem_cons_self
      refine ⟨w.getLast hw, ?_, hspace _ (List.getLast_mem hw)⟩
      rw [joinWords, List.intercalate_singleton, List.getLast?_eq_some_getLast hw]
    · obtain ⟨c, hc, hspace⟩ := ih hnil fun w' hw' => hws w' (List.mem_cons_of_mem _ hw')
      rw [joinWords] at hc
      refine ⟨c, ?_, hspace⟩
      rw [joinWords, List.intercalate_cons_of_ne_nil hnil, List.getLast?_append, hc, Option.some_or]

/-- Joined words have nothing to trim. -/
theorem trim_joinWords (h : AreWords ws) : trim (joinWords ws) = joinWords ws := by
  obtain ⟨d, hlast, hd⟩ := getLast?_joinWords h
  obtain ⟨hne, hws⟩ := h
  have hdrop : (joinWords ws).dropWhile isWhiteSpace = joinWords ws := by
    obtain ⟨w, rest, rfl⟩ := List.exists_cons_of_ne_nil hne
    obtain ⟨hw, hspace⟩ := hws w List.mem_cons_self
    obtain ⟨c, w, rfl⟩ := List.exists_cons_of_ne_nil hw
    obtain ⟨tail, htail⟩ : ∃ tail, joinWords ((c :: w) :: rest) = c :: tail := by
      cases rest with
      | nil => exact ⟨w, List.intercalate_singleton⟩
      | cons w' rest => exact ⟨_, List.intercalate_cons_cons⟩
    rw [htail, List.dropWhile_cons_of_neg (by simp [hspace c List.mem_cons_self])]
  rw [trim, hdrop, List.rdropWhile_eq_self_iff]
  intro hl hwhite
  rw [List.getLast?_eq_some_getLast hl, Option.some.injEq] at hlast
  rw [hlast, hd] at hwhite
  cases hwhite

theorem joinWords_ne_nil (h : AreWords ws) : joinWords ws ≠ [] := by
  rintro hnil
  obtain ⟨c, hlast, -⟩ := getLast?_joinWords h
  rw [hnil] at hlast
  cases hlast

theorem wordsBy_joinWords (h : AreWords ws) : wordsBy (· == ' ') (joinWords ws) = ws := by
  have hspace : ∀ w ∈ ws, ' ' ∉ w := fun w hw hmem =>
    absurd ((h.2 w hw).2 ' ' hmem) (by rw [isWhiteSpace_space]; exact Bool.noConfusion)
  have hsplit : (joinWords ws).splitOnP (· == ' ') = ws := List.splitOn_intercalate ' ' hspace h.1
  rw [wordsBy, hsplit, List.filter_eq_self]
  exact fun w hw => decide_eq_true (h.2 w hw).1

/-- Between words without white space there are spaces only. -/
theorem spaces_of_words (h : ∀ w ∈ wordsBy (· == ' ') cs, ∀ c ∈ w, isWhiteSpace c = false) :
    ∀ c ∈ cs, c = ' ' ∨ isWhiteSpace c = false := by
  induction cs with
  | nil => exact fun c hc => absurd hc List.not_mem_nil
  | cons d cs ih =>
    by_cases hd : d = ' '
    · subst hd
      rw [wordsBy_space_cons] at h
      exact List.forall_mem_cons.mpr ⟨.inl rfl, ih h⟩
    · obtain ⟨first, rest, hsplit, hwords⟩ := wordsBy_cons hd cs
      rw [hwords, List.forall_mem_cons, List.forall_mem_cons] at h
      obtain ⟨⟨hd', hfirst⟩, hrest⟩ := h
      refine List.forall_mem_cons.mpr ⟨.inr hd', ih fun w hw => ?_⟩
      rw [wordsBy, hsplit, List.mem_filter, List.mem_cons] at hw
      obtain ⟨rfl | hw, hne⟩ := hw
      · exact hfirst
      · exact hrest w (List.mem_filter.mpr ⟨hw, hne⟩)

theorem wordsBy_congr {p q : Char → Bool} (h : ∀ c ∈ cs, p c = q c) : wordsBy p cs = wordsBy q cs := by
  suffices hsplit : cs.splitOnP p = cs.splitOnP q by rw [wordsBy, wordsBy, hsplit]
  induction cs with
  | nil => rfl
  | cons c cs ih =>
    obtain ⟨hc, hcs⟩ := List.forall_mem_cons.mp h
    rw [List.splitOnP_cons_eq_if_modifyHead, List.splitOnP_cons_eq_if_modifyHead, hc, ih hcs]

end

/-! ## Indices and words -/

section
variable {W : WordList} {P : MnemonicPrimitives} {ds : List ℕ} {ws : List (List Char)} {i k : ℕ}
  {w : List Char} {e : Bytes} {m : String}

/-- `IndexOf` undoes `Word`. -/
theorem WordList.word_eq_ok_iff : W.word i = .ok w ↔ W.indexOf w = some i := by
  have hword : W.word i = .ok w ↔ W.words[i]? = some w := by
    unfold WordList.word
    cases W.words[i]? with
    | none => simp
    | some w' => simp
  rw [hword, WordList.indexOf]
  constructor
  · intro h
    obtain ⟨hi, hget⟩ := List.getElem?_eq_some_iff.mp h
    rw [if_neg (W.nonempty w (List.mem_of_getElem? h)), List.idxOf?_eq_some_iff]
    refine ⟨hi, by rw [hget], fun j hj hjw => ?_⟩
    have hsame := W.nodup.getElem_inj_iff.mp (hjw.trans hget.symm)
    omega
  · intro h
    obtain ⟨-, hidx⟩ := Option.ite_none_left_eq_some.mp h
    obtain ⟨hi, hget, -⟩ := List.idxOf?_eq_some_iff.mp hidx
    exact List.getElem?_eq_some_iff.mpr ⟨hi, hget⟩

theorem WordList.mapM_word_eq_ok_iff : ds.mapM W.word = .ok ws ↔ ws.mapM W.indexOf = some ds := by
  rw [mapM_eq_ok_iff, mapM_eq_some_iff]
  constructor
  · intro h
    exact .flip (h.imp fun _ _ hword => WordList.word_eq_ok_iff.mp hword)
  · intro h
    exact .flip (h.imp fun _ _ hindex => WordList.word_eq_ok_iff.mpr hindex)

theorem WordList.indexOf_lt (h : W.indexOf w = some i) : i < 2 ^ 11 ∧ w ∈ W.words := by
  obtain ⟨-, hidx⟩ := Option.ite_none_left_eq_some.mp h
  obtain ⟨hi, hget, -⟩ := List.idxOf?_eq_some_iff.mp hidx
  rw [W.length_words] at hi
  exact ⟨hi, hget ▸ List.getElem_mem _⟩

theorem WordList.of_mapM (h : ws.mapM W.indexOf = some ds) :
    (∀ w ∈ ws, w ∈ W.words) ∧ (∀ d ∈ ds, d < 2 ^ 11) ∧ ds.length = ws.length := by
  have hall := mapM_eq_some_iff.mp h
  obtain ⟨hws, hds⟩ := forall_of_forall₂ hall fun hindex => (WordList.indexOf_lt hindex).symm
  exact ⟨hws, hds, hall.length_eq.symm⟩

theorem WordList.areWords (hne : ws ≠ []) (h : ∀ w ∈ ws, w ∈ W.words) : AreWords ws :=
  ⟨hne, fun w hw => ⟨W.nonempty w (h w hw), W.noSpace w (h w hw)⟩⟩

theorem WordList.exists_words (W : WordList) (ds : List ℕ) (h : ∀ d ∈ ds, d < 2 ^ 11) :
    ∃ ws, ds.mapM W.word = .ok ws := by
  induction ds with
  | nil => exact ⟨[], rfl⟩
  | cons d ds ih =>
    obtain ⟨hd, hds⟩ := List.forall_mem_cons.mp h
    obtain ⟨ws, hws⟩ := ih hds
    have hlt : d < W.words.length := by
      rw [W.length_words]
      exact hd
    have hword : W.word d = .ok (W.words.get ⟨d, hlt⟩) := by
      rw [WordList.word, List.getElem?_eq_getElem hlt]
      rfl
    refine ⟨W.words.get ⟨d, hlt⟩ :: ws, ?_⟩
    rw [List.mapM_cons, hword, ok_bind, hws]
    rfl

/-! ## Entropy and bits -/

@[simp] theorem length_checksumOf (hk : k ≤ 256) : (checksumOf P e k).length = k := by
  rw [checksumOf, List.length_take, length_byteBits, P.length_sha256]
  exact min_eq_left hk

/-- Bytes read from bits spell the bits. -/
theorem byteBits_groups {bs : List Bool} {count : ℕ} (h : bs.length = 8 * count) :
    byteBits ((groups 8 count bs).map UInt8.ofNat) = bs := by
  have hid : ((groups 8 count bs).map UInt8.ofNat).map UInt8.toNat = groups 8 count bs := by
    rw [List.map_map]
    refine (List.map_congr_left fun d hd => ?_).trans (List.map_id _)
    exact toNat_ofNat_small (groups_lt hd)
  rw [byteBits, hid, bitsOf_groups h]

theorem groups_byteBits (e : Bytes) : (groups 8 e.length (byteBits e)).map UInt8.ofNat = e :=
  byteBits_injective (byteBits_groups (length_byteBits e))

/-- Entropy of `4 * k` bytes and its checksum, in groups of eleven bits. -/
def indicesOf (P : MnemonicPrimitives) (e : Bytes) (k : ℕ) : List ℕ :=
  groups 11 (3 * k) (byteBits e ++ checksumOf P e k)

theorem mnemonicFromEntropy_eq (hk : 4 ≤ k ∧ k ≤ 8) (he : e.length = 4 * k) :
    mnemonicFromEntropy W P e =
      ((indicesOf P e k).mapM W.word).map fun ws => String.ofList (joinWords ws) := by
  have hmem : e.length * 8 ∈ [128, 160, 192, 224, 256] := by
    obtain ⟨hlow, hhigh⟩ := hk
    simp only [List.mem_cons, List.not_mem_nil, or_false]
    omega
  have hchecksum : e.length * 8 / 32 = k := by omega
  have hcount : (e.length * 8 + k) / 11 = 3 * k := by omega
  rw [mnemonicFromEntropy]
  dsimp only
  rw [ensure, if_pos hmem, ok_bind, hchecksum, hcount, indicesOf]
  cases (groups 11 (3 * k) (byteBits e ++ checksumOf P e k)).mapM W.word with
  | error error => rfl
  | ok ws => rfl

theorem mnemonicFromEntropy_length (h : mnemonicFromEntropy W P e = .ok m) :
    ∃ k, (4 ≤ k ∧ k ≤ 8) ∧ e.length = 4 * k := by
  rw [mnemonicFromEntropy] at h
  dsimp only at h
  obtain ⟨_, hensure, -⟩ := Except.bind_eq_ok.mp h
  have hmem := ensure_eq_ok.mp hensure
  simp only [List.mem_cons, List.not_mem_nil, or_false] at hmem
  exact ⟨e.length / 4, by omega, by omega⟩

theorem bitsOf_indicesOf (hk : 4 ≤ k ∧ k ≤ 8) (he : e.length = 4 * k) :
    bitsOf 11 (indicesOf P e k) = byteBits e ++ checksumOf P e k := by
  refine bitsOf_groups ?_
  rw [List.length_append, length_byteBits, length_checksumOf (by omega), he]
  omega

/-- What `TryRecoverEntropy` reads from a phrase. -/
structure Recovered (W : WordList) (P : MnemonicPrimitives) (m : String) (e : Bytes)
    (ws : List (List Char)) (k : ℕ) : Prop where
  words : wordsBy (· == ' ') (trim (chars m)) = ws
  size : (4 ≤ k ∧ k ≤ 8) ∧ ws.length = 3 * k
  indices : ws.mapM W.indexOf = some (indicesOf P e k)
  entropy : e.length = 4 * k

theorem tryRecoverEntropy_eq_some : tryRecoverEntropy W P m = some e ↔
    ∃ ws k, Recovered W P m e ws k := by
  unfold tryRecoverEntropy
  dsimp only
  generalize hwords : wordsBy (· == ' ') (trim (chars m)) = ws
  constructor
  · intro h
    obtain ⟨-, h⟩ := Option.ite_none_left_eq_some.mp h
    obtain ⟨hmem, h⟩ := Option.ite_none_right_eq_some.mp h
    obtain ⟨ds, hds, h⟩ := Option.bind_eq_some_iff.mp h
    obtain ⟨k, hk, hlength⟩ : ∃ k, (4 ≤ k ∧ k ≤ 8) ∧ ws.length = 3 * k := by
      simp only [List.mem_cons, List.not_mem_nil, or_false] at hmem
      exact ⟨ws.length / 3, by omega, by omega⟩
    have hchecksum : ws.length * 11 / 33 = k := by omega
    have hbits : ws.length * 11 - k = 32 * k := by omega
    have hbytes : 32 * k / 8 = 4 * k := by omega
    rw [hchecksum, hbits, hbytes] at h
    obtain ⟨hdrop, he⟩ := Option.ite_none_right_eq_some.mp h
    obtain rfl := Option.some.inj he
    obtain ⟨-, hlt, hcount⟩ := WordList.of_mapM hds
    have htake : ((bitsOf 11 ds).take (32 * k)).length = 8 * (4 * k) := by
      rw [List.length_take, length_bitsOf, hcount, hlength]
      omega
    refine ⟨ws, k, hwords, ⟨hk, hlength⟩, ?_, by rw [List.length_map, length_groups]⟩
    rw [hds, indicesOf, byteBits_groups htake, ← hdrop, List.take_append_drop, ← hlength, ← hcount,
      groups_bitsOf (by omega) hlt]
  · rintro ⟨ws', k, rfl, ⟨hk, hlength⟩, hindices, hentropy⟩
    rw [hwords] at hlength hindices
    have hblank : ¬(chars m).all isWhiteSpace = true := by
      intro hblank
      rw [← hwords, trim_eq_nil.mpr hblank] at hlength
      rw [show wordsBy (· == ' ') [] = [] from rfl, List.length_nil] at hlength
      omega
    have hmem : ws.length ∈ [12, 15, 18, 21, 24] := by
      simp only [List.mem_cons, List.not_mem_nil, or_false]
      omega
    have hchecksum : ws.length * 11 / 33 = k := by omega
    have hbits : ws.length * 11 - k = (byteBits e).length := by
      rw [length_byteBits]
      omega
    have hbytes : (byteBits e).length / 8 = e.length := by
      rw [length_byteBits]
      omega
    rw [if_neg hblank, if_pos hmem, hindices, hchecksum, hbits, hbytes]
    show (if (bitsOf 11 (indicesOf P e k)).drop _ = _ then _ else none) = _
    rw [bitsOf_indicesOf hk hentropy, List.take_left, List.drop_left, groups_byteBits, if_pos rfl]

/-- A phrase written from entropy gives it back. -/
theorem recovered_of_mnemonicFromEntropy (h : mnemonicFromEntropy W P e = .ok m) :
    tryRecoverEntropy W P m = some e := by
  obtain ⟨k, hk, he⟩ := mnemonicFromEntropy_length h
  rw [mnemonicFromEntropy_eq hk he, Except.map_eq_ok] at h
  obtain ⟨ws, hws, rfl⟩ := h
  have hindices := WordList.mapM_word_eq_ok_iff.mp hws
  obtain ⟨hmem, -, hcount⟩ := WordList.of_mapM hindices
  have hlength : ws.length = 3 * k := by rw [← hcount, indicesOf, length_groups]
  have hwords : AreWords ws := by
    refine WordList.areWords (List.ne_nil_of_length_pos ?_) hmem
    omega
  refine tryRecoverEntropy_eq_some.mpr ⟨ws, k, ?_, ⟨hk, hlength⟩, hindices, he⟩
  rw [chars_ofList, trim_joinWords hwords, wordsBy_joinWords hwords]

/-- Entropy of one of the five sizes has a phrase. -/
theorem exists_mnemonic (he : e.length ∈ [16, 20, 24, 28, 32]) :
    ∃ m, mnemonicFromEntropy W P e = .ok m := by
  obtain ⟨k, hk, hlength⟩ : ∃ k, (4 ≤ k ∧ k ≤ 8) ∧ e.length = 4 * k := by
    simp only [List.mem_cons, List.not_mem_nil, or_false] at he
    exact ⟨e.length / 4, by omega, by omega⟩
  obtain ⟨ws, hws⟩ := WordList.exists_words W (indicesOf P e k) fun d hd => groups_lt hd
  exact ⟨_, by rw [mnemonicFromEntropy_eq hk hlength, hws]; rfl⟩

theorem Recovered.areWords {ws : List (List Char)} (h : Recovered W P m e ws k) : AreWords ws := by
  have hlength := h.size.2
  refine WordList.areWords (List.ne_nil_of_length_pos ?_) (WordList.of_mapM h.indices).1
  have hk := h.size.1.1
  omega

theorem Recovered.canonicalPhrase_eq {ws : List (List Char)} (h : Recovered W P m e ws k) :
    canonicalPhrase m = String.ofList (joinWords ws) := by
  rw [canonicalPhrase, collapse_trim, h.words]

/-- The phrase of the recovered entropy is the canonical one. -/
theorem mnemonicFromEntropy_of_recovered (h : tryRecoverEntropy W P m = some e) :
    mnemonicFromEntropy W P e = .ok (canonicalPhrase m) := by
  obtain ⟨ws, k, hrec⟩ := tryRecoverEntropy_eq_some.mp h
  rw [mnemonicFromEntropy_eq hrec.size.1 hrec.entropy,
    WordList.mapM_word_eq_ok_iff.mpr hrec.indices, hrec.canonicalPhrase_eq]
  rfl

/-- The seed splits on more than spaces, but a valid phrase has nothing else between its words. -/
theorem seedWords_eq {cs : List Char} (h : ∀ w ∈ wordsBy (· == ' ') cs, ∀ c ∈ w, isWhiteSpace c = false) :
    wordsBy (fun c => c == ' ' || c == '\t' || c == '\n' || c == '\r') cs =
      wordsBy (· == ' ') cs := by
  refine wordsBy_congr fun c hc => ?_
  rcases spaces_of_words h c hc with rfl | hspace
  · rfl
  · have hne : ∀ d, isWhiteSpace d = true → (c == d) = false := by
      intro d hd
      refine beq_eq_false_iff_ne.mpr ?_
      rintro rfl
      rw [hspace] at hd
      cases hd
    rw [hne '\t' (by decide +kernel), hne '\n' (by decide +kernel), hne '\r' (by decide +kernel),
      Bool.or_false, Bool.or_false, Bool.or_false]

theorem mnemonicToSeed_canonicalPhrase (h : tryRecoverEntropy W P m = some e) (passphrase : String) :
    mnemonicToSeed P m passphrase = mnemonicToSeed P (canonicalPhrase m) passphrase := by
  obtain ⟨ws, k, hrec⟩ := tryRecoverEntropy_eq_some.mp h
  have hwords := hrec.areWords
  have hcanonical : trim (chars (canonicalPhrase m)) = joinWords ws := by
    rw [hrec.canonicalPhrase_eq, chars_ofList, trim_joinWords hwords]
  have hblank : ∀ {s : String}, trim (chars s) ≠ [] → ¬(chars s).all isWhiteSpace = true :=
    fun hne hall => hne (trim_eq_nil.mpr hall)
  have hm : trim (chars m) ≠ [] := by
    rintro hnil
    have hws := hrec.words
    rw [hnil] at hws
    exact hwords.1 hws.symm
  have hmseed : wordsBy (fun c => c == ' ' || c == '\t' || c == '\n' || c == '\r')
      (trim (chars m)) = ws := by
    rw [seedWords_eq, hrec.words]
    rw [hrec.words]
    exact fun w hw => (hwords.2 w hw).2
  have hcseed : wordsBy (fun c => c == ' ' || c == '\t' || c == '\n' || c == '\r')
      (joinWords ws) = ws := by
    rw [seedWords_eq, wordsBy_joinWords hwords]
    rw [wordsBy_joinWords hwords]
    exact fun w hw => (hwords.2 w hw).2
  rw [mnemonicToSeed, mnemonicToSeed, ensure, ensure, if_pos (hblank hm),
    if_pos (hblank (hcanonical ▸ joinWords_ne_nil hwords)), hcanonical, hmseed, hcseed]

end

/-- Entropy and phrases are in bijection: a phrase gives its entropy back, a valid phrase is the one
of its entropy but for spaces and means the same seed, and no phrase belongs to two entropies. -/
theorem mnemonic_bijection (W : WordList) (P : MnemonicPrimitives) :
    (∀ e : Bytes, e.length ∈ [16, 20, 24, 28, 32] →
      ∃ m, mnemonicFromEntropy W P e = .ok m ∧ tryRecoverEntropy W P m = some e) ∧
    (∀ m, validateMnemonic W P m = true →
      ∃ e, tryRecoverEntropy W P m = some e ∧
        mnemonicFromEntropy W P e = .ok (canonicalPhrase m) ∧
        ∀ passphrase, mnemonicToSeed P m passphrase =
          mnemonicToSeed P (canonicalPhrase m) passphrase) ∧
    ∀ e e' m, mnemonicFromEntropy W P e = .ok m → mnemonicFromEntropy W P e' = .ok m → e = e' := by
  refine ⟨fun e he => ?_, fun m hm => ?_, fun e e' m h h' => ?_⟩
  · obtain ⟨m, hm⟩ := exists_mnemonic (W := W) (P := P) he
    exact ⟨m, hm, recovered_of_mnemonicFromEntropy hm⟩
  · obtain ⟨e, he⟩ := Option.isSome_iff_exists.mp hm
    exact ⟨e, he, mnemonicFromEntropy_of_recovered he, mnemonicToSeed_canonicalPhrase he⟩
  · have hsame := (recovered_of_mnemonicFromEntropy h).symm.trans (recovered_of_mnemonicFromEntropy h')
    exact Option.some.inj hsame

/-- Eleven letters for eleven bits. -/
def letters (i : ℕ) : List Char := (bits 11 i).map fun b => if b then 'b' else 'a'

theorem letters_injective {i j : ℕ} (hi : i < 2048) (hj : j < 2048) (h : letters i = letters j) :
    i = j := by
  refine bits_injective (w := 11) hi hj (List.map_injective_iff.mpr ?_ h)
  intro a b hab
  cases a <;> cases b <;> simp_all

def sampleWordList : WordList where
  words := (List.range 2048).map letters
  length_words := by rw [List.length_map, List.length_range]
  nodup := List.Nodup.map_on
    (fun _ hi _ hj => letters_injective (List.mem_range.mp hi) (List.mem_range.mp hj)) List.nodup_range
  nonempty := by
    intro w hw
    obtain ⟨i, -, rfl⟩ := List.mem_map.mp hw
    refine List.ne_nil_of_length_pos ?_
    rw [letters, List.length_map, length_bits]
    exact Nat.succ_pos 10
  noSpace := by
    intro w hw c hc
    obtain ⟨i, -, rfl⟩ := List.mem_map.mp hw
    obtain ⟨b, -, rfl⟩ := List.mem_map.mp hc
    cases b
    · decide +kernel
    · decide +kernel

def samplePrimitives : MnemonicPrimitives where
  sha256 data := toBytesBig 32 (fromBytesBig data)
  length_sha256 _ := length_toBytesBig 32 _
  formKD s := s
  pbkdf2 password salt := password ++ salt

theorem mnemonic_bijection_sample : ∃ m,
    mnemonicFromEntropy sampleWordList samplePrimitives (List.replicate 16 7) = .ok m ∧
      mnemonicFromEntropy sampleWordList samplePrimitives (List.replicate 16 7) =
        .ok (canonicalPhrase m) := by
  obtain ⟨hwrite, hread, -⟩ := mnemonic_bijection sampleWordList samplePrimitives
  obtain ⟨m, hm, hrec⟩ := hwrite (List.replicate 16 7) (by decide)
  obtain ⟨e, hrec', he, -⟩ := hread m (by rw [validateMnemonic, hrec]; rfl)
  obtain rfl := Option.some.inj (hrec.symm.trans hrec')
  exact ⟨m, hm, he⟩

end Wallet
end Recto
