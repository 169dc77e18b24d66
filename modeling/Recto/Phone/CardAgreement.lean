import Mathlib.Data.List.DropRight
import Recto.Phone.UserVaultCard

/-!
# What a card shows and signs is what the host admits

A card that can be built shows every field it signs, offers only windows that
shorten the proposal, and signs the bytes the host rebuilds. The host takes the
record exactly when no text of it ends in a line feed: the phone's patterns let
one pass, and the host refuses space around a text.
-/

namespace Recto
namespace Phone

open Capability
open UserVault (isWord isScopeChar isNonce)
open Connections (isConnectionKey isKeyChar)

/-! ## Rows -/

section
variable {uris : UriRules} {record : ClrRecord} {fields : List String}
  {rows : List UserVaultCardRow}

theorem collectRows_eq_ok : collectRows uris record fields = .ok (some rows) ↔
    List.Forall₂ (fun field row => rowFor uris record field = .ok (some row)) fields rows := by
  induction fields generalizing rows with
  | nil =>
    rw [collectRows, List.forall₂_nil_left_iff]
    exact ⟨fun h => (Option.some.inj (Except.ok.inj h)).symm, fun h => h ▸ rfl⟩
  | cons field fields ih =>
    rw [collectRows, Except.bind_eq_ok, List.forall₂_cons_left_iff]
    constructor
    · rintro ⟨row?, hrow, h⟩
      cases row? with
      | none => cases h
      | some row =>
        obtain ⟨rows?, hrows, h⟩ := Except.bind_eq_ok.mp h
        obtain ⟨rest, rfl, rfl⟩ := Option.map_eq_some_iff.mp (Except.ok.inj h)
        exact ⟨row, rest, hrow, ih.mp hrows, rfl⟩
    · rintro ⟨row, rest, hrow, hrest, rfl⟩
      refine ⟨some row, hrow, Except.bind_eq_ok.mpr ⟨some rest, ih.mpr hrest, rfl⟩⟩

/-- Every renderer has its place in the order. -/
theorem mem_rowOrder {field : String} (h : field ∈ (renderers uris).map Prod.fst) :
    field ∈ rowOrder := by
  simp only [renderers, List.map_cons, List.map_nil] at h
  revert field
  decide

/-- The fields of a record that has no others, in the order of the rows. -/
theorem length_rowOrder_filter (hnodup : (record.map Prod.fst).Nodup)
    (hknown : ∀ f ∈ record, f.1 ∈ (renderers uris).map Prod.fst) :
    (rowOrder.filter fun field => field ∈ record.map Prod.fst).length = record.length := by
  have hperm : (rowOrder.filter fun field => field ∈ record.map Prod.fst).Perm
      (record.map Prod.fst) := by
    refine (List.perm_ext_iff_of_nodup (List.Nodup.filter _ (by decide)) hnodup).mpr fun field => ?_
    rw [List.mem_filter, decide_eq_true_iff, and_iff_right_iff_imp]
    intro hfield
    obtain ⟨f, hf, rfl⟩ := List.mem_map.mp hfield
    exact mem_rowOrder (hknown f hf)
  rw [hperm.length_eq, List.length_map]

/-- The rows of a record: one for each field. -/
theorem rowsFor_eq_ok (hnodup : (record.map Prod.fst).Nodup) :
    rowsFor uris record = .ok (some rows) ↔
      (∀ f ∈ record, f.1 ∈ (renderers uris).map Prod.fst) ∧
        List.Forall₂ (fun field row => rowFor uris record field = .ok (some row))
          (rowOrder.filter fun field => field ∈ record.map Prod.fst) rows := by
  unfold rowsFor
  split_ifs with hknown
  · rw [Except.bind_eq_ok, and_iff_right hknown, ← collectRows_eq_ok]
    constructor
    · rintro ⟨rows?, hrows, h⟩
      obtain ⟨rfl, -⟩ := Option.filter_eq_some_iff.mp (Except.ok.inj h)
      exact hrows
    · intro hrows
      have hlength := (collectRows_eq_ok.mp hrows).length_eq
      rw [length_rowOrder_filter hnodup hknown] at hlength
      exact ⟨some rows, hrows, congrArg _ (by simp [Option.filter, hlength.symm])⟩
  · exact ⟨fun h => absurd (Except.ok.inj h) nofun, fun h => absurd h.1 hknown⟩

theorem rowFor_eq_ok {field : String} {row : UserVaultCardRow} :
    rowFor uris record field = .ok (some row) ↔ ∃ r v, (renderers uris).lookup field = some r ∧
      record.lookup field = some v ∧ r.render v = .ok (some row.value) ∧ row.field = field ∧
        row.label = r.label ∧ row.isHandle = r.isHandle := by
  unfold rowFor
  cases hr : (renderers uris).lookup field with
  | none => simp [Except.pure_eq_ok]
  | some r =>
    cases hv : record.lookup field with
    | none => simp [Except.pure_eq_ok]
    | some v =>
      simp only [Except.bind_eq_ok, Except.pure_eq_ok, Option.map_eq_some_iff, Option.some.injEq]
      constructor
      · rintro ⟨_, hvalue, value, rfl, rfl⟩
        exact ⟨r, v, rfl, rfl, hvalue, rfl, rfl, rfl⟩
      · rintro ⟨_, _, rfl, rfl, hvalue, rfl, hlabel, hhandle⟩
        exact ⟨_, hvalue, _, rfl, by rw [← hlabel, ← hhandle]⟩

theorem exists_forall₂ {α β : Type} {R : α → β → Prop} {l : List α}
    (h : ∀ a ∈ l, ∃ b, R a b) : ∃ l', List.Forall₂ R l l' := by
  induction l with
  | nil => exact ⟨[], .nil⟩
  | cons a l ih =>
    obtain ⟨⟨b, hb⟩, hrest⟩ := List.forall_mem_cons.mp h
    obtain ⟨l', hl'⟩ := ih hrest
    exact ⟨b :: l', .cons hb hl'⟩

theorem exists_of_forall₂ {α β : Type} {R : α → β → Prop} {l : List α} {l' : List β}
    (h : List.Forall₂ R l l') {a : α} (ha : a ∈ l) : ∃ b ∈ l', R a b := by
  induction h with
  | nil => cases ha
  | cons hab _ ih =>
    rcases List.mem_cons.mp ha with rfl | ha
    · exact ⟨_, List.mem_cons_self, hab⟩
    · obtain ⟨b, hb, hr⟩ := ih ha
      exact ⟨b, List.mem_cons_of_mem _ hb, hr⟩

/-- A record has its rows when every field renders. -/
theorem exists_rowsFor (hnodup : (record.map Prod.fst).Nodup)
    (h : ∀ f ∈ record, ∃ row, rowFor uris record f.1 = .ok (some row)) :
    ∃ rows, rowsFor uris record = .ok (some rows) := by
  have hknown : ∀ f ∈ record, f.1 ∈ (renderers uris).map Prod.fst := by
    intro f hf
    obtain ⟨row, hrow⟩ := h f hf
    obtain ⟨r, -, hr, -⟩ := rowFor_eq_ok.mp hrow
    obtain ⟨_, _, hsplit, -⟩ := List.lookup_eq_some_iff.mp hr
    exact List.mem_map.mpr ⟨(f.1, r), by rw [hsplit]; simp, rfl⟩
  have hrows : ∀ field ∈ rowOrder.filter fun field => field ∈ record.map Prod.fst,
      ∃ row, rowFor uris record field = .ok (some row) := by
    intro field hfield
    obtain ⟨f, hf, rfl⟩ := List.mem_map.mp (of_decide_eq_true (List.mem_filter.mp hfield).2)
    exact h f hf
  obtain ⟨rows, hrows⟩ := exists_forall₂ hrows
  exact ⟨rows, (rowsFor_eq_ok hnodup).mpr ⟨hknown, hrows⟩⟩

/-- Every field has its row. -/
theorem exists_row (hnodup : (record.map Prod.fst).Nodup)
    (h : rowsFor uris record = .ok (some rows)) :
    ∀ f ∈ record, ∃ row ∈ rows, rowFor uris record f.1 = .ok (some row) := by
  obtain ⟨hknown, hrows⟩ := (rowsFor_eq_ok hnodup).mp h
  intro f hf
  refine exists_of_forall₂ hrows (List.mem_filter.mpr ?_)
  exact ⟨mem_rowOrder (hknown f hf), decide_eq_true (List.mem_map_of_mem hf)⟩

end

/-! ## Grammars -/

/-- What has the pattern is a text without space. -/
def Solid (pattern : String → Bool) : Prop :=
  ∀ s, pattern s = true → s ≠ "" ∧ ∀ c ∈ chars s, isTokenChar c = true

section
variable {pattern : String → Bool} {s t : String} {c : Char}

theorem not_isSpace_of_isTokenChar (h : isTokenChar c = true) : Json.isSpace c = false := by
  have hspace : c ≠ ' ' := by
    rintro rfl
    revert h
    decide
  simp only [isTokenChar, Bool.and_eq_true, decide_eq_true_eq] at h
  simp only [Json.isSpace, Bool.or_eq_false_iff, decide_eq_false_iff_not, Bool.and_eq_false_iff]
  refine ⟨⟨hspace, ?_⟩, ?_⟩ <;> omega

/-- The host reads a text without space. -/
theorem text_of_solid (h : Solid pattern) (hs : pattern s = true) : UserVault.text (.str s) = .ok s := by
  obtain ⟨hne, hall⟩ := h s hs
  have hstrip := strip_eq_self fun c hc => not_isSpace_of_isTokenChar (hall c hc)
  exact if_pos ⟨hstrip, hne⟩

theorem getLast?_of_solid (h : Solid pattern) (hs : pattern s = true) :
    (chars s).getLast? ≠ some '\n' := by
  intro hlast
  have := (h s hs).2 '\n' (List.mem_of_getLast? hlast)
  revert this
  decide

/-- A pattern that matches a line matches the text, unless a line feed ends it. -/
theorem matchesLine_iff (h : Solid pattern) :
    matchesLine pattern s = true ∧ (chars s).getLast? ≠ some '\n' ↔ pattern s = true := by
  constructor
  · rintro ⟨hmatch, hlast⟩
    simpa only [matchesLine, hlast, decide_false, Bool.false_and, Bool.or_false] using hmatch
  · intro hs
    exact ⟨by simp [matchesLine, hs], getLast?_of_solid h hs⟩

/-- A text the host reads does not end in a line feed. -/
theorem getLast?_of_text {x : Json} (h : UserVault.text x = .ok s) :
    x = .str s ∧ (chars s).getLast? ≠ some '\n' := by
  cases x with
  | str u =>
    simp only [UserVault.text] at h
    split_ifs at h with hstrip
    obtain rfl := Except.ok.inj h
    refine ⟨rfl, fun hlast => ?_⟩
    set cs := (chars u).dropWhile Json.isSpace with hcs
    have hchars : chars u = cs.rdropWhile Json.isSpace := by
      conv_lhs => rw [← hstrip.1]
      exact chars_ofList _
    have hne : cs.rdropWhile Json.isSpace ≠ [] := by
      rw [← hchars]
      rintro hnil
      rw [hnil] at hlast
      cases hlast
    have hspace := List.rdropWhile_last_not Json.isSpace cs hne
    rw [hchars, List.getLast?_eq_some_getLast hne] at hlast
    rw [Option.some.inj hlast] at hspace
    exact hspace (by decide)
  | _ => cases h

/-- The alphabet of base64url. -/
theorem exists_b64Char (h : isB64uChar c = true) : ∃ n < 64, b64Char n = c := by
  simp only [isB64uChar, Bool.or_eq_true, Bool.and_eq_true, decide_eq_true_eq, Char.le_def,
    UInt32.le_iff_toNat_le] at h
  have hc : c.val.toNat = c.toNat := rfl
  rcases h with (((⟨hlo, hhi⟩ | ⟨hlo, hhi⟩) | ⟨hlo, hhi⟩) | rfl) | rfl
  · change 65 ≤ c.val.toNat at hlo
    change c.val.toNat ≤ 90 at hhi
    refine ⟨c.toNat - 65, by omega, ?_⟩
    rw [b64Char, if_pos (by omega), show 65 + (c.toNat - 65) = c.toNat by omega, Char.ofNat_toNat]
  · change 97 ≤ c.val.toNat at hlo
    change c.val.toNat ≤ 122 at hhi
    refine ⟨c.toNat - 71, by omega, ?_⟩
    rw [b64Char, if_neg (by omega), if_pos (by omega),
      show 71 + (c.toNat - 71) = c.toNat by omega, Char.ofNat_toNat]
  · change 48 ≤ c.val.toNat at hlo
    change c.val.toNat ≤ 57 at hhi
    refine ⟨c.toNat + 4, by omega, ?_⟩
    rw [b64Char, if_neg (by omega), if_neg (by omega), if_pos (by omega),
      show c.toNat + 4 - 4 = c.toNat by omega, Char.ofNat_toNat]
  · exact ⟨63, by decide, by decide⟩
  · exact ⟨62, by decide, by decide⟩

/-- What holds of the alphabet holds of each of its characters. -/
theorem of_isB64uChar {p : Char → Prop} (h : ∀ n < 64, p (b64Char n)) (hc : isB64uChar c = true) :
    p c := by
  obtain ⟨n, hn, rfl⟩ := exists_b64Char hc
  exact h n hn

theorem isTokenChar_of_isB64uChar (h : isB64uChar c = true) : isTokenChar c = true :=
  of_isB64uChar (p := fun c => isTokenChar c = true) (by decide) h

theorem solid_isWord {p : Char → Bool} {lo hi : ℕ} (hp : ∀ c, p c = true → isTokenChar c = true)
    (hlo : 1 ≤ lo) : Solid (isWord p lo hi) := by
  intro s hs
  simp only [isWord, Bool.and_eq_true, decide_eq_true_eq, List.all_eq_true] at hs
  refine ⟨?_, fun c hc => hp c (hs.2 c hc)⟩
  rintro rfl
  exact absurd (hlo.trans hs.1.1) (by decide)

theorem solid_isRun {p : Char → Bool} {n : ℕ} (hp : ∀ c, p c = true → isTokenChar c = true)
    (hn : 1 ≤ n) : Solid (isRun p n) := by
  intro s hs
  simp only [isRun, Bool.and_eq_true, decide_eq_true_eq, List.all_eq_true] at hs
  refine ⟨?_, fun c hc => hp c (hs.2 c hc)⟩
  rintro rfl
  exact absurd (hs.1.symm ▸ hn : 1 ≤ (chars "").length) (by decide)

theorem isB64uChar_of_isKeyChar (h : isKeyChar c = true) : isB64uChar c = true := by
  simp only [isKeyChar, isB64uChar, Bool.or_eq_true] at h ⊢
  tauto

theorem solid_isConnectionKey : Solid isConnectionKey := by
  intro s hs
  unfold isConnectionKey at hs
  cases hchars : chars s with
  | nil =>
    rw [hchars] at hs
    cases hs
  | cons c cs =>
    simp only [hchars, Bool.and_eq_true, List.all_eq_true] at hs
    refine ⟨?_, fun d hd => isTokenChar_of_isB64uChar (isB64uChar_of_isKeyChar ?_)⟩
    · rintro rfl
      have hnil : chars "" = [] := by decide
      rw [hnil] at hchars
      cases hchars
    · rcases List.mem_cons.mp hd with rfl | hd
      · exact hs.1.1.1.1
      · exact hs.1.2 d hd

end

/-! ## Handles and addresses -/

section
variable {uris : UriRules} {s t : String}

theorem b64Value_toStandard {c : Char} (h : isB64uChar c = true) :
    b64Value (toStandard c) = b64Value c ∧ toStandard c ≠ '=' ∧ c ≠ '=' := by
  refine of_isB64uChar (p := fun c => b64Value (toStandard c) = b64Value c ∧ toStandard c ≠ '=' ∧
    c ≠ '=') (by decide) h

/-- Both alphabets decode alike. -/
theorem a2bBase64_toStandard {cs : List Char} (h : ∀ c ∈ cs, isB64uChar c = true)
    (rest : List Char) (quad left pads : ℕ) :
    a2bBase64 (cs.map toStandard ++ rest) quad left pads = a2bBase64 (cs ++ rest) quad left pads := by
  induction cs generalizing quad left pads with
  | nil => rfl
  | cons c cs ih =>
    obtain ⟨hvalue, hstandard, hpad⟩ := b64Value_toStandard (h c List.mem_cons_self)
    have hrest := fun quad left pads =>
      ih (fun d hd => h d (List.mem_cons_of_mem _ hd)) quad left pads
    simp only [List.map_cons, List.cons_append]
    rw [a2bBase64, a2bBase64, if_neg hstandard, if_neg hpad, hvalue]
    simp only [hrest]

theorem fromBase64String_eq (h : isRun isB64uChar 43 s = true) :
    fromBase64String ((chars s).map toStandard ++ ['=']) = unb64u s := by
  simp only [isRun, Bool.and_eq_true, decide_eq_true_eq, List.all_eq_true] at h
  obtain ⟨hlength, hall⟩ := h
  have hstandard : ∀ c ∈ (chars s).map toStandard, isBase64Space c = false ∧
      ((b64Value c).isSome && c ≠ '-' && c ≠ '_') = true ∧ c ≠ '=' := by
    intro c hc
    obtain ⟨d, hd, rfl⟩ := List.mem_map.mp hc
    exact of_isB64uChar (p := fun d => isBase64Space (toStandard d) = false ∧
      ((b64Value (toStandard d)).isSome && toStandard d ≠ '-' && toStandard d ≠ '_') = true ∧
        toStandard d ≠ '=') (by decide) (hall d hd)
  have hfilter : ((chars s).map toStandard ++ ['=']).filter (fun c => !isBase64Space c) =
      (chars s).map toStandard ++ ['='] := by
    rw [List.filter_eq_self]
    intro c hc
    rcases List.mem_append.mp hc with hc | hc
    · simp [(hstandard c hc).1]
    · obtain rfl := List.mem_singleton.mp hc
      decide
  have htake : ((chars s).map toStandard ++ ['=']).takeWhile (· ≠ '=') = (chars s).map toStandard := by
    rw [List.takeWhile_append_of_pos fun c hc => by simpa using (hstandard c hc).2.2]
    simp
  have hdrop : ((chars s).map toStandard ++ ['=']).dropWhile (· ≠ '=') = ['='] := by
    rw [List.dropWhile_append_of_pos fun c hc => by simpa using (hstandard c hc).2.2]
    rfl
  have hdigits : ((chars s).map toStandard).all
      (fun c => (b64Value c).isSome && c ≠ '-' && c ≠ '_') = true :=
    List.all_eq_true.mpr fun c hc => (hstandard c hc).2.1
  have hascii : (chars s).all (fun c => c.toNat < 128) = true := by
    refine List.all_eq_true.mpr fun c hc => ?_
    exact of_isB64uChar (p := fun c => decide (c.toNat < 128) = true) (by decide) (hall c hc)
  unfold fromBase64String unb64u
  simp only [hfilter, htake, hdrop]
  have hmod : ((chars s).map toStandard ++ ['=']).length % 4 = 0 := by
    rw [List.length_append, List.length_map, hlength]
    rfl
  rw [if_pos ⟨hmod, hdigits, by decide, by decide⟩, if_pos hascii, hlength,
    a2bBase64_toStandard hall]
  rfl

theorem isHandle_iff : UserVault.isHandle s = true ↔ normalizeSubject (.str s) = some s :=
  decide_eq_true_iff

theorem solid_isHandle : Solid UserVault.isHandle := by
  intro s hs
  simp only [isHandle_iff, normalizeSubject] at hs
  split_ifs at hs with hrun
  cases hraw : unb64u (strip s) with
  | none =>
    rw [hraw] at hs
    cases hs
  | some raw =>
    simp only [hraw] at hs
    split_ifs at hs
    rw [Option.some.inj hs] at hrun
    exact solid_isRun (fun _ => isTokenChar_of_isB64uChar) (by decide) s hrun

/-- The phone and the host take the same handles. -/
theorem handle_eq_some : handle s = some t ↔ s = t ∧ UserVault.isHandle s = true := by
  constructor
  · intro h
    unfold handle at h
    split_ifs at h with hline
    cases hraw : fromBase64String ((chars s).map toStandard ++ ['=']) with
    | none =>
      rw [hraw] at h
      cases h
    | some raw =>
      simp only [hraw] at h
      split_ifs at h with hcanonical
      obtain ⟨hlength, hs⟩ := hcanonical
      have hall : ∀ c ∈ chars s, isB64uChar c = true := by
        rw [← hs, b64u, chars_ofList]
        exact forall_mem_b64uChars (by decide) raw
      have hlast : (chars s).getLast? ≠ some '\n' := by
        intro hlast
        have := hall '\n' (List.mem_of_getLast? hlast)
        revert this
        decide
      have hrun := (matchesLine_iff
        (solid_isRun (fun _ => isTokenChar_of_isB64uChar) (by decide))).mp ⟨hline, hlast⟩
      have hstrip := strip_eq_self fun c hc =>
        not_isSpace_of_isTokenChar (isTokenChar_of_isB64uChar (hall c hc))
      rw [fromBase64String_eq hrun] at hraw
      refine ⟨Option.some.inj h, ?_⟩
      simp only [isHandle_iff, normalizeSubject, hstrip, if_pos hrun, hraw]
      rw [if_pos ⟨hlength, hs⟩]
  · rintro ⟨rfl, h⟩
    have hsolid := solid_isHandle s h
    have hstrip := strip_eq_self fun c hc => not_isSpace_of_isTokenChar (hsolid.2 c hc)
    simp only [isHandle_iff, normalizeSubject, hstrip] at h
    split_ifs at h with hrun
    cases hraw : unb64u s with
    | none =>
      rw [hraw] at h
      cases h
    | some raw =>
      simp only [hraw] at h
      split_ifs at h with hcanonical
      rw [handle, if_pos ((matchesLine_iff
        (solid_isRun (fun _ => isTokenChar_of_isB64uChar) (by decide))).mpr hrun).1,
        fromBase64String_eq hrun, hraw]
      simp only [if_pos hcanonical]

theorem solid_isConsumerUrl : Solid (isConsumerUrl uris) := by
  intro s hs
  unfold isConsumerUrl at hs
  cases huri : uris.tryCreate s with
  | none => simp [huri] at hs
  | some u =>
    simp only [huri, Bool.and_eq_true, List.all_eq_true, decide_eq_true_eq] at hs
    refine ⟨?_, fun c hc => ?_⟩
    · rintro rfl
      rw [uris.empty] at huri
      cases huri
    · have hunits := fun ch hch => hs.2 ch (List.mem_flatMap.mpr ⟨c, hc, hch⟩)
      unfold utf16Units at hunits
      split_ifs at hunits with hbasic
      · have := hunits c.toNat (by simp)
        simp only [isTokenChar, Bool.and_eq_true, decide_eq_true_eq]
        omega
      · have := hunits (55296 + (c.toNat - 65536) / 1024) (by simp)
        omega

end

/-! ## Rows that show their fields -/

/-- A row shows a field: its text, or its time. -/
def Shows (row : UserVaultCardRow) (f : String × Json) : Prop :=
  row.field = f.1 ∧
    match f.2 with
    | .str s => row.value = s
    | .int t => formatUtc t = .ok row.value
    | _ => False

/-- Every field of a record has a row that shows it. -/
def Shown (uris : UriRules) (record : ClrRecord) : Prop :=
  ∃ rows, rowsFor uris record = .ok (some rows) ∧ ∀ f ∈ record, ∃ row ∈ rows, Shows row f

/-- A value has its renderer and its grammar. -/
def Renders (uris : UriRules) (field : String) (v : Json) : Prop :=
  ∃ r text, (renderers uris).lookup field = some r ∧ r.render v = .ok (some text)

section
variable {uris : UriRules} {record : ClrRecord} {rows : List UserVaultCardRow} {v : Json}
  {text : String}

theorem renderText_eq_ok {grammar : String → Bool} :
    renderText grammar v = .ok (some text) ↔ v = .str text ∧ grammar text = true := by
  cases v with
  | str s =>
    simp only [renderText, Except.ok.injEq, Option.ite_none_right_eq_some, Option.some.injEq,
      Json.str.injEq]
    constructor
    · rintro ⟨hs, rfl⟩
      exact ⟨rfl, hs⟩
    · rintro ⟨rfl, hs⟩
      exact ⟨hs, rfl⟩
  | _ => simp [renderText]

theorem renderHandle_eq_ok :
    renderHandle v = .ok (some text) ↔ v = .str text ∧ UserVault.isHandle text = true := by
  cases v with
  | str s =>
    simp only [renderHandle, Except.ok.injEq, handle_eq_some, Json.str.injEq]
    constructor
    · rintro ⟨rfl, hs⟩
      exact ⟨rfl, hs⟩
    · rintro ⟨rfl, hs⟩
      exact ⟨rfl, hs⟩
  | _ => simp [renderHandle]

theorem renderTime_eq_ok :
    renderTime v = .ok (some text) ↔ ∃ t, v = .int t ∧ 0 < t ∧ formatUtc t = .ok text := by
  cases v with
  | int t =>
    simp only [renderTime, Json.int.injEq, exists_eq_left']
    split_ifs with ht
    · simp [Except.map_eq_ok, ht]
    · simp [ht]
  | _ => simp [renderTime]

theorem lookup_of_mem {f : String × Json} (hnodup : (record.map Prod.fst).Nodup) (hf : f ∈ record) :
    record.lookup f.1 = some f.2 := by
  induction record with
  | nil => cases hf
  | cons g gs ih =>
    obtain ⟨key, value⟩ := g
    rw [List.map_cons, List.nodup_cons] at hnodup
    rcases List.mem_cons.mp hf with rfl | hf
    · exact List.lookup_cons_self
    · have hne : f.1 ≠ key := fun h => hnodup.1 (List.mem_map.mpr ⟨f, hf, h⟩)
      simp [List.lookup_cons, beq_false_of_ne hne, ih hnodup.2 hf]

/-- What a renderer makes of a value shows it. -/
theorem shows_of_render {field : String} {r : Renderer} {row : UserVaultCardRow}
    (hr : (renderers uris).lookup field = some r) (hfield : row.field = field)
    (h : r.render v = .ok (some row.value)) : Shows row (field, v) := by
  have hall : ∀ f ∈ renderers uris, f.2.render v = .ok (some row.value) →
      v = .str row.value ∨ ∃ t, v = .int t ∧ formatUtc t = .ok row.value := by
    have htext : ∀ grammar, renderText grammar v = .ok (some row.value) →
        v = .str row.value ∨ ∃ t, v = .int t ∧ formatUtc t = .ok row.value :=
      fun grammar h => .inl (renderText_eq_ok.mp h).1
    have hhandle : renderHandle v = .ok (some row.value) →
        v = .str row.value ∨ ∃ t, v = .int t ∧ formatUtc t = .ok row.value :=
      fun h => .inl (renderHandle_eq_ok.mp h).1
    have htime : renderTime v = .ok (some row.value) →
        v = .str row.value ∨ ∃ t, v = .int t ∧ formatUtc t = .ok row.value := by
      intro h
      obtain ⟨t, hv, -, ht⟩ := renderTime_eq_ok.mp h
      exact .inr ⟨t, hv, ht⟩
    simp only [renderers, List.forall_mem_cons]
    exact ⟨hhandle, htext _, htext _, htime, hhandle, htext _, htext _, htext _, htext _, by simp⟩
  obtain ⟨_, _, hsplit, -⟩ := List.lookup_eq_some_iff.mp hr
  rcases hall (field, r) (by rw [hsplit]; simp) h with rfl | ⟨t, rfl, ht⟩
  · exact ⟨hfield, rfl⟩
  · exact ⟨hfield, ht⟩

/-- A record is shown when each of its fields renders. -/
theorem shown_iff (hnodup : (record.map Prod.fst).Nodup) :
    (∃ rows, rowsFor uris record = .ok (some rows)) ↔ ∀ f ∈ record, Renders uris f.1 f.2 := by
  constructor
  · rintro ⟨rows, hrows⟩ f hf
    obtain ⟨row, -, hrow⟩ := exists_row hnodup hrows f hf
    obtain ⟨r, v, hr, hv, hrender, -⟩ := rowFor_eq_ok.mp hrow
    rw [lookup_of_mem hnodup hf] at hv
    obtain rfl := Option.some.inj hv
    exact ⟨r, row.value, hr, hrender⟩
  · intro h
    refine exists_rowsFor hnodup fun f hf => ?_
    obtain ⟨r, text, hr, hrender⟩ := h f hf
    exact ⟨{ field := f.1, label := r.label, value := text, isHandle := r.isHandle },
      rowFor_eq_ok.mpr ⟨r, f.2, hr, lookup_of_mem hnodup hf, hrender, rfl, rfl, rfl⟩⟩

theorem Shown.of_renders (hnodup : (record.map Prod.fst).Nodup)
    (h : ∀ f ∈ record, Renders uris f.1 f.2) : Shown uris record := by
  obtain ⟨rows, hrows⟩ := (shown_iff hnodup).mpr h
  refine ⟨rows, hrows, fun f hf => ?_⟩
  obtain ⟨row, hmem, hrow⟩ := exists_row hnodup hrows f hf
  obtain ⟨r, v, hr, hv, hrender, hfield, -⟩ := rowFor_eq_ok.mp hrow
  rw [lookup_of_mem hnodup hf] at hv
  obtain rfl := Option.some.inj hv
  exact ⟨row, hmem, shows_of_render hr hfield hrender⟩

/-! ## The fields of the two records -/

theorem boxed_eq_str {s : Option String} : boxed s = .str text ↔ s = some text := by
  cases s <;> simp [boxed]

theorem renders_handle {field : String} {s : Option String}
    (h : ((renderers uris).lookup field).map Renderer.render = some renderHandle) :
    Renders uris field (boxed s) ↔ ∃ t, s = some t ∧ UserVault.isHandle t = true := by
  obtain ⟨r, hr, hrender⟩ := Option.map_eq_some_iff.mp h
  simp [Renders, hr, hrender, renderHandle_eq_ok, boxed_eq_str]

theorem renders_text {field : String} {grammar : String → Bool} {s : Option String}
    (h : ((renderers uris).lookup field).map Renderer.render = some (renderText grammar)) :
    Renders uris field (boxed s) ↔ ∃ t, s = some t ∧ grammar t = true := by
  obtain ⟨r, hr, hrender⟩ := Option.map_eq_some_iff.mp h
  simp [Renders, hr, hrender, renderText_eq_ok, boxed_eq_str]

section
variable {s : Option String}

theorem renders_agentHandle : Renders uris "agent_handle" (boxed s) ↔
    ∃ t, s = some t ∧ UserVault.isHandle t = true :=
  renders_handle (by simp [renderers])

theorem renders_subject : Renders uris "subject" (boxed s) ↔
    ∃ t, s = some t ∧ UserVault.isHandle t = true :=
  renders_handle (by simp [renderers, List.lookup_cons])

theorem renders_bootloaderId : Renders uris "bootloader_id" (boxed s) ↔
    ∃ t, s = some t ∧ tokenRe t = true :=
  renders_text (by simp [renderers, List.lookup_cons])

theorem renders_consumer : Renders uris "consumer" (boxed s) ↔
    ∃ t, s = some t ∧ isConsumerUrl uris t = true :=
  renders_text (by simp [renderers, List.lookup_cons])

theorem renders_key : Renders uris "key" (boxed s) ↔ ∃ t, s = some t ∧ keyRe t = true :=
  renders_text (by simp [renderers, List.lookup_cons])

theorem renders_scope : Renders uris "scope" (boxed s) ↔ ∃ t, s = some t ∧ scopeRe t = true :=
  renders_text (by simp [renderers, List.lookup_cons])

theorem renders_grantId : Renders uris "grant_id" (boxed s) ↔ ∃ t, s = some t ∧ grantIdRe t = true :=
  renders_text (by simp [renderers, List.lookup_cons])

theorem renders_nonce {nonce : String} : Renders uris "nonce" (.str nonce) ↔ nonceRe nonce = true := by
  have h : Renders uris "nonce" (boxed (some nonce)) ↔ ∃ t, some nonce = some t ∧ nonceRe t = true :=
    renders_text (by simp [renderers, List.lookup_cons])
  simpa [boxed] using h

theorem renders_notAfter {t : ℤ} : Renders uris "not_after" (.int t) ↔
    0 < t ∧ ∃ text, formatUtc t = .ok text := by
  simp [Renders, renderers, List.lookup_cons, renderTime_eq_ok]

end

/-- The texts of a grant card, with their grammars. -/
structure GrantTexts (uris : UriRules) (m : UserVaultCardModel)
    (bootloaderId consumer subject agentHandle key scope : String) : Prop where
  bootloaderId : m.bootloaderId = some bootloaderId ∧ tokenRe bootloaderId = true
  consumer : m.consumer = some consumer ∧ isConsumerUrl uris consumer = true
  subject : m.subject = some subject ∧ UserVault.isHandle subject = true
  agentHandle : m.agentHandle = some agentHandle ∧ UserVault.isHandle agentHandle = true
  key : m.key = some key ∧ keyRe key = true
  scope : m.scope = some scope ∧ scopeRe scope = true

theorem grantFields_nodup (m : UserVaultCardModel) (t : ℤ) (nonce : String) :
    ((m.grantFields t nonce).map Prod.fst).Nodup := by
  simp [UserVaultCardModel.grantFields]

theorem renders_grantFields {m : UserVaultCardModel} {t : ℤ} {nonce : String} :
    (∀ f ∈ m.grantFields t nonce, Renders uris f.1 f.2) ↔
      (∃ bootloaderId consumer subject agentHandle key scope,
        GrantTexts uris m bootloaderId consumer subject agentHandle key scope) ∧
        nonceRe nonce = true ∧ 0 < t ∧ ∃ text, formatUtc t = .ok text := by
  simp only [UserVaultCardModel.grantFields, List.forall_mem_cons, renders_agentHandle,
    renders_subject, renders_bootloaderId, renders_consumer, renders_key, renders_scope,
    renders_nonce, renders_notAfter]
  constructor
  · rintro ⟨⟨agent, hagent⟩, ⟨bl, hbl⟩, ⟨consumer, hconsumer⟩, ⟨key, hkey⟩, hnonce, ht, ⟨scope, hscope⟩,
      ⟨subject, hsubject⟩, -⟩
    exact ⟨⟨bl, consumer, subject, agent, key, scope, hbl, hconsumer, hsubject, hagent, hkey, hscope⟩,
      hnonce, ht⟩
  · rintro ⟨⟨bl, consumer, subject, agent, key, scope, h⟩, hnonce, ht⟩
    exact ⟨⟨_, h.agentHandle⟩, ⟨_, h.bootloaderId⟩, ⟨_, h.consumer⟩, ⟨_, h.key⟩, hnonce, ht,
      ⟨_, h.scope⟩, ⟨_, h.subject⟩, by simp⟩

/-- The texts of a revoke card. -/
structure RevokeTexts (uris : UriRules) (m : UserVaultCardModel)
    (bootloaderId consumer subject grantId : String) : Prop where
  bootloaderId : m.bootloaderId = some bootloaderId ∧ tokenRe bootloaderId = true
  consumer : m.consumer = some consumer ∧ isConsumerUrl uris consumer = true
  subject : m.subject = some subject ∧ UserVault.isHandle subject = true
  grantId : m.grantId = some grantId ∧ grantIdRe grantId = true

/-- The record a revoke card signs. -/
def revokeFields (m : UserVaultCardModel) (nonce : String) : ClrRecord :=
  UserVaultCardModel.buildRevokeRecord m.bootloaderId m.consumer m.subject m.grantId nonce

theorem revokeFields_nodup (m : UserVaultCardModel) (nonce : String) :
    ((revokeFields m nonce).map Prod.fst).Nodup := by
  simp [revokeFields, UserVaultCardModel.buildRevokeRecord]

theorem renders_revokeFields {m : UserVaultCardModel} {nonce : String} :
    (∀ f ∈ revokeFields m nonce, Renders uris f.1 f.2) ↔
      (∃ bootloaderId consumer subject grantId,
        RevokeTexts uris m bootloaderId consumer subject grantId) ∧ nonceRe nonce = true := by
  simp only [revokeFields, UserVaultCardModel.buildRevokeRecord, List.forall_mem_cons,
    renders_subject, renders_bootloaderId, renders_consumer, renders_grantId, renders_nonce]
  constructor
  · rintro ⟨⟨bl, hbl⟩, ⟨consumer, hconsumer⟩, ⟨grantId, hgrantId⟩, hnonce, ⟨subject, hsubject⟩, -⟩
    exact ⟨⟨bl, consumer, subject, grantId, hbl, hconsumer, hsubject, hgrantId⟩, hnonce⟩
  · rintro ⟨⟨bl, consumer, subject, grantId, h⟩, hnonce⟩
    exact ⟨⟨_, h.bootloaderId⟩, ⟨_, h.consumer⟩, ⟨_, h.grantId⟩, hnonce, ⟨_, h.subject⟩, by simp⟩

end

/-! ## Building a card -/

section
variable {uris : UriRules} {req : PendingRequest} {c : UserVaultGrantContext} {now : ℤ}
  {m : UserVaultCardModel}

theorem expectedAction_eq {kind : String} {action : Option String}
    (h : ¬ (expectedAction kind = none ∨ action ≠ expectedAction kind)) :
    action = some actionGrant ∨ action = some actionRevoke := by
  obtain ⟨hsome, haction⟩ := not_or.mp h
  rw [not_not.mp haction]
  unfold expectedAction at hsome ⊢
  split_ifs at hsome ⊢ <;> simp_all

theorem grantRecord_eq_ok {t : ℤ} {nonce : String} {now? : Option ℤ} {record : ClrRecord} :
    m.grantRecord t nonce now? = .ok record ↔ m.action = some actionGrant ∧ t ≤ m.proposedNotAfter ∧
      (∀ now ∈ now?, now < t ∧ t ≤ toLong (now + grantMaxSeconds)) ∧
        m.grantFields t nonce = record := by
  simp only [UserVaultCardModel.grantRecord, Except.bind_eq_ok, ensure_eq_ok, Except.pure_eq_ok,
    exists_const]

theorem revokeRecord_eq_ok {nonce : String} {record : ClrRecord} :
    m.revokeRecord nonce = .ok record ↔
      (m.action = some actionRevoke ∧ m.grantId ≠ none) ∧ revokeFields m nonce = record := by
  simp only [UserVaultCardModel.revokeRecord, Except.bind_eq_ok, ensure_eq_ok, Except.pure_eq_ok,
    exists_const, revokeFields]

/-- The probe of a card that is built has its rows. -/
theorem exists_probe {probe : Except ClrError ClrRecord} {refusal : String} {m' : UserVaultCardModel}
    (h : (do
      let probe ← probe
      let rows ← rowsFor uris probe
      match rows with
      | none => pure (.error refusal)
      | some _ => pure (.ok m') : Except ClrError (Except String UserVaultCardModel)) = .ok (.ok m)) :
    m = m' ∧ ∃ record rows, probe = .ok record ∧ rowsFor uris record = .ok (some rows) := by
  obtain ⟨record, hprobe, h⟩ := Except.bind_eq_ok.mp h
  obtain ⟨rows?, hrows, h⟩ := Except.bind_eq_ok.mp h
  cases rows? with
  | none => cases Except.pure_eq_ok.mp h
  | some rows => exact ⟨(Except.ok.inj (Except.pure_eq_ok.mp h)).symm, record, rows, hprobe, hrows⟩

/-- A card that is built: what was checked of it. -/
theorem tryBuild_eq_ok (hc : req.userVaultGrant = some c) (h : tryBuild uris req now = .ok (.ok m)) :
    m = .ofContext req.requestId c ∧
      ((c.action = some actionGrant ∧ (now < c.notAfter ∧ c.notAfter ≤ toLong (now + grantMaxSeconds)) ∧
          ∀ f ∈ m.grantFields c.notAfter probeNonce, Renders uris f.1 f.2) ∨
        (c.action = some actionRevoke ∧ c.grantId ≠ none ∧
          ∀ f ∈ revokeFields m probeNonce, Renders uris f.1 f.2)) := by
  simp only [tryBuild, hc] at h
  split_ifs at h with hexpected hexpires hcap hgrantId hgrant
  -- the five refusals are not cards
  all_goals try cases Except.pure_eq_ok.mp h
  all_goals
    obtain ⟨-, haction⟩ := not_or.mp hexpected
    rw [not_not] at haction
    obtain ⟨rfl, record, rows, hprobe, hrows⟩ := exists_probe h
    refine ⟨rfl, ?_⟩
  · obtain ⟨-, -, -, rfl⟩ := grantRecord_eq_ok.mp hprobe
    refine .inl ⟨haction.trans hgrant, ?_, (shown_iff (grantFields_nodup _ _ _)).mp ⟨rows, hrows⟩⟩
    simpa [hgrant] using hcap
  · obtain ⟨⟨hrevoke, hid⟩, rfl⟩ := revokeRecord_eq_ok.mp hprobe
    exact .inr ⟨hrevoke, hid, (shown_iff (revokeFields_nodup _ _)).mp ⟨rows, hrows⟩⟩

/-- A window within the proposal is written as a date when the proposal is. -/
theorem formatUtc_of_le {t t' : ℤ} {text : String} (ht : 0 < t) (hle : t ≤ t')
    (h : formatUtc t' = .ok text) : ∃ text, formatUtc t = .ok text := by
  unfold formatUtc at h ⊢
  split_ifs at h with hrange
  rw [if_pos ⟨by omega, by omega⟩]
  exact ⟨_, rfl⟩

theorem toLong_eq (h : 0 ≤ now) {t : ℤ} (ht : 0 ≤ t) (hlt : now < toLong (now + grantMaxSeconds))
    (hle : t ≤ grantMaxSeconds) : toLong (now + t) = now + t := by
  unfold toLong grantMaxSeconds at *
  simp only [Int.bmod_def] at hlt ⊢
  omega

/-- Every window is after now, and within the proposal and the cap. -/
theorem mem_windowChoices {window : ℤ} (h : window ∈ m.windowChoices now) (hnow : 0 ≤ now)
    (hafter : now < m.proposedNotAfter)
    (hcap : m.proposedNotAfter ≤ toLong (now + grantMaxSeconds)) :
    now < window ∧ window ≤ m.proposedNotAfter ∧ window ≤ now + grantMaxSeconds := by
  have hmax := toLong_eq hnow (by decide : (0 : ℤ) ≤ grantMaxSeconds) (hafter.trans_le hcap) le_rfl
  simp only [UserVaultCardModel.windowChoices, min_eq_left hcap] at h
  rcases List.mem_cons.mp h with rfl | h
  · exact ⟨hafter, le_rfl, hcap.trans_eq hmax⟩
  · obtain ⟨hchip, hshort⟩ := List.mem_filter.mp h
    obtain ⟨days, hdays, rfl⟩ := List.mem_map.mp hchip
    have hchips : ∀ days ∈ chipDays, 0 < days ∧ days * 86400 ≤ grantMaxSeconds := by decide
    have hbounds := hchips days hdays
    rw [decide_eq_true_iff] at hshort
    rw [toLong_eq hnow (by omega) (hafter.trans_le hcap) hbounds.2] at hshort ⊢
    omega

theorem nonceRe_newNonce (random : Vector UInt8 16) : isNonce (newNonce random) = true := by
  simp only [isNonce, isWord, newNonce, b64u, chars_ofList, Bool.and_eq_true, decide_eq_true_eq,
    List.all_eq_true, length_b64uChars, Vector.length_toList]
  exact ⟨by decide, forall_mem_b64uChars (by decide) _⟩

end

/-! ## What the host admits -/

/-- What a grant card signs for a window, and what the host makes of it. -/
def GrantAgrees (uris : UriRules) (env : TokenPrimitives) (m : UserVaultCardModel) (now window : ℤ)
    (nonce : String) : Prop :=
  (now < window ∧ window ≤ m.proposedNotAfter ∧ window ≤ now + grantMaxSeconds) ∧
    ∃ record r, m.grantRecord window nonce none = .ok record ∧
      m.grantRecord window nonce (some now) = .ok record ∧ Shown uris record ∧
        UserVault.GrantRecord.fromDict (.obj record) = .ok r ∧
          signedMessage grantPrefix record = .ok r.signedMessage ∧
            grantIdOf env.sha256 record = .ok (r.grantId env)

/-- What a revoke card signs, and what the host makes of it. -/
def RevokeAgrees (uris : UriRules) (m : UserVaultCardModel) (nonce : String) : Prop :=
  ∃ record r, m.revokeRecord nonce = .ok record ∧ Shown uris record ∧
    UserVault.RevokeRecord.fromDict (.obj record) = .ok r ∧
      signedMessage revokePrefix record = .ok r.signedMessage

/-- Whatever window is chosen, and whatever the nonce, what the card shows and signs is what the host
admits. -/
def CardAgrees (uris : UriRules) (env : TokenPrimitives) (m : UserVaultCardModel) (now : ℤ) : Prop :=
  (m.action = some actionGrant → ∀ window ∈ m.windowChoices now, ∀ random,
      GrantAgrees uris env m now window (newNonce random)) ∧
    (m.action = some actionRevoke → ∀ random, RevokeAgrees uris m (newNonce random))

/-- The texts a record takes from the context as they are. -/
def UserVaultGrantContext.words (c : UserVaultGrantContext) : List (Option String) :=
  if c.action = some actionGrant then [c.bootloaderId, c.key, c.scope]
  else [c.bootloaderId, c.grantId]

/-- A text that does not end in a line feed. -/
def Unbroken (text : Option String) : Prop := ∀ s ∈ text, (chars s).getLast? ≠ some '\n'

section
variable {uris : UriRules} {env : TokenPrimitives} {m : UserVaultCardModel} {now window t : ℤ}
  {nonce bootloaderId consumer subject agentHandle key scope grantId : String}

theorem fromDict_grant {r : UserVault.GrantRecord}
    (htexts : ∀ s ∈ [r.bootloaderId, r.consumer, r.subject, r.agentHandle, r.key, r.scope, r.nonce],
      UserVault.text (.str s) = .ok s)
    (hsubject : UserVault.isHandle r.subject = true) (hagent : UserVault.isHandle r.agentHandle = true)
    (hkey : isConnectionKey r.key = true) (hscope : isWord isScopeChar 1 64 r.scope = true)
    (hnonce : isNonce r.nonce = true) (ht : 0 < r.notAfter) :
    UserVault.GrantRecord.fromDict r.toDict = .ok r := by
  simp only [List.forall_mem_cons] at htexts
  obtain ⟨h₁, h₂, h₃, h₄, h₅, h₆, h₇, -⟩ := htexts
  simp [UserVault.GrantRecord.fromDict, UserVault.GrantRecord.toDict, UserVault.fromWire,
    UserVault.positiveInt, List.lookup_cons, Except.bind_eq_ok, ensure_eq_ok, h₁, h₂, h₃, h₄, h₅, h₆, h₇,
    hsubject, hagent, hkey, hscope, hnonce, ht]

theorem fromDict_revoke {r : UserVault.RevokeRecord}
    (htexts : ∀ s ∈ [r.bootloaderId, r.consumer, r.subject, r.grantId, r.nonce],
      UserVault.text (.str s) = .ok s)
    (hsubject : UserVault.isHandle r.subject = true) (hgrantId : isRun isLowerHex 64 r.grantId = true)
    (hnonce : isNonce r.nonce = true) : UserVault.RevokeRecord.fromDict r.toDict = .ok r := by
  simp only [List.forall_mem_cons] at htexts
  obtain ⟨h₁, h₂, h₃, h₄, h₅, -⟩ := htexts
  simp [UserVault.RevokeRecord.fromDict, UserVault.RevokeRecord.toDict, UserVault.fromWire,
    List.lookup_cons, ensure, Except.bind_eq_ok, h₁, h₂, h₃, h₄, h₅, hsubject, hgrantId, hnonce]

/-- The bytes of a record without floats, under a tag. -/
theorem signedMessage_eq {tag : String} {record : ClrRecord} (h : Encodable (.obj record)) :
    signedMessage tag record = .ok (utf8 tag ++ canonicalJson (.obj record)) := by
  rw [signedMessage, encode_eq h]
  rfl

theorem grantIdOf_eq {record : ClrRecord} (h : Encodable (.obj record)) :
    grantIdOf env.sha256 record = .ok (hex (env.sha256 (canonicalJson (.obj record)))) := by
  rw [grantIdOf, encode_eq h]
  rfl

theorem solid_tokenRe : Solid (isWord isTokenChar 1 128) := solid_isWord (fun _ h => h) le_rfl

theorem isTokenChar_of_isScopeChar {c : Char} (h : UserVault.isScopeChar c = true) :
    isTokenChar c = true := by
  simp only [UserVault.isScopeChar, Bool.or_eq_true, decide_eq_true_eq] at h
  rcases h with (((h | rfl) | rfl) | rfl) | rfl
  · refine isTokenChar_of_isB64uChar ?_
    change (decide (c.val ≥ 'A'.val ∧ c.val ≤ 'Z'.val) || (c.val ≥ 'a'.val && c.val ≤ 'z'.val) ||
      (c.val ≥ '0'.val && c.val ≤ '9'.val)) = true at h
    simp only [Bool.or_eq_true, Bool.and_eq_true, decide_eq_true_eq] at h
    simp only [isB64uChar, Bool.or_eq_true, Bool.and_eq_true, decide_eq_true_eq, Char.le_def]
    tauto
  all_goals decide

theorem solid_scope : Solid (isWord isScopeChar 1 64) :=
  solid_isWord (fun _ => isTokenChar_of_isScopeChar) le_rfl

theorem solid_isNonce : Solid isNonce :=
  solid_isWord (fun _ => isTokenChar_of_isB64uChar) (by decide)

theorem solid_grantId : Solid (isRun isLowerHex 64) := by
  refine solid_isRun (fun c h => isTokenChar_of_isB64uChar ?_) (by decide)
  simp only [isLowerHex, isB64uChar, Bool.or_eq_true, Bool.and_eq_true, decide_eq_true_eq,
    Char.le_def] at h ⊢
  have hf : 'f'.val ≤ 'z'.val := by decide
  rcases h with h | h
  · exact .inl (.inl (.inr h))
  · exact .inl (.inl (.inl (.inr ⟨h.1, UInt32.le_trans h.2 hf⟩)))

/-- A text the host reads is not null and does not end in a line feed. -/
theorem unbroken_of_text {s : Option String} {text : String} (h : UserVault.text (boxed s) = .ok text) :
    Unbroken s := by
  obtain ⟨hboxed, hlast⟩ := getLast?_of_text h
  rw [boxed_eq_str.mp hboxed]
  rintro _ ⟨⟩
  exact hlast

/-- The grant texts as the host takes them, when none ends in a line feed. -/
theorem GrantTexts.agrees (h : GrantTexts uris m bootloaderId consumer subject agentHandle key scope)
    (hunbroken : ∀ text ∈ [m.bootloaderId, m.key, m.scope], Unbroken text)
    (haction : m.action = some actionGrant) (hrange : 0 < window)
    (hwindow : now < window ∧ window ≤ m.proposedNotAfter ∧ window ≤ now + grantMaxSeconds)
    (hlong : toLong (now + grantMaxSeconds) = now + grantMaxSeconds) (hnonce : isNonce nonce = true)
    (htime : ∃ text, formatUtc window = .ok text) : GrantAgrees uris env m now window nonce := by
  simp only [List.forall_mem_cons] at hunbroken
  obtain ⟨hbl, hkey, hscope, -⟩ := hunbroken
  replace hbl := (matchesLine_iff solid_tokenRe).mp ⟨h.bootloaderId.2, hbl _ h.bootloaderId.1⟩
  replace hkey := (matchesLine_iff solid_isConnectionKey).mp ⟨h.key.2, hkey _ h.key.1⟩
  replace hscope := (matchesLine_iff solid_scope).mp ⟨h.scope.2, hscope _ h.scope.1⟩
  let r : UserVault.GrantRecord :=
    { bootloaderId, consumer, subject, agentHandle, key, scope, notAfter := window, nonce }
  have hfields : .obj (m.grantFields window nonce) = r.toDict := by
    simp [UserVaultCardModel.grantFields, UserVault.GrantRecord.toDict, r, boxed, h.bootloaderId.1,
      h.consumer.1, h.subject.1, h.agentHandle.1, h.key.1, h.scope.1]
  have hencodable : Encodable (.obj (m.grantFields window nonce)) := by
    rw [hfields]
    simp only [UserVault.GrantRecord.toDict, Encodable, EncodableFields]
    decide
  have hshown : Shown uris (m.grantFields window nonce) :=
    .of_renders (grantFields_nodup _ _ _) (renders_grantFields.mpr
      ⟨⟨_, _, _, _, _, _, h⟩, ((matchesLine_iff solid_isNonce).mpr hnonce).1, hrange, htime⟩)
  have hadmitted : UserVault.GrantRecord.fromDict r.toDict = .ok r := by
    refine fromDict_grant ?_ h.subject.2 h.agentHandle.2 hkey hscope hnonce hrange
    simp only [List.forall_mem_cons]
    exact ⟨text_of_solid solid_tokenRe hbl, text_of_solid solid_isConsumerUrl h.consumer.2,
      text_of_solid solid_isHandle h.subject.2, text_of_solid solid_isHandle h.agentHandle.2,
      text_of_solid solid_isConnectionKey hkey, text_of_solid solid_scope hscope,
      text_of_solid solid_isNonce hnonce, by simp⟩
  refine ⟨hwindow, m.grantFields window nonce, r, ?_, ?_, hshown, hfields ▸ hadmitted, ?_, ?_⟩
  · exact grantRecord_eq_ok.mpr ⟨haction, hwindow.2.1, by simp, rfl⟩
  · refine grantRecord_eq_ok.mpr ⟨haction, hwindow.2.1, ?_, rfl⟩
    rintro _ ⟨⟩
    rw [hlong]
    exact ⟨hwindow.1, hwindow.2.2⟩
  · rw [signedMessage_eq hencodable, hfields]
    rfl
  · rw [grantIdOf_eq hencodable, hfields]
    rfl

theorem RevokeTexts.agrees (h : RevokeTexts uris m bootloaderId consumer subject grantId)
    (hunbroken : ∀ text ∈ [m.bootloaderId, m.grantId], Unbroken text)
    (haction : m.action = some actionRevoke) (hnonce : isNonce nonce = true) :
    RevokeAgrees uris m nonce := by
  simp only [List.forall_mem_cons] at hunbroken
  obtain ⟨hbl, hgrantId, -⟩ := hunbroken
  replace hbl := (matchesLine_iff solid_tokenRe).mp ⟨h.bootloaderId.2, hbl _ h.bootloaderId.1⟩
  replace hgrantId := (matchesLine_iff solid_grantId).mp ⟨h.grantId.2, hgrantId _ h.grantId.1⟩
  let r : UserVault.RevokeRecord := { bootloaderId, consumer, subject, grantId, nonce }
  have hfields : .obj (revokeFields m nonce) = r.toDict := by
    simp [revokeFields, UserVaultCardModel.buildRevokeRecord, UserVault.RevokeRecord.toDict, r, boxed,
      h.bootloaderId.1, h.consumer.1, h.subject.1, h.grantId.1]
  have hencodable : Encodable (.obj (revokeFields m nonce)) := by
    rw [hfields]
    simp only [UserVault.RevokeRecord.toDict, Encodable, EncodableFields]
    decide
  have hshown : Shown uris (revokeFields m nonce) :=
    .of_renders (revokeFields_nodup _ _) (renders_revokeFields.mpr
      ⟨⟨_, _, _, _, h⟩, ((matchesLine_iff solid_isNonce).mpr hnonce).1⟩)
  have hadmitted : UserVault.RevokeRecord.fromDict r.toDict = .ok r := by
    refine fromDict_revoke ?_ h.subject.2 hgrantId hnonce
    simp only [List.forall_mem_cons]
    exact ⟨text_of_solid solid_tokenRe hbl, text_of_solid solid_isConsumerUrl h.consumer.2,
      text_of_solid solid_isHandle h.subject.2, text_of_solid solid_grantId hgrantId,
      text_of_solid solid_isNonce hnonce, by simp⟩
  refine ⟨revokeFields m nonce, r, ?_, hshown, hfields ▸ hadmitted, ?_⟩
  · exact revokeRecord_eq_ok.mpr ⟨⟨haction, by simp [h.grantId.1]⟩, rfl⟩
  · rw [signedMessage_eq hencodable, hfields]
    rfl

theorem unbroken_of_field {fields : ClrRecord} {field text : String} {s : Option String}
    (hfield : fields.lookup field = some (boxed s))
    (h : UserVault.text ((fields.lookup field).getD .null) = .ok text) : Unbroken s := by
  rw [hfield] at h
  exact unbroken_of_text h

theorem unbroken_of_grant {r : UserVault.GrantRecord}
    (h : UserVault.GrantRecord.fromDict (.obj (m.grantFields t nonce)) = .ok r) :
    ∀ text ∈ [m.bootloaderId, m.key, m.scope], Unbroken text := by
  simp only [UserVault.GrantRecord.fromDict, UserVault.fromWire, Except.bind_eq_ok, ensure_eq_ok,
    Except.pure_eq_ok, exists_const] at h
  obtain ⟨_, ⟨-, -, rfl⟩, _, hbl, _, -, _, -, _, -, _, hkey, _, hscope, -⟩ := h
  simp only [List.forall_mem_cons]
  exact ⟨unbroken_of_field (by simp [UserVaultCardModel.grantFields, List.lookup_cons]) hbl,
    unbroken_of_field (by simp [UserVaultCardModel.grantFields, List.lookup_cons]) hkey,
    unbroken_of_field (by simp [UserVaultCardModel.grantFields, List.lookup_cons]) hscope, by simp⟩

theorem unbroken_of_revoke {r : UserVault.RevokeRecord}
    (h : UserVault.RevokeRecord.fromDict (.obj (revokeFields m nonce)) = .ok r) :
    ∀ text ∈ [m.bootloaderId, m.grantId], Unbroken text := by
  simp only [UserVault.RevokeRecord.fromDict, UserVault.fromWire, Except.bind_eq_ok, ensure_eq_ok,
    Except.pure_eq_ok, exists_const] at h
  obtain ⟨_, ⟨-, -, rfl⟩, _, hbl, _, -, _, -, _, hgrantId, -⟩ := h
  simp only [List.forall_mem_cons]
  exact ⟨unbroken_of_field (by simp [revokeFields, UserVaultCardModel.buildRevokeRecord]) hbl,
    unbroken_of_field
      (by simp [revokeFields, UserVaultCardModel.buildRevokeRecord, List.lookup_cons]) hgrantId, by simp⟩

end

/-- What a card shows and signs is what the host admits exactly when no text it takes as it is ends in
a line feed. -/
theorem card_agrees_iff (uris : UriRules) (env : TokenPrimitives) (req : PendingRequest) (now : ℕ)
    {c : UserVaultGrantContext} {m : UserVaultCardModel} (hc : req.userVaultGrant = some c)
    (h : tryBuild uris req now = .ok (.ok m)) :
    CardAgrees uris env m now ↔ ∀ text ∈ c.words, Unbroken text := by
  have hnow : (0 : ℤ) ≤ now := Int.natCast_nonneg now
  obtain ⟨rfl, ⟨haction, ⟨hafter, hcap⟩, hprobe⟩ | ⟨haction, -, hprobe⟩⟩ := tryBuild_eq_ok hc h
  · obtain ⟨⟨_, _, _, _, _, _, htexts⟩, -, -, text, htext⟩ := renders_grantFields.mp hprobe
    have hwords : c.words = [c.bootloaderId, c.key, c.scope] := if_pos haction
    rw [hwords]
    constructor
    · intro hagrees
      obtain ⟨-, record, r, hrecord, -, -, hadmitted, -⟩ :=
        hagrees.1 haction _ List.mem_cons_self (Vector.replicate 16 0)
      obtain ⟨-, -, -, rfl⟩ := grantRecord_eq_ok.mp hrecord
      exact unbroken_of_grant hadmitted
    · intro hunbroken
      refine ⟨fun _ window hwindow random => ?_, fun hrevoke => absurd (haction.symm.trans hrevoke)
        (by decide)⟩
      have hbounds := mem_windowChoices hwindow hnow hafter hcap
      have hlong := toLong_eq hnow (by decide : (0 : ℤ) ≤ grantMaxSeconds) (hafter.trans_le hcap) le_rfl
      have hpos : 0 < window := hnow.trans_lt hbounds.1
      exact htexts.agrees hunbroken haction hpos hbounds hlong (nonceRe_newNonce random)
        (formatUtc_of_le hpos hbounds.2.1 htext)
  · obtain ⟨⟨_, _, _, _, htexts⟩, -⟩ := renders_revokeFields.mp hprobe
    have hgrant : c.action ≠ some actionGrant := fun hgrant =>
      absurd (haction.symm.trans hgrant) (by decide)
    have hwords : c.words = [c.bootloaderId, c.grantId] := if_neg hgrant
    rw [hwords]
    constructor
    · intro hagrees
      obtain ⟨record, r, hrecord, -, hadmitted, -⟩ := hagrees.2 haction (Vector.replicate 16 0)
      obtain ⟨-, rfl⟩ := revokeRecord_eq_ok.mp hrecord
      exact unbroken_of_revoke hadmitted
    · intro hunbroken
      exact ⟨fun h => absurd h hgrant, fun _ random =>
        htexts.agrees hunbroken haction (nonceRe_newNonce random)⟩

/-! ## A card of each kind -/

/-- The address the samples name is absolute. -/
def sampleUris : UriRules where
  tryCreate s := if s = "https://consumer.example" then some ⟨"https", false⟩ else none
  empty := rfl

/-- No digest is taken of a revoke record, and none of a record the host refuses. -/
def noPrimitives : TokenPrimitives where
  sha256 _ := []
  recoverPublicKey _ _ := none

def sampleContext (action key : String) (grantId : Option String) : UserVaultGrantContext where
  action := some action
  bootloaderId := some "rb1-test"
  consumer := some "https://consumer.example"
  subject := some "AAAAAAAAAAAAAAAAAAAAAAAAAAAAAAAAAAAAAAAAAAA"
  agentHandle := some "QQQQQQQQQQQQQQQQQQQQQQQQQQQQQQQQQQQQQQQQQQA"
  key := some key
  scope := some "AgentChat"
  notAfter := 1767776000
  expiresAtUnix := 1760000300
  grantId
  admittedAtUnix := none
  purpose := some "answers with your own key"
  agentName := some "Agent One"

/-- A card that takes a grant back. -/
def sampleRevoke : UserVaultGrantContext :=
  sampleContext actionRevoke "user-ai-xai"
    (some "bc9d1ef35513a8b33c04a04e6109ffe140e5e87fd418ea9889aedb0a0d910d01")

theorem card_agrees_iff_sample :
    CardAgrees sampleUris noPrimitives (.ofContext "uvreq-1" sampleRevoke) (1760000000 : ℕ) ↔
      ∀ text ∈ sampleRevoke.words, Unbroken text :=
  card_agrees_iff sampleUris noPrimitives ⟨"uvreq-1", "user_vault_revoke", some sampleRevoke⟩
    1760000000 rfl (by decide +kernel)

/-- A grant card whose key ends in a line feed. -/
def brokenKey : UserVaultGrantContext := sampleContext actionGrant "user-ai-xai\n" none

/-- The phone builds the card, and the host refuses the record. -/
theorem line_feed_passes :
    tryBuild sampleUris ⟨"uvreq-1", "user_vault_grant", some brokenKey⟩ 1760000000 =
        .ok (.ok (.ofContext "uvreq-1" brokenKey)) ∧
      ¬ CardAgrees sampleUris noPrimitives (.ofContext "uvreq-1" brokenKey) 1760000000 := by
  refine ⟨by decide +kernel, fun hagrees => ?_⟩
  obtain ⟨-, record, r, hrecord, -, -, hadmitted, -⟩ :=
    hagrees.1 rfl _ List.mem_cons_self (Vector.replicate 16 0)
  obtain ⟨-, -, -, rfl⟩ := grantRecord_eq_ok.mp hrecord
  exact unbroken_of_grant hadmitted (some "user-ai-xai\n") (by decide) _ rfl (by decide)

end Phone
end Recto
