import Recto.Data.Traverse
import Recto.Phone.PairLink

/-!
# What a scan reads

The links of the phone are read back exactly when their bootloader URL has no
white space at its ends, and is there when the kind asks for it. The host accepts
what the phone accepts, but for a line feed behind the code and for the missing
bootloader URL the phone's writer lets pass.
-/

namespace Recto
namespace Phone

open Wallet (isWhiteSpace trim)

section
variable {kind : PairDeepLinkKind} {code core pair name value : List Char} {c : Char} {n : ℕ}

/-! ## Codes -/

theorem codeUnit_lt (h : kind.codeUnit n = true) : n < 128 := by
  cases kind <;> simp only [PairDeepLinkKind.codeUnit, isAlphanumericUnit, isDigitUnit, Bool.or_eq_true,
    Bool.and_eq_true, decide_eq_true_eq] at h <;> omega

theorem unreserved_of_codeUnit (h : kind.codeUnit c.toNat = true) : isUnreserved c = true := by
  cases kind <;> simp only [PairDeepLinkKind.codeUnit, isAlphanumericUnit, isDigitUnit, isUnreserved,
    Bool.or_eq_true, Bool.and_eq_true, decide_eq_true_eq] at h ⊢ <;> omega

theorem not_white_of_codeUnit (h : kind.codeUnit c.toNat = true) : isWhiteSpace c = false := by
  rw [Bool.eq_false_iff]
  intro hwhite
  cases kind <;> simp only [PairDeepLinkKind.codeUnit, isAlphanumericUnit, isDigitUnit, isWhiteSpace,
    Bool.or_eq_true, Bool.and_eq_true, decide_eq_true_eq] at h hwhite <;> omega

/-- The shape of a code, character by character. -/
theorem codeShape_iff : codeShape kind code = true ↔
    code.length = kind.codeLength ∧ ∀ c ∈ code, kind.codeUnit c.toNat = true := by
  simp only [codeShape, Bool.and_eq_true, decide_eq_true_eq, List.all_eq_true]
  constructor
  · rintro ⟨hlength, hunits⟩
    have hsmall : ∀ c ∈ code, c.toNat < 65536 := by
      intro c hc
      by_contra hlarge
      have hunit := codeUnit_lt (hunits (55296 + (c.toNat - 65536) / 1024)
        (List.mem_flatMap.mpr ⟨c, hc, by rw [utf16Units, if_neg hlarge]; exact List.mem_cons_self⟩))
      omega
    rw [units_eq_map hsmall] at hlength hunits
    exact ⟨by simpa using hlength, fun c hc => hunits _ (List.mem_map_of_mem hc)⟩
  · rintro ⟨hlength, hunits⟩
    rw [units_eq_map fun c hc => (codeUnit_lt (hunits c hc)).trans (by decide)]
    refine ⟨by simpa using hlength, fun n hn => ?_⟩
    obtain ⟨c, hc, rfl⟩ := List.mem_map.mp hn
    exact hunits c hc

theorem ne_nil_of_codeShape (h : codeShape kind code = true) : code ≠ [] := by
  rintro rfl
  have hlength := (codeShape_iff.mp h).1
  cases kind <;> cases hlength

/-- A code with a line feed behind it is no code. -/
theorem codeShape_lineFeed : codeShape kind (core ++ ['\n']) = false := by
  rw [Bool.eq_false_iff]
  intro h
  have hunit := (codeShape_iff.mp h).2 '\n' (by simp)
  cases kind <;> exact absurd hunit (by decide)

/-- The expression of the host takes a code, and a code with a line feed behind it. -/
theorem reMatch_iff : reMatch kind code = true ↔
    ∃ core, codeShape kind core = true ∧ (code = core ∨ code = core ++ ['\n']) := by
  simp only [reMatch, Bool.and_eq_true, Bool.or_eq_true, decide_eq_true_eq, List.all_eq_true]
  constructor
  · rintro ⟨⟨hlength, hunits⟩, hrest⟩
    refine ⟨code.take kind.codeLength, codeShape_iff.mpr ⟨hlength, hunits⟩, ?_⟩
    have hsplit := List.take_append_drop kind.codeLength code
    obtain hrest | hrest := hrest
    · rw [hrest, List.append_nil] at hsplit
      exact .inl hsplit.symm
    · rw [hrest] at hsplit
      exact .inr hsplit.symm
  · rintro ⟨core, hcore, rfl | rfl⟩
    · obtain ⟨hlength, hunits⟩ := codeShape_iff.mp hcore
      rw [← hlength, List.take_length, List.drop_length]
      exact ⟨⟨rfl, hunits⟩, .inl rfl⟩
    · obtain ⟨hlength, hunits⟩ := codeShape_iff.mp hcore
      rw [← hlength, List.take_left, List.drop_left]
      exact ⟨⟨rfl, hunits⟩, .inr rfl⟩

/-! ## The two writers -/

theorem toOption_emitPairUrl (code : String) (url : Option String) (kind : PairDeepLinkKind) :
    (emitPairUrl code url kind).toOption =
      if codeShape kind (chars code) = true then some (linkOf (chars code) (url.map chars) kind)
      else none := by
  rw [emitPairUrl, validateCodeShape]
  by_cases hshape : codeShape kind (chars code) = true
  · rw [if_neg (ne_nil_of_codeShape hshape), if_pos hshape, if_pos hshape]
    rfl
  · rw [if_neg hshape, if_neg hshape]
    split_ifs <;> rfl

theorem toOption_buildPairUrl (repr : String → String) (code : String) (url : Option String)
    (kind : PairDeepLinkKind) :
    (buildPairUrl repr code url kind).toOption =
      if reMatch kind (chars code) = true ∧ ¬(kind = .bootloader ∧ (url.map chars).getD [] = []) then
        some (linkOf (chars code) (url.map chars) kind)
      else none := by
  have hempty : reMatch kind [] = false := by cases kind <;> rfl
  rw [buildPairUrl, hostValidateCodeShape.eq_def]
  by_cases hmatch : reMatch kind (chars code) = true
  · have hne : chars code ≠ [] := by
      intro hnil
      rw [hnil, hempty] at hmatch
      cases hmatch
    rw [if_neg hne, if_pos hmatch, ok_bind]
    by_cases hurl : kind = .bootloader ∧ (url.map chars).getD [] = []
    · rw [if_pos hurl, if_neg fun h => h.2 hurl]
      rfl
    · rw [if_neg hurl, if_pos ⟨hmatch, hurl⟩]
      rfl
  · have hrefused : ¬(reMatch kind (chars code) = true ∧
        ¬(kind = .bootloader ∧ (url.map chars).getD [] = [])) := fun h => hmatch h.1
    rw [if_neg hrefused, if_neg hmatch]
    by_cases hnil : chars code = []
    · rw [if_pos hnil]
      rfl
    · rw [if_neg hnil]
      cases kind <;> rfl

/-! ## Queries -/

/-- The name and the value of a parameter around its first `=`. -/
def pairOf (pair : List Char) : List Char × List Char :=
  (unescapeDataString (pair.takeWhile (· ≠ '=')), unescapeDataString ((pair.dropWhile (· ≠ '=')).drop 1))

theorem idxOf?_equals (pair : List Char) :
    match pair.idxOf? '=' with
    | none => pair.takeWhile (· ≠ '=') = pair ∧ pair.dropWhile (· ≠ '=') = []
    | some i => i < pair.length ∧ pair.take i = pair.takeWhile (· ≠ '=') ∧
        pair.drop i = pair.dropWhile (· ≠ '=') := by
  induction pair with
  | nil => exact ⟨rfl, rfl⟩
  | cons c pair ih =>
    by_cases hc : c = '='
    · subst hc
      simp [List.idxOf?_cons]
    · have hbeq : (c == '=') = false := beq_eq_false_iff_ne.mpr hc
      rw [List.idxOf?_cons, hbeq]
      cases hidx : pair.idxOf? '=' with
      | none =>
        rw [hidx] at ih
        simpa [hc] using ih
      | some i =>
        rw [hidx] at ih
        simpa [hc] using ih

/-- Reading a parameter throws nothing. -/
theorem readPair_eq (pair : List Char) : readPair pair = .ok (pairOf pair) := by
  have h := idxOf?_equals pair
  unfold readPair pairOf
  cases hidx : pair.idxOf? '=' with
  | none =>
    rw [hidx] at h
    obtain ⟨htake, hdrop⟩ := h
    rw [htake, hdrop]
    rfl
  | some i =>
    rw [hidx] at h
    obtain ⟨hlt, htake, hdrop⟩ := h
    simp only [substringTo, if_pos hlt.le, substringFrom, if_pos (show i + 1 ≤ pair.length by omega)]
    rw [htake, ← hdrop, List.drop_drop]
    rfl

theorem parseQueryString_eq (query : List Char) : ∃ pairs, parseQueryString query = .ok pairs ∧
    ∀ params : List (List Char), query = '?' :: ['&'].intercalate params → params ≠ [] →
      (∀ param ∈ params, '&' ∉ param ∧ param ≠ []) → pairs = params.map pairOf := by
  refine ⟨(((if query.head? = some '?' then query.drop 1 else query).splitOn '&').filter
    fun pair => pair ≠ []).map pairOf, ?_, ?_⟩
  · rw [parseQueryString, mapM_eq_ok_iff, List.forall₂_map_right_iff]
    exact List.forall₂_same.mpr fun pair _ => readPair_eq pair
  · rintro params rfl hne hparams
    have hsplit : (['&'].intercalate params).splitOn '&' = params :=
      List.splitOn_intercalate '&' (fun param hp => (hparams param hp).1) hne
    rw [List.head?_cons, if_pos rfl, List.drop_one, List.tail_cons, hsplit, List.filter_eq_self.mpr]
    exact fun param hp => decide_eq_true (hparams param hp).2

theorem pairOf_param (hname : ∀ c ∈ name, isUnreserved c = true) :
    pairOf (name ++ '=' :: value) = (name, unescapeDataString value) := by
  have hne : ∀ c ∈ name, decide (c ≠ '=') = true := by
    intro c hc
    refine decide_eq_true ?_
    rintro rfl
    exact absurd (hname _ hc) (by decide)
  rw [pairOf, List.takeWhile_append_of_pos hne, List.dropWhile_append_of_pos hne]
  simp [unescape_unreserved hname]

/-! ## Reading a link back -/

/-- `System.Uri` keeps a percent-encoded query as it is. -/
def KeepsQuery (newUri : String → Option LinkUri) : Prop :=
  ∀ query, PercentEncoded query →
    ∃ uri, newUri (String.ofList (chars (urlScheme ++ "://" ++ pairHost ++ "?") ++ query)) = some uri ∧
      uri.scheme = urlScheme ∧ uri.host = pairHost ∧ uri.query = String.ofList ('?' :: query)

/-- The names of the parameters. -/
def paramNames : List String :=
  [codeParamName, bootloaderParamName, kindParamName, bootstrapBootloaderParamName,
    bootstrapPairCodeParamName, subjectParamName, notAfterParamName]

/-- The parameters of a link, with the values they stand for. -/
def linkEntries (code url : List Char) (kind : PairDeepLinkKind) : List (String × List Char) :=
  (codeParamName, code) :: ((if url = [] then [] else [(bootloaderParamName, url)]) ++
    (if kind = .service then [] else [(kindParamName, chars kind.wireValue)]))

/-- The fixed texts of a link: its names, its kinds and what stands before its query. -/
theorem link_texts :
    (∀ a ∈ paramNames, (∀ b ∈ paramNames, sameText (chars a) b = decide (a = b)) ∧
      (chars a).all isUnreserved = true) ∧
    (∀ kind ∈ [PairDeepLinkKind.service, .bootloader], (chars kind.wireValue).all isUnreserved = true ∧
      trim (chars kind.wireValue) = chars kind.wireValue ∧ kindOf (chars kind.wireValue) = some kind) ∧
    (chars (urlScheme ++ "://" ++ pairHost ++ "?")).all isWhiteSpace = false ∧ chars pairHost ≠ [] ∧
    sameText (chars urlScheme) urlScheme = true ∧ sameText (chars pairHost) pairHost = true := by
  decide +kernel

theorem sameText_names : ∀ a ∈ paramNames, ∀ b ∈ paramNames, sameText (chars a) b = decide (a = b) :=
  fun a ha => (link_texts.1 a ha).1

theorem unreserved_names : ∀ a ∈ paramNames, (chars a).all isUnreserved = true :=
  fun a ha => (link_texts.1 a ha).2

theorem wireValue_texts (kind : PairDeepLinkKind) : (∀ c ∈ chars kind.wireValue, isUnreserved c = true) ∧
    trim (chars kind.wireValue) = chars kind.wireValue ∧ kindOf (chars kind.wireValue) = some kind := by
  obtain ⟨hplain, htrim, hkind⟩ := link_texts.2.1 kind (by cases kind <;> simp)
  exact ⟨List.all_eq_true.mp hplain, htrim, hkind⟩

theorem names_linkEntries {url : List Char} : ∀ e ∈ linkEntries code url kind, e.1 ∈ paramNames := by
  intro e he
  unfold linkEntries at he
  split_ifs at he <;> simp only [List.mem_cons, List.mem_append, List.not_mem_nil, or_false,
    false_or] at he
  · obtain rfl := he
    simp [paramNames]
  · obtain rfl | rfl := he <;> simp [paramNames]
  · obtain rfl | rfl := he <;> simp [paramNames]
  · obtain rfl | rfl | rfl := he <;> simp [paramNames]

theorem tryGetValue_names {entries : List (String × List Char)} {name : String}
    (h : ∀ e ∈ entries, e.1 ∈ paramNames) (hname : name ∈ paramNames) :
    tryGetValue name (entries.map fun e => (chars e.1, e.2)) = entries.reverse.lookup name := by
  rw [tryGetValue, ← List.map_reverse]
  have hreverse : ∀ e ∈ entries.reverse, e.1 ∈ paramNames := fun e he => h e (List.mem_reverse.mp he)
  generalize entries.reverse = reversed at hreverse ⊢
  induction reversed with
  | nil => rfl
  | cons e rest ih =>
    have hsame := sameText_names e.1 (hreverse e List.mem_cons_self) name hname
    rw [List.map_cons, List.find?_cons, List.lookup_cons]
    by_cases he : e.1 = name
    · have hbeq : (name == e.1) = true := beq_iff_eq.mpr he.symm
      rw [hsame, hbeq, decide_eq_true he]
      rfl
    · have hbeq : (name == e.1) = false := beq_eq_false_iff_ne.mpr fun heq => he heq.symm
      rw [hsame, hbeq, decide_eq_false he]
      exact ih fun e' he' => hreverse e' (List.mem_cons_of_mem _ he')

theorem linkQuery_eq (url : Option (List Char)) (hcode : ∀ c ∈ code, isUnreserved c = true) :
    linkQuery code url kind = ['&'].intercalate ((linkEntries code (url.getD []) kind).map
      fun e => chars e.1 ++ '=' :: escapeDataString e.2) := by
  have hwire := escape_unreserved (wireValue_texts kind).1
  rcases url with - | - | ⟨u, us⟩ <;> cases kind <;>
    simp [linkQuery, linkEntries, bootloaderParam, kindParam, List.intercalate,
      escape_unreserved hcode, hwire, -chars_eq_toList]

theorem percentEncoded_linkQuery (kind : PairDeepLinkKind) (url : Option (List Char))
    (hcode : ∀ c ∈ code, isUnreserved c = true) :
    PercentEncoded (linkQuery code url kind) := by
  have hnames : ∀ a ∈ paramNames, PercentEncoded (chars a) := fun a ha =>
    percentEncoded_plain fun c hc => .inl (List.all_eq_true.mp (unreserved_names a ha) c hc)
  have hseparate : ∀ {cs ds : List Char}, PercentEncoded cs → PercentEncoded ds →
      PercentEncoded (cs ++ '=' :: ds) := fun h h' => h.append (.plain (.inr (.inr rfl)) h')
  refine (hseparate (hnames _ (by simp [paramNames]))
    (percentEncoded_plain fun c hc => .inl (hcode c hc))).append (.append ?_ ?_)
  · rcases url with - | - | ⟨u, us⟩
    · exact .nil
    · exact .nil
    · exact .plain (.inr (.inl rfl)) (hseparate (hnames _ (by simp [paramNames])) (percentEncoded_escape _))
  · cases kind
    · exact .nil
    · exact .plain (.inr (.inl rfl)) (hseparate (hnames _ (by simp [paramNames]))
        (percentEncoded_plain fun c hc => .inl ((wireValue_texts _).1 c hc)))

theorem trim_code (h : ∀ c ∈ code, kind.codeUnit c.toNat = true) : trim code = code := by
  have hwhite : ∀ c ∈ code, isWhiteSpace c = false := fun c hc => not_white_of_codeUnit (h c hc)
  have hleft : code.dropWhile isWhiteSpace = code :=
    List.dropWhile_eq_self_iff.mpr fun hlt => by
      rw [hwhite _ (List.getElem_mem hlt)]
      exact Bool.noConfusion
  rw [trim, hleft, List.rdropWhile_eq_self_iff]
  intro hne
  rw [hwhite _ (List.getLast_mem hne)]
  exact Bool.noConfusion

theorem lookup_linkEntries (code url : List Char) (kind : PairDeepLinkKind) :
    (linkEntries code url kind).reverse.lookup codeParamName = some code ∧
      (linkEntries code url kind).reverse.lookup bootloaderParamName =
        (if url = [] then none else some url) ∧
      (linkEntries code url kind).reverse.lookup kindParamName =
        (if kind = .service then none else some (chars kind.wireValue)) ∧
      (linkEntries code url kind).reverse.lookup bootstrapBootloaderParamName = none ∧
      (linkEntries code url kind).reverse.lookup bootstrapPairCodeParamName = none ∧
      (linkEntries code url kind).reverse.lookup subjectParamName = none := by
  unfold linkEntries
  split_ifs <;> simp [List.lookup_cons, codeParamName, bootloaderParamName, kindParamName,
    bootstrapBootloaderParamName, bootstrapPairCodeParamName, subjectParamName]

/-- The payload of the parameters of a link. -/
theorem payloadOf_linkEntries {url : List Char} (longTryParse : String → Option ℤ)
    (hcode : codeShape kind code = true) :
    payloadOf longTryParse ((linkEntries code url kind).map fun e => (chars e.1, e.2)) =
      if kind = .bootloader ∧ trim url = [] then none
      else some ⟨String.ofList code, nonEmpty (trim url), kind, none, none, none, none⟩ := by
  have hget : ∀ name ∈ paramNames,
      tryGetValue name ((linkEntries code url kind).map fun e => (chars e.1, e.2)) =
        (linkEntries code url kind).reverse.lookup name :=
    fun name hname => tryGetValue_names names_linkEntries hname
  obtain ⟨hcodeEntry, hurlEntry, hkindEntry, hbootstrap, hpairCode, hsubject⟩ :=
    lookup_linkEntries code url kind
  have htrimUrl : ((if url = [] then none else some url).map trim).getD [] = trim url := by
    by_cases hurl : url = []
    · rw [if_pos hurl, hurl]
      rfl
    · rw [if_neg hurl]
      rfl
  have hkind : kindOf (((if kind = .service then none else some (chars kind.wireValue)).map trim).getD
      []) = some kind := by
    cases kind with
    | service => rfl
    | bootloader => exact (congrArg kindOf (wireValue_texts _).2.1).trans (wireValue_texts _).2.2
  have hrecord : recordFields longTryParse kind
      ((linkEntries code url kind).map fun e => (chars e.1, e.2)) = none := by
    rw [recordFields, hget _ (by simp [paramNames]), hsubject]
    split_ifs <;> rfl
  have hempty : codeShape .bootloader [] = false := rfl
  simp only [payloadOf, trimmedValue, hget _ (show codeParamName ∈ paramNames by simp [paramNames]),
    hget _ (show bootloaderParamName ∈ paramNames by simp [paramNames]),
    hget _ (show kindParamName ∈ paramNames by simp [paramNames]),
    hget _ (show bootstrapBootloaderParamName ∈ paramNames by simp [paramNames]),
    hget _ (show bootstrapPairCodeParamName ∈ paramNames by simp [paramNames]), hcodeEntry, hurlEntry,
    hkindEntry, hbootstrap, hpairCode, htrimUrl, hkind, hrecord, Option.map_some, Option.map_none,
    Option.getD_some, Option.getD_none, trim_code (codeShape_iff.mp hcode).2, hcode, hempty]
  simp [nonEmpty]

/-- What the parser makes of a link of the writers. -/
theorem tryParse_linkOf {newUri : String → Option LinkUri} (huri : KeepsQuery newUri)
    (longTryParse : String → Option ℤ) (url : Option (List Char)) (hcode : codeShape kind code = true) :
    tryParse newUri longTryParse (some (linkOf code url kind)) =
      .ok (if kind = .bootloader ∧ trim (url.getD []) = [] then none
        else some ⟨String.ofList code, nonEmpty (trim (url.getD [])), kind, none, none, none, none⟩) := by
  have hplain : ∀ c ∈ code, isUnreserved c = true := fun c hc =>
    unreserved_of_codeUnit ((codeShape_iff.mp hcode).2 c hc)
  obtain ⟨uri, hnew, hscheme, hhost, hquery⟩ := huri _ (percentEncoded_linkQuery kind url hplain)
  have hwhite : (chars (linkOf code url kind)).all isWhiteSpace = false := by
    rw [linkOf, chars_ofList, List.all_append, link_texts.2.2.1]
    rfl
  have hsegment : hostOrPathSegment uri = chars pairHost := by
    rw [hostOrPathSegment, hhost, if_neg link_texts.2.2.2.1]
  obtain ⟨pairs, hpairs, hparams⟩ := parseQueryString_eq (chars uri.query)
  have hmap : pairs = (linkEntries code (url.getD []) kind).map fun e => (chars e.1, e.2) := by
    rw [hparams ((linkEntries code (url.getD []) kind).map
      fun e => chars e.1 ++ '=' :: escapeDataString e.2), List.map_map]
    · refine List.map_congr_left fun e he => ?_
      rw [Function.comp, pairOf_param (List.all_eq_true.mp (unreserved_names _ (names_linkEntries e he))),
        unescape_escape]
    · rw [hquery, chars_ofList, linkQuery_eq url hplain]
    · simp [linkEntries]
    · intro param hparam
      obtain ⟨e, he, rfl⟩ := List.mem_map.mp hparam
      refine ⟨fun hmem => ?_, by simp⟩
      obtain hmem | hmem := List.mem_append.mp hmem
      · exact absurd (List.all_eq_true.mp (unreserved_names _ (names_linkEntries e he)) _ hmem) (by decide)
      · obtain heq | hmem := List.mem_cons.mp hmem
        · exact absurd heq (by decide)
        · exact (not_separator_of_mem_escape hmem).1 rfl
  have hsame := link_texts.2.2.2.2
  rw [tryParse, hwhite, if_neg Bool.false_ne_true, show newUri (linkOf code url kind) = some uri from hnew]
  dsimp only
  rw [hscheme, hsame.1, if_neg Bool.true_eq_false.mp, hsegment, hsame.2, if_neg Bool.true_eq_false.mp,
    hpairs, ok_bind, hmap, payloadOf_linkEntries longTryParse hcode]
  rfl

end

/-! ## The law -/

section
variable (newUri : String → Option LinkUri) (longTryParse : String → Option ℤ) (repr : String → String)

/-- What the emitter accepts is read back as it was written, an empty URL as none. -/
def SurvivesScan (code : String) (url : Option String) (kind : PairDeepLinkKind) : Prop :=
  ∀ link, emitPairUrl code url kind = .ok link → tryParse newUri longTryParse (some link) =
    .ok (some ⟨code, url.filter fun u => u ≠ "", kind, none, none, none, none⟩)

/-- The host accepts what the phone accepts, and writes the same text. -/
def HostAgrees (code : String) (url : Option String) (kind : PairDeepLinkKind) : Prop :=
  (buildPairUrl repr code url kind).toOption = (emitPairUrl code url kind).toOption

/-- A code of the shape of its kind, and a bootloader URL where the kind asks for it. -/
def WellFormed (payload : PairDeepLinkPayload) : Prop :=
  codeShape payload.kind (chars payload.code) = true ∧
    (payload.kind = .bootloader → ∃ url, payload.bootloaderUrl = some url ∧ url ≠ "")

/-- No white space around the bootloader URL of an accepted code, which a bootloader link has; and no
line feed behind a code the host would take. -/
def Scannable (code : String) (url : Option String) (kind : PairDeepLinkKind) : Prop :=
  (codeShape kind (chars code) = true →
      trim ((url.map chars).getD []) = (url.map chars).getD [] ∧
        (kind = .bootloader → (url.map chars).getD [] ≠ [])) ∧
    (∀ core, codeShape kind core = true → chars code = core ++ ['\n'] →
      kind = .bootloader ∧ (url.map chars).getD [] = [])

end

section
variable {newUri : String → Option LinkUri} {longTryParse : String → Option ℤ} {repr : String → String}
  {code : String} {url : Option String} {kind : PairDeepLinkKind}

theorem ofList_chars (s : String) : String.ofList (chars s) = s := by
  rw [chars_eq_toList, String.ofList_toList]

theorem nonEmpty_injective : Function.Injective nonEmpty := by
  intro a b h
  unfold nonEmpty at h
  split_ifs at h with ha hb hb
  · rw [ha, hb]
  · exact String.ofList_injective (Option.some.inj h)

theorem nonEmpty_url (url : Option String) :
    nonEmpty ((url.map chars).getD []) = url.filter fun u => u ≠ "" := by
  cases url with
  | none => rfl
  | some s =>
    have hchars : chars s = [] ↔ s = "" := by
      rw [chars_eq_toList, String.toList_eq_nil_iff]
    by_cases hs : s = ""
    · subst hs
      rfl
    · rw [Option.map_some, Option.getD_some, nonEmpty, if_neg (mt hchars.mp hs), ofList_chars,
        Option.filter_some, if_pos (decide_eq_true hs)]

theorem emitPairUrl_eq_ok {link : String} : emitPairUrl code url kind = .ok link ↔
    codeShape kind (chars code) = true ∧ linkOf (chars code) (url.map chars) kind = link := by
  have h := toOption_emitPairUrl code url kind
  cases hemit : emitPairUrl code url kind with
  | error message =>
    rw [hemit] at h
    by_cases hshape : codeShape kind (chars code) = true
    · rw [if_pos hshape] at h
      cases h
    · exact ⟨nofun, fun hok => absurd hok.1 hshape⟩
  | ok text =>
    rw [hemit] at h
    by_cases hshape : codeShape kind (chars code) = true
    · rw [if_pos hshape] at h
      rw [Except.ok.injEq, Option.some.inj h]
      exact ⟨fun heq => ⟨hshape, heq⟩, And.right⟩
    · rw [if_neg hshape] at h
      cases h

theorem survivesScan_iff (huri : KeepsQuery newUri) : SurvivesScan newUri longTryParse code url kind ↔
    (codeShape kind (chars code) = true →
      trim ((url.map chars).getD []) = (url.map chars).getD [] ∧
        (kind = .bootloader → (url.map chars).getD [] ≠ [])) := by
  have hparse := fun hshape : codeShape kind (chars code) = true =>
    tryParse_linkOf huri longTryParse (url.map chars) hshape
  unfold SurvivesScan
  constructor
  · intro h hshape
    have hread := h _ (emitPairUrl_eq_ok.mpr ⟨hshape, rfl⟩)
    rw [hparse hshape, Except.ok.injEq] at hread
    split_ifs at hread with hmissing
    rw [Option.some.injEq, PairDeepLinkPayload.mk.injEq, ← nonEmpty_url] at hread
    have htrim := nonEmpty_injective hread.2.1
    exact ⟨htrim, fun hkind hempty => hmissing ⟨hkind, htrim.trans hempty⟩⟩
  · rintro h link hemit
    obtain ⟨hshape, rfl⟩ := emitPairUrl_eq_ok.mp hemit
    obtain ⟨htrim, hthere⟩ := h hshape
    rw [hparse hshape, htrim, if_neg fun hmissing => hthere hmissing.1 hmissing.2, nonEmpty_url,
      ofList_chars]

theorem hostAgrees_iff : HostAgrees repr code url kind ↔
    (codeShape kind (chars code) = true → (kind = .bootloader → (url.map chars).getD [] ≠ [])) ∧
      (∀ core, codeShape kind core = true → chars code = core ++ ['\n'] →
        kind = .bootloader ∧ (url.map chars).getD [] = []) := by
  rw [HostAgrees, toOption_buildPairUrl, toOption_emitPairUrl]
  by_cases hshape : codeShape kind (chars code) = true
  · have hmatch : reMatch kind (chars code) = true := reMatch_iff.mpr ⟨_, hshape, .inl rfl⟩
    have hfeed : ∀ core, codeShape kind core = true → chars code ≠ core ++ ['\n'] := by
      intro core _ heq
      rw [heq, codeShape_lineFeed] at hshape
      cases hshape
    rw [if_pos hshape]
    constructor
    · intro h
      split_ifs at h with hhost
      exact ⟨fun _ hkind hempty => hhost.2 ⟨hkind, hempty⟩, fun core hcore heq =>
        absurd heq (hfeed core hcore)⟩
    · rintro ⟨hthere, -⟩
      rw [if_pos ⟨hmatch, fun hmissing => hthere hshape hmissing.1 hmissing.2⟩]
  · rw [if_neg hshape]
    constructor
    · intro h
      split_ifs at h with hhost
      refine ⟨fun hok => absurd hok hshape, fun core hcore heq => ?_⟩
      by_contra hmissing
      exact hhost ⟨reMatch_iff.mpr ⟨core, hcore, .inr heq⟩, hmissing⟩
    · rintro ⟨-, hfeed⟩
      rw [if_neg]
      rintro ⟨hmatch, hmissing⟩
      obtain ⟨core, hcore, heq | heq⟩ := reMatch_iff.mp hmatch
      · exact hshape (heq ▸ hcore)
      · exact hmissing (hfeed core hcore heq)

theorem wellFormed_of_payloadOf {pairs : List (List Char × List Char)} {payload : PairDeepLinkPayload}
    (h : payloadOf longTryParse pairs = some payload) : WellFormed payload := by
  unfold payloadOf at h
  dsimp only at h
  split at h
  · cases h
  · rename_i kind _
    split_ifs at h with hshape hmissing <;>
    · obtain rfl := Option.some.inj h
      refine ⟨by rw [chars_ofList]; simpa using hshape, fun hkind => ?_⟩
      have hne : trimmedValue bootloaderParamName pairs ≠ [] := fun hempty => hmissing ⟨hkind, hempty⟩
      refine ⟨_, if_neg hne, fun hempty => hne ?_⟩
      have hchars := congrArg chars hempty
      rwa [chars_ofList] at hchars

/-- The parser throws nothing, and what it reads is well formed. -/
theorem tryParse_wellFormed (text : Option String) : ∃ found, tryParse newUri longTryParse text = .ok found ∧
    ∀ payload, found = some payload → WellFormed payload := by
  cases text with
  | none => exact ⟨none, rfl, nofun⟩
  | some text =>
    rw [tryParse]
    by_cases hwhite : (chars text).all isWhiteSpace = true
    · exact ⟨none, by rw [if_pos hwhite], nofun⟩
    rw [if_neg hwhite]
    cases newUri text with
    | none => exact ⟨none, rfl, nofun⟩
    | some uri =>
      dsimp only
      by_cases hscheme : sameText (chars uri.scheme) urlScheme = false
      · exact ⟨none, by rw [if_pos hscheme], nofun⟩
      rw [if_neg hscheme]
      by_cases hhost : sameText (hostOrPathSegment uri) pairHost = false
      · exact ⟨none, by rw [if_pos hhost], nofun⟩
      obtain ⟨pairs, hpairs, -⟩ := parseQueryString_eq (chars uri.query)
      rw [if_neg hhost, hpairs]
      exact ⟨payloadOf longTryParse pairs, rfl, fun payload h => wellFormed_of_payloadOf h⟩

end

/-- Pair links survive the scan, and are written alike by the phone and the host, exactly for the
scannable inputs; and the parser throws nothing and returns well-formed payloads only. -/
theorem pair_link_scan_iff (newUri : String → Option LinkUri) (longTryParse : String → Option ℤ)
    (repr : String → String) (huri : KeepsQuery newUri) :
    (∀ text, ∃ found, tryParse newUri longTryParse text = .ok found ∧
      ∀ payload, found = some payload → WellFormed payload) ∧
    ∀ (code : String) (url : Option String) (kind : PairDeepLinkKind),
      SurvivesScan newUri longTryParse code url kind ∧ HostAgrees repr code url kind ↔
        Scannable code url kind := by
  refine ⟨tryParse_wellFormed, fun code url kind => ?_⟩
  rw [survivesScan_iff huri, hostAgrees_iff, Scannable]
  constructor
  · rintro ⟨hsurvives, -, hfeed⟩
    exact ⟨hsurvives, hfeed⟩
  · rintro ⟨hsurvives, hfeed⟩
    exact ⟨hsurvives, fun hshape => (hsurvives hshape).2, hfeed⟩

/-- A `System.Uri` that reads the links of this application. -/
def sampleUri (text : String) : Option LinkUri :=
  (List.dropPrefix? (chars text) (chars (urlScheme ++ "://" ++ pairHost ++ "?"))).map fun query =>
    ⟨urlScheme, pairHost, "/", String.ofList ('?' :: query)⟩

theorem sampleUri_keepsQuery : KeepsQuery sampleUri := by
  intro query _
  refine ⟨⟨urlScheme, pairHost, "/", String.ofList ('?' :: query)⟩, ?_, rfl, rfl, rfl⟩
  rw [sampleUri, chars_ofList, List.dropPrefix?_append_of_beq query (beq_self_eq_true _)]
  rfl

theorem pair_link_scan_sample :
    SurvivesScan sampleUri (fun _ => none) "000000" (some "demo://recto-app-review") .bootloader ∧
      HostAgrees id "000000" (some "demo://recto-app-review") .bootloader := by
  refine ((pair_link_scan_iff sampleUri (fun _ => none) id sampleUri_keepsQuery).2 _ _ _).mpr ⟨fun _ =>
    ⟨by decide +kernel, fun _ => by decide +kernel⟩, fun core hcore heq => ?_⟩
  have hlength := congrArg List.length heq
  rw [List.length_append, (codeShape_iff.mp hcore).1] at hlength
  exact absurd hlength (by decide +kernel)

/-- A space before the URL is lost; a line feed behind the code is for the host alone; and the writer
of the phone makes bootloader links without a bootloader. -/
theorem pair_links_not_scanned :
    ¬SurvivesScan sampleUri (fun _ => none) "ABCD1234" (some " https://b") .service ∧
      ¬HostAgrees id "ABCD1234\n" none .service ∧
      ¬SurvivesScan sampleUri (fun _ => none) "000000" (some "") .bootloader ∧
      ¬HostAgrees id "000000" (some "") .bootloader := by
  refine ⟨?_, ?_, ?_, ?_⟩
  · intro h
    exact absurd ((survivesScan_iff sampleUri_keepsQuery).mp h (by decide +kernel)).1 (by decide +kernel)
  · intro h
    exact absurd ((hostAgrees_iff.mp h).2 (chars "ABCD1234") (by decide +kernel) (by decide +kernel)).1
      (by decide)
  · intro h
    exact ((survivesScan_iff sampleUri_keepsQuery).mp h (by decide +kernel)).2 rfl (by decide +kernel)
  · intro h
    exact (hostAgrees_iff.mp h).1 (by decide +kernel) rfl (by decide +kernel)

end Phone
end Recto
