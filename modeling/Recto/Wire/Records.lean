import Recto.Data.Refusals
import Recto.Genesis.Entry
import Recto.Text.Repr
import Recto.UserVault.GrantRecord

/-!
# The wire records and what their readers refuse

Five records come in as JSON objects. Each reader checks the fields and then
builds the record, whose constructor checks them again; a refusal has a name.
What Python's own conversions raise on the way is kept apart from the names.
-/

namespace Recto

/-! ## Connection acts -/

namespace Connections

/-- Past the years `gmtime` can hold. -/
def TooLate (unix : ℤ) : Prop :=
  2 ^ 63 ≤ unix ∨ 2147483647 < (civilOfDays (unix / 86400)).year

instance (unix : ℤ) : Decidable (TooLate unix) := inferInstanceAs (Decidable (_ ∨ _))

namespace ActRecord

/-- `__post_init__` up to the purpose, on the arguments of the constructor. -/
def check (read : String → Json) : Except (Refused ActRefusal) ActRecord := do
  let bootloaderId ← exactText (read "bootloader_id")
  let service ← exactText (read "service")
  let key ← exactText (read "key")
  let verbName ← exactText (read "verb")
  ensure (isConnectionKey key) (.named .recordKeyMalformed)
  match ActVerb.ofName? verbName with
  | none => .error (.named .recordVerbUnknown)
  | some verb =>
      match read "not_after" with
      | .int notAfter =>
          ensure (0 < notAfter) (.named .recordNotAfterMalformed)
          let valueSha256 ← readValueSha256 verb (read "value_sha256")
          pure { bootloaderId, service, key, verb, notAfter, valueSha256 }
      | _ => .error (.named .recordNotAfterMalformed)

/-- `__post_init__` -/
def make (read : String → Json) : Except (Refused ActRefusal) ActRecord := do
  let record ← check read
  match record.purpose with
  | .error e => .error (.raised e)
  | .ok purpose =>
      ensure ((chars purpose).length ≤ purposeMaxChars) (.named .purposeTooLong)
      pure record

/-- No field but those of the verb. -/
def checkFields (fields : List (String × Json)) : Except (Refused ActRefusal) Unit :=
  ensure (∀ f ∈ fields, f.1 ∈
    if (fields.lookup "verb").getD .null = .str "set" then setRecordFields else actRecordFields)
    (.named .recordFieldsUnexpected)

theorem fromDict_obj (fields : List (String × Json)) :
    fromDict (.obj fields) =
      (do checkFields fields; make fun name => (fields.lookup name).getD .null) := by
  have hfield : ∀ name, Capability.field (.obj fields) name = fields.lookup name := fun _ => rfl
  unfold fromDict make check checkFields
  simp only [hfield, bind_assoc]
  congr 1
  funext _
  congr 1; funext bootloaderId
  congr 1; funext service
  congr 1; funext key
  congr 1; funext verbName
  congr 1; funext _
  cases ActVerb.ofName? verbName with
  | none => rfl
  | some verb =>
    cases (fields.lookup "not_after").getD .null with
    | int notAfter =>
      simp only [bind_assoc, pure_bind] <;> rfl
    | _ => rfl

theorem namedOnly_exactText (x : Json) : NamedOnly (exactText x) := by
  unfold exactText
  cases x with
  | str s =>
    simp only
    split_ifs
    · exact .ok s
    · exact .named _
  | _ => exact .named _

theorem namedOnly_readValueSha256 (verb : ActVerb) (x : Json) :
    NamedOnly (readValueSha256 verb x) := by
  unfold readValueSha256
  split_ifs
  · cases x with
    | str s =>
      simp only
      split_ifs
      · exact .named _
      · exact .ok _
      · exact .named _
    | _ => exact .named _
  · exact .ok none
  · exact .named _

theorem namedOnly_check (read : String → Json) : NamedOnly (check read) := by
  unfold check
  refine .bind (namedOnly_exactText _) fun bootloaderId => .bind (namedOnly_exactText _) fun service =>
    .bind (namedOnly_exactText _) fun key => .bind (namedOnly_exactText _) fun verbName =>
      .bind (.ensure _ _) fun _ => ?_
  cases ActVerb.ofName? verbName with
  | none => exact .named _
  | some verb =>
    cases read "not_after" with
    | int notAfter =>
      exact .bind (.ensure _ _) fun _ => .bind (namedOnly_readValueSha256 _ _) fun _ => .ok _
    | _ => exact .named _

/-- The purpose can be written unless the moment is out of range. -/
theorem purpose_eq_error_iff (r : ActRecord) : (∃ e, r.purpose = .error e) ↔ TooLate r.notAfter := by
  have hminute : (∃ e, utcMinute r.notAfter = .error e) ↔ TooLate r.notAfter := by
    unfold utcMinute TooLate
    simp only
    split_ifs with hword hlong hyear
    · exact ⟨fun _ => Or.inl hword, fun _ => ⟨_, rfl⟩⟩
    · exact ⟨fun _ => Or.inr (by omega), fun _ => ⟨_, rfl⟩⟩
    · exact ⟨fun _ => Or.inr hyear, fun _ => ⟨_, rfl⟩⟩
    · exact ⟨nofun, fun h => (h.elim hword hyear).elim⟩
  rw [← hminute]
  unfold purpose
  cases utcMinute r.notAfter with
  | error e => exact ⟨fun _ => ⟨e, rfl⟩, fun _ => ⟨e, rfl⟩⟩
  | ok minute => exact ⟨nofun, nofun⟩

theorem namedOnly_make_iff (read : String → Json) :
    NamedOnly (make read) ↔ ¬∃ r, check read = .ok r ∧ TooLate r.notAfter := by
  rw [make, NamedOnly.bind_iff (namedOnly_check read)]
  constructor
  · rintro h ⟨r, hr, hlate⟩
    obtain ⟨e, he⟩ := (purpose_eq_error_iff r).mpr hlate
    have hraised := h r hr
    rw [he] at hraised
    exact hraised e rfl
  · intro h r hr
    cases hpurpose : r.purpose with
    | error e => exact absurd ⟨r, hr, (purpose_eq_error_iff r).mp ⟨e, hpurpose⟩⟩ h
    | ok purpose => exact .bind (.ensure _ _) fun _ => .ok r

theorem namedOnly_fromDict_iff (fields : List (String × Json)) :
    NamedOnly (fromDict (.obj fields)) ↔
      ¬∃ r, checkFields fields = .ok () ∧
        check (fun name => (fields.lookup name).getD .null) = .ok r ∧ TooLate r.notAfter := by
  have hfields : NamedOnly (checkFields fields) := .ensure _ _
  rw [fromDict_obj, NamedOnly.bind_iff hfields]
  constructor
  · rintro h ⟨r, hfields, hr⟩
    exact (namedOnly_make_iff _).mp (h () hfields) ⟨r, hr⟩
  · rintro h ⟨⟩ hfields
    exact (namedOnly_make_iff _).mpr fun ⟨r, hr⟩ => h ⟨r, hfields, hr⟩

theorem exactText_eq_ok {x : Json} {s : String} (h : exactText x = .ok s) : x = .str s := by
  cases x with
  | str s' =>
    unfold exactText at h
    simp only at h
    split_ifs at h
    rw [Except.ok.inj h]
  | _ => cases h

theorem readValueSha256_eq_ok {verb : ActVerb} {x : Json} {v : Option String}
    (h : readValueSha256 verb x = .ok v) :
    x = (v.map Json.str).getD .null ∧ (verb ≠ .set → v = none) := by
  unfold readValueSha256 at h
  split_ifs at h with hverb hnull
  · refine ⟨?_, fun hne => absurd hverb hne⟩
    cases x with
    | str s =>
      simp only at h
      split_ifs at h
      obtain rfl := Except.ok.inj h
      rfl
    | _ => cases h
  · obtain rfl := Except.ok.inj h
    exact ⟨hnull, fun _ => rfl⟩

theorem ofName?_name {s : String} {verb : ActVerb} (h : ActVerb.ofName? s = some verb) :
    verb.name = s := by
  simpa using List.find?_some h

/-- What a record was built from is what it is written as. -/
theorem check_reads {read : String → Json} {r : ActRecord} (h : check read = .ok r) :
    read "bootloader_id" = .str r.bootloaderId ∧ read "service" = .str r.service ∧
      read "key" = .str r.key ∧ read "verb" = .str r.verb.name ∧ read "not_after" = .int r.notAfter ∧
      read "value_sha256" = (r.valueSha256.map Json.str).getD .null ∧
      (r.verb ≠ .set → r.valueSha256 = none) := by
  simp only [check, Except.bind_eq_ok] at h
  obtain ⟨bootloaderId, hboot, service, hservice, key, hkey, verbName, hverb, -, -, h⟩ := h
  cases hname : ActVerb.ofName? verbName with
  | none => simp [hname] at h
  | some verb =>
    simp only [hname] at h
    cases hnotAfter : read "not_after" with
    | int notAfter =>
      simp only [hnotAfter, Except.bind_eq_ok] at h
      obtain ⟨-, -, v, hv, h⟩ := h
      obtain rfl := Except.pure_eq_ok.mp h
      obtain ⟨hvalue, hnone⟩ := readValueSha256_eq_ok hv
      exact ⟨exactText_eq_ok hboot, exactText_eq_ok hservice, exactText_eq_ok hkey,
        (exactText_eq_ok hverb).trans (by rw [ofName?_name hname]), rfl, hvalue, hnone⟩
    | _ => simp [hnotAfter] at h

/-- The fields `to_dict` writes. -/
def dictFields (r : ActRecord) : List (String × Json) :=
  [("bootloader_id", .str r.bootloaderId), ("key", .str r.key), ("not_after", .int r.notAfter),
    ("service", .str r.service), ("verb", .str r.verb.name)] ++
    if r.verb = .set then [("value_sha256", (r.valueSha256.map Json.str).getD .null)] else []

/-- A record that can be built. -/
def Built (r : ActRecord) : Prop := ∃ read, make read = .ok r

theorem Built.fromDict_toDict {r : ActRecord} (h : r.Built) : fromDict r.toDict = .ok r := by
  obtain ⟨read, hmake⟩ := h
  obtain ⟨r', hcheck, hmake'⟩ := Except.bind_eq_ok.mp hmake
  have hr : r' = r := by
    cases hpurpose : r'.purpose with
    | error e => simp [hpurpose] at hmake'
    | ok purpose =>
      simp only [hpurpose, Except.bind_eq_ok] at hmake'
      obtain ⟨-, -, h⟩ := hmake'
      exact Except.pure_eq_ok.mp h
  subst hr
  obtain ⟨hboot, hservice, hkey, hverb, hnotAfter, hvalue, hnone⟩ := check_reads hcheck
  have hread : check (fun name => ((dictFields r').lookup name).getD .null) = check read := by
    unfold check dictFields
    by_cases hset : r'.verb = .set
    · simp [hset, hboot, hservice, hkey, hverb, hnotAfter, hvalue, List.lookup_cons]
    · simp [hset, hboot, hservice, hkey, hverb, hnotAfter, hvalue, hnone hset, List.lookup_cons]
  have hfields : checkFields (dictFields r') = .ok () := by
    unfold checkFields dictFields
    cases hv : r'.verb <;>
      simp [ActVerb.name, List.lookup_cons, actRecordFields, setRecordFields]
  have hdict : r'.toDict = .obj (dictFields r') := rfl
  rw [hdict, fromDict_obj, hfields]
  calc make (fun name => ((dictFields r').lookup name).getD .null)
      = make read := by rw [make, hread, ← make]
    _ = .ok r' := hmake

end ActRecord
end Connections

/-! ## User-vault grants and revocations -/

namespace UserVault

open Connections

theorem text_eq_ok {x : Json} {s : String} (h : text x = .ok s) : x = .str s := by
  cases x with
  | str s' =>
    unfold text at h
    simp only at h
    split_ifs at h
    rw [Except.ok.inj h]
  | _ => cases h

theorem positiveInt_eq_ok {x : Json} {n : ℤ} (h : positiveInt x = .ok n) : x = .int n := by
  cases x with
  | int m =>
    unfold positiveInt at h
    simp only at h
    split_ifs at h
    rw [Except.ok.inj h]
  | _ => cases h

namespace GrantRecord

/-- `__post_init__`, on the arguments of the constructor. -/
def make (read : String → Json) : Except GrantRefusal GrantRecord := do
  let bootloaderId ← text (read "bootloader_id")
  let consumer ← text (read "consumer")
  let subject ← text (read "subject")
  let agentHandle ← text (read "agent_handle")
  let key ← text (read "key")
  let scope ← text (read "scope")
  let nonce ← text (read "nonce")
  ensure (isHandle subject) .recordInvalid
  ensure (isHandle agentHandle) .agentHandleInvalid
  ensure (isConnectionKey key) .recordInvalid
  ensure (isWord isScopeChar 1 64 scope) .recordInvalid
  ensure (isNonce nonce) .recordInvalid
  let notAfter ← positiveInt (read "not_after")
  pure { bootloaderId, consumer, subject, agentHandle, key, scope, notAfter, nonce }

/-- A record that can be built. -/
def Built (r : GrantRecord) : Prop := ∃ read, make read = .ok r

theorem Built.fromDict_toDict {r : GrantRecord} (h : r.Built) : fromDict r.toDict = .ok r := by
  obtain ⟨read, hmake⟩ := h
  have hparts := hmake
  simp only [make, Except.bind_eq_ok] at hparts
  obtain ⟨boot, hboot, consumer, hconsumer, subject, hsubject, agent, hagent, key, hkey, scope, hscope,
    nonce, hnonce, -, -, -, -, -, -, -, -, -, -, notAfter, hnotAfter, hr⟩ := hparts
  obtain rfl := Except.pure_eq_ok.mp hr
  rw [← hmake]
  unfold make
  rw [text_eq_ok hboot, text_eq_ok hconsumer, text_eq_ok hsubject, text_eq_ok hagent,
    text_eq_ok hkey, text_eq_ok hscope, text_eq_ok hnonce, positiveInt_eq_ok hnotAfter]
  rfl

end GrantRecord

namespace RevokeRecord

/-- `__post_init__`, on the arguments of the constructor. -/
def make (read : String → Json) : Except GrantRefusal RevokeRecord := do
  let bootloaderId ← text (read "bootloader_id")
  let consumer ← text (read "consumer")
  let subject ← text (read "subject")
  let grantId ← text (read "grant_id")
  let nonce ← text (read "nonce")
  ensure (isHandle subject) .recordInvalid
  ensure (isRun isLowerHex 64 grantId) .recordInvalid
  ensure (isNonce nonce) .recordInvalid
  pure { bootloaderId, consumer, subject, grantId, nonce }

/-- A record that can be built. -/
def Built (r : RevokeRecord) : Prop := ∃ read, make read = .ok r

theorem Built.fromDict_toDict {r : RevokeRecord} (h : r.Built) : fromDict r.toDict = .ok r := by
  obtain ⟨read, hmake⟩ := h
  have hparts := hmake
  simp only [make, Except.bind_eq_ok] at hparts
  obtain ⟨boot, hboot, consumer, hconsumer, subject, hsubject, grantId, hgrantId, nonce, hnonce,
    -, -, -, -, -, -, hr⟩ := hparts
  obtain rfl := Except.pure_eq_ok.mp hr
  rw [← hmake]
  unfold make
  rw [text_eq_ok hboot, text_eq_ok hconsumer, text_eq_ok hsubject, text_eq_ok hgrantId,
    text_eq_ok hnonce]
  rfl

end RevokeRecord
end UserVault

/-! ## Pairing records -/

namespace Capability

/-- What Python knows of characters that are digits. -/
structure DigitTables where
  /-- `c.isdigit()` -/
  isDigit : Char → Bool
  /-- The value `int` reads a character as. -/
  decimal : Char → Option ℕ

/-- `sys.get_int_max_str_digits()` -/
def maxStrDigits : ℕ := 4300

/-- `int(s)` on a run of digit characters; `none` when it raises. -/
def intOfDigits (t : DigitTables) (s : String) : Option ℕ :=
  if maxStrDigits < (chars s).length then none
  else (chars s).foldlM (fun acc c => (t.decimal c).map fun d => acc * 10 + d) 0

/-- Text that `int` is called on and refuses. -/
def BadDigits (t : DigitTables) (s : String) : Prop :=
  s ≠ "" ∧ (∀ c ∈ chars s, t.isDigit c = true) ∧
    (maxStrDigits < (chars s).length ∨ ∃ c ∈ chars s, t.decimal c = none)

/-- `not_after` as the constructor gets it; `none` when `int` raises. -/
def secondsOfWire (t : DigitTables) : Json → Option Json
  | .str s => if s ≠ "" ∧ (chars s).all t.isDigit then (intOfDigits t s).map fun n : ℕ => .int n
      else some (.str s)
  | x => some x

/-- `_PUBKEY_HEX.match(s)`: the dollar sign also stands before a last newline. -/
def matchesPubkey (s : String) : Bool :=
  isRun isLowerHex 128 s ||
    ((chars s).length = 129 && (chars s).getLast? = some '\n' && ((chars s).take 128).all isLowerHex)

namespace PairRecord

/-- `__post_init__`, on the arguments of the constructor. -/
def make (read : String → Json) : Except PairRefusal PairRecord :=
  match nonBlank (read "bootloader_id"), nonBlank (read "subject"), nonBlank (read "code") with
  | some bootloaderId, some subject, some code =>
      match read "phone_pubkey" with
      | .str phonePubkey =>
          if matchesPubkey phonePubkey then
            match read "not_after" with
            | .int notAfter =>
                if 0 < notAfter then .ok { bootloaderId, subject, phonePubkey, code, notAfter }
                else .error .recordNotAfterMalformed
            | _ => .error .recordNotAfterMalformed
          else .error .recordPubkeyMalformed
      | _ => .error .recordPubkeyMalformed
  | _, _, _ => .error .recordFieldEmpty

/-- The key as the constructor gets it. -/
def keyOfWire : Json → Json
  | .str key => .str (bareKey key)
  | x => x

/-- `from_dict`, with the digits of every script. -/
def ofWire (t : DigitTables) (d : Json) : Except (Refused PairRefusal) PairRecord :=
  match d with
  | .obj fields =>
      let read name := (fields.lookup name).getD .null
      match secondsOfWire t (read "not_after") with
      | none => .error (.raised .valueError)
      | some notAfter =>
          (make fun name =>
            if name = "phone_pubkey" then keyOfWire (read name)
            else if name = "not_after" then notAfter
            else read name).mapError .named
  | _ => .error (.raised .attributeError)

/-- A record that can be built. -/
def Built (r : PairRecord) : Prop := ∃ read, make read = .ok r

end PairRecord

theorem foldlM_decimal_eq_none (t : DigitTables) (cs : List Char) : ∀ acc : ℕ,
    cs.foldlM (fun acc c => (t.decimal c).map fun d => acc * 10 + d) acc = none ↔
      ∃ c ∈ cs, t.decimal c = none := by
  induction cs with
  | nil => simp
  | cons c cs ih =>
    intro acc
    cases hc : t.decimal c with
    | none => simp [List.foldlM_cons, hc]
    | some d => simp [List.foldlM_cons, hc, ih]

theorem secondsOfWire_eq_none (t : DigitTables) (x : Json) :
    secondsOfWire t x = none ↔ ∃ s, x = .str s ∧ BadDigits t s := by
  cases x with
  | str s =>
    unfold secondsOfWire BadDigits intOfDigits
    simp only
    by_cases hdigits : s ≠ "" ∧ (chars s).all t.isDigit = true
    · rw [if_pos hdigits, Option.map_eq_none_iff]
      have hall := List.all_eq_true.mp hdigits.2
      by_cases hlong : maxStrDigits < (chars s).length
      · rw [if_pos hlong]
        exact ⟨fun _ => ⟨s, rfl, hdigits.1, hall, Or.inl hlong⟩, fun _ => rfl⟩
      · rw [if_neg hlong, foldlM_decimal_eq_none]
        constructor
        · exact fun h => ⟨s, rfl, hdigits.1, hall, Or.inr h⟩
        · rintro ⟨s', hs', -, -, hbad⟩
          obtain rfl := Json.str.inj hs'
          exact hbad.resolve_left hlong
    · rw [if_neg hdigits]
      refine ⟨nofun, ?_⟩
      rintro ⟨s', hs', hne, hall, -⟩
      obtain rfl := Json.str.inj hs'
      exact absurd ⟨hne, List.all_eq_true.mpr hall⟩ hdigits
  | _ => simp [secondsOfWire]

namespace PairRecord

variable (t : DigitTables)

theorem namedOnly_ofWire_iff (fields : List (String × Json)) :
    NamedOnly (ofWire t (.obj fields)) ↔
      ¬∃ s, fields.lookup "not_after" = some (.str s) ∧ BadDigits t s := by
  have hnone := secondsOfWire_eq_none t ((fields.lookup "not_after").getD .null)
  have hget : ∀ s, (fields.lookup "not_after").getD .null = .str s ↔
      fields.lookup "not_after" = some (.str s) := fun s => by
    cases fields.lookup "not_after" <;> simp
  simp only [hget] at hnone
  unfold ofWire
  simp only
  cases hseconds : secondsOfWire t ((fields.lookup "not_after").getD .null) with
  | none => exact ⟨fun h => absurd rfl (h .valueError), fun h => absurd (hnone.mp hseconds) h⟩
  | some notAfter =>
    refine ⟨fun _ h => ?_, fun _ => NamedOnly.mapError _⟩
    rw [hnone.mpr h] at hseconds
    cases hseconds

/-- Once built, a pairing record reads back as itself or with its key cleaned. -/
theorem ofWire_toDict {r : PairRecord} (h : r.Built) :
    ofWire t r.toDict = if matchesPubkey (bareKey r.phonePubkey) then
      .ok { r with phonePubkey := bareKey r.phonePubkey } else .error (.named .recordPubkeyMalformed) := by
  obtain ⟨read, hmake⟩ := h
  have hblank : ∀ {x : Json} {s : String}, nonBlank x = some s → nonBlank (.str s) = some s := by
    intro x s hx
    cases x with
    | str s' =>
      have hs : s' = s := by
        unfold nonBlank at hx
        simp only at hx
        split_ifs at hx
        exact Option.some.inj hx
      rw [← hs] at hx ⊢
      exact hx
    | _ => cases hx
  unfold make at hmake
  split at hmake
  · rename_i boot subject code hboot hsubject hcode
    split at hmake
    · split_ifs at hmake
      split at hmake
      · split_ifs at hmake with hpos
        obtain rfl := Except.ok.inj hmake
        simp only [ofWire, toDict, List.lookup_cons, String.reduceBEq]
        simp only [secondsOfWire, make, keyOfWire]
        simp [hblank hboot, hblank hsubject, hblank hcode, hpos]
        split_ifs <;> rfl
      · cases hmake
    · cases hmake
  · cases hmake

end PairRecord

theorem isLowerHex_cases {c : Char} (h : isLowerHex c = true) :
    (48 ≤ c.toNat ∧ c.toNat ≤ 57) ∨ (97 ≤ c.toNat ∧ c.toNat ≤ 102) := by
  simp only [isLowerHex, Bool.or_eq_true, Bool.and_eq_true, decide_eq_true_eq, Char.le_def,
    UInt32.le_iff_toNat_le] at h
  exact h

theorem isSpace_of_isLowerHex {c : Char} (h : isLowerHex c = true) : Json.isSpace c = false := by
  have hcases := isLowerHex_cases h
  have hblank : c ≠ ' ' := by
    rintro rfl
    revert hcases
    decide
  simp only [Json.isSpace, hblank, decide_false, Bool.false_or, Bool.or_eq_false_iff,
    Bool.and_eq_false_iff, decide_eq_false_iff_not]
  omega

theorem toLower_of_isLowerHex {c : Char} (h : isLowerHex c = true) : c.toLower = c := by
  have hcases := isLowerHex_cases h
  refine dif_neg fun hupper => ?_
  simp only [ge_iff_le, UInt32.le_iff_toNat_le] at hupper
  change 65 ≤ c.toNat ∧ c.toNat ≤ 90 at hupper
  omega

theorem bareKey_of_isRun {s : String} (h : isRun isLowerHex 128 s = true) : bareKey s = s := by
  simp only [isRun, Bool.and_eq_true, decide_eq_true_eq, List.all_eq_true] at h
  obtain ⟨hlength, hhex⟩ := h
  have hstrip : strip s = s := strip_eq_self fun c hc => isSpace_of_isLowerHex (hhex c hc)
  have hlower : lower s = s := by
    rw [lower, List.map_congr_left fun c hc => toLower_of_isLowerHex (hhex c hc), List.map_id']
    simp
  have hx : startsWith s "0x" = false := by
    by_contra hx
    rw [Bool.not_eq_false, startsWith, List.isPrefixOf_iff_prefix] at hx
    have hmem : 'x' ∈ chars s := hx.subset (by decide)
    exact absurd (hhex 'x' hmem) (by decide)
  simp only [bareKey, hstrip, hlower, hx, hlength, Bool.false_eq_true, if_false]
  rw [if_neg (by omega)]

theorem length_bareKey (s : String) : (chars (bareKey s)).length ≤ (chars (strip s)).length := by
  have hdrop : ∀ (p : Prop) [Decidable p] (n : ℕ) (s : String),
      (chars (if p then String.ofList ((chars s).drop n) else s)).length ≤ (chars s).length := by
    intro p _ n s
    split_ifs
    · rw [chars_ofList, List.length_drop]
      exact Nat.sub_le _ _
    · exact le_rfl
  have hlower : (chars (lower (strip s))).length = (chars (strip s)).length := by
    rw [lower, chars_ofList, List.length_map]
  unfold bareKey
  simp only
  exact (hdrop _ _ _).trans ((hdrop _ _ _).trans hlower.le)

/-- A last newline is stripped. -/
theorem length_strip_lt {s : String} (h : (chars s).getLast? = some '\n') :
    (chars (strip s)).length < (chars s).length := by
  obtain ⟨cs, hcs⟩ := List.getLast?_eq_some_iff.mp h
  rw [strip, chars_ofList, hcs]
  have hfront : ((cs ++ ['\n']).dropWhile Json.isSpace).length ≤ (cs ++ ['\n']).length :=
    (List.dropWhile_sublist _).length_le
  rw [List.length_reverse]
  rcases List.eq_nil_or_concat ((cs ++ ['\n']).dropWhile Json.isSpace) with hnil | ⟨ds, d, hds⟩
  · simp [hnil]
  · have hsuffix : (cs ++ ['\n']).dropWhile Json.isSpace <:+ cs ++ ['\n'] := List.dropWhile_suffix _
    rw [hds] at hsuffix hfront ⊢
    obtain rfl : d = '\n' := by
      obtain ⟨front, hfrontEq⟩ := hsuffix
      rw [List.concat_eq_append, ← List.append_assoc] at hfrontEq
      exact (List.cons.inj (List.append_inj' hfrontEq rfl).2).1
    rw [List.concat_eq_append, List.reverse_append, List.reverse_singleton, List.singleton_append,
      List.dropWhile_cons_of_pos (by rfl)]
    have hle : (ds.reverse.dropWhile Json.isSpace).length ≤ ds.reverse.length :=
      (List.dropWhile_sublist _).length_le
    rw [List.concat_eq_append, List.length_append, List.length_singleton] at hfront
    rw [List.length_reverse] at hle
    omega

namespace PairRecord

theorem Built.matchesPubkey {r : PairRecord} (h : r.Built) :
    Capability.matchesPubkey r.phonePubkey = true := by
  obtain ⟨read, hmake⟩ := h
  unfold make at hmake
  split at hmake
  · split at hmake
    · split_ifs at hmake with hmatches
      split at hmake
      · split_ifs at hmake
        obtain rfl := Except.ok.inj hmake
        exact hmatches
      · cases hmake
    · cases hmake
  · cases hmake

/-- Only a key with a newline after it is changed on the way back. -/
theorem Built.ofWire_toDict_iff (t : DigitTables) {r : PairRecord} (h : r.Built) :
    ofWire t r.toDict = .ok r ↔ isRun isLowerHex 128 r.phonePubkey = true := by
  rw [ofWire_toDict t h]
  constructor
  · intro hsame
    have hkey : bareKey r.phonePubkey = r.phonePubkey := by
      by_cases hmatches : Capability.matchesPubkey (bareKey r.phonePubkey) = true
      · rw [if_pos hmatches] at hsame
        have hfield := congrArg PairRecord.phonePubkey (Except.ok.inj hsame)
        simpa only using hfield
      · rw [if_neg hmatches] at hsame
        cases hsame
    have hmatches := h.matchesPubkey
    rw [Capability.matchesPubkey, Bool.or_eq_true] at hmatches
    refine hmatches.resolve_right fun hnewline => ?_
    simp only [Bool.and_eq_true, decide_eq_true_eq] at hnewline
    have hlt := length_strip_lt hnewline.1.2
    have hle := length_bareKey r.phonePubkey
    rw [hkey] at hle
    omega
  · intro hrun
    have hkey := bareKey_of_isRun hrun
    rw [hkey, if_pos h.matchesPubkey]

end PairRecord
/-- What is stripped does not end in whitespace. -/
theorem isSpace_getLast_strip {s : String} {c : Char} (h : (chars (strip s)).getLast? = some c) :
    Json.isSpace c = false := by
  rw [strip, chars_ofList, List.getLast?_reverse] at h
  have hhead := List.head?_dropWhile_not Json.isSpace ((chars s).dropWhile Json.isSpace).reverse
  rw [h] at hhead
  simpa using hhead

theorem getLast_bareKey_ne (s : String) : (chars (bareKey s)).getLast? ≠ some '\n' := by
  intro h
  have hdrop : ∀ (p : Prop) [Decidable p] (n : ℕ) (s : String) (c : Char),
      (chars (if p then String.ofList ((chars s).drop n) else s)).getLast? = some c →
        (chars s).getLast? = some c := by
    intro p _ n s c hlast
    split_ifs at hlast
    · rw [chars_ofList, List.getLast?_drop] at hlast
      split_ifs at hlast
      exact hlast
    · exact hlast
  have hlower : (chars (lower (strip s))).getLast? = some '\n' := by
    unfold bareKey at h
    exact hdrop _ _ _ _ (hdrop _ _ _ _ h)
  rw [lower, chars_ofList, List.getLast?_map, Option.map_eq_some_iff] at hlower
  obtain ⟨c, hc, hnewline⟩ := hlower
  have hspace := isSpace_getLast_strip hc
  by_cases hupper : c.val ≥ 'A'.val ∧ c.val ≤ 'Z'.val
  · have hval : c.toLower.val = c.val + 32 :=
      congrArg Char.val (dif_pos hupper : c.toLower = _)
    rw [hnewline] at hval
    have hnat := congrArg UInt32.toNat hval
    simp only [ge_iff_le, UInt32.le_iff_toNat_le, UInt32.toNat_add] at hupper hnat
    change 65 ≤ c.val.toNat ∧ c.val.toNat ≤ 90 at hupper
    change 10 = (c.val.toNat + 32) % 2 ^ 32 at hnat
    omega
  · have hsame : c.toLower = c := dif_neg hupper
    rw [← hsame, hnewline] at hspace
    exact absurd hspace (by decide)

/-- The reader of the approval paths is this one, for a deadline that is no text. -/
theorem PairRecord.ofWire_eq_fromDict (t : DigitTables) {fields : List (String × Json)}
    (h : ∀ s, fields.lookup "not_after" ≠ some (.str s)) :
    PairRecord.ofWire t (.obj fields) = (PairRecord.fromDict (.obj fields)).mapError .named := by
  have hfield : ∀ name, field (.obj fields) name = fields.lookup name := fun _ => rfl
  have hmatches : ∀ key, matchesPubkey (bareKey key) = isRun isLowerHex 128 (bareKey key) := by
    intro key
    have hlast := getLast_bareKey_ne key
    simp only [matchesPubkey, hlast, decide_false, Bool.and_false, Bool.false_and, Bool.or_false]
  unfold ofWire fromDict
  simp only [hfield]
  generalize hx : (fields.lookup "not_after").getD .null = x
  have hstr : ∀ s, x ≠ .str s := by
    rintro s rfl
    cases hlookup : fields.lookup "not_after" with
    | none => simp [hlookup] at hx
    | some y => exact h s (by rw [hlookup]; simpa [hlookup] using hx)
  have hseconds : secondsOfWire t x = some x := by
    cases x with
    | str s => exact absurd rfl (hstr s)
    | _ => rfl
  have hread : readSeconds x = x := by
    cases x with
    | str s => exact absurd rfl (hstr s)
    | _ => rfl
  simp only [hseconds, hread, make, String.reduceEq, if_false, if_true, hx]
  cases nonBlank ((fields.lookup "bootloader_id").getD .null) <;>
    cases nonBlank ((fields.lookup "subject").getD .null) <;>
      cases nonBlank ((fields.lookup "code").getD .null) <;> try rfl
  cases (fields.lookup "phone_pubkey").getD .null with
  | str key =>
    simp only [keyOfWire, hmatches] <;> rfl
  | _ => rfl

end Capability

/-! ## Drafts of the top plane -/

namespace Server

open Genesis

/-- A draft as it comes over the wire: `prev` and `meta` are whatever the object holds. -/
structure WireDraft where
  op : String
  kind : String
  value : Bytes
  algorithm : String
  seq : ℤ
  prev : Json
  metaText : Json
  deriving DecidableEq

mutual
/-- Does `str` meet an integer it refuses to write? -/
def hasLongInt : Json → Bool
  | .int n => decide (Capability.maxStrDigits < (Nat.toDigits 10 n.natAbs).length)
  | .arr xs => hasLongIntElements xs
  | .obj fields => hasLongIntFields fields
  | _ => false
def hasLongIntElements : List Json → Bool
  | [] => false
  | x :: xs => hasLongInt x || hasLongIntElements xs
def hasLongIntFields : List (String × Json) → Bool
  | [] => false
  | (_, x) :: fs => hasLongInt x || hasLongIntFields fs
end

/-- `str(x)` -/
def strOf (printable : Char → Bool) (x : Json) : Except PyError String :=
  if hasLongInt x then .error .valueError else .ok (x.pyStr printable)

/-- `bytes.fromhex(x)` -/
def bytesOfHex (x : Json) : Except PyError Bytes :=
  match x with
  | .str s =>
      match fromHex s with
      | some raw => .ok raw
      | none => .error .valueError
  | _ => .error .typeError

/-- `int(x)` -/
def seqOf (x : Json) : Except PyError ℤ :=
  match x with
  | .str s =>
      if Capability.maxStrDigits < ((chars s).filter Char.isDigit).length then .error .valueError
      else x.toInt
  | x => x.toInt

/-- What `except (KeyError, TypeError, ValueError)` catches; a failed encoding is a `ValueError`. -/
def caught : List PyError := [.keyError, .typeError, .valueError, .unicodeEncodeError]

namespace WireDraft

variable (printable : Char → Bool)

/-- `as_wire` -/
def asWire (r : WireDraft) : Json :=
  .obj [("op", .str r.op), ("kind", .str r.kind), ("value_hex", .str (hex r.value)),
    ("algorithm", .str r.algorithm), ("seq", .int r.seq), ("prev", r.prev), ("meta", r.metaText)]

/-- The arguments before the sequence number: `op`, `kind`, `value` and `algorithm`. -/
def readHead (d : Json) : Except PyError (String × String × Bytes × String) := do
  let op ← d.getItem "op" >>= strOf printable
  let kind ← d.getItem "kind" >>= strOf printable
  let value ← d.getItem "value_hex" >>= bytesOfHex
  let algorithm ← d.getItem "algorithm" >>= strOf printable
  pure (op, kind, value, algorithm)

/-- The arguments of the constructor. -/
def read (d : Json) : Except PyError WireDraft := do
  let (op, kind, value, algorithm) ← readHead printable d
  let seq ← d.getItem "seq" >>= seqOf
  let prev ← d.get "prev"
  let metaText ← d.get "meta"
  pure { op, kind, value, algorithm, seq, prev, metaText }

/-- `from_wire`; the one name it refuses by is `top_plane_draft_invalid`. -/
def fromWire (d : Json) : Except (Refused String) WireDraft :=
  match read printable d with
  | .ok draft => .ok draft
  | .error e => if e ∈ caught then .error (.named "top_plane_draft_invalid") else .error (.raised e)

/-- The sequence number is an infinite float. -/
def InfiniteSeq (fields : List (String × Json)) : Prop :=
  fields.lookup "seq" = some (.float .infinity) ∨ fields.lookup "seq" = some (.float .negInfinity)

/-- Everything that can go wrong is caught. -/
def Catches {α : Type} (x : Except PyError α) : Prop := ∀ e, x = .error e → e ∈ caught

theorem Catches.bind {α β : Type} {x : Except PyError α} {f : α → Except PyError β} (hx : Catches x)
    (hf : ∀ a, Catches (f a)) : Catches (x >>= f) := by
  intro e h
  cases x with
  | error e' =>
    obtain rfl := Except.error.inj h
    exact hx _ rfl
  | ok a => exact hf a e h

theorem catches_getItem (fields : List (String × Json)) (key : String) :
    Catches (Json.getItem (.obj fields) key) := by
  intro e h
  rw [Json.getItem_obj] at h
  cases hlookup : fields.lookup key with
  | none =>
    rw [hlookup] at h
    obtain rfl := Except.error.inj h
    decide
  | some v => simp [hlookup] at h

theorem catches_strOf (x : Json) : Catches (strOf printable x) := by
  intro e h
  unfold strOf at h
  split_ifs at h
  obtain rfl := Except.error.inj h
  decide

theorem catches_bytesOfHex (x : Json) : Catches (bytesOfHex x) := by
  intro e h
  unfold bytesOfHex at h
  split at h
  · split at h
    · cases h
    · obtain rfl := Except.error.inj h
      decide
  · obtain rfl := Except.error.inj h
    decide

theorem catches_readHead (fields : List (String × Json)) :
    Catches (readHead printable (.obj fields)) :=
  .bind (.bind (catches_getItem fields _) (catches_strOf printable)) fun _ =>
    .bind (.bind (catches_getItem fields _) (catches_strOf printable)) fun _ =>
      .bind (.bind (catches_getItem fields _) catches_bytesOfHex) fun _ =>
        .bind (.bind (catches_getItem fields _) (catches_strOf printable)) fun _ => nofun

/-- The one conversion that raises something else. -/
theorem seqOf_eq_error {x : Json} {e : PyError} (h : seqOf x = .error e) :
    e ∈ caught ∨ x = .float .infinity ∨ x = .float .negInfinity := by
  cases x with
  | str s =>
    left
    unfold seqOf at h
    simp only [Json.toInt] at h
    split_ifs at h
    · obtain rfl := Except.error.inj h
      decide
    · split at h
      · cases h
      · obtain rfl := Except.error.inj h
        decide
  | float f =>
    cases f with
    | decimal m e => cases h
    | infinity => exact Or.inr (Or.inl rfl)
    | negInfinity => exact Or.inr (Or.inr rfl)
    | nan =>
      obtain rfl := Except.error.inj h
      exact Or.inl (by decide)
  | bool b => cases h
  | int n => cases h
  | null =>
    obtain rfl := Except.error.inj h
    exact Or.inl (by decide)
  | arr xs =>
    obtain rfl := Except.error.inj h
    exact Or.inl (by decide)
  | obj fields =>
    obtain rfl := Except.error.inj h
    exact Or.inl (by decide)

theorem namedOnly_fromWire_iff (fields : List (String × Json)) :
    NamedOnly (fromWire printable (.obj fields)) ↔
      ¬((∃ head, readHead printable (.obj fields) = .ok head) ∧ InfiniteSeq fields) := by
  constructor
  · rintro h ⟨⟨⟨op, kind, value, algorithm⟩, hhead⟩, hseq⟩
    have hread : read printable (.obj fields) = .error .overflowError := by
      rcases hseq with hseq | hseq <;> simp only [read, hhead, Json.getItem_obj, hseq] <;> rfl
    refine h .overflowError ?_
    rw [fromWire, hread]
    rfl
  · intro h e herror
    unfold fromWire at herror
    cases hread : read printable (.obj fields) with
    | ok draft => simp [hread] at herror
    | error e' =>
      suffices hcaught : e' ∈ caught by
        simp only [hread, if_pos hcaught] at herror
        cases herror
      cases hhead : readHead printable (.obj fields) with
      | error e'' =>
        simp only [read, hhead] at hread
        obtain rfl := Except.error.inj hread
        exact catches_readHead printable fields _ hhead
      | ok head =>
        obtain ⟨op, kind, value, algorithm⟩ := head
        simp only [read, hhead, Json.getItem_obj, Json.get_obj] at hread
        cases hlookup : fields.lookup "seq" with
        | none =>
          simp only [hlookup] at hread
          obtain rfl := Except.error.inj hread
          decide
        | some x =>
          simp only [hlookup] at hread
          cases hseq : seqOf x with
          | ok n =>
            have hok : (Except.ok x >>= seqOf : Except PyError ℤ) = .ok n := hseq
            rw [hok] at hread
            cases hread
          | error e'' =>
            have herr : (Except.ok x >>= seqOf : Except PyError ℤ) = .error e'' := hseq
            rw [herr] at hread
            obtain rfl := Except.error.inj hread
            refine (seqOf_eq_error hseq).resolve_right fun hx => h ⟨⟨_, hhead⟩, ?_⟩
            rcases hx with rfl | rfl
            · exact Or.inl hlookup
            · exact Or.inr hlookup

theorem fromWire_asWire (r : WireDraft) : fromWire printable r.asWire = .ok r := by
  have hhead : readHead printable r.asWire = .ok (r.op, r.kind, r.value, r.algorithm) := by
    simp only [readHead, asWire, Json.getItem_obj, List.lookup_cons, String.reduceBEq]
    simp [strOf, hasLongInt, bytesOfHex, fromHex_hex, bind, Except.bind, pure, Except.pure]
  have hread : read printable r.asWire = .ok r := by
    rw [read, hhead]
    rfl
  rw [fromWire, hread]

end WireDraft
end Server

/-! ## Refusals and round trips -/

section

open Capability Connections UserVault Server

variable (t : DigitTables) (printable : Char → Bool)

/-- A moment that no card can name, in an act that passes every check before its purpose. -/
def ActTooLate (fields : List (String × Json)) : Prop :=
  ∃ r, Connections.ActRecord.checkFields fields = .ok () ∧
    Connections.ActRecord.check (fun name => (fields.lookup name).getD .null) = .ok r ∧ TooLate r.notAfter

/-- A deadline written in digits that `int` refuses. -/
def PairBadDigits (fields : List (String × Json)) : Prop :=
  ∃ s, fields.lookup "not_after" = some (.str s) ∧ BadDigits t s

/-- An infinite sequence number behind well-formed fields. -/
def DraftInfinite (fields : List (String × Json)) : Prop :=
  (∃ head, WireDraft.readHead printable (.obj fields) = .ok head) ∧ WireDraft.InfiniteSeq fields

end

/-! ## Objects to look at -/

section

open Capability Connections UserVault Server

/-- Latin-1's digits: three superscripts have no value for `int`. -/
def sampleDigits : DigitTables where
  isDigit c := c.isDigit || c = '²' || c = '³' || c = '¹'
  decimal c := if c.isDigit then some (c.toNat - 48) else none

def sampleActFields (notAfter : ℤ) : List (String × Json) :=
  [("bootloader_id", .str "box"), ("key", .str "mail"), ("not_after", .int notAfter),
    ("service", .str "post"), ("verb", .str "enable")]

def samplePubkey : String := String.ofList (List.replicate 128 'a')

def samplePairFields (pubkey : String) (notAfter : Json) : List (String × Json) :=
  [("bootloader_id", .str "box"), ("code", .str "123456"), ("not_after", notAfter),
    ("phone_pubkey", .str pubkey), ("subject", .str "someone")]

def sampleDraftFields (seq : Json) : List (String × Json) :=
  [("op", .str "add"), ("kind", .str "primary-phone"), ("value_hex", .str "00ff"),
    ("algorithm", .str "ed25519"), ("seq", seq)]

def sampleAct : Connections.ActRecord := ⟨"box", "post", "mail", .enable, 1760000000, none⟩

def samplePair : PairRecord := ⟨"box", "someone", samplePubkey ++ "\n", "123456", 1760000000⟩

theorem sampleAct_built : sampleAct.Built :=
  ⟨fun name => ((sampleActFields 1760000000).lookup name).getD .null, by decide +kernel⟩

theorem samplePair_built : samplePair.Built :=
  ⟨fun name => ((samplePairFields (samplePubkey ++ "\n") (.int 1760000000)).lookup name).getD .null,
    by decide +kernel⟩

end
end Recto
