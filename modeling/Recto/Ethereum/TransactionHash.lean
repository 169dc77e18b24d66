import Mathlib.Data.List.GetD
import Recto.Ethereum.Keccak
import Recto.Ethereum.RlpCanonical
import Recto.Ethereum.Transaction

/-!
# What the two sides hash

The host and the phone agree on a transaction whose values have the plain forms
both read, and on one that both refuse; on no other. What the phone sends is what
it hashed, with the signature behind it.
-/

namespace Recto
namespace Ethereum

/-! ## Two readers -/

/-- Both readers accept, with one result. -/
def Both {α : Type} (x y : Option α) : Prop := ∃ a, x = some a ∧ y = some a

theorem not_both_none {α : Type} {y : Option α} : ¬Both none y := by
  rintro ⟨_, h, _⟩
  cases h

theorem not_both_none_right {α : Type} {x : Option α} : ¬Both x none := by
  rintro ⟨_, _, h⟩
  cases h

section
variable {α β : Type} {f g : α → Option β} {xs : List α}

theorem both_mapM : Both (xs.mapM f) (xs.mapM g) ↔ ∀ x ∈ xs, Both (f x) (g x) := by
  induction xs with
  | nil => exact ⟨fun _ => List.forall_mem_nil _, fun _ => ⟨[], rfl, rfl⟩⟩
  | cons x xs ih =>
    rw [List.mapM_cons, List.mapM_cons, List.forall_mem_cons]
    constructor
    · rintro ⟨ys, hf, hg⟩
      obtain ⟨a, ha, hf⟩ := Option.bind_eq_some_iff.mp hf
      obtain ⟨as, has, hf⟩ := Option.bind_eq_some_iff.mp hf
      obtain ⟨b, hb, hg⟩ := Option.bind_eq_some_iff.mp hg
      obtain ⟨bs, hbs, hg⟩ := Option.bind_eq_some_iff.mp hg
      obtain rfl := Option.some.inj hf
      obtain ⟨rfl, rfl⟩ := List.cons.inj (Option.some.inj hg)
      exact ⟨⟨_, ha, hb⟩, ih.mp ⟨_, has, hbs⟩⟩
    · rintro ⟨⟨a, ha, hb⟩, hrest⟩
      obtain ⟨as, has, hbs⟩ := ih.mpr hrest
      refine ⟨a :: as, ?_, ?_⟩
      · rw [ha, has]
        rfl
      · rw [hb, hbs]
        rfl

end

/-! ## Hexadecimal texts -/

section
variable {cs : List Char} {raw : Bytes}

theorem convertFromHexString_eq_some : convertFromHexString cs = some raw ↔
    cs.any isAsciiSpace = false ∧ fromHexChars cs = some raw := by
  unfold convertFromHexString
  split_ifs with h <;> simp [h]

theorem toNat_lt_of_hexDigit {c : Char} {d : ℕ} (h : hexDigitValue c = some d) : c.toNat < 65536 := by
  have hle : ∀ b : Char, b.toNat < 128 → c ≤ b → c.toNat < 65536 := fun b hb hcb =>
    (UInt32.le_iff_toNat_le.mp hcb).trans_lt (show b.val.toNat < 65536 from hb.trans (by decide))
  unfold hexDigitValue at h
  split_ifs at h with h₁ h₂ h₃
  · exact hle '9' (by decide) h₁.2
  · exact hle 'f' (by decide) h₂.2
  · exact hle 'F' (by decide) h₃.2

theorem toNat_lt_of_fromHex (h : fromHexChars cs = some raw) : ∀ c ∈ cs, c.toNat < 65536 := by
  induction cs using fromHexChars.induct generalizing raw with
  | case1 => exact List.forall_mem_nil _
  | case2 c cs hspace ih =>
    rw [fromHexChars.eq_def] at h
    simp only [hspace, if_true] at h
    refine List.forall_mem_cons.mpr ⟨?_, ih h⟩
    simp only [isAsciiSpace, Bool.or_eq_true, Bool.and_eq_true, decide_eq_true_eq] at hspace
    obtain rfl | hspace := hspace
    · decide
    · omega
  | case3 c hspace =>
    rw [fromHexChars.eq_def] at h
    simp [hspace] at h
  | case4 c hspace d cs hi lo hhi hlo ih =>
    rw [fromHexChars, if_neg hspace] at h
    simp only [hhi, hlo] at h
    obtain ⟨rest, hrest, -⟩ := Option.map_eq_some_iff.mp h
    exact List.forall_mem_cons.mpr ⟨toNat_lt_of_hexDigit hlo,
      List.forall_mem_cons.mpr ⟨toNat_lt_of_hexDigit hhi, ih hrest⟩⟩
  | case5 c hspace d cs hnone =>
    rw [fromHexChars, if_neg hspace] at h
    split at h
    · rename_i hhi hlo
      exact absurd hlo (hnone _ _ hhi)
    · cases h

theorem utf16Length_of_fromHex (h : fromHexChars cs = some raw) : utf16Length cs = cs.length := by
  rw [utf16Length, Phone.units_eq_map (toNat_lt_of_fromHex h), List.length_map]

/-- A text of so many hexadecimal digits, without white space. -/
def HexPlain (length : ℕ) : Json → Prop
  | .str s => (stripHex (chars s)).length = length ∧
      (convertFromHexString (stripHex (chars s))).isSome = true
  | _ => False

theorem both_hex {length : ℕ} {v : Json} :
    Both (hostHex length v) (phoneHex length v) ↔ HexPlain length v := by
  cases v with
  | str s =>
    simp only [hostHex, phoneHex, HexPlain]
    constructor
    · rintro ⟨raw, hhost, hphone⟩
      split_ifs at hhost hphone with hlength
      exact ⟨hlength, Option.isSome_iff_exists.mpr ⟨raw, hphone⟩⟩
    · rintro ⟨hlength, hsome⟩
      obtain ⟨raw, hphone⟩ := Option.isSome_iff_exists.mp hsome
      have hhost := (convertFromHexString_eq_some.mp hphone).2
      refine ⟨raw, by rw [if_pos hlength, hhost], ?_⟩
      rw [utf16Length_of_fromHex hhost, if_pos hlength, hphone]
  | _ => exact iff_of_false not_both_none id

end

/-! ## Plain values -/

section
variable (R : TxPlatform)

/-- A number both read alike: an integer of 64 bits, or a text that spells one number to both. -/
def IntPlain (required : Bool) : Option Json → Prop
  | none | some .null => required = false
  | some (.int n) => -2 ^ 63 ≤ n ∧ n < 2 ^ 63
  | some (.str s) => ∃ n, R.ofLiteral s = some n ∧ numberOf R s = some n
  | some _ => False

/-- No value. -/
def Absent (v : Option Json) : Prop := v = none ∨ v = some .null

/-- `gas`, or else `gasLimit` -/
def GasPlain (tx : List (String × Json)) : Prop :=
  IntPlain R false (property tx "gas") ∧
    (Absent (property tx "gas") → IntPlain R true (property tx "gasLimit"))

/-- No recipient, or an address. -/
def ToPlain : Option Json → Prop
  | none | some .null => True
  | some (.str s) => s = "" ∨ HexPlain 40 (.str s)
  | some _ => False

/-- Hexadecimal data; or a value that is false to the host and no text to the phone. -/
def DataPlain : Option Json → Prop
  | none => True
  | some (.str s) => (convertFromHexString (stripHex (chars s))).isSome = true
  | some v => v.truthy = false

/-- An address and its storage keys. -/
def PairPlain (addr storage : Json) : Prop :=
  HexPlain 40 addr ∧ ∃ keys, storage = .arr keys ∧ ∀ key ∈ keys, HexPlain 64 key

/-- An entry of an access list, as an object or as a pair. -/
def EntryPlain : Json → Prop
  | .obj entry => ∃ addr storage, property entry "address" = some addr ∧
      property entry "storageKeys" = some storage ∧ PairPlain addr storage
  | .arr [addr, storage] => PairPlain addr storage
  | _ => False

/-- A list of entries; or a value that is false to the host and no array to the phone. -/
def AccessListPlain : Option Json → Prop
  | none => True
  | some (.arr entries) => ∀ entry ∈ entries, EntryPlain entry
  | some v => v.truthy = false

/-- All values of a transaction have the plain forms. -/
structure Plain (tx : List (String × Json)) : Prop where
  chainId : IntPlain R true (property tx "chainId")
  nonce : IntPlain R true (property tx "nonce")
  maxPriorityFeePerGas : IntPlain R true (property tx "maxPriorityFeePerGas")
  maxFeePerGas : IntPlain R true (property tx "maxFeePerGas")
  gas : GasPlain R tx
  value : IntPlain R false (property tx "value")
  recipient : ToPlain (property tx "to")
  data : DataPlain (property tx "data")
  accessList : AccessListPlain (property tx "accessList")

/-- `str` of a value that is no text spells no empty byte string. -/
def Printed : Prop :=
  ∀ v, (∀ s, v ≠ Json.str s) → fromHexChars (stripHex (chars (R.strOf v))) ≠ some []

end

section
variable {R : TxPlatform} {required : Bool} {v : Option Json} {tx : List (String × Json)}

theorem both_int : Both (intField R required v) (readIntField R required v) ↔ IntPlain R required v := by
  obtain _ | v := v
  · cases required
    · exact iff_of_true ⟨none, rfl, rfl⟩ rfl
    · exact iff_of_false not_both_none fun h => Bool.noConfusion (show true = false from h)
  cases v with
  | null =>
    cases required
    · exact iff_of_true ⟨none, rfl, rfl⟩ rfl
    · exact iff_of_false not_both_none fun h => Bool.noConfusion (show true = false from h)
  | int n =>
    simp only [Both, intField, readIntField, IntPlain]
    constructor
    · rintro ⟨x, -, hphone⟩
      split_ifs at hphone with hrange
      exact hrange
    · intro hrange
      exact ⟨some n, rfl, if_pos hrange⟩
  | str s =>
    simp only [Both, intField, readIntField, IntPlain, Option.map_eq_some_iff]
    constructor
    · rintro ⟨_, ⟨n, hhost, rfl⟩, m, hphone, heq⟩
      obtain rfl := Option.some.inj heq
      exact ⟨_, hhost, hphone⟩
    · rintro ⟨n, hhost, hphone⟩
      exact ⟨some n, ⟨n, hhost, rfl⟩, n, hphone, rfl⟩
  | _ => exact iff_of_false not_both_none_right id

/-- A number that is read is there exactly when its value is. -/
theorem absent_of_readIntField {x : Option ℤ} (h : readIntField R required v = some x) :
    x = none ↔ Absent v := by
  obtain _ | v := v
  · cases required <;> cases h
    exact ⟨fun _ => .inl rfl, fun _ => rfl⟩
  cases v with
  | null =>
    cases required <;> cases h
    exact ⟨fun _ => .inr rfl, fun _ => rfl⟩
  | int n =>
    simp only [readIntField] at h
    split_ifs at h
    obtain rfl := Option.some.inj h
    exact ⟨nofun, fun habsent => by simp [Absent] at habsent⟩
  | str s =>
    obtain ⟨n, -, rfl⟩ := Option.map_eq_some_iff.mp h
    exact ⟨nofun, fun habsent => by simp [Absent] at habsent⟩
  | _ => cases h

theorem absent_of_intField {x : Option ℤ} (h : intField R required v = some x) : x = none ↔ Absent v := by
  obtain _ | v := v
  · cases required <;> cases h
    exact ⟨fun _ => .inl rfl, fun _ => rfl⟩
  cases v with
  | null =>
    cases required <;> cases h
    exact ⟨fun _ => .inr rfl, fun _ => rfl⟩
  | bool b =>
    obtain rfl := Option.some.inj h
    exact ⟨nofun, fun habsent => by simp [Absent] at habsent⟩
  | int n =>
    obtain rfl := Option.some.inj h
    exact ⟨nofun, fun habsent => by simp [Absent] at habsent⟩
  | str s =>
    obtain ⟨n, -, rfl⟩ := Option.map_eq_some_iff.mp h
    exact ⟨nofun, fun habsent => by simp [Absent] at habsent⟩
  | _ => cases h

theorem both_required (name : String) :
    Both ((hostReaders R).required tx name) ((phoneReaders R).required tx name) ↔
      IntPlain R true (property tx name) := by
  simp only [Both, FieldReaders.required, Option.join_eq_some_iff]
  constructor
  · rintro ⟨n, hhost, hphone⟩
    exact both_int.mp ⟨some n, hhost, hphone⟩
  · intro hplain
    obtain ⟨x, hhost, hphone⟩ := both_int.mpr hplain
    cases x with
    | some n => exact ⟨n, hhost, hphone⟩
    | none =>
      obtain habsent | habsent := (absent_of_intField hhost).mp rfl <;>
      · rw [habsent] at hplain
        exact absurd hplain (by simp [IntPlain])

theorem both_value :
    Both ((hostReaders R).value tx) ((phoneReaders R).value tx) ↔ IntPlain R false (property tx "value") := by
  simp only [Both, FieldReaders.value, Option.map_eq_some_iff]
  constructor
  · rintro ⟨n, ⟨x, hhost, hx⟩, y, hphone, hy⟩
    have hxy : x = y := by
      cases x with
      | none =>
        exact ((absent_of_readIntField hphone).mpr ((absent_of_intField hhost).mp rfl)).symm
      | some a =>
        cases y with
        | none =>
          exact absurd ((absent_of_intField hhost).mpr ((absent_of_readIntField hphone).mp rfl)) nofun
        | some b => exact congrArg some (hx.trans hy.symm)
    subst hxy
    exact both_int.mp ⟨x, hhost, hphone⟩
  · intro hplain
    obtain ⟨x, hhost, hphone⟩ := both_int.mpr hplain
    exact ⟨x.getD 0, ⟨x, hhost, rfl⟩, x, hphone, rfl⟩

theorem both_gas : Both ((hostReaders R).gas tx) ((phoneReaders R).gas tx) ↔ GasPlain R tx := by
  have hgas : ∀ {F : FieldReaders} {n : ℤ}, F.gas tx = some n ↔ ∃ x, F.int false (property tx "gas") = some x ∧
      ((x = none ∧ F.required tx "gasLimit" = some n) ∨ x = some n) := by
    intro F n
    unfold FieldReaders.gas
    cases F.int false (property tx "gas") with
    | none => exact ⟨nofun, fun ⟨_, h, _⟩ => (Option.some_ne_none _ h.symm).elim⟩
    | some x =>
      cases x with
      | none => simp
      | some m => simp
  constructor
  · rintro ⟨n, hhost, hphone⟩
    obtain ⟨x, hx, hhost⟩ := hgas.mp hhost
    obtain ⟨y, hy, hphone⟩ := hgas.mp hphone
    have habsent : x = none ↔ y = none :=
      (absent_of_intField hx).trans (absent_of_readIntField hy).symm
    obtain ⟨rfl, hhost⟩ | rfl := hhost
    · obtain rfl := habsent.mp rfl
      obtain ⟨-, hphone⟩ | hphone := hphone
      · exact ⟨both_int.mp ⟨none, hx, hy⟩, fun _ => (both_required _).mp ⟨n, hhost, hphone⟩⟩
      · cases hphone
    · obtain ⟨rfl, -⟩ | rfl := hphone
      · exact absurd (habsent.mpr rfl) nofun
      · exact ⟨both_int.mp ⟨some n, hx, hy⟩, fun h => absurd ((absent_of_intField hx).mpr h) nofun⟩
  · rintro ⟨hplain, hlimit⟩
    obtain ⟨x, hx, hy⟩ := both_int.mpr hplain
    cases x with
    | none =>
      obtain ⟨n, hhost, hphone⟩ := (both_required _).mpr (hlimit ((absent_of_intField hx).mp rfl))
      exact ⟨n, hgas.mpr ⟨none, hx, .inl ⟨rfl, hhost⟩⟩, hgas.mpr ⟨none, hy, .inl ⟨rfl, hphone⟩⟩⟩
    | some n => exact ⟨n, hgas.mpr ⟨some n, hx, .inr rfl⟩, hgas.mpr ⟨some n, hy, .inr rfl⟩⟩

theorem both_to (hprinted : Printed R) : Both (hostTo R v) (phoneTo v) ↔ ToPlain v := by
  have hother : ∀ w : Json, (∀ s, w ≠ .str s) → w ≠ .null → ¬Both (hostTo R (some w)) (some []) := by
    rintro w hstr hnull ⟨raw, hhost, hphone⟩
    obtain rfl := Option.some.inj hphone
    have htext : textOf R w = R.strOf w := by
      cases w with
      | str s => exact absurd rfl (hstr s)
      | _ => rfl
    have hread : hostTo R (some w) = if (stripHex (chars (textOf R w))).length = 40 then
        fromHexChars (stripHex (chars (textOf R w))) else none := by
      cases w with
      | str s => exact absurd rfl (hstr s)
      | null => exact absurd rfl hnull
      | _ => simp only [hostTo, reduceCtorEq, if_false]
    rw [hread, htext] at hhost
    split_ifs at hhost
    exact hprinted w hstr hhost
  obtain _ | v := v
  · exact ⟨fun _ => trivial, fun _ => ⟨[], rfl, rfl⟩⟩
  cases v with
  | null => exact ⟨fun _ => trivial, fun _ => ⟨[], rfl, rfl⟩⟩
  | str s =>
    by_cases hs : s = ""
    · exact ⟨fun _ => .inl hs, fun _ => ⟨[], if_pos (congrArg Json.str hs), if_pos hs⟩⟩
    · have hhost : hostTo R (some (.str s)) = hostHex 40 (.str s) :=
        if_neg fun h => hs (Json.str.inj h)
      have hphone : phoneTo (some (.str s)) = phoneHex 40 (.str s) := if_neg hs
      rw [hhost, hphone, both_hex, ToPlain, or_iff_right hs]
  | _ => exact ⟨fun h => hother _ (by simp) (by simp) h, False.elim⟩

theorem both_data (hprinted : Printed R) : Both (hostData R v) (phoneData v) ↔ DataPlain v := by
  have hother : ∀ w : Json, (∀ s, w ≠ .str s) →
      (Both (hostData R (some w)) (some []) ↔ w.truthy = false) := by
    intro w hstr
    have htext : textOf R w = R.strOf w := by
      cases w with
      | str s => exact absurd rfl (hstr s)
      | _ => rfl
    rw [hostData, htext]
    cases hw : w.truthy with
    | false => exact ⟨fun _ => rfl, fun _ => ⟨[], rfl, rfl⟩⟩
    | true =>
      refine ⟨fun ⟨raw, hhost, hphone⟩ => ?_, nofun⟩
      obtain rfl := Option.some.inj hphone
      exact absurd hhost (hprinted w hstr)
  obtain _ | v := v
  · exact ⟨fun _ => trivial, fun _ => ⟨[], rfl, rfl⟩⟩
  cases v with
  | str s =>
    by_cases hs : s = ""
    · subst hs
      have hempty : convertFromHexString (stripHex (chars "")) = some [] := by
        simp [stripHex, convertFromHexString, fromHexChars]
      exact ⟨fun _ => (congrArg Option.isSome hempty).trans rfl, fun _ => ⟨[], rfl, hempty⟩⟩
    · have hhost : hostData R (some (.str s)) = fromHexChars (stripHex (chars s)) :=
        if_pos (bne_iff_ne.mpr hs)
      rw [hhost]
      simp only [phoneData, DataPlain, Both]
      constructor
      · rintro ⟨raw, -, hphone⟩
        exact Option.isSome_iff_exists.mpr ⟨raw, hphone⟩
      · intro hsome
        obtain ⟨raw, hphone⟩ := Option.isSome_iff_exists.mp hsome
        exact ⟨raw, (convertFromHexString_eq_some.mp hphone).2, hphone⟩
  | _ => exact hother _ (by simp)

theorem both_pair {addr storage : Json} :
    Both (hostPair addr storage) (phonePair addr storage) ↔ PairPlain addr storage := by
  constructor
  · rintro ⟨pair, hhost, hphone⟩
    obtain ⟨a, ha, hhost⟩ := Option.bind_eq_some_iff.mp hhost
    obtain ⟨ks, hks, hhost⟩ := Option.bind_eq_some_iff.mp hhost
    obtain ⟨rs, hrs, hhost⟩ := Option.bind_eq_some_iff.mp hhost
    obtain ⟨b, hb, hphone⟩ := Option.bind_eq_some_iff.mp hphone
    obtain ⟨ls, hls, hphone⟩ := Option.bind_eq_some_iff.mp hphone
    obtain ⟨ts, hts, hphone⟩ := Option.bind_eq_some_iff.mp hphone
    obtain rfl := Option.some.inj hhost
    obtain ⟨rfl, rfl⟩ := Prod.mk.inj (Option.some.inj hphone)
    refine ⟨both_hex.mp ⟨_, ha, hb⟩, ?_⟩
    cases storage with
    | arr keys =>
      obtain rfl := Option.some.inj hks
      obtain rfl := Option.some.inj hls
      exact ⟨_, rfl, fun key hkey => both_hex.mp (both_mapM.mp ⟨_, hrs, hts⟩ key hkey)⟩
    | _ => cases hls
  · rintro ⟨haddr, keys, rfl, hkeys⟩
    obtain ⟨a, ha, hb⟩ := both_hex.mpr haddr
    obtain ⟨rs, hrs, hts⟩ := both_mapM.mpr fun key hkey => both_hex.mpr (hkeys key hkey)
    refine ⟨(a, rs), ?_, ?_⟩
    · simp [hostPair, ha, iterate, hrs]
    · simp [phonePair, hb, enumerate, hts]

theorem both_entry {entry : Json} : Both (hostEntry entry) (phoneEntry entry) ↔ EntryPlain entry := by
  cases entry with
  | obj entry =>
    simp only [hostEntry, phoneEntry, EntryPlain]
    constructor
    · rintro ⟨pair, hhost, hphone⟩
      obtain ⟨addr, haddr, hphone⟩ := Option.bind_eq_some_iff.mp hphone
      obtain ⟨storage, hstorage, hphone⟩ := Option.bind_eq_some_iff.mp hphone
      rw [haddr, hstorage] at hhost
      exact ⟨addr, storage, haddr, hstorage, both_pair.mp ⟨pair, hhost, hphone⟩⟩
    · rintro ⟨addr, storage, haddr, hstorage, hplain⟩
      rw [haddr, hstorage]
      exact both_pair.mpr hplain
  | arr items =>
    rcases items with _ | ⟨addr, _ | ⟨storage, _ | ⟨_, _⟩⟩⟩
    · exact iff_of_false not_both_none id
    · exact iff_of_false not_both_none id
    · exact both_pair
    · exact iff_of_false not_both_none id
  | _ => exact iff_of_false not_both_none id

theorem both_accessList : Both (hostAccessList v) (phoneAccessList v) ↔ AccessListPlain v := by
  obtain _ | v := v
  · exact ⟨fun _ => trivial, fun _ => ⟨[], rfl, rfl⟩⟩
  have hother : (∀ entries, v ≠ .arr entries) →
      (Both (if v.truthy then none else some ([] : List (Bytes × List Bytes))) (some []) ↔
        v.truthy = false) := by
    intro _
    cases v.truthy with
    | false => exact ⟨fun _ => rfl, fun _ => ⟨[], rfl, rfl⟩⟩
    | true => exact ⟨fun ⟨_, h, _⟩ => (Option.some_ne_none _ h.symm).elim, nofun⟩
  cases v with
  | arr entries =>
    exact both_mapM.trans (forall₂_congr fun entry _ => both_entry)
  | _ => exact hother (by simp)

end

/-! ## The nine fields -/

section
variable {F : FieldReaders} {R : TxPlatform} {tx : List (String × Json)} {f g : TxFields}

theorem fields_eq_some : F.fields tx = some f ↔
    F.required tx "chainId" = some f.chainId ∧ F.required tx "nonce" = some f.nonce ∧
      F.required tx "maxPriorityFeePerGas" = some f.maxPriorityFeePerGas ∧
      F.required tx "maxFeePerGas" = some f.maxFeePerGas ∧ F.gas tx = some f.gas ∧
      F.value tx = some f.value ∧ F.toBytes (property tx "to") = some f.toBytes ∧
      F.data (property tx "data") = some f.data ∧
      F.accessList (property tx "accessList") = some f.accessList := by
  constructor
  · intro h
    obtain ⟨_, h₁, h⟩ := Option.bind_eq_some_iff.mp h
    obtain ⟨_, h₂, h⟩ := Option.bind_eq_some_iff.mp h
    obtain ⟨_, h₃, h⟩ := Option.bind_eq_some_iff.mp h
    obtain ⟨_, h₄, h⟩ := Option.bind_eq_some_iff.mp h
    obtain ⟨_, h₅, h⟩ := Option.bind_eq_some_iff.mp h
    obtain ⟨_, h₆, h⟩ := Option.bind_eq_some_iff.mp h
    obtain ⟨_, h₇, h⟩ := Option.bind_eq_some_iff.mp h
    obtain ⟨_, h₈, h⟩ := Option.bind_eq_some_iff.mp h
    obtain ⟨_, h₉, h⟩ := Option.bind_eq_some_iff.mp h
    obtain rfl := Option.some.inj h
    exact ⟨h₁, h₂, h₃, h₄, h₅, h₆, h₇, h₈, h₉⟩
  · rintro ⟨h₁, h₂, h₃, h₄, h₅, h₆, h₇, h₈, h₉⟩
    simp [FieldReaders.fields, h₁, h₂, h₃, h₄, h₅, h₆, h₇, h₈, h₉]

/-- Both sides read the same fields exactly when all values are plain. -/
theorem both_fields (hprinted : Printed R) :
    Both ((hostReaders R).fields tx) ((phoneReaders R).fields tx) ↔ Plain R tx := by
  constructor
  · rintro ⟨f, hhost, hphone⟩
    obtain ⟨h₁, h₂, h₃, h₄, h₅, h₆, h₇, h₈, h₉⟩ := fields_eq_some.mp hhost
    obtain ⟨p₁, p₂, p₃, p₄, p₅, p₆, p₇, p₈, p₉⟩ := fields_eq_some.mp hphone
    exact
      { chainId := (both_required _).mp ⟨_, h₁, p₁⟩
        nonce := (both_required _).mp ⟨_, h₂, p₂⟩
        maxPriorityFeePerGas := (both_required _).mp ⟨_, h₃, p₃⟩
        maxFeePerGas := (both_required _).mp ⟨_, h₄, p₄⟩
        gas := both_gas.mp ⟨_, h₅, p₅⟩
        value := both_value.mp ⟨_, h₆, p₆⟩
        recipient := (both_to hprinted).mp ⟨_, h₇, p₇⟩
        data := (both_data hprinted).mp ⟨_, h₈, p₈⟩
        accessList := both_accessList.mp ⟨_, h₉, p₉⟩ }
  · intro h
    obtain ⟨chainId, h₁, p₁⟩ := (both_required _).mpr h.chainId
    obtain ⟨nonce, h₂, p₂⟩ := (both_required _).mpr h.nonce
    obtain ⟨maxPriority, h₃, p₃⟩ := (both_required _).mpr h.maxPriorityFeePerGas
    obtain ⟨maxFee, h₄, p₄⟩ := (both_required _).mpr h.maxFeePerGas
    obtain ⟨gas, h₅, p₅⟩ := both_gas.mpr h.gas
    obtain ⟨value, h₆, p₆⟩ := both_value.mpr h.value
    obtain ⟨toBytes, h₇, p₇⟩ := (both_to hprinted).mpr h.recipient
    obtain ⟨data, h₈, p₈⟩ := (both_data hprinted).mpr h.data
    obtain ⟨accessList, h₉, p₉⟩ := both_accessList.mpr h.accessList
    exact ⟨⟨chainId, nonce, maxPriority, maxFee, gas, toBytes, value, data, accessList⟩,
      fields_eq_some.mpr ⟨h₁, h₂, h₃, h₄, h₅, h₆, h₇, h₈, h₉⟩,
      fields_eq_some.mpr ⟨p₁, p₂, p₃, p₄, p₅, p₆, p₇, p₈, p₉⟩⟩

/-! ## Encodings -/

open Rlp

theorem typed_eq_some {items : List Item} {raw : Bytes} : typed items = some raw ↔
    ∃ enc, encode (.list items) = .ok enc ∧ 0x02 :: enc = raw := by
  unfold typed
  cases encode (.list items) with
  | error e => exact ⟨nofun, fun ⟨_, h, _⟩ => by cases h⟩
  | ok enc =>
    exact ⟨fun h => ⟨enc, rfl, Option.some.inj h⟩, fun ⟨_, h, heq⟩ => by
      obtain rfl := Except.ok.inj h
      exact congrArg some heq⟩

/-- One encoding is that of one list. -/
theorem decodedAll_of_typed {xs ys : List Item} {raw : Bytes} (hxs : typed xs = some raw)
    (hys : typed ys = some raw) : decodedAll xs = decodedAll ys := by
  obtain ⟨enc, hx, rfl⟩ := typed_eq_some.mp hxs
  obtain ⟨enc', hy, heq⟩ := typed_eq_some.mp hys
  obtain rfl := (List.cons.inj heq).2
  rw [encode] at hx
  rw [encode] at hy
  obtain ⟨p, hp, hx⟩ := Except.bind_eq_ok.mp hx
  obtain ⟨header, hheader, hx⟩ := Except.bind_eq_ok.mp hx
  obtain ⟨q, hq, hy⟩ := Except.bind_eq_ok.mp hy
  obtain ⟨other, hother, hy⟩ := Except.bind_eq_ok.mp hy
  have hframe : header ++ p = other ++ q :=
    (Except.pure_eq_ok.mp hx).trans (Except.pure_eq_ok.mp hy).symm
  have hheaded := encodeLength_headed hheader
  obtain ⟨-, rfl⟩ := hheaded.inj le_rfl (encodeLength_headed hother) rfl rfl hframe
  have hleft : decodeList p 0 (0 + p.length) = .ok (decodedAll xs) :=
    decodeList_encodeAll xs hp hheaded.lt (show p.drop 0 = p ++ [] by simp)
  have hright : decodeList p 0 (0 + p.length) = .ok (decodedAll ys) :=
    decodeList_encodeAll ys hq hheaded.lt (show p.drop 0 = p ++ [] by simp)
  exact Except.ok.inj (hleft.symm.trans hright)

/-- What is encoded holds no negative number. -/
theorem nonneg_of_encodeAll {items : List Item} {enc : Bytes} (h : encodeAll items = .ok enc) :
    ∀ n, Item.int n ∈ items → 0 ≤ n := by
  induction items generalizing enc with
  | nil => exact fun _ => nofun
  | cons x xs ih =>
    rw [encodeAll] at h
    obtain ⟨first, hfirst, h⟩ := Except.bind_eq_ok.mp h
    obtain ⟨rest, hrest, -⟩ := Except.bind_eq_ok.mp h
    intro n hn
    obtain rfl | hn := List.mem_cons.mp hn
    · by_contra hneg
      rw [encode, if_pos (not_le.mp hneg)] at hfirst
      cases hfirst
    · exact ih hrest n hn

theorem nonneg_of_typed {items : List Item} {raw : Bytes} (h : typed items = some raw) :
    ∀ n, Item.int n ∈ items → 0 ≤ n := by
  obtain ⟨enc, h, -⟩ := typed_eq_some.mp h
  rw [encode] at h
  obtain ⟨p, hp, -⟩ := Except.bind_eq_ok.mp h
  exact nonneg_of_encodeAll hp

/-- A number in as few bytes as it has. -/
def minimalBytes (n : ℕ) : Bytes := toBytesBig (byteLength n) n

theorem minimalBytes_injective : Function.Injective minimalBytes := by
  intro n m h
  have hn := fromBytesBig_toBytesBig (lt_pow_byteLength n)
  have hm := fromBytesBig_toBytesBig (lt_pow_byteLength m)
  rw [← hn, ← hm]
  exact congrArg fromBytesBig h

/-- No leading zero. -/
theorem head_minimalBytes (n : ℕ) : (minimalBytes n).head? ≠ some 0 := by
  intro hhead
  obtain ⟨rest, hrest⟩ : ∃ rest, minimalBytes n = 0 :: rest := by
    cases h : minimalBytes n with
    | nil =>
      rw [h] at hhead
      cases hhead
    | cons b rest =>
      rw [h] at hhead
      exact ⟨rest, by rw [Option.some.inj hhead]⟩
  have hvalue : fromBytesBig (0 :: rest) = n := by
    rw [← hrest]
    exact fromBytesBig_toBytesBig (lt_pow_byteLength n)
  have hlength : byteLength n = (0 :: rest : Bytes).length := by
    rw [← hrest, minimalBytes, length_toBytesBig]
  exact (byteLength_fromBytesBig 0 rest).mp (by rw [hvalue, hlength]) rfl

theorem toInt_injective {n m : ℤ} (hn : 0 ≤ n) (hm : 0 ≤ m)
    (h : minimalBytes n.toNat = minimalBytes m.toNat) : n = m := by
  have hnat := minimalBytes_injective h
  omega

theorem decodedAll_eq_map (items : List Item) : decodedAll items = items.map Item.decoded := by
  induction items with
  | nil => rfl
  | cons x xs ih => rw [decodedAll, ih, List.map_cons]

/-- The payload tells the fields. -/
theorem payload_injective {raw : Bytes} (hf : typed (payload f) = some raw)
    (hg : typed (payload g) = some raw) : f = g := by
  have hdecoded := decodedAll_of_typed hf hg
  have hint : ∀ n m, Item.int n ∈ payload f → Item.int m ∈ payload g →
      (Item.int n).decoded = (Item.int m).decoded → n = m := by
    intro n m hn hm heq
    refine toInt_injective (nonneg_of_typed hf n hn) (nonneg_of_typed hg m hm) ?_
    simpa [Item.decoded, minimalBytes] using heq
  have hentry : Function.Injective fun e : Bytes × List Bytes =>
      (Item.list [.bytes e.1, .list (e.2.map .bytes)]).decoded := by
    rintro ⟨a, ks⟩ ⟨b, ls⟩ heq
    simp only [Item.decoded, decodedAll, decodedAll_eq_map, List.map_map, Decoded.list.injEq,
      List.cons.injEq, Decoded.bytes.injEq, and_true] at heq
    have hkeys : ks = ls := List.map_injective_iff.mpr (fun x y hxy => by
      simpa [Item.decoded] using hxy) heq.2
    rw [heq.1, hkeys]
  rw [payload, payload] at hdecoded
  simp only [decodedAll, List.cons.injEq, and_true] at hdecoded
  obtain ⟨h₁, h₂, h₃, h₄, h₅, h₆, h₇, h₈, h₉⟩ := hdecoded
  have htext : ∀ a b : Bytes, (Item.bytes a).decoded = (Item.bytes b).decoded → a = b := fun a b heq => by
    simpa [Item.decoded] using heq
  have haccess : f.accessList = g.accessList := by
    simp only [Item.decoded, decodedAll_eq_map, List.map_map, Decoded.list.injEq] at h₉
    exact List.map_injective_iff.mpr hentry h₉
  cases f
  cases g
  simp only [TxFields.mk.injEq]
  exact ⟨hint _ _ (by simp [payload]) (by simp [payload]) h₁,
    hint _ _ (by simp [payload]) (by simp [payload]) h₂,
    hint _ _ (by simp [payload]) (by simp [payload]) h₃,
    hint _ _ (by simp [payload]) (by simp [payload]) h₄,
    hint _ _ (by simp [payload]) (by simp [payload]) h₅, htext _ _ h₆,
    hint _ _ (by simp [payload]) (by simp [payload]) h₇, htext _ _ h₈, haccess⟩

end

/-! ## One hash -/

section
variable {R : TxPlatform} {keccak : Bytes → Bytes} {tx : List (String × Json)}

/-- A field cannot be read, or the fields cannot be encoded: a negative number, or 2 ^ 64 bytes. -/
def Refuses (F : FieldReaders) (tx : List (String × Json)) : Prop :=
  ∀ f, F.fields tx = some f → typed (payload f) = none

/-- Keccak-256 does not collide on what the two sides hash. -/
def NoCollision (R : TxPlatform) (keccak : Bytes → Bytes) (tx : List (String × Json)) : Prop :=
  ∀ a b, (hostReaders R).preimage tx = some a → (phoneReaders R).preimage tx = some b →
    keccak a = keccak b → a = b

theorem preimage_eq_none {F : FieldReaders} : F.preimage tx = none ↔ Refuses F tx := by
  unfold FieldReaders.preimage Refuses
  cases F.fields tx with
  | none => exact ⟨fun _ => nofun, fun _ => rfl⟩
  | some f =>
    exact ⟨fun h g hg => by rwa [← Option.some.inj hg], fun h => h f rfl⟩

theorem transactionHash_iff (hprinted : Printed R) (hkeccak : NoCollision R keccak tx) :
    (hostReaders R).transactionHash keccak tx = (phoneReaders R).transactionHash keccak tx ↔
      Plain R tx ∨ (Refuses (hostReaders R) tx ∧ Refuses (phoneReaders R) tx) := by
  rw [← preimage_eq_none, ← preimage_eq_none]
  unfold FieldReaders.transactionHash
  constructor
  · intro h
    cases hhost : (hostReaders R).preimage tx with
    | none =>
      rw [hhost] at h
      exact .inr ⟨rfl, Option.map_eq_none_iff.mp h.symm⟩
    | some a =>
      rw [hhost] at h
      obtain ⟨b, hphone, hhash⟩ := Option.map_eq_some_iff.mp h.symm
      obtain rfl := hkeccak a b hhost hphone hhash.symm
      obtain ⟨f, hf, ha⟩ := Option.bind_eq_some_iff.mp hhost
      obtain ⟨g, hg, hb⟩ := Option.bind_eq_some_iff.mp hphone
      obtain rfl := payload_injective ha hb
      exact .inl ((both_fields hprinted).mp ⟨f, hf, hg⟩)
  · rintro (hplain | ⟨hhost, hphone⟩)
    · obtain ⟨f, hf, hg⟩ := (both_fields hprinted).mpr hplain
      simp only [FieldReaders.preimage, hf, hg]
    · rw [hhost, hphone]

end

/-! ## What is sent -/

section
variable {C : Curve} {R : TxPlatform} {keccak : Bytes → Bytes} {tx : List (String × Json)}
  {privateKey msgHash raw rsv : Bytes}

/-- A signature is `r`, `s` and the parity under which the key is recovered. -/
theorem signTransactionEip1559_eq_some (h : signTransactionEip1559 C msgHash privateKey = some rsv) :
    ∃ r s recId, (recId = 0 ∨ recId = 1) ∧ r < 256 ^ 32 ∧ s < 256 ^ 32 ∧
      C.recover msgHash r s recId = some (C.publicKey privateKey) ∧
      rsv = Rlp.toBytesBig 32 r ++ Rlp.toBytesBig 32 s ++ [UInt8.ofNat recId] := by
  obtain ⟨signed, hsigned, rfl⟩ := Option.map_eq_some_iff.mp h
  unfold signWithRecovery at hsigned
  split_ifs at hsigned with hsizes
  dsimp only at hsigned
  split at hsigned
  · cases hsigned
  · rename_i recId hfind
    split_ifs at hsigned with hfits
    obtain rfl := Option.some.inj hsigned
    have hmem := List.mem_of_find?_eq_some hfind
    have hrecId : recId = 0 ∨ recId = 1 := by simpa using hmem
    refine ⟨_, _, recId, hrecId, hfits.1, hfits.2, by simpa using List.find?_some hfind, ?_⟩
    have hlength : (Rlp.toBytesBig 32 (C.generateSignature msgHash privateKey).1 ++
        Rlp.toBytesBig 32 (lowS C (C.generateSignature msgHash privateKey).2)).length = 64 := by simp
    generalize Rlp.toBytesBig 32 (C.generateSignature msgHash privateKey).1 ++
      Rlp.toBytesBig 32 (lowS C (C.generateSignature msgHash privateKey).2) = body at hlength ⊢
    have hlast : (body ++ [UInt8.ofNat (27 + recId)]).getD 64 0 = UInt8.ofNat (27 + recId) := by
      rw [List.getD_append_right _ _ _ _ (by omega), hlength]
      rfl
    rw [hlast]
    obtain rfl | rfl := hrecId
    · rw [if_pos (by decide), List.set_append_right _ _ (by omega), hlength]
      rfl
    · rw [if_pos (by decide), List.set_append_right _ _ (by omega), hlength]
      rfl

/-- What is sent is the type byte, the fields that were hashed and the signature, under which the
hash recovers the address of the key. -/
theorem signAndEncode_eq_some (h : signAndEncode C R keccak tx privateKey = some raw) :
    ∃ f hash r s yParity enc, (phoneReaders R).fields tx = some f ∧
      (phoneReaders R).transactionHash keccak tx = some hash ∧ raw = 0x02 :: enc ∧
      Rlp.encode (.list (payload f ++ [.int (yParity : ℕ), .int (r : ℕ), .int (s : ℕ)])) = .ok enc ∧
      (yParity = 0 ∨ yParity = 1) ∧ (minimalBytes r).head? ≠ some 0 ∧ (minimalBytes s).head? ≠ some 0 ∧
      (C.recover hash r s yParity).map (addressBytes keccak) =
        some (addressBytes keccak (C.publicKey privateKey)) := by
  unfold signAndEncode at h
  obtain ⟨f, hf, h⟩ := Option.bind_eq_some_iff.mp h
  obtain ⟨hashInput, hinput, h⟩ := Option.bind_eq_some_iff.mp h
  obtain ⟨rsv, hrsv, h⟩ := Option.bind_eq_some_iff.mp h
  obtain ⟨r, s, recId, hrecId, hr, hs, hrecover, hbytes⟩ := signTransactionEip1559_eq_some hrsv
  have hhash : (phoneReaders R).transactionHash keccak tx = some (keccak hashInput) := by
    simp only [FieldReaders.transactionHash, FieldReaders.preimage, hf, Option.bind_some, hinput,
      Option.map_some]
  have hlength := Rlp.length_toBytesBig 32
  have hR : (Rlp.toBytesBig 32 r ++ Rlp.toBytesBig 32 s ++ [UInt8.ofNat recId]).take 32 =
      Rlp.toBytesBig 32 r := by
    rw [List.append_assoc, List.take_left' (hlength r)]
  have hS : ((Rlp.toBytesBig 32 r ++ Rlp.toBytesBig 32 s ++ [UInt8.ofNat recId]).drop 32).take 32 =
      Rlp.toBytesBig 32 s := by
    rw [List.append_assoc, List.drop_left' (hlength r), List.take_left' (hlength s)]
  have hparity : ((Rlp.toBytesBig 32 r ++ Rlp.toBytesBig 32 s ++ [UInt8.ofNat recId]).getD 64 0).toNat =
      recId := by
    rw [List.getD_append_right _ _ _ _ (by simp), List.length_append, hlength, hlength]
    obtain rfl | rfl := hrecId <;> rfl
  simp only [hbytes] at h
  rw [hR, hS, hparity, Rlp.fromBytesBig_toBytesBig hr, Rlp.fromBytesBig_toBytesBig hs] at h
  obtain ⟨enc, henc, rfl⟩ := typed_eq_some.mp h
  exact ⟨f, _, r, s, recId, enc, hf, hhash, rfl, henc, hrecId, head_minimalBytes r, head_minimalBytes s,
    by rw [hrecover, Option.map_some]⟩

end

/-- The two sides hash a transaction alike exactly when all its values are plain or both refuse it;
and what the phone sends is what it hashed, with a signature of the key behind it. -/
theorem transactions_hash_alike_iff (R : TxPlatform) (C : Curve) (keccak : Bytes → Bytes)
    (hprinted : Printed R) (tx : List (String × Json)) (hkeccak : NoCollision R keccak tx) :
    ((hostReaders R).transactionHash keccak tx = (phoneReaders R).transactionHash keccak tx ↔
      Plain R tx ∨ (Refuses (hostReaders R) tx ∧ Refuses (phoneReaders R) tx)) ∧
    ∀ privateKey raw, signAndEncode C R keccak tx privateKey = some raw →
      ∃ f hash r s yParity enc, (phoneReaders R).fields tx = some f ∧
        (phoneReaders R).transactionHash keccak tx = some hash ∧ raw = 0x02 :: enc ∧
        Rlp.encode (.list (payload f ++ [.int (yParity : ℕ), .int (r : ℕ), .int (s : ℕ)])) = .ok enc ∧
        (yParity = 0 ∨ yParity = 1) ∧ (minimalBytes r).head? ≠ some 0 ∧
        (minimalBytes s).head? ≠ some 0 ∧
        (C.recover hash r s yParity).map (addressBytes keccak) =
          some (addressBytes keccak (C.publicKey privateKey)) :=
  ⟨transactionHash_iff hprinted hkeccak, fun _ _ => signAndEncode_eq_some⟩

/-! ## Samples -/

/-- Readers that know what the samples hold. -/
def samplePlatform : TxPlatform where
  ofLiteral s := if s = "0x5208" then some 21000 else none
  strOf v := if v = .int 5 then "5" else "None"
  bigInteger radix cs := if radix = 16 ∧ cs = ['5', '2', '0', '8'] then some 21000 else none

/-- A curve that signs nothing. -/
def sampleCurve : Curve where
  order := 0
  generateSignature _ _ := (0, 0)
  publicKey _ := []
  recover _ _ _ _ := none

def sampleTx (recipient : Json) : List (String × Json) :=
  [("chainId", .int 1), ("nonce", .int 0), ("maxPriorityFeePerGas", .int 1), ("maxFeePerGas", .int 2),
    ("gas", .str "0x5208"), ("to", recipient), ("value", .int 5)]

theorem samplePlatform_printed : Printed samplePlatform := by
  intro v _
  unfold samplePlatform
  dsimp only
  split_ifs
  · decide +kernel
  · decide +kernel

theorem transactions_hash_alike_sample :
    (hostReaders samplePlatform).transactionHash Keccak.keccak256 (sampleTx .null) =
      (phoneReaders samplePlatform).transactionHash Keccak.keccak256 (sampleTx .null) := by
  have hsame : (hostReaders samplePlatform).preimage (sampleTx .null) =
      (phoneReaders samplePlatform).preimage (sampleTx .null) := by decide +kernel
  have hfields : ((hostReaders samplePlatform).fields (sampleTx .null)).isSome = true ∧
      (hostReaders samplePlatform).fields (sampleTx .null) =
        (phoneReaders samplePlatform).fields (sampleTx .null) := by decide +kernel
  refine (transactions_hash_alike_iff samplePlatform sampleCurve Keccak.keccak256 samplePlatform_printed
    (sampleTx .null) fun a b ha hb _ => ?_).1.mpr (.inl ?_)
  · exact Option.some.inj (ha.symm.trans (hsame.trans hb))
  · obtain ⟨f, hf⟩ := Option.isSome_iff_exists.mp hfields.1
    exact (both_fields samplePlatform_printed).mp ⟨f, hf, hfields.2.symm.trans hf⟩

/-- A number as recipient: the host refuses it, and the phone hashes the creation of a contract. -/
theorem recipient_read_apart :
    (hostReaders samplePlatform).transactionHash Keccak.keccak256 (sampleTx (.int 5)) ≠
      (phoneReaders samplePlatform).transactionHash Keccak.keccak256 (sampleTx (.int 5)) := by
  have hhost : (hostReaders samplePlatform).preimage (sampleTx (.int 5)) = none := by decide +kernel
  have hphone : ((phoneReaders samplePlatform).preimage (sampleTx (.int 5))).isSome = true := by
    decide +kernel
  obtain ⟨raw, hraw⟩ := Option.isSome_iff_exists.mp hphone
  rw [FieldReaders.transactionHash, FieldReaders.transactionHash, hhost, hraw]
  exact nofun

end Ethereum
end Recto
