import Recto.Data.Traverse
import Recto.Genesis.Appends
import Recto.Server.LastOwner

/-!
# The derived identity

The id of a bootloader is derived from the set of its keys: the order of the
members and their repetition do not count, and what is hashed tells the sets
apart. A seal that passed the checks of an act records keys that derive the
sealed id again on every later chain.
-/

namespace Recto
namespace Server

open Genesis

variable (env : Host)

/-- The keys in the order they are hashed. -/
def sortedKeys (operatorPubkey : Bytes) (memberPubkeys : List Bytes) : List Bytes :=
  (operatorPubkey :: memberPubkeys).dedup.insertionSort (· ≤ ·)

/-- What is hashed: the version, and each key behind its length. -/
def derivationInput (operatorPubkey : Bytes) (memberPubkeys : List Bytes) : Bytes :=
  utf8 "recto-bootloader-id-v1" ++
    (sortedKeys operatorPubkey memberPubkeys).flatMap fun k => bigEndian4 k.length ++ k

/-- The first 128 bits of a hash, in hexadecimal. -/
def truncated (digest : Bytes) : List Char := (chars (hex digest)).take 32

/-- `derive_bootloader_id` with its refusals: no operator key, or a key whose length is no four
bytes. -/
def deriveId (operatorPubkey : Option Bytes) (memberPubkeys : List Bytes) : Except PyError String :=
  match operatorPubkey with
  | none | some [] => .error .valueError
  | some operatorPubkey =>
      if (operatorPubkey :: memberPubkeys).all fun k => k.length < 2 ^ 32 then
        .ok (deriveBootloaderId env operatorPubkey memberPubkeys)
      else .error .overflowError

/-- What `_seal_time_identity_inputs` returns. -/
structure IdentityInputs where
  derivation : String
  operatorPubkeyB64u : String
  memberPubkeysB64u : List String
  deriving DecidableEq, Repr

/-- The inputs that stand for an operator key and its members. -/
def IdentityInputs.of (operatorPubkey : Bytes) (memberPubkeys : List Bytes) : IdentityInputs where
  derivation := "recto-bootloader-id-v1"
  operatorPubkeyB64u := b64u operatorPubkey
  memberPubkeysB64u := memberPubkeys.map b64u

/-- `_seal_time_identity_inputs`, on the records of the chain. -/
def sealTimeIdentityInputs (chain : List Record) (sealedId : String) : Option IdentityInputs :=
  match (chain.find? fun record => record.op = Op.sealId.name).bind sealInputs with
  | some (operator, members) =>
      if operator ≠ [] ∧ deriveBootloaderId env operator members = sealedId then
        some (.of operator members)
      else none
  | none => none

/-! ## A function of the set -/

section
variable {env} {a b k : Bytes} {ks ks' ms ms' : List Bytes} {n m : ℕ}

theorem deriveBootloaderId_eq (op : Bytes) (ms : List Bytes) : deriveBootloaderId env op ms =
    bootloaderIdPrefix ++ String.ofList (truncated (env.sha256 (derivationInput op ms))) := rfl

theorem mem_sortedKeys : k ∈ sortedKeys a ms ↔ k ∈ a :: ms := by
  rw [sortedKeys, List.mem_insertionSort, List.mem_dedup]

/-- Equal sets are sorted to equal lists. -/
theorem sortedKeys_congr (h : ∀ k, k ∈ a :: ms ↔ k ∈ b :: ms') : sortedKeys a ms = sortedKeys b ms' := by
  have hperm : (a :: ms).dedup.Perm (b :: ms').dedup :=
    (List.perm_ext_iff_of_nodup (List.nodup_dedup _) (List.nodup_dedup _)).mpr fun k => by
      rw [List.mem_dedup, List.mem_dedup, h k]
  have hsorted : (sortedKeys a ms).Perm (sortedKeys b ms') :=
    (List.perm_insertionSort _ _).trans (hperm.trans (List.perm_insertionSort _ _).symm)
  exact hsorted.eq_of_pairwise' (List.pairwise_insertionSort _ _) (List.pairwise_insertionSort _ _)

theorem bigEndian4_injective (hn : n < 2 ^ 32) (hm : m < 2 ^ 32) (h : bigEndian4 n = bigEndian4 m) :
    n = m := by
  simp only [bigEndian4, List.cons.injEq, and_true] at h
  obtain ⟨h3, h2, h1, h0⟩ := h
  have hbyte : ∀ {x y : ℕ}, UInt8.ofNat x = UInt8.ofNat y → x % 256 = y % 256 := by
    intro x y hxy
    simpa using congrArg UInt8.toNat hxy
  have h3 := hbyte h3
  have h2 := hbyte h2
  have h1 := hbyte h1
  have h0 := hbyte h0
  omega

/-- Keys behind their lengths are read back one by one. -/
theorem prefixed_injective (hks : ∀ k ∈ ks, k.length < 2 ^ 32) (hks' : ∀ k ∈ ks', k.length < 2 ^ 32)
    (h : (ks.flatMap fun k => bigEndian4 k.length ++ k) = ks'.flatMap fun k => bigEndian4 k.length ++ k) :
    ks = ks' := by
  have hlength : ∀ n, (bigEndian4 n).length = 4 := fun _ => rfl
  induction ks generalizing ks' with
  | nil =>
    cases ks' with
    | nil => rfl
    | cons k' ks' => exact absurd h nofun
  | cons k ks ih =>
    cases ks' with
    | nil => exact absurd h nofun
    | cons k' ks' =>
      obtain ⟨hk, hks⟩ := List.forall_mem_cons.mp hks
      obtain ⟨hk', htail⟩ := List.forall_mem_cons.mp hks'
      rw [List.flatMap_cons, List.flatMap_cons, List.append_assoc, List.append_assoc] at h
      obtain ⟨hhead, h⟩ := List.append_inj h (by rw [hlength, hlength])
      obtain ⟨rfl, hrest⟩ := List.append_inj h (bigEndian4_injective hk hk' hhead)
      rw [ih hks htail hrest]

theorem deriveId_eq_ok {op : Option Bytes} {id : String} : deriveId env op ms = .ok id ↔
    ∃ key, op = some key ∧ key ≠ [] ∧ (∀ k ∈ key :: ms, k.length < 2 ^ 32) ∧
      id = deriveBootloaderId env key ms := by
  unfold deriveId
  split
  · simp
  · simp
  · rename_i key hne
    split_ifs with hlengths
    · simp only [List.all_eq_true, decide_eq_true_eq] at hlengths
      simp only [Except.ok.injEq, Option.some.injEq, exists_eq_left', ne_eq, eq_comm (a := id)]
      refine ⟨fun h => ⟨?_, hlengths, h⟩, fun h => h.2.2⟩
      rintro rfl
      exact hne rfl
    · simp only [List.all_eq_true, decide_eq_true_eq] at hlengths
      simp only [Option.some.injEq, exists_eq_left', false_iff]
      exact fun h => hlengths h.2.1

theorem deriveId_congr {op : Option Bytes} (h : ∀ k, k ∈ ms ↔ k ∈ ms') :
    deriveId env op ms = deriveId env op ms' := by
  unfold deriveId
  split
  · rfl
  · rfl
  · rename_i key _
    have hall : ((key :: ms).all fun k => k.length < 2 ^ 32) =
        (key :: ms').all fun k => k.length < 2 ^ 32 := by
      rw [Bool.eq_iff_iff, List.all_eq_true, List.all_eq_true]
      simp only [List.mem_cons, h]
    have hkeys : sortedKeys key ms = sortedKeys key ms' :=
      sortedKeys_congr fun k => by simp only [List.mem_cons, h]
    have hinput : derivationInput key ms = derivationInput key ms' := by
      rw [derivationInput, derivationInput, hkeys]
    rw [hall, deriveBootloaderId_eq, deriveBootloaderId_eq, hinput]

/-- What is hashed tells the sets of keys apart. -/
theorem mem_of_derivationInput (hms : ∀ k ∈ a :: ms, k.length < 2 ^ 32)
    (hms' : ∀ k ∈ b :: ms', k.length < 2 ^ 32) (h : derivationInput a ms = derivationInput b ms') :
    k ∈ a :: ms ↔ k ∈ b :: ms' := by
  have hkeys : sortedKeys a ms = sortedKeys b ms' :=
    prefixed_injective (fun k hk => hms k (mem_sortedKeys.mp hk))
      (fun k hk => hms' k (mem_sortedKeys.mp hk)) (List.append_cancel_left h)
  rw [← mem_sortedKeys, hkeys, mem_sortedKeys]

end

/-! ## One seal on a chain -/

section
variable {env}

/-- A replayed chain has at most one seal, and its id is the sealed one. -/
structure SealedOnce (entries : List ChainEntry) (r : Replay) : Prop where
  once : (entries.map ChainEntry.op).count Op.sealId.name ≤ 1
  open' : r.sealedId = none → Op.sealId.name ∉ entries.map ChainEntry.op
  value : ∀ entry ∈ entries, entry.op = Op.sealId.name →
    ∃ id, decodeAscii entry.pubkey = some id ∧ r.sealedId = some id

theorem sealedOnce_start : SealedOnce [] Replay.start where
  once := Nat.zero_le 1
  open' _ := List.not_mem_nil
  value _ h := absurd h List.not_mem_nil

theorem decodeId_eq_ok {entry : ChainEntry} {id : String} (h : decodeId entry = .ok id) :
    decodeAscii entry.pubkey = some id := by
  unfold decodeId at h
  split at h
  · cases h
  · rename_i id' hid
    obtain ⟨_, -, h⟩ := Except.bind_eq_ok.mp h
    rw [hid, Except.pure_eq_ok.mp h]

/-- Only a seal changes the sealed id. -/
theorem change_sealedId {r r' : Replay} {entry : ChainEntry}
    (h : Replay.Change env.toPrimitives r entry r') (hop : entry.op ≠ Op.sealId.name) :
    r'.sealedId = r.sealedId := by
  cases h with
  | sealId value operator hseal => exact absurd (ChainEntry.op?_eq_some_iff.mp hseal) hop
  | add => rfl
  | reset => rfl
  | remove => rfl
  | rotate => rfl
  | unknown => rfl

/-- A seal is accepted on an unsealed chain only. -/
theorem unsealed_of_authorise {r : Replay} {entry : ChainEntry} (hop : entry.op = Op.sealId.name)
    (h : r.authorise env.toPrimitives entry = .ok ()) : r.sealedId = none := by
  have hseal : entry.op? = some .sealId := ChainEntry.op?_eq_some_iff.mpr hop
  unfold Replay.authorise at h
  by_cases hseq : entry.seq = 0
  · rw [if_pos hseq] at h
    obtain ⟨_, hadd, -⟩ := Except.bind_eq_ok.mp h
    rw [hseal] at hadd
    exact absurd (ensure_eq_ok.mp hadd) (by decide)
  · rw [if_neg hseq] at h
    obtain ⟨entrySeal, hentry, -⟩ := Except.bind_eq_ok.mp h
    simp only [Replay.entrySeal, hseal, Except.bind_eq_ok] at hentry
    obtain ⟨_, hnone, -⟩ := hentry
    exact ensure_eq_ok.mp hnone

theorem SealedOnce.step {entries : List ChainEntry} {r r' : Replay} {entry : ChainEntry}
    (hr : SealedOnce entries r) (h : r.step env.toPrimitives entry = .ok r') :
    SealedOnce (entries ++ [entry]) r' := by
  obtain ⟨-, hauth, r₁, hchange, rfl⟩ := Replay.step_eq_ok h
  by_cases hop : entry.op = Op.sealId.name
  · have hopen := hr.open' (unsealed_of_authorise hop hauth)
    obtain ⟨id, hid, hsealed⟩ : ∃ id, decodeAscii entry.pubkey = some id ∧ r₁.sealedId = some id := by
      have hseal : entry.op? = some .sealId := ChainEntry.op?_eq_some_iff.mpr hop
      cases hchange with
      | sealId value operator _ hvalue => exact ⟨value, decodeId_eq_ok hvalue, rfl⟩
      | add hother => rw [hseal] at hother; cases hother
      | reset _ _ hother => rw [hseal] at hother; cases hother
      | remove _ hother => rw [hseal] at hother; cases hother
      | rotate hother => rw [hseal] at hother; cases hother
      | unknown hother => rw [hseal] at hother; cases hother
    refine ⟨?_, fun hnone => absurd (hsealed.symm.trans hnone) (Option.some_ne_none _), ?_⟩
    · rw [List.map_append, List.count_append, List.count_eq_zero.mpr hopen, List.map_singleton, hop]
      simp
    · intro e he hseal
      rcases List.mem_append.mp he with he | he
      · exact absurd (hseal ▸ List.mem_map_of_mem (f := ChainEntry.op) he) hopen
      · rw [List.mem_singleton.mp he]
        exact ⟨id, hid, hsealed⟩
  · have hsame : r₁.sealedId = r.sealedId := change_sealedId hchange hop
    refine ⟨?_, fun hnone => ?_, fun e he hseal => ?_⟩
    · rw [List.map_append, List.count_append, List.map_singleton, List.count_singleton,
        if_neg (by simpa using hop), Nat.add_zero]
      exact hr.once
    · rw [List.map_append, List.mem_append, List.map_singleton, List.mem_singleton]
      rintro (hmem | heq)
      · exact hr.open' (hsame ▸ hnone) hmem
      · exact hop heq.symm
    · rcases List.mem_append.mp he with he | he
      · obtain ⟨id, hid, hsealed⟩ := hr.value e he hseal
        exact ⟨id, hid, hsame.trans hsealed⟩
      · exact absurd (List.mem_singleton.mp he ▸ hseal) hop

theorem sealedOnce_of_replayLoop {entries : List ChainEntry} {r : Replay}
    (h : replayLoop env.toPrimitives entries = .ok r) : SealedOnce entries r := by
  induction entries using List.reverseRecOn generalizing r with
  | nil =>
    obtain rfl := Except.ok.inj h
    exact sealedOnce_start
  | append_singleton entries entry ih =>
    obtain ⟨m, hm, hstep⟩ := foldlM_concat_eq_ok.mp h
    exact (ih hm).step hstep

/-- What was sealed on a chain that replays: the only seal on it is the first, and its value is the
sealed id. -/
theorem sealed_of_genesisChainState {store : ChainStore} {cs : ChainState} {record : Record}
    (h : genesisChainState env.toPrimitives store = .ok (some cs)) (hmem : record ∈ store.chain)
    (hop : record.op = Op.sealId.name) :
    (store.chain.find? fun record => record.op = Op.sealId.name) = some record ∧
      ∃ value id, fromHex record.pubkey = some value ∧ decodeAscii value = some id ∧
        cs.sealedId = some id := by
  simp only [genesisChainState, Except.bind_eq_ok, Except.pure_eq_ok] at h
  obtain ⟨entries, hentries, state, hstate, _, -, rfl⟩ := h
  have hall := mapM_eq_ok_iff.mp hentries
  obtain ⟨r, hloop, rfl⟩ : ∃ r, replayLoop env.toPrimitives entries = .ok r ∧
      cs = r.finish env.toPrimitives := by
    unfold replayStored at hstate
    by_cases hnil : entries = []
    · rw [if_pos hnil] at hstate
      cases hstate
    · rw [if_neg hnil] at hstate
      obtain ⟨cs', hcs', hsome⟩ := Except.map_eq_ok.mp hstate
      obtain rfl := Option.some.inj hsome
      exact replayState_eq_ok.mp hcs'
  have honce := sealedOnce_of_replayLoop hloop
  clear hentries hloop hstate
  generalize store.chain = chain at hall hmem ⊢
  constructor
  · have hcount : (chain.filter fun record => decide (record.op = Op.sealId.name)).length ≤ 1 := by
      have hops : entries.map ChainEntry.op = chain.map Record.op := by
        clear hmem honce
        induction hall with
        | nil => rfl
        | cons hread _ ih => rw [List.map_cons, List.map_cons, ih, (entryFromRecord_eq_ok hread).2.1]
      have hle := honce.once
      rw [hops, List.count, List.countP_map, List.countP_eq_length_filter] at hle
      refine le_trans (le_of_eq (congrArg List.length (List.filter_congr fun x _ => ?_))) hle
      exact (beq_eq_decide x.op Op.sealId.name).symm
    have hfilter : record ∈ chain.filter fun record => decide (record.op = Op.sealId.name) :=
      List.mem_filter.mpr ⟨hmem, decide_eq_true hop⟩
    rw [← List.head?_filter]
    generalize (chain.filter fun record => decide (record.op = Op.sealId.name)) = seals at *
    match seals, hcount, hfilter with
    | [first], _, hfirst => rw [List.mem_singleton.mp hfirst]; rfl
  · obtain ⟨entry, hentry, hread⟩ : ∃ entry ∈ entries,
        entryFromRecord env.toPrimitives record = .ok entry := by
      clear honce
      induction hall with
      | nil => exact absurd hmem List.not_mem_nil
      | @cons x y xs ys hxy _ ih =>
        rcases List.mem_cons.mp hmem with rfl | hmem
        · exact ⟨y, List.mem_cons_self, hxy⟩
        · obtain ⟨entry, hentry, hread⟩ := ih hmem
          exact ⟨entry, List.mem_cons_of_mem _ hentry, hread⟩
    obtain ⟨hpubkey, hsame, -⟩ := entryFromRecord_eq_ok hread
    obtain ⟨id, hid, hsealed⟩ := honce.value entry hentry (hsame.trans hop)
    exact ⟨entry.pubkey, id, hpubkey, hid, hsealed⟩

/-- Text that decodes as ASCII decodes to itself when faults are replaced. -/
theorem decodeReplace_of_decodeAscii {raw : Bytes} {id : String} (h : decodeAscii raw = some id) :
    decodeReplace raw = id := by
  unfold decodeAscii at h
  obtain ⟨hall, h⟩ := Option.ite_none_right_eq_some.mp h
  rw [← Option.some.inj h, decodeReplace]
  refine congrArg String.ofList (List.map_congr_left fun b hb => ?_)
  rw [if_pos (by simpa using List.all_eq_true.mp hall b hb)]

/-- A field of a draft's meta text is read from the object the text parses to. -/
theorem Draft.metaField_eq_some {draft : Draft} {key : String} {value : Json}
    (h : draft.metaField key = some value) :
    ∃ fields, Json.loads (draft.metaText.getD "") = .ok (.obj fields) ∧
      fields.lookup key = some value := by
  unfold Draft.metaField at h
  split at h
  · exact ⟨_, ‹_›, h⟩
  · cases h

/-- The keys a record's meta text names are the ones the launcher reads back. -/
theorem sealInputs_eq_some {record : Record} {fields : List (String × Json)} {operator : Bytes}
    {items : List Json} {members : List Bytes}
    (hloads : Json.loads (record.metaText.getD "") = .ok (.obj fields))
    (hoperator : fields.lookup "operator_pubkey" = some (.str (hex operator)))
    (hitems : fields.lookup "identity_members" = some (.arr items))
    (hmembers : (items.mapM fun member =>
      match member with
      | .str text => fromHex text
      | _ => none) = some members) :
    sealInputs record = some (operator, members) := by
  unfold sealInputs
  simp only [hloads, hoperator, hitems, fromHex_hex]
  exact Option.bind_eq_some_iff.mpr
    ⟨_, rfl, Option.bind_eq_some_iff.mpr ⟨members, hmembers, rfl⟩⟩

/-- What the checks of an act establish of a seal: the keys it records derive the id it seals. -/
theorem checkSealDraft_inputs {s : Store} {draft : Draft} {signatures : List String}
    (h : checkSealDraft env s draft = .ok ()) :
    decodeReplace draft.value = s.config.bootloaderId ∧ ∃ operator members, operator ≠ [] ∧
      sealInputs (recordOf draft signatures) = some (operator, members) ∧
      deriveBootloaderId env operator members = s.config.bootloaderId := by
  simp only [checkSealDraft, Except.bind_eq_ok, ensure_eq_ok] at h
  obtain ⟨_, hvalue, _, -, _, ⟨hne, hoperator⟩, hmembers⟩ := h
  obtain ⟨members, hrecorded, hderive⟩ := Option.map_eq_some_iff.mp hmembers
  refine ⟨hvalue, _, members, hne, ?_, hderive⟩
  obtain ⟨fields, hloads, hoperator⟩ := Draft.metaField_eq_some hoperator
  unfold recordedMembers at hrecorded
  split at hrecorded
  · rename_i items hitems
    obtain ⟨_, hagain, hitems⟩ := Draft.metaField_eq_some hitems
    cases hloads.symm.trans hagain
    exact sealInputs_eq_some hloads hoperator hitems hrecorded
  · cases hrecorded

/-- On every later chain the keys a checked seal records derive the sealed id. -/
theorem sealTimeIdentityInputs_of_checked {s : Store} {draft : Draft} {signatures : List String}
    {store : ChainStore} {cs : ChainState} (hchecked : checkSealDraft env s draft = .ok ())
    (hop : draft.op = Op.sealId.name)
    (hreplay : genesisChainState env.toPrimitives store = .ok (some cs))
    (hmem : recordOf draft signatures ∈ store.chain) :
    ∃ sealedId operator members, cs.sealedId = some sealedId ∧
      sealTimeIdentityInputs env store.chain sealedId = some (.of operator members) ∧
      deriveBootloaderId env operator members = sealedId := by
  obtain ⟨hvalue, operator, members, hne, hinputs, hderive⟩ := checkSealDraft_inputs hchecked
  obtain ⟨hfind, value, id, hhex, hid, hsealed⟩ := sealed_of_genesisChainState hreplay hmem hop
  rw [show (recordOf draft signatures).pubkey = hex draft.value from rfl, fromHex_hex] at hhex
  obtain rfl := Option.some.inj hhex
  have hsame : s.config.bootloaderId = id := hvalue.symm.trans (decodeReplace_of_decodeAscii hid)
  rw [hsame] at hderive
  refine ⟨id, operator, members, hsealed, ?_, hderive⟩
  rw [sealTimeIdentityInputs, hfind, Option.bind_some, hinputs]
  exact if_pos ⟨hne, hderive⟩

/-- The derived id is a function of the set of keys, what is hashed tells the sets apart (though not
which key is the operator's), and a checked seal records keys that derive its id on every later
chain. -/
theorem derived_identity (env : Host) :
    (∀ operator members members', (∀ k, k ∈ members ↔ k ∈ members') →
      deriveId env operator members = deriveId env operator members') ∧
    (∀ operator members operator' members' id id', deriveId env (some operator) members = .ok id →
      deriveId env (some operator') members' = .ok id' →
        (derivationInput operator members = derivationInput operator' members' →
          ∀ k, k ∈ operator :: members ↔ k ∈ operator' :: members') ∧
        (id = id' → (∀ k, k ∈ operator :: members ↔ k ∈ operator' :: members') ∨
          derivationInput operator members ≠ derivationInput operator' members' ∧
            truncated (env.sha256 (derivationInput operator members)) =
              truncated (env.sha256 (derivationInput operator' members')))) ∧
    ∀ s draft signatures store cs, checkSealDraft env s draft = .ok () →
      draft.op = Op.sealId.name → genesisChainState env.toPrimitives store = .ok (some cs) →
      recordOf draft signatures ∈ store.chain →
        ∃ sealedId operator members, cs.sealedId = some sealedId ∧
          sealTimeIdentityInputs env store.chain sealedId = some (.of operator members) ∧
          deriveBootloaderId env operator members = sealedId := by
  refine ⟨fun operator members members' hsame => ?_,
    fun operator members operator' members' id id' h h' => ?_,
    fun s draft signatures store cs hchecked hop hreplay hmem =>
      sealTimeIdentityInputs_of_checked hchecked hop hreplay hmem⟩
  · exact deriveId_congr hsame
  · obtain ⟨_, hkey, -, hlengths, rfl⟩ := deriveId_eq_ok.mp h
    obtain rfl := Option.some.inj hkey
    obtain ⟨_, hkey', -, hlengths', rfl⟩ := deriveId_eq_ok.mp h'
    obtain rfl := Option.some.inj hkey'
    refine ⟨fun hinput k => mem_of_derivationInput hlengths hlengths' hinput, fun hid => ?_⟩
    by_cases hinput : derivationInput operator members = derivationInput operator' members'
    · exact .inl fun k => mem_of_derivationInput hlengths hlengths' hinput
    · refine .inr ⟨hinput, ?_⟩
      rw [deriveBootloaderId_eq, deriveBootloaderId_eq, String.append_right_inj] at hid
      exact String.ofList_inj.mp hid

/-- The draft the sample run seals. -/
def sampleSeal : Draft :=
  ⟨"seal-id", "bootloader-id", utf8 "rb1-64ab8b83", "none", 3, some "d4344de0",
    some ("\x7b\"identity_members\":[\"0303030303030303030303030303030303030303030303030303030303" ++
      "030303\"],\"nonce\":\"nnnnnnnnnnnnnnnn\",\"not_after\":300,\"operator_pubkey\":\"090909090909" ++
      "0909090909090909090909090909090909090909090909090909090909090909090909090909090909090909" ++
      "0909090909090909090909090909\"\x7d")⟩

/-- The sample run up to the seal, and with the removal of a device after it. -/
def beforeSeal : Store :=
  (runEvents sampleHost (Store.new 0)
    (sampleGenesis ++ sampleSecondOwner ++ sampleSealing.take 4)).2

def afterRemoval : Store :=
  (runEvents sampleHost (Store.new 0)
    (sampleGenesis ++ sampleSecondOwner ++ sampleSealing ++ sampleRemoval)).2

theorem derived_identity_sample :
    deriveId sampleHost (some [9]) [[1], [2]] = deriveId sampleHost (some [9]) [[2], [1], [2]] ∧
      (∀ k, k ∈ ([9] : Bytes) :: [[1]] ↔ k ∈ ([9] : Bytes) :: [[1]]) ∧
      ∃ cs sealedId operator members, cs.sealedId = some sealedId ∧
        genesisChainState sampleHost.toPrimitives afterRemoval.chain = .ok (some cs) ∧
        sealTimeIdentityInputs sampleHost afterRemoval.chain.chain sealedId =
          some (.of operator members) := by
  obtain ⟨hset, hinput, hseal⟩ := derived_identity sampleHost
  refine ⟨hset _ _ _ (by simp [or_comm]), (hinput [9] [[1]] [9] [[1]] _ _ rfl rfl).1 rfl, ?_⟩
  obtain ⟨hchecked, hreplay, hmem⟩ : checkSealDraft sampleHost beforeSeal sampleSeal = .ok () ∧
      ((genesisChainState sampleHost.toPrimitives afterRemoval.chain).toOption.join).isSome = true ∧
      recordOf sampleSeal ["pjfIzg", "ubMz7A"] ∈ afterRemoval.chain.chain := by decide +kernel
  obtain ⟨cs, hcs⟩ := Option.isSome_iff_exists.mp hreplay
  have hcs : genesisChainState sampleHost.toPrimitives afterRemoval.chain = .ok (some cs) := by
    cases hstate : genesisChainState sampleHost.toPrimitives afterRemoval.chain with
    | error e =>
      rw [hstate] at hcs
      cases hcs
    | ok state =>
      rw [hstate] at hcs
      rw [show state = some cs from hcs]
  obtain ⟨sealedId, operator, members, hsealed, hinputs, -⟩ :=
    hseal beforeSeal sampleSeal _ afterRemoval.chain cs hchecked rfl hcs hmem
  exact ⟨cs, sealedId, operator, members, hsealed, hcs, hinputs⟩

/-- The operator's key and a member's may change places. -/
theorem operator_not_determined : ¬∀ (operator operator' : Bytes) (members members' : List Bytes),
    derivationInput operator members = derivationInput operator' members' →
      operator = operator' ∧ ∀ k, k ∈ members ↔ k ∈ members' := by
  intro h
  exact absurd (h [1] [2] [[2]] [[1]] (by decide +kernel)).1 (by decide)

end

end Server
end Recto
