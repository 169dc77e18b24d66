import Recto.Genesis.Authorisation
import Recto.Genesis.ChainStore
import Recto.Text.Handles

/-!
# The gate of the top plane

The stored members are the replayed chain's when there is a chain, else the flat
map's. An act needs the signature of the passphrase member and of a device
member: each signature is credited to the first of them it verifies for that is
not satisfied yet. The chain refuses a member that shares a key; the writer of
the flat map does not look.
-/

namespace Recto
namespace Genesis

variable (env : Primitives)

structure GenesisMember where
  kind : String
  pubkey : Bytes
  algorithm : String
  deriving DecidableEq, Repr

/-- `GENESIS_LEGACY_ALGORITHM` -/
def genesisLegacyAlgorithm : String := "ed25519"

/-- genesis_members.json: the flat map, and the chain when there is one. -/
structure GenesisFile where
  members : Dict String Json
  chain : Option (List Record)

namespace GenesisFile

/-- Before anything was stored. -/
def empty : GenesisFile := ⟨∅, none⟩

/-- The hexadecimal key and the algorithm of a stored entry, in either form. -/
def storedKey : Json → Option (String × String)
  | .str hexed => some (hexed, genesisLegacyAlgorithm)
  | .obj fields =>
      let algorithm := (fields.lookup "algorithm").getD .null
      match (fields.lookup "pubkey").getD .null,
          if algorithm.truthy then algorithm else .str genesisLegacyAlgorithm with
      | .str hexed, .str algorithm => some (hexed, algorithm)
      | _, _ => none
  | _ => none

/-- The member of a stored entry; `none` for one that cannot be read. -/
def flatMember (kind : String) (stored : Json) : Option GenesisMember := do
  let (hexed, algorithm) ← storedKey stored
  let pubkey ← fromHex hexed
  let algorithm ← (validateGenesisPubkey env pubkey algorithm).toOption
  pure { kind, pubkey, algorithm }

/-- The members of the flat map that can be read. -/
def flatMembers (members : Dict String Json) : Dict String GenesisMember :=
  members.items.foldl (fun good item =>
    match flatMember env item.1 item.2 with
    | some member => good.set item.1 member
    | none => good) ∅

/-- `_replay_stored_chain`: a chain that does not verify leaves no member readable. -/
def replayStoredChain (records : List Record) : Except PyError (Dict String GenesisMember) :=
  match entriesFromRecords env records with
  | .error _ => .ok ∅
  | .ok entries =>
      if entries = [] then .ok ∅
      else
        match replay env entries with
        | .ok members => .ok (members.mapValues fun e => ⟨e.kind, e.pubkey, e.algorithm⟩)
        | .error (.chain _) => .ok ∅
        | .error (.python e) => .error e

/-- `list_genesis_members_full`: the chain is authoritative when it exists. -/
def listGenesisMembersFull (file : GenesisFile) : Except PyError (Dict String GenesisMember) :=
  match file.chain with
  | some records => replayStoredChain env records
  | none => .ok (flatMembers env file.members)

/-- `kind.replace("-", "").isalnum()`, on ASCII. -/
def isMemberKind (kind : String) : Bool :=
  let rest := (chars kind).filter (· ≠ '-')
  decide (rest ≠ []) && rest.all Char.isAlphanum

/-- `put_genesis_member`: `none` when it refuses. No chain is kept. -/
def putGenesisMember (file : GenesisFile) (kind : String) (pubkey : Bytes) (algorithm : String) :
    Option GenesisFile := do
  let kind := lower (strip kind)
  if isMemberKind kind then do
    let algorithm ← (validateGenesisPubkey env pubkey algorithm).toOption
    pure { members := file.members.set kind
             (.obj [("pubkey", .str (hex pubkey)), ("algorithm", .str algorithm)])
           chain := none }
  else none

end GenesisFile

/-- Why the set cannot carry the rule. -/
inductive GenesisSetError where
  | noMembers
  | noPassphrase
  | noDevice
  | unverifiable (kinds : List (String × String))
  | raised (e : PyError)
  deriving DecidableEq, Repr

/-- `collect_genesis_set` -/
def collectGenesisSet (file : GenesisFile) : Except GenesisSetError (Dict String GenesisMember) := do
  let members ← (file.listGenesisMembersFull env).mapError .raised
  ensure (members.items ≠ []) .noMembers
  pure members

/-- Does the signature verify over the message under the member's key? -/
def GenesisMember.verifies (member : GenesisMember) (message signature : Bytes) : Bool :=
  verifierFor env member.pubkey member.algorithm signature message

/-- `build_member_verifiers`: the verifiers, when every algorithm is supported. -/
def buildMemberVerifiers (members : List (String × GenesisMember)) :
    Except GenesisSetError (List (String × (Bytes → Bytes → Bool))) := do
  let unverifiable := members.filter fun m => m.2.algorithm ∉ supportedAlgorithms
  ensure (unverifiable = []) (.unverifiable (unverifiable.map fun m => (m.2.kind, m.2.algorithm)))
  pure (members.map fun m => (m.1, fun message signature => m.2.verifies env message signature))

structure TopPlaneResult where
  met : Bool
  passphrase : Bool
  devices : Finset String
  deriving DecidableEq

/-- The members of the gate: the passphrase first, then the devices as they stand. -/
def gateOf (members : Dict String GenesisMember) (passphrase : GenesisMember) :
    List (String × GenesisMember) :=
  (passphraseKind, passphrase) :: members.items.filter fun m => m.1 ∈ deviceKinds

/-- The kinds a signature of the list is credited to. -/
def satisfiedGate (verifiers : List (String × (Bytes → Bytes → Bool))) (message : Bytes)
    (signatures : List Bytes) : List String :=
  attribution verifiers Prod.fst (fun signature v => v.2 message signature) signatures

/-- `verify_top_plane` -/
def verifyTopPlane (message : Bytes) (signatures : List Bytes) (file : GenesisFile) :
    Except GenesisSetError TopPlaneResult := do
  let members ← collectGenesisSet env file
  match members.get? passphraseKind with
  | none => .error .noPassphrase
  | some passphrase => do
      let gate := gateOf members passphrase
      ensure (gate.tail ≠ []) .noDevice
      let verifiers ← buildMemberVerifiers env gate
      let satisfied := satisfiedGate verifiers message signatures
      let devices := satisfied.filter (· ∈ deviceKinds)
      pure { met := decide (passphraseKind ∈ satisfied) && decide (devices ≠ [])
             passphrase := decide (passphraseKind ∈ satisfied)
             devices := devices.toFinset }

variable {env} {file : GenesisFile} {members : Dict String GenesisMember} {message : Bytes}
  {signatures : List Bytes}

/-! ## The members that are read -/

theorem genesisAlgorithms_eq_some {algorithm : String} {n : ℕ}
    (h : genesisAlgorithms algorithm = some n) :
    algorithm = "ed25519" ∧ n = 32 ∨ algorithm = "ecdsa-p256" ∧ n = 64 := by
  simp only [genesisAlgorithms, List.lookup_cons] at h
  by_cases hed : algorithm = "ed25519"
  · subst hed
    exact Or.inl ⟨rfl, (Option.some.inj h).symm⟩
  · by_cases hec : algorithm = "ecdsa-p256"
    · subst hec
      exact Or.inr ⟨rfl, (Option.some.inj h).symm⟩
    · rw [beq_false_of_ne hed, beq_false_of_ne hec] at h
      cases h

/-- The algorithms of two keys of one length are the same. -/
theorem genesisAlgorithms_injective {a b : String} {n : ℕ} (ha : genesisAlgorithms a = some n)
    (hb : genesisAlgorithms b = some n) : a = b := by
  rcases genesisAlgorithms_eq_some ha with ⟨rfl, rfl⟩ | ⟨rfl, rfl⟩ <;>
    rcases genesisAlgorithms_eq_some hb with ⟨rfl, h⟩ | ⟨rfl, h⟩ <;> first | rfl | omega

theorem mem_supportedAlgorithms {a : String} {n : ℕ} (h : genesisAlgorithms a = some n) :
    a ∈ supportedAlgorithms := by
  rcases genesisAlgorithms_eq_some h with ⟨rfl, -⟩ | ⟨rfl, -⟩ <;> decide

theorem validateGenesisPubkey_eq_ok {pubkey : Bytes} {algorithm algo : String}
    (h : validateGenesisPubkey env pubkey algorithm = .ok algo) :
    genesisAlgorithms algo = some pubkey.length := by
  simp only [validateGenesisPubkey] at h
  split at h
  · cases h
  · rename_i valid hvalid
    split_ifs at h with hlength
    split at h
    · obtain rfl := Except.ok.inj h
      rw [hvalid, not_ne_iff.mp hlength]
    · cases h

theorem GenesisFile.flatMember_fits {kind : String} {stored : Json} {m : GenesisMember}
    (h : flatMember env kind stored = some m) : genesisAlgorithms m.algorithm = some m.pubkey.length := by
  simp only [flatMember, Option.bind_eq_bind, Option.bind_eq_some_iff, Option.pure_def] at h
  obtain ⟨⟨hexed, named⟩, -, pubkey, -, algorithm, halgorithm, hm⟩ := h
  obtain rfl := Option.some.inj hm
  cases hvalid : validateGenesisPubkey env pubkey named with
  | error e =>
    rw [hvalid] at halgorithm
    cases halgorithm
  | ok algo =>
    rw [hvalid] at halgorithm
    obtain rfl := Option.some.inj halgorithm
    exact validateGenesisPubkey_eq_ok hvalid

/-- A member of the flat map is a key of its algorithm's length. -/
theorem GenesisFile.flatMembers_fits {stored : Dict String Json} {kind : String} {m : GenesisMember}
    (h : (flatMembers env stored).get? kind = some m) :
    genesisAlgorithms m.algorithm = some m.pubkey.length := by
  have hfold : ∀ (items : List (String × Json)) (good : Dict String GenesisMember),
      (∀ kind m, good.get? kind = some m → genesisAlgorithms m.algorithm = some m.pubkey.length) →
      ∀ kind m, (items.foldl (fun good item =>
        match flatMember env item.1 item.2 with
        | some member => good.set item.1 member
        | none => good) good).get? kind = some m →
        genesisAlgorithms m.algorithm = some m.pubkey.length := by
    intro items
    induction items with
    | nil => exact fun good hgood => hgood
    | cons item rest ih =>
      intro good hgood
      refine ih _ fun kind m hm => ?_
      cases hmember : flatMember env item.1 item.2 with
      | some member =>
        simp only [hmember] at hm
        rw [Dict.get?_set] at hm
        split_ifs at hm
        · exact Option.some.inj hm ▸ flatMember_fits hmember
        · exact hgood kind m hm
      | none =>
        simp only [hmember] at hm
        exact hgood kind m hm
  exact hfold stored.items ∅ (by simp) kind m h

/-- The chain admits every key once. -/
theorem GenesisFile.replayStoredChain_distinct {records : List Record} {kind kind' : String}
    {m m' : GenesisMember} (h : replayStoredChain env records = .ok members)
    (hm : members.get? kind = some m) (hm' : members.get? kind' = some m')
    (hkey : m.pubkey = m'.pubkey) : kind = kind' := by
  simp only [replayStoredChain] at h
  split at h
  · obtain rfl := Except.ok.inj h
    simp at hm
  · split_ifs at h
    · obtain rfl := Except.ok.inj h
      simp at hm
    · split at h
      · rename_i entries _ resolved hreplay
        obtain rfl := Except.ok.inj h
        simp only [replay, replayState, Except.bind_eq_ok, Except.pure_eq_ok] at hreplay
        obtain ⟨state, ⟨r, hr, rfl⟩, rfl⟩ := hreplay
        rw [Dict.get?_mapValues, Option.map_eq_some_iff] at hm hm'
        obtain ⟨e, he, rfl⟩ := hm
        obtain ⟨e', he', rfl⟩ := hm'
        exact (Replay.inv_of_replayLoop hr).distinct kind kind' e e' he he' hkey
      · obtain rfl := Except.ok.inj h
        simp at hm
      · cases h

/-! ## Two keys -/

/-- A met gate means two different keys, the passphrase's and a device's, each with a signature. -/
def NeedsTwoKeys (env : Primitives) (file : GenesisFile) (message : Bytes) (signatures : List Bytes) :
    Prop :=
  ∀ r, verifyTopPlane env message signatures file = .ok r → r.met = true →
    ∃ members passphrase device, file.listGenesisMembersFull env = .ok members ∧
      members.get? passphraseKind = some passphrase ∧
      (∃ kind ∈ deviceKinds, members.get? kind = some device) ∧
      passphrase.pubkey ≠ device.pubkey ∧
      (∃ signature ∈ signatures, passphrase.verifies env message signature = true) ∧
      ∃ signature ∈ signatures, device.verifies env message signature = true

/-- A device holds the passphrase's key, two entries of the list verify under it, and none verifies
under the key of another device. -/
def OneKeyTwice (env : Primitives) (file : GenesisFile) (message : Bytes) (signatures : List Bytes) :
    Prop :=
  ∃ members passphrase, file.listGenesisMembersFull env = .ok members ∧
    members.get? passphraseKind = some passphrase ∧
    (∃ kind ∈ deviceKinds, ∃ device, members.get? kind = some device ∧
      device.pubkey = passphrase.pubkey) ∧
    2 ≤ signatures.countP (passphrase.verifies env message) ∧
    ∀ kind ∈ deviceKinds, ∀ device, members.get? kind = some device →
      device.pubkey ≠ passphrase.pubkey →
      ∀ signature ∈ signatures, device.verifies env message signature = false

/-- The kinds credited, told by the members of the gate. -/
theorem satisfiedGate_eq (gate : List (String × GenesisMember)) :
    satisfiedGate (gate.map fun m => (m.1, fun message signature => m.2.verifies env message signature))
      message signatures =
      attribution gate Prod.fst (fun signature m => m.2.verifies env message signature) signatures :=
  attribution_map _ _ _ gate signatures

/-- What an accepted call answers. -/
theorem verifyTopPlane_eq_ok {r : TopPlaneResult} :
    verifyTopPlane env message signatures file = .ok r ↔
      ∃ members passphrase, file.listGenesisMembersFull env = .ok members ∧
        members.get? passphraseKind = some passphrase ∧
        members.items.filter (·.1 ∈ deviceKinds) ≠ [] ∧
        (∀ m ∈ gateOf members passphrase, m.2.algorithm ∈ supportedAlgorithms) ∧
        r = let satisfied := attribution (gateOf members passphrase) Prod.fst
              (fun signature m => m.2.verifies env message signature) signatures
            { met := decide (passphraseKind ∈ satisfied) &&
                decide (satisfied.filter (· ∈ deviceKinds) ≠ [])
              passphrase := decide (passphraseKind ∈ satisfied)
              devices := (satisfied.filter (· ∈ deviceKinds)).toFinset } := by
  cases hlist : file.listGenesisMembersFull env with
  | error e =>
    simp [verifyTopPlane, collectGenesisSet, hlist, Except.mapError, bind, Except.bind]
  | ok members =>
    cases hpass : members.get? passphraseKind with
    | none =>
      simp only [verifyTopPlane, collectGenesisSet, hlist, Except.mapError, Except.bind_eq_ok,
        Except.ok.injEq, ensure_eq_ok, Except.pure_eq_ok]
      constructor
      · rintro ⟨_, ⟨_, rfl, _, -, rfl⟩, h⟩
        rw [hpass] at h
        cases h
      · rintro ⟨_, passphrase, rfl, h, -⟩
        rw [hpass] at h
        cases h
    | some passphrase =>
      have hne : members.items ≠ [] := by
        intro h
        rw [Dict.get?, h] at hpass
        cases hpass
      simp only [verifyTopPlane, collectGenesisSet, hlist, Except.mapError, Except.bind_eq_ok,
        Except.ok.injEq, ensure_eq_ok, Except.pure_eq_ok, buildMemberVerifiers]
      constructor
      · rintro ⟨_, ⟨_, rfl, _, -, rfl⟩, h⟩
        simp only [hpass, Except.bind_eq_ok, ensure_eq_ok, Except.pure_eq_ok] at h
        obtain ⟨_, hdevices, _, ⟨_, hsupported, rfl⟩, rfl⟩ := h
        rw [List.filter_eq_nil_iff] at hsupported
        refine ⟨_, passphrase, rfl, hpass, hdevices, ?_, by rw [satisfiedGate_eq]⟩
        exact fun m hm => by simpa using hsupported m hm
      · rintro ⟨_, passphrase', rfl, hpass', hdevices, hsupported, rfl⟩
        obtain rfl := Option.some.inj (hpass.symm.trans hpass')
        refine ⟨members, ⟨members, rfl, ⟨⟩, hne, rfl⟩, ?_⟩
        simp only [hpass, Except.bind_eq_ok, ensure_eq_ok, Except.pure_eq_ok]
        refine ⟨⟨⟩, hdevices, _, ⟨⟨⟩, ?_, rfl⟩, by rw [satisfiedGate_eq]⟩
        exact List.filter_eq_nil_iff.mpr fun m hm => by simpa using hsupported m hm

theorem nodup_gateOf (members : Dict String GenesisMember) (passphrase : GenesisMember) :
    ((gateOf members passphrase).map Prod.fst).Nodup := by
  refine List.nodup_cons.mpr ⟨?_, (members.nodup.sublist ?_)⟩
  · intro h
    obtain ⟨⟨kind, device⟩, hm, rfl⟩ := List.mem_map.mp h
    exact passphraseKind_not_device (by simpa using (List.mem_filter.mp hm).2)
  · exact List.Sublist.map _ List.filter_sublist

theorem mem_gate_device {passphrase : GenesisMember} {m : String × GenesisMember}
    (hm : m ∈ gateOf members passphrase) (hdevice : m.1 ∈ deviceKinds) :
    members.get? m.1 = some m.2 := by
  rcases List.mem_cons.mp hm with rfl | hm
  · exact absurd hdevice passphraseKind_not_device
  · exact Dict.get?_eq_some_iff.mpr (List.mem_filter.mp hm).1

theorem device_mem_gate {device : GenesisMember} {kind : String}
    (hkind : kind ∈ deviceKinds) (hget : members.get? kind = some device) :
    (kind, device) ∈ members.items.filter (·.1 ∈ deviceKinds) :=
  List.mem_filter.mpr ⟨Dict.get?_eq_some_iff.mp hget, by simpa using hkind⟩

/-- The members that hold the passphrase's key verify what it verifies. -/
theorem verifies_eq (hlist : file.listGenesisMembersFull env = .ok members)
    {kind kind' : String} {m m' : GenesisMember} (hm : members.get? kind = some m)
    (hm' : members.get? kind' = some m') (hkey : m.pubkey = m'.pubkey) (signature : Bytes) :
    m.verifies env message signature = m'.verifies env message signature := by
  cases hchain : file.chain with
  | some records =>
    rw [GenesisFile.listGenesisMembersFull, hchain] at hlist
    obtain rfl := GenesisFile.replayStoredChain_distinct hlist hm hm' hkey
    rw [Option.some.inj (hm.symm.trans hm')]
  | none =>
    rw [GenesisFile.listGenesisMembersFull, hchain] at hlist
    obtain rfl := Except.ok.inj hlist
    have hfits := GenesisFile.flatMembers_fits hm
    rw [hkey] at hfits
    have halgorithm := genesisAlgorithms_injective hfits (GenesisFile.flatMembers_fits hm')
    rw [GenesisMember.verifies, GenesisMember.verifies, hkey, halgorithm]

/-- Where no device of another key verifies anything, the passphrase and the devices of its key are
credited in turn, once for each entry that verifies under it. -/
theorem attribution_oneKey (hlist : file.listGenesisMembersFull env = .ok members)
    {passphrase : GenesisMember} (hpass : members.get? passphraseKind = some passphrase)
    (hother : ∀ kind ∈ deviceKinds, ∀ device, members.get? kind = some device →
      device.pubkey ≠ passphrase.pubkey →
      ∀ signature ∈ signatures, device.verifies env message signature = false) :
    attribution (gateOf members passphrase) Prod.fst
      (fun signature m => m.2.verifies env message signature) signatures =
      (passphraseKind :: ((members.items.filter (·.1 ∈ deviceKinds)).filter
        fun m => decide (m.2.pubkey = passphrase.pubkey)).map Prod.fst).take
        (signatures.countP (passphrase.verifies env message)) := by
  rw [attribution_of_same (f := passphrase.verifies env message)
    (s := fun m => decide (m.2.pubkey = passphrase.pubkey)) (nodup_gateOf members passphrase)]
  · rw [gateOf, List.filter_cons_of_pos (by simp), List.map_cons]
  · intro signature hsignature m hm
    by_cases hkey : m.2.pubkey = passphrase.pubkey
    · have hget : members.get? m.1 = some m.2 := by
        rcases List.mem_cons.mp hm with rfl | hm
        · exact hpass
        · exact Dict.get?_eq_some_iff.mpr (List.mem_filter.mp hm).1
      rw [verifies_eq hlist hget hpass hkey]
      simp [hkey]
    · rcases List.mem_cons.mp hm with rfl | hdevice
      · exact absurd rfl hkey
      · have hkind : m.1 ∈ deviceKinds := by simpa using (List.mem_filter.mp hdevice).2
        rw [hother m.1 hkind m.2 (mem_gate_device hm hkind) hkey signature hsignature]
        simp [hkey]

/-- The gate needs two keys exactly when no device's key is the passphrase's, presented twice, with
no other device signing. -/
theorem needs_two_keys_iff (env : Primitives) (file : GenesisFile) (message : Bytes)
    (signatures : List Bytes) :
    NeedsTwoKeys env file message signatures ↔ ¬OneKeyTwice env file message signatures := by
  constructor
  · rintro htwo ⟨members, passphrase, hlist, hpass, ⟨kind, hkind, device, hget, hkey⟩, hcount, hother⟩
    have hflat : ∀ k m, members.get? k = some m →
        genesisAlgorithms m.algorithm = some m.pubkey.length := by
      cases hchain : file.chain with
      | some records =>
        rw [GenesisFile.listGenesisMembersFull, hchain] at hlist
        have heq := GenesisFile.replayStoredChain_distinct hlist hget hpass hkey
        exact absurd (heq ▸ hkind) passphraseKind_not_device
      | none =>
        rw [GenesisFile.listGenesisMembersFull, hchain] at hlist
        obtain rfl := Except.ok.inj hlist
        exact fun _ _ => GenesisFile.flatMembers_fits
    have hdevice := device_mem_gate hkind hget
    have hsupported : ∀ m ∈ gateOf members passphrase, m.2.algorithm ∈ supportedAlgorithms := by
      intro m hm
      rcases List.mem_cons.mp hm with rfl | hm
      · exact mem_supportedAlgorithms (hflat _ _ hpass)
      · exact mem_supportedAlgorithms
          (hflat m.1 m.2 (Dict.get?_eq_some_iff.mpr (List.mem_filter.mp hm).1))
    obtain ⟨r, hr⟩ : ∃ r, verifyTopPlane env message signatures file = .ok r :=
      ⟨_, verifyTopPlane_eq_ok.mpr ⟨members, passphrase, hlist, hpass,
        List.ne_nil_of_mem hdevice, hsupported, rfl⟩⟩
    have hmet : r.met = true := by
      obtain ⟨members', passphrase', hlist', hpass', -, -, rfl⟩ := verifyTopPlane_eq_ok.mp hr
      obtain rfl := Except.ok.inj (hlist.symm.trans hlist')
      obtain rfl := Option.some.inj (hpass.symm.trans hpass')
      have hshare : (kind, device) ∈ (members.items.filter (·.1 ∈ deviceKinds)).filter
          fun m => decide (m.2.pubkey = passphrase.pubkey) :=
        List.mem_filter.mpr ⟨hdevice, by simpa using hkey⟩
      obtain ⟨first, rest, hfirst⟩ := List.exists_cons_of_ne_nil (List.ne_nil_of_mem hshare)
      have hfirstDevice : first.1 ∈ deviceKinds := by
        have hmem : first ∈ (members.items.filter (·.1 ∈ deviceKinds)).filter
            fun m => decide (m.2.pubkey = passphrase.pubkey) := by
          rw [hfirst]
          exact List.mem_cons_self
        simpa using (List.mem_filter.mp (List.mem_filter.mp hmem).1).2
      simp only [attribution_oneKey hlist hpass hother, hfirst, List.map_cons]
      obtain ⟨n, hn⟩ := Nat.exists_eq_add_of_le' hcount
      rw [hn, List.take_succ_cons, List.take_succ_cons]
      simp [hfirstDevice, passphraseKind_not_device]
    obtain ⟨members', passphrase', device', hlist', hpass', ⟨kind', hkind', hget'⟩, hne, -,
      signature, hsignature, hverifies⟩ := htwo r hr hmet
    obtain rfl := Except.ok.inj (hlist.symm.trans hlist')
    obtain rfl := Option.some.inj (hpass.symm.trans hpass')
    rw [hother kind' hkind' device' hget' hne.symm signature hsignature] at hverifies
    cases hverifies
  · intro hnot r hr hmet
    obtain ⟨members, passphrase, hlist, hpass, -, -, rfl⟩ := verifyTopPlane_eq_ok.mp hr
    simp only [Bool.and_eq_true, decide_eq_true_eq] at hmet
    obtain ⟨hsatisfied, hdevices⟩ := hmet
    obtain ⟨position, hplaced⟩ := exists_placement (gateOf members passphrase) Prod.fst
      (fun signature m => m.2.verifies env message signature) signatures
    have hpassSigned : ∃ signature ∈ signatures, passphrase.verifies env message signature = true := by
      obtain ⟨m, hm, hkind, signature, hsignature, hfits⟩ := hplaced.fits _ hsatisfied
      rcases List.mem_cons.mp hm with rfl | hm
      · exact ⟨signature, List.mem_of_getElem? hsignature, hfits⟩
      · have hdevice : m.1 ∈ deviceKinds := by simpa using (List.mem_filter.mp hm).2
        exact absurd (hkind ▸ hdevice) passphraseKind_not_device
    by_cases hother : ∀ kind ∈ deviceKinds, ∀ device, members.get? kind = some device →
        device.pubkey ≠ passphrase.pubkey →
        ∀ signature ∈ signatures, device.verifies env message signature = false
    · -- The credited device then holds the passphrase's key, and a second entry verified.
      refine absurd ⟨members, passphrase, hlist, hpass, ?_, ?_, hother⟩ hnot
      all_goals
        obtain ⟨kind, hkind⟩ := List.exists_mem_of_ne_nil _ hdevices
        obtain ⟨hmem, hdevice⟩ := List.mem_filter.mp hkind
        have hdevice : kind ∈ deviceKinds := by simpa using hdevice
        rw [attribution_oneKey hlist hpass hother] at hmem
      · rcases List.mem_cons.mp (List.mem_of_mem_take hmem) with rfl | hmem
        · exact absurd hdevice passphraseKind_not_device
        · obtain ⟨m, hm, rfl⟩ := List.mem_map.mp hmem
          obtain ⟨hm, hkey⟩ := List.mem_filter.mp hm
          exact ⟨m.1, hdevice, m.2, Dict.get?_eq_some_iff.mpr (List.mem_filter.mp hm).1,
            by simpa using hkey⟩
      · by_contra hcount
        have hle : signatures.countP (passphrase.verifies env message) ≤ 1 := by omega
        have htake := (List.take_subset_take_left _ hle) hmem
        rw [List.take_succ_cons, List.take_zero, List.mem_singleton] at htake
        exact passphraseKind_not_device (htake ▸ hdevice)
    · push Not at hother
      obtain ⟨kind, hkind, device, hget, hne, signature, hsignature, hverifies⟩ := hother
      exact ⟨members, passphrase, device, hlist, hpass, ⟨kind, hkind, hget⟩, hne.symm, hpassSigned,
        signature, hsignature, by simpa using hverifies⟩

/-- A set kept by the chain always needs two keys. -/
theorem chain_needs_two_keys {records : List Record} (hchain : file.chain = some records) :
    ¬OneKeyTwice env file message signatures := by
  rintro ⟨members, passphrase, hlist, hpass, ⟨kind, hkind, device, hget, hkey⟩, -⟩
  rw [GenesisFile.listGenesisMembersFull, hchain] at hlist
  have heq := GenesisFile.replayStoredChain_distinct hlist hget hpass hkey
  exact passphraseKind_not_device (heq ▸ hkind)

/-- The passphrase and a phone, sealed under one key. -/
def sharedKeyFile : Option GenesisFile := do
  let file ← GenesisFile.empty.putGenesisMember samplePrimitives "passphrase" (sampleKey 1) "ed25519"
  file.putGenesisMember samplePrimitives "primary-phone" (sampleKey 1) "ed25519"

/-- A signature under the one key of a set, presented twice, meets its gate. -/
theorem one_key_meets_gate : ∃ file, sharedKeyFile = some file ∧
    ¬NeedsTwoKeys samplePrimitives file [1, 2]
      [checksum (sampleKey 1 ++ [1, 2]), checksum (sampleKey 1 ++ [1, 2])] := by
  have hmet : (sharedKeyFile.elim false fun file => (verifyTopPlane samplePrimitives [1, 2]
      [checksum (sampleKey 1 ++ [1, 2]), checksum (sampleKey 1 ++ [1, 2])] file).toOption.elim false
        (·.met)) = true := by decide +kernel
  have hkeys : (sharedKeyFile.elim false fun file =>
      (file.listGenesisMembersFull samplePrimitives).toOption.elim false fun members =>
        members.values.all fun m => decide (m.pubkey = sampleKey 1)) = true := by decide +kernel
  cases hfile : sharedKeyFile with
  | none =>
    rw [hfile] at hmet
    cases hmet
  | some file =>
    refine ⟨file, rfl, fun h => ?_⟩
    rw [hfile] at hmet hkeys
    simp only [Option.elim_some] at hmet hkeys
    cases hr : verifyTopPlane samplePrimitives [1, 2]
        [checksum (sampleKey 1 ++ [1, 2]), checksum (sampleKey 1 ++ [1, 2])] file with
    | error e =>
      rw [hr] at hmet
      cases hmet
    | ok r =>
      rw [hr] at hmet
      obtain ⟨members, passphrase, device, hlist, hpass, ⟨kind, -, hdevice⟩, hne, -⟩ := h r hr hmet
      rw [hlist] at hkeys
      have hall : ∀ m ∈ members.values, m.pubkey = sampleKey 1 := fun m hm =>
        of_decide_eq_true (List.all_eq_true.mp hkeys m hm)
      exact hne ((hall _ (Dict.mem_values_iff.mpr ⟨_, hpass⟩)).trans
        (hall _ (Dict.mem_values_iff.mpr ⟨_, hdevice⟩)).symm)

end Genesis
end Recto
