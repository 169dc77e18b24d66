import Recto.Data.HashChain
import Recto.Genesis.Replay

/-!
# What holds of every chain read so far

`Change` lists the ways an accepted entry changes the loop's variables, with
the facts its checks established. The invariant of the replay loop is proved
from it, one case per operation: the loop's variables stand for facts about the
entries read so far, and the member map holds every key once.
-/

namespace Recto
namespace Genesis

/-! ## What one entry can change -/

variable {env : Primitives}

/-- No other kind holds the entry's key. -/
def Replay.Fresh (r : Replay) (entry : ChainEntry) : Prop :=
  ∀ kind member, r.members.get? kind = some member → kind ≠ entry.kind →
    member.pubkey ≠ entry.pubkey

/-- The entry seated under its kind. -/
def Replay.seated (r : Replay) (entry : ChainEntry) : Replay :=
  { r with
    members := r.members.set entry.kind entry
    deviceEver := r.deviceEver || decide (entry.kind ∈ deviceKinds) }

/-- The intent and the slot of a reset's meta, as keys. -/
def ChainEntry.seatPair? (entry : ChainEntry) : Option (Json.Key × Json.Key) :=
  (do
    let record ← Json.loads
      (if entry.metaText.getD "" = "" then "{}" else entry.metaText.getD "")
    let slot ← record.get "slot"
    let slotKey ← slot.hashKey
    let intentId ← record.get "intent_id"
    let intentKey ← intentId.hashKey
    pure (intentKey, slotKey) : Except PyError (Json.Key × Json.Key)).toOption

/-- A seat taken, its intent recorded. -/
def Replay.recorded (r : Replay) (pair : Json.Key × Json.Key) (named : List Json) : Replay :=
  { r with seats := r.seats ++ [pair], resets := r.resets ++ named }

/-- The ways an accepted entry changes the loop's variables. -/
inductive Replay.Change (env : Primitives) (r : Replay) (entry : ChainEntry) : Replay → Prop
  | add (hop : entry.op? = some .add) (hfresh : r.Fresh entry) :
      Change env r entry (r.seated entry)
  | reset (pair : Json.Key × Json.Key) (named : List Json) (hop : entry.op? = some .reset)
      (hkind : entry.kind ∈ deviceKinds) (hpair : entry.seatPair? = some pair)
      (hseat : pair ∉ r.seats) (hfresh : r.Fresh entry) :
      Change env r entry ((r.recorded pair named).seated entry)
  | remove (removed : ChainEntry) (hop : entry.op? = some .remove)
      (hmember : r.members.get? entry.kind = some removed)
      (hkey : entry.pubkey = removed.pubkey ∧ entry.algorithm = removed.algorithm)
      (hkind : entry.kind ≠ passphraseKind) (hlast : (r.members.erase entry.kind).items ≠ [])
      (hdevice : r.deviceEver = true → passphraseKind ∈ r.members.erase entry.kind →
        ∃ kind ∈ (r.members.erase entry.kind).keys, kind ∈ deviceKinds) :
      Change env r entry { r with members := r.members.erase entry.kind }
  | sealId (value : String) (operator : Bytes) (hop : entry.op? = some .sealId)
      (hvalue : decodeId entry = .ok value) (hoperator : sealOperatorKey env entry = .ok operator) :
      Change env r entry
        { r with sealedId := some value, sealedOperatorPubkey := some operator }
  | rotate (hop : entry.op? = some .rotateOperator) (hkind : entry.kind = "operator")
      (hlength : entry.pubkey.length = 64) :
      Change env r entry { r with operatorPubkey := some entry.pubkey }
  | unknown (hop : entry.op? = none) : Change env r entry r

namespace Replay

theorem seat_eq_ok {r r' : Replay} {entry : ChainEntry} (h : r.seat entry = .ok r') :
    r.Fresh entry ∧ r' = r.seated entry := by
  unfold seat at h
  split at h
  · cases h
  · rename_i hnone
    simp only [Except.pure_eq_ok] at h
    refine ⟨fun kind member hmember hne hkey => ?_, h.symm⟩
    have := List.find?_eq_none.mp hnone (kind, member) (Dict.get?_eq_some_iff.mp hmember)
    simp [hne, hkey] at this

theorem recordReset_eq_ok {r r' : Replay} {entry : ChainEntry} (h : r.recordReset entry = .ok r') :
    entry.kind ∈ deviceKinds ∧ ∃ pair named, entry.seatPair? = some pair ∧ pair ∉ r.seats ∧
      r' = r.recorded pair named := by
  simp only [recordReset, Except.bind_eq_ok, orRaise_eq_ok, ensure_eq_ok, Except.pure_eq_ok] at h
  obtain ⟨_, hkind, record, hrecord, slot, hslot, slotKey, hslotKey, _, -, intentId, hintent,
    intentKey, hintentKey, _, hseat, named, -, rfl⟩ := h
  refine ⟨hkind, (intentKey, slotKey),
    if r.resets.any (fun id => id.hashKey = .ok intentKey) then [] else [named], ?_, hseat, ?_⟩
  · simp only [ChainEntry.seatPair?, hrecord, hslot, hslotKey, hintent, hintentKey, bind,
      Except.bind]
    rfl
  · unfold recorded
    split_ifs <;> simp

theorem remove_eq_ok {r r' : Replay} {entry : ChainEntry} (hop : entry.op? = some .remove)
    (h : r.remove entry = .ok r') : Change env r entry r' := by
  unfold remove at h
  split at h
  · cases h
  · rename_i removed hmember
    simp only [Except.bind_eq_ok, ensure_eq_ok, Except.pure_eq_ok] at h
    obtain ⟨_, hkey, _, hkind, _, hlast, _, hdevice, rfl⟩ := h
    refine .remove removed hop hmember hkey hkind hlast fun hever hpass => ?_
    by_contra hnone
    exact hdevice ⟨hever, hpass, hnone⟩

/-- Everything an accepted entry does is one of the listed changes. -/
theorem apply_change {r r' : Replay} {entry : ChainEntry} (h : r.apply env entry = .ok r') :
    Change env r entry r' := by
  unfold apply at h
  split at h
  · rename_i hop
    obtain ⟨hfresh, rfl⟩ := seat_eq_ok h
    exact .add hop hfresh
  · rename_i hop
    rw [Except.bind_eq_ok] at h
    obtain ⟨r₁, hrecord, hseat⟩ := h
    obtain ⟨hkind, pair, named, hpair, hnew, rfl⟩ := recordReset_eq_ok hrecord
    obtain ⟨hfresh, rfl⟩ := seat_eq_ok hseat
    exact .reset pair named hop hkind hpair hnew hfresh
  · rename_i hop
    exact remove_eq_ok hop h
  · rename_i hop
    simp only [Except.bind_eq_ok, Except.pure_eq_ok] at h
    obtain ⟨value, hvalue, operator, hoperator, rfl⟩ := h
    exact .sealId value operator hop hvalue hoperator
  · rename_i hop
    simp only [Except.bind_eq_ok, ensure_eq_ok, Except.pure_eq_ok] at h
    obtain ⟨_, ⟨hkind, hlength⟩, rfl⟩ := h
    exact .rotate hop hkind hlength
  · rename_i hop
    simp only [Except.pure_eq_ok] at h
    exact h ▸ .unknown hop

/-- One accepted turn of the loop: it follows, it is authorised, and it changes the variables. -/
theorem step_eq_ok {r r' : Replay} {entry : ChainEntry} (h : r.step env entry = .ok r') :
    (entry.seq = r.count ∧ entry.prev = r.previous.map (entryHash env)) ∧
      r.authorise env entry = .ok () ∧
      ∃ r₁, Change env r entry r₁ ∧
        r' = { r₁ with previous := some entry, count := r₁.count + 1 } := by
  simp only [step, follow, Except.bind_eq_ok, ensure_eq_ok, Except.pure_eq_ok] at h
  obtain ⟨_, ⟨_, hseq, hprev⟩, _, hauth, r₁, happly, rfl⟩ := h
  exact ⟨⟨hseq, hprev⟩, hauth, r₁, apply_change happly, rfl⟩

theorem Change.count_eq {r r' : Replay} {entry : ChainEntry} (h : Change env r entry r') :
    r'.count = r.count := by
  cases h <;> rfl

end Replay

theorem replayState_eq_ok {entries : List ChainEntry} {state : ChainState} :
    replayState env entries = .ok state ↔
      ∃ r, replayLoop env entries = .ok r ∧ state = r.finish env := by
  simp only [replayState, Except.bind_eq_ok, Except.pure_eq_ok, eq_comm (a := state)]

/-- An accepted chain is accepted up to any of its entries, and that entry is one accepted turn. -/
theorem replayLoop_take_step {entries : List ChainEntry} {r : Replay}
    (h : replayLoop env entries = .ok r) {i : ℕ} {entry : ChainEntry}
    (hi : entries[i]? = some entry) :
    ∃ m m', replayLoop env (entries.take i) = .ok m ∧ m.step env entry = .ok m' ∧
      replayLoop env (entries.take (i + 1)) = .ok m' :=
  foldlM_take_step h hi

theorem replayLoop_take {entries : List ChainEntry} {r : Replay}
    (h : replayLoop env entries = .ok r) (i : ℕ) : ∃ m, replayLoop env (entries.take i) = .ok m := by
  obtain ⟨m, hm, -⟩ := foldlM_take h i
  exact ⟨m, hm⟩

/-! ## The invariant -/

/-- The entry puts its key into the member map. -/
def ChainEntry.Seats (entry : ChainEntry) : Prop := entry.op? = some .add ∨ entry.op? = some .reset

instance (entry : ChainEntry) : Decidable entry.Seats := inferInstanceAs (Decidable (_ ∨ _))

/-- One of the entries seated an owner device. -/
def DeviceSeated (entries : List ChainEntry) : Prop :=
  ∃ entry ∈ entries, entry.Seats ∧ entry.kind ∈ deviceKinds

/-- One of the members is an owner device. -/
def HoldsDevice (members : Dict String ChainEntry) : Prop :=
  ∃ kind ∈ members, kind ∈ deviceKinds

instance (members : Dict String ChainEntry) : Decidable (HoldsDevice members) :=
  decidable_of_iff (∃ kind ∈ members.keys, kind ∈ deviceKinds) Iff.rfl

/-- No two kinds hold the same public key. -/
def DistinctKeys (members : Dict String ChainEntry) : Prop :=
  ∀ kind kind' member member', members.get? kind = some member →
    members.get? kind' = some member' → member.pubkey = member'.pubkey → kind = kind'

/-- The invariant of the loop after `entries`. -/
structure Replay.Inv (entries : List ChainEntry) (r : Replay) : Prop where
  count : r.count = entries.length
  previous : r.previous = entries.getLast?
  nonempty : entries ≠ [] → r.members.items ≠ []
  distinct : DistinctKeys r.members
  member : ∀ kind member, r.members.get? kind = some member →
    member ∈ entries ∧ member.Seats ∧ member.kind = kind
  device : r.deviceEver = true ↔ DeviceSeated entries
  sealed : ∀ value, r.sealedId = some value →
    ∃ entry ∈ entries, entry.op? = some .sealId ∧ decodeId entry = .ok value
  unsealed : r.sealedId = none → ∀ entry ∈ entries, entry.op? ≠ some .sealId

theorem deviceSeated_concat {entries : List ChainEntry} {entry : ChainEntry} :
    DeviceSeated (entries ++ [entry]) ↔
      DeviceSeated entries ∨ entry.Seats ∧ entry.kind ∈ deviceKinds := by
  simp only [DeviceSeated, List.mem_append, List.mem_singleton]
  constructor
  · rintro ⟨e, he | rfl, h⟩
    · exact Or.inl ⟨e, he, h⟩
    · exact Or.inr h
  · rintro (⟨e, he, h⟩ | h)
    · exact ⟨e, Or.inl he, h⟩
    · exact ⟨entry, Or.inr rfl, h⟩

theorem DistinctKeys.set {members : Dict String ChainEntry} (h : DistinctKeys members)
    {entry : ChainEntry} (hfresh : ∀ kind member, members.get? kind = some member →
      kind ≠ entry.kind → member.pubkey ≠ entry.pubkey) :
    DistinctKeys (members.set entry.kind entry) := by
  intro k l m n hk hl hkey
  rw [Dict.get?_set] at hk hl
  split_ifs at hk hl with hke hle hle
  · exact hke.trans hle.symm
  · obtain rfl := Option.some.inj hk
    exact absurd hkey.symm (hfresh l n hl hle)
  · obtain rfl := Option.some.inj hl
    exact absurd hkey (hfresh k m hk hke)
  · exact h k l m n hk hl hkey

theorem DistinctKeys.erase {members : Dict String ChainEntry} (h : DistinctKeys members)
    (kind : String) : DistinctKeys (members.erase kind) := by
  intro k l m n hk hl
  rw [Dict.get?_erase] at hk hl
  split_ifs at hk hl
  exact h k l m n hk hl

namespace Replay

theorem inv_start : Inv [] start where
  count := rfl
  previous := rfl
  nonempty h := absurd rfl h
  distinct k l m n hk := by simp [start] at hk
  member kind member h := by simp [start] at h
  device := by simp [start, DeviceSeated]
  sealed value h := by simp [start] at h
  unsealed _ entry h := by simp at h

/-- The genesis entry is an `add`, so only it follows an empty chain. -/
theorem authorise_genesis {r : Replay} {entry : ChainEntry} (hseq : entry.seq = 0)
    (h : r.authorise env entry = .ok ()) : entry.op? = some .add ∧ entry.signatures = [] := by
  simp only [authorise, if_pos hseq, Except.bind_eq_ok, ensure_eq_ok] at h
  obtain ⟨_, hadd, hsigs⟩ := h
  exact ⟨hadd, hsigs⟩

theorem authorise_later {r : Replay} {entry : ChainEntry} (hseq : entry.seq ≠ 0)
    (h : r.authorise env entry = .ok ()) :
    ∃ entrySeal, r.entrySeal entry = .ok entrySeal ∧
      (entry.op? = some .reset →
        requireReset env r.members entry (entry.message env entrySeal) = .ok ()) ∧
      (entry.op? ≠ some .reset →
        requireThreshold env r.members entry (entry.message env entrySeal) r.deviceEver =
          .ok ()) := by
  simp only [authorise, if_neg hseq, Except.bind_eq_ok] at h
  obtain ⟨entrySeal, hseal, h⟩ := h
  refine ⟨entrySeal, hseal, fun hop => ?_, fun hop => ?_⟩
  · rwa [if_pos hop] at h
  · rwa [if_neg hop] at h

theorem entrySeal_sealId {r : Replay} {entry : ChainEntry} {entrySeal : Option String}
    (hop : entry.op? = some .sealId) (h : r.entrySeal entry = .ok entrySeal) :
    r.sealedId = none ∧ HoldsDevice r.members ∧
      ∃ value, decodeId entry = .ok value ∧ entrySeal = some value := by
  simp only [Replay.entrySeal, hop, Except.bind_eq_ok, ensure_eq_ok, Except.pure_eq_ok] at h
  obtain ⟨_, hnone, _, hdevice, value, hvalue, rfl⟩ := h
  exact ⟨hnone, hdevice, value, hvalue, rfl⟩

theorem entrySeal_reset {r : Replay} {entry : ChainEntry} {entrySeal : Option String}
    (hop : entry.op? = some .reset) (h : r.entrySeal entry = .ok entrySeal) :
    r.sealedId ≠ none ∧ entrySeal = r.sealedId := by
  simp only [Replay.entrySeal, hop, Except.bind_eq_ok, ensure_eq_ok, Except.pure_eq_ok] at h
  obtain ⟨_, hsealed, rfl⟩ := h
  exact ⟨hsealed, rfl⟩

theorem entrySeal_other {r : Replay} {entry : ChainEntry} {entrySeal : Option String}
    (hseal : entry.op? ≠ some .sealId) (hreset : entry.op? ≠ some .reset)
    (h : r.entrySeal entry = .ok entrySeal) : entrySeal = r.sealedId := by
  unfold Replay.entrySeal at h
  split at h
  · contradiction
  · contradiction
  · exact (Except.pure_eq_ok.mp h).symm

/-- A seal-id entry is accepted on an unsealed chain only. -/
theorem authorise_sealId {r : Replay} {entry : ChainEntry} (hop : entry.op? = some .sealId)
    (h : r.authorise env entry = .ok ()) :
    entry.seq ≠ 0 ∧ r.sealedId = none ∧ HoldsDevice r.members := by
  by_cases hseq : entry.seq = 0
  · have hadd := (authorise_genesis hseq h).1
    simp [hop] at hadd
  · obtain ⟨entrySeal, hseal, -⟩ := authorise_later hseq h
    obtain ⟨hnone, hdevice, -⟩ := entrySeal_sealId hop hseal
    exact ⟨hseq, hnone, hdevice⟩

section Preserved

variable {entries : List ChainEntry} {r r' : Replay} {entry : ChainEntry}

theorem Inv.mono_member (h : Inv entries r) {kind : String} {member : ChainEntry}
    (hm : r.members.get? kind = some member) :
    member ∈ entries ++ [entry] ∧ member.Seats ∧ member.kind = kind := by
  obtain ⟨hmem, hseats, hkind⟩ := h.member kind member hm
  exact ⟨List.mem_append_left _ hmem, hseats, hkind⟩

/-- Members after a change: kept from before, or the entry itself. -/
theorem Change.member (h : Change env r entry r') (hinv : Inv entries r) (kind : String)
    (member : ChainEntry) (hm : r'.members.get? kind = some member) :
    member ∈ entries ++ [entry] ∧ member.Seats ∧ member.kind = kind := by
  have hseated : entry.Seats → (r.members.set entry.kind entry).get? kind = some member →
      member ∈ entries ++ [entry] ∧ member.Seats ∧ member.kind = kind := by
    intro hs hget
    rw [Dict.get?_set] at hget
    split_ifs at hget with hk
    · obtain rfl := Option.some.inj hget
      exact ⟨by simp, hs, hk.symm⟩
    · exact hinv.mono_member hget
  cases h with
  | add hop _ => exact hseated (Or.inl hop) hm
  | reset _ _ hop => exact hseated (Or.inr hop) hm
  | remove _ hop =>
    rw [Dict.get?_erase] at hm
    split_ifs at hm
    exact hinv.mono_member hm
  | sealId => exact hinv.mono_member hm
  | rotate => exact hinv.mono_member hm
  | unknown => exact hinv.mono_member hm

theorem Change.distinct (h : Change env r entry r') (hinv : DistinctKeys r.members) :
    DistinctKeys r'.members := by
  cases h with
  | add _ hfresh => exact hinv.set hfresh
  | reset _ _ _ _ _ _ hfresh => exact hinv.set hfresh
  | remove => exact hinv.erase _
  | sealId => exact hinv
  | rotate => exact hinv
  | unknown => exact hinv

theorem Change.nonempty (h : Change env r entry r')
    (hr : r.members.items ≠ [] ∨ entry.op? = some .add) : r'.members.items ≠ [] := by
  have hset : (r.members.set entry.kind entry).items ≠ [] :=
    Dict.items_ne_nil_iff.mpr ⟨entry.kind, by simp⟩
  cases h with
  | add => exact hset
  | reset => exact hset
  | remove _ _ _ _ _ hlast => exact hlast
  | sealId _ _ hop => exact hr.resolve_right (by simp [hop])
  | rotate hop => exact hr.resolve_right (by simp [hop])
  | unknown hop => exact hr.resolve_right (by simp [hop])

theorem Change.device (h : Change env r entry r') :
    r'.deviceEver = true ↔ r.deviceEver = true ∨ entry.Seats ∧ entry.kind ∈ deviceKinds := by
  cases h with
  | add hop => simp [seated, ChainEntry.Seats, hop]
  | reset _ _ hop => simp [seated, recorded, ChainEntry.Seats, hop]
  | remove _ hop => simp [ChainEntry.Seats, hop]
  | sealId _ _ hop => simp [ChainEntry.Seats, hop]
  | rotate hop => simp [ChainEntry.Seats, hop]
  | unknown hop => simp [ChainEntry.Seats, hop]

/-- The seal after a change: its own when the entry seals, the one before it otherwise. -/
theorem Change.sealed_eq (h : Change env r entry r') :
    (entry.op? = some .sealId ∧ ∃ value, decodeId entry = .ok value ∧ r'.sealedId = some value) ∨
      entry.op? ≠ some .sealId ∧ r'.sealedId = r.sealedId := by
  cases h with
  | add hop => exact Or.inr ⟨by simp [hop], rfl⟩
  | reset _ _ hop => exact Or.inr ⟨by simp [hop], rfl⟩
  | remove _ hop => exact Or.inr ⟨by simp [hop], rfl⟩
  | sealId value _ hop hvalue => exact Or.inl ⟨hop, value, hvalue, rfl⟩
  | rotate hop => exact Or.inr ⟨by simp [hop], rfl⟩
  | unknown hop => exact Or.inr ⟨by simp [hop], rfl⟩

/-- An accepted turn keeps the invariant. -/
theorem Inv.step (hinv : Inv entries r) (h : r.step env entry = .ok r') :
    Inv (entries ++ [entry]) r' := by
  obtain ⟨⟨hseq, -⟩, hauth, r₁, hchange, rfl⟩ := step_eq_ok h
  refine ⟨?count, ?previous, ?nonempty, ?distinct, ?member, ?device, ?sealed, ?unsealed⟩
  case count => simp [hchange.count_eq, hinv.count]
  case previous => simp
  case nonempty =>
    intro _
    refine hchange.nonempty ?_
    by_cases hnil : entries = []
    · have hzero : entry.seq = 0 := by simpa [hinv.count, hnil] using hseq
      exact Or.inr (authorise_genesis hzero hauth).1
    · exact Or.inl (hinv.nonempty hnil)
  case distinct => exact hchange.distinct hinv.distinct
  case member => exact hchange.member hinv
  case device => rw [hchange.device, hinv.device, deviceSeated_concat]
  case sealed =>
    intro value hvalue
    rcases hchange.sealed_eq with ⟨hop, v, hdecode, hsealed⟩ | ⟨-, hsame⟩
    · obtain rfl : v = value := Option.some.inj (hsealed.symm.trans hvalue)
      exact ⟨entry, by simp, hop, hdecode⟩
    · obtain ⟨e, he, h⟩ := hinv.sealed value (hsame.symm.trans hvalue)
      exact ⟨e, List.mem_append_left _ he, h⟩
  case unsealed =>
    intro hnone e he
    rcases hchange.sealed_eq with ⟨-, v, -, hsealed⟩ | ⟨hop, hsame⟩
    · exact absurd (hsealed.symm.trans hnone) (by simp)
    · rcases List.mem_append.mp he with he | he
      · exact hinv.unsealed (hsame.symm.trans hnone) e he
      · obtain rfl := List.mem_singleton.mp he
        exact hop

end Preserved

/-- The invariant holds after every accepted chain. -/
theorem inv_of_replayLoop {entries : List ChainEntry} {r : Replay}
    (h : replayLoop env entries = .ok r) : Inv entries r :=
  foldlM_invariant inv_start (fun _ _ _ _ hinv hstep => hinv.step hstep) h

end Replay

/-! ## Positions and links -/

section Positions

variable {entries : List ChainEntry} {r : Replay}

theorem getLast?_take_succ {α : Type} {xs : List α} {i : ℕ} {x : α} (h : xs[i]? = some x) :
    (xs.take (i + 1)).getLast? = some x := by
  rw [List.take_add_one, h]
  simp

/-- Every entry of an accepted chain stands at its own sequence number. -/
theorem seq_of_replayLoop (h : replayLoop env entries = .ok r) {i : ℕ} {entry : ChainEntry}
    (hi : entries[i]? = some entry) : entry.seq = i := by
  obtain ⟨m, _, hm, hstep, -⟩ := replayLoop_take_step h hi
  obtain ⟨⟨hseq, -⟩, -⟩ := Replay.step_eq_ok hstep
  have hlt := (List.getElem?_eq_some_iff.mp hi).1
  rw [hseq, (Replay.inv_of_replayLoop hm).count, List.length_take, min_eq_left hlt.le]

/-- The entries of an accepted chain are linked by their hashes. -/
theorem linked_of_replayLoop (h : replayLoop env entries = .ok r) :
    Linked (entryHash env) ChainEntry.prev entries where
  first entry hi := by
    obtain ⟨m, _, hm, hstep, -⟩ := replayLoop_take_step h hi
    obtain ⟨⟨-, hprev⟩, -⟩ := Replay.step_eq_ok hstep
    rw [hprev, (Replay.inv_of_replayLoop hm).previous]
    rfl
  next i a b ha hb := by
    obtain ⟨m, _, hm, hstep, -⟩ := replayLoop_take_step h hb
    obtain ⟨⟨-, hprev⟩, -⟩ := Replay.step_eq_ok hstep
    rw [hprev, (Replay.inv_of_replayLoop hm).previous, getLast?_take_succ ha]
    rfl

end Positions

theorem decodeId_ne_empty {entry : ChainEntry} {value : String}
    (h : decodeId entry = .ok value) : value ≠ "" := by
  unfold decodeId at h
  split at h
  · cases h
  · simp only [Except.bind_eq_ok, ensure_eq_ok, Except.pure_eq_ok] at h
    obtain ⟨_, ⟨-, hne, -⟩, rfl⟩ := h
    exact hne

end Genesis
end Recto
