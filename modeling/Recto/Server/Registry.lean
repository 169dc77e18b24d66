import Recto.Server.Run

/-!
# What the store's operations leave alone

The queue, the sessions, the one-time codes and the draws are beside the registry:
`bare` forgets them, and most operations leave the bare store as it was. The
others change one thing.

Every phone stands under its own id, and no two phones share a key. A phone that
registers keeps both, lands under the id its key already has, and leaves every
other phone where it was.
-/

namespace Recto
namespace Server

open Genesis Faulty

variable {env : Host} {F : Fault → Prop}

/-- The store without its queue, sessions, one-time codes and draws. -/
def Store.bare (s : Store) : Store :=
  { s with
    sessionsFile := Dict.empty
    sessions := Dict.empty
    pending := Dict.empty
    challenges := Dict.empty
    ownerChallenges := Dict.empty
    memberChallenges := Dict.empty
    pairingCodes := Dict.empty
    memberPairingCodes := Dict.empty
    draws := 0 }

/-- The program leaves the bare store alone. -/
abbrev Beside {α : Type} (F : Fault → Prop) (m : Served α) : Prop := Leaves F Store.bare m

theorem savePending_beside : Beside F savePending := .write _ fun _ => rfl

theorem saveSessions_beside : Beside F saveSessions := .write _ fun _ => rfl

theorem saveAfterPhones_beside : Beside F saveAfterPhones :=
  .bind (.handle saveSessions_beside fun _ => .pure _) fun _ =>
    .handle savePending_beside fun _ => .pure _

theorem addPending_beside (card : PendingRequest) : Beside F (addPending card) :=
  .bind (.modify fun _ => rfl) fun _ => savePending_beside

theorem takePending_beside (requestId : String) : Beside F (takePending requestId) :=
  .bind .get fun _ => .ite (.bind (.modify fun _ => rfl) fun _ => savePending_beside) (.pure _)

theorem takeCards_beside (cards : Dict String String) : Beside F (takeCards cards) :=
  .forEach takePending_beside _

theorem drawToken_beside : Beside F (drawToken env) :=
  .bind .get fun _ => .bind (.modify fun _ => rfl) fun _ => .pure _

theorem drawCode_beside : Beside F (drawCode env) :=
  .bind .get fun _ => .bind (.modify fun _ => rfl) fun _ => .pure _

theorem uniqueCode_beside : ∀ fuel, Beside F (uniqueCode env fuel)
  | 0 => .raise _
  | fuel + 1 => .bind drawCode_beside fun _ => .bind .get fun _ =>
      .ite (uniqueCode_beside fuel) (.pure _)

theorem consumeChallenge_beside (challenge : String) : Beside F (consumeChallenge challenge) :=
  .bind .get fun _ => .bind (.modify fun _ => rfl) fun _ => .pure _

theorem consumeOwnerChallenge_beside (challenge : String) :
    Beside F (consumeOwnerChallenge challenge) :=
  .bind .get fun _ => .bind (.modify fun _ => rfl) fun _ => .pure _

theorem consumeMemberChallenge_beside (challenge : String) :
    Beside F (consumeMemberChallenge challenge) :=
  .bind .get fun _ => .bind (.modify fun _ => rfl) fun _ => .pure _

theorem consumePairingCode_beside (code : String) : Beside F (consumePairingCode code) :=
  .bind .get fun _ => .bind (.modify fun _ => rfl) fun _ => .pure _

theorem consumeMemberPairingCode_beside (code : String) :
    Beside F (consumeMemberPairingCode code) :=
  .bind .get fun _ => .bind (.modify fun _ => rfl) fun _ => .pure _

theorem spendOwnerChallenge_beside (challenge : String) :
    Beside F (spendOwnerChallenge challenge) :=
  .bind (consumeOwnerChallenge_beside _) fun _ => .ofExcept _

theorem issueChallenge_beside : Beside F (issueChallenge env) :=
  .bind drawToken_beside fun _ => .bind (.modify fun _ => rfl) fun _ => .pure _

theorem issueOwnerChallenge_beside : Beside F (issueOwnerChallenge env) :=
  .bind drawToken_beside fun _ => .bind (.modify fun _ => rfl) fun _ => .pure _

theorem issueMemberChallenge_beside (binding : Option (String × String)) :
    Beside F (issueMemberChallenge env binding) :=
  .bind drawToken_beside fun _ => .bind (.modify fun _ => rfl) fun _ => .pure _

theorem issuePairingCode_beside (ttl : ℤ) : Beside F (issuePairingCode env ttl) :=
  .bind (uniqueCode_beside _) fun _ => .bind (.modify fun _ => rfl) fun _ => .pure _

theorem issueMemberPairingCode_beside (ttl : ℤ) (binding : Option (String × String)) :
    Beside F (issueMemberPairingCode env ttl binding) :=
  .bind (uniqueCode_beside _) fun _ => .bind (.modify fun _ => rfl) fun _ => .pure _

theorem cardDevices_beside (recorded : Dict String String) (recordId : String) (message : Bytes)
    (ttl : ℤ) : ∀ phones cards, Beside F (cardDevices env recorded recordId message ttl phones cards)
  | [], _ => .pure _
  | _ :: phones, _ => .bind drawToken_beside fun _ => .bind .get fun _ =>
      .bind (addPending_beside _) fun _ =>
        cardDevices_beside recorded recordId message ttl phones _

theorem respondOther_beside (requestId : String) (answer : Answer) :
    Beside F (respondOther requestId answer) :=
  .bind .get fun _ => .ite (.raise _)
    (.ite (.bind (takePending_beside _) fun _ => .pure _) (.raise _))

/-! ## The phone registry -/

variable {env : Host} {F : Fault → Prop}

/-- The registry's own invariant. -/
structure Registry (phones : Dict String PhoneRegistration) : Prop where
  id : ∀ {ref p}, phones.get? ref = some p → p.phoneId = ref
  key : ∀ {ref ref' p p'}, phones.get? ref = some p → phones.get? ref' = some p' →
    p.publicKey = p'.publicKey → ref = ref'

namespace Registry

variable {phones : Dict String PhoneRegistration}

theorem empty : Registry Dict.empty where
  id h := by cases h
  key h := by cases h

theorem get?_of_mem (h : Registry phones) {p : PhoneRegistration} (hp : p ∈ phones.values) :
    phones.get? p.phoneId = some p := by
  obtain ⟨ref, href⟩ := Dict.mem_values_iff.mp hp
  rwa [h.id href]

theorem mem_values (h : Registry phones) {p : PhoneRegistration} :
    p ∈ phones.values ↔ phones.get? p.phoneId = some p :=
  ⟨h.get?_of_mem, fun hp => Dict.mem_values_iff.mpr ⟨_, hp⟩⟩

theorem erase (h : Registry phones) (ref : String) : Registry (phones.erase ref) where
  id {ref' p} hp := by
    rw [Dict.get?_erase] at hp
    split at hp
    · cases hp
    · exact h.id hp
  key {ref₁ ref₂ p p'} hp hp' hkey := by
    rw [Dict.get?_erase] at hp hp'
    split at hp
    · cases hp
    · split at hp'
      · cases hp'
      · exact h.key hp hp' hkey

end Registry

/-- The registration as the registry keeps it. -/
def storedAs (phones : Dict String PhoneRegistration) (reg : PhoneRegistration) :
    PhoneRegistration :=
  mergeOntoExisting (phones.values.find? fun p => p.publicKey = reg.publicKey) reg

section storedAs

variable (phones : Dict String PhoneRegistration) (reg : PhoneRegistration)

@[simp] theorem storedAs_publicKey : (storedAs phones reg).publicKey = reg.publicKey := by
  unfold storedAs mergeOntoExisting
  split <;> rfl

@[simp] theorem storedAs_slot : (storedAs phones reg).slot = reg.slot := by
  unfold storedAs mergeOntoExisting
  split <;> rfl

/-- A key the registry holds keeps its id; another lands under its own. -/
theorem storedAs_phoneId :
    (storedAs phones reg).phoneId =
      ((phones.values.find? fun p => p.publicKey = reg.publicKey).map
        PhoneRegistration.phoneId).getD reg.phoneId := by
  unfold storedAs mergeOntoExisting
  cases phones.values.find? fun p => p.publicKey = reg.publicKey <;> rfl

end storedAs

/-- The registry once the phone registered. -/
def withPhone (phones : Dict String PhoneRegistration) (reg : PhoneRegistration) :
    Dict String PhoneRegistration :=
  phones.set (storedAs phones reg).phoneId (storedAs phones reg)

namespace Registry

variable {phones : Dict String PhoneRegistration}

/-- The only phone with the key is the one the registration lands on. -/
theorem ref_of_key (h : Registry phones) {reg p : PhoneRegistration} {ref : String}
    (hp : phones.get? ref = some p) (hkey : p.publicKey = reg.publicKey) :
    ref = (storedAs phones reg).phoneId := by
  have hmem : p ∈ phones.values := Dict.mem_values_iff.mpr ⟨ref, hp⟩
  cases hfind : phones.values.find? fun q => q.publicKey = reg.publicKey with
  | none =>
    have := List.find?_eq_none.mp hfind p hmem
    simp [hkey] at this
  | some e =>
    have he : e ∈ phones.values := List.mem_of_find?_eq_some hfind
    have hekey : e.publicKey = reg.publicKey := by simpa using List.find?_some hfind
    rw [storedAs_phoneId, hfind]
    exact h.key hp (h.get?_of_mem he) (hkey.trans hekey.symm)

theorem withPhone (h : Registry phones) (reg : PhoneRegistration) :
    Registry (withPhone phones reg) where
  id {ref p} hp := by
    rw [Server.withPhone, Dict.get?_set] at hp
    split at hp
    · rename_i href
      rw [href, ← Option.some.inj hp]
    · exact h.id hp
  key {ref₁ ref₂ p p'} hp hp' hkey := by
    rw [Server.withPhone, Dict.get?_set] at hp hp'
    split at hp <;> split at hp'
    · simp_all
    · rename_i href _
      obtain rfl := Option.some.inj hp
      rw [storedAs_publicKey] at hkey
      rw [href, h.ref_of_key hp' hkey.symm]
    · rename_i _ href
      obtain rfl := Option.some.inj hp'
      rw [storedAs_publicKey] at hkey
      rw [href, h.ref_of_key hp hkey]
    · exact h.key hp hp' hkey

end Registry

/-! ## Owners -/

/-- The slot a registered phone holds. -/
def slotOf (phones : Dict String PhoneRegistration) (ref : String) : Option Slot :=
  (phones.get? ref).map PhoneRegistration.slot

/-- Some phone other than these holds an owner slot. -/
def HasOwner (phones : Dict String PhoneRegistration) : Prop :=
  ∃ ref slot, slotOf phones ref = some (.owner slot)

/-- The registration lands in a slot its phone holds already, or on no phone. -/
def KeepsSlot (phones : Dict String PhoneRegistration) (reg : PhoneRegistration) : Prop :=
  ∀ slot ∈ slotOf phones (storedAs phones reg).phoneId, slot = reg.slot

theorem slotOf_withPhone_self (phones : Dict String PhoneRegistration) (reg : PhoneRegistration) :
    slotOf (withPhone phones reg) (storedAs phones reg).phoneId = some reg.slot := by
  simp [slotOf, withPhone]

theorem slotOf_withPhone_of_ne {phones : Dict String PhoneRegistration} {reg : PhoneRegistration}
    {ref : String} (h : ref ≠ (storedAs phones reg).phoneId) :
    slotOf (withPhone phones reg) ref = slotOf phones ref := by
  simp [slotOf, withPhone, Dict.get?_set_of_ne _ h]

theorem KeepsSlot.slotOf {phones : Dict String PhoneRegistration} {reg : PhoneRegistration}
    (h : KeepsSlot phones reg) {ref : String} {slot : Slot}
    (hslot : slotOf phones ref = some slot) : slotOf (withPhone phones reg) ref = some slot := by
  by_cases href : ref = (storedAs phones reg).phoneId
  · subst href
    rw [slotOf_withPhone_self, h slot hslot]
  · rwa [slotOf_withPhone_of_ne href]

theorem KeepsSlot.hasOwner {phones : Dict String PhoneRegistration} {reg : PhoneRegistration}
    (h : KeepsSlot phones reg) (howner : HasOwner phones) : HasOwner (withPhone phones reg) := by
  obtain ⟨ref, slot, hslot⟩ := howner
  exact ⟨ref, slot, h.slotOf hslot⟩

/-- An owner that registers is there. -/
theorem hasOwner_withPhone {phones : Dict String PhoneRegistration} {reg : PhoneRegistration}
    {slot : OwnerSlot} (h : reg.slot = .owner slot) : HasOwner (withPhone phones reg) :=
  ⟨_, slot, by rw [slotOf_withPhone_self, h]⟩

theorem slotOf_erase_of_ne {phones : Dict String PhoneRegistration} {ref ref' : String}
    (h : ref' ≠ ref) : slotOf (phones.erase ref) ref' = slotOf phones ref' := by
  simp [slotOf, Dict.get?_erase, h]

/-- An owner other than the phone that leaves stays. -/
theorem hasOwner_erase {phones : Dict String PhoneRegistration} {ref ref' : String}
    {slot : OwnerSlot} (h : slotOf phones ref' = some (.owner slot)) (hne : ref' ≠ ref) :
    HasOwner (phones.erase ref) :=
  ⟨ref', slot, by rwa [slotOf_erase_of_ne hne]⟩

/-- The key and the slot of the phone under an id. -/
def seatOf (phones : Dict String PhoneRegistration) (ref : String) : Option (String × Slot) :=
  (phones.get? ref).map fun p => (p.publicKey, p.slot)

theorem slotOf_eq_seatOf (phones : Dict String PhoneRegistration) (ref : String) :
    slotOf phones ref = (seatOf phones ref).map Prod.snd := by
  rw [slotOf, seatOf, Option.map_map]
  rfl

/-- A phone that registers again with its own key and slot moves no seat. -/
theorem seatOf_withPhone {phones : Dict String PhoneRegistration} (h : Registry phones)
    {p reg : PhoneRegistration} (hp : p ∈ phones.values) (hkey : reg.publicKey = p.publicKey)
    (hslot : reg.slot = p.slot) : seatOf (withPhone phones reg) = seatOf phones := by
  have hget := h.get?_of_mem hp
  have hid := h.ref_of_key hget hkey.symm
  funext ref
  by_cases href : ref = (storedAs phones reg).phoneId
  · subst href
    simp only [seatOf, withPhone, Dict.get?_set_self, ← hid, hget, Option.map_some,
      storedAs_publicKey, storedAs_slot, hkey, hslot]
  · simp only [seatOf, withPhone, Dict.get?_set_of_ne _ href]

/-- A registration under the slot its key, or its id, holds. -/
theorem keepsSlot_of_mine {s : Store} {phones : Dict String PhoneRegistration}
    (hs : Registry s.phones) (hphones : Registry phones) (hsame : seatOf phones = seatOf s.phones)
    {inc : Incoming} {reg : PhoneRegistration} (hkey : reg.publicKey = inc.publicKey)
    (hid : reg.phoneId = inc.ref)
    (hslot : ∀ p ∈ s.mine inc, reg.slot = p.slot) : KeepsSlot phones reg := by
  intro slot hheld
  rw [storedAs_phoneId, slotOf_eq_seatOf, hsame] at hheld
  cases hfind : phones.values.find? fun p => p.publicKey = reg.publicKey with
  | some e =>
    -- the key is registered, in both registries under the one id
    have hekey : e.publicKey = reg.publicKey := by simpa using List.find?_some hfind
    have heseat : seatOf s.phones e.phoneId = some (e.publicKey, e.slot) := by
      rw [← hsame, seatOf, hphones.get?_of_mem (List.mem_of_find?_eq_some hfind), Option.map_some]
    simp only [hfind, Option.map_some, Option.getD_some, heseat, Option.mem_def,
      Option.some.injEq] at hheld
    obtain ⟨p, hp, hpseat⟩ := Option.map_eq_some_iff.mp heseat
    simp only [Prod.mk.injEq] at hpseat
    have hpmem : p ∈ s.phones.values := Dict.mem_values_iff.mpr ⟨_, hp⟩
    cases hmine : s.findByPubkey inc.publicKey with
    | none =>
      have := List.find?_eq_none.mp hmine p hpmem
      simp [hpseat.1, hekey, hkey] at this
    | some q =>
      have hqkey : q.publicKey = inc.publicKey := by simpa using List.find?_some hmine
      have hq := hs.get?_of_mem (List.mem_of_find?_eq_some hmine)
      have hqp : p = q := by
        have := hs.key hp hq (by rw [hpseat.1, hekey, hkey, hqkey])
        rw [this, hq] at hp
        exact (Option.some.inj hp).symm
      have := hslot q (by simp [Store.mine, hmine])
      rw [← hheld, ← hpseat.2, hqp, this]
  | none =>
    -- no phone has the key: the registration lands under its own id
    have hnone : s.findByPubkey inc.publicKey = none := by
      refine List.find?_eq_none.mpr fun p hp => ?_
      have hseat : seatOf phones p.phoneId = some (p.publicKey, p.slot) := by
        rw [hsame, seatOf, hs.get?_of_mem hp, Option.map_some]
      obtain ⟨q, hq, hqseat⟩ := Option.map_eq_some_iff.mp hseat
      simp only [Prod.mk.injEq] at hqseat
      have := List.find?_eq_none.mp hfind q (Dict.mem_values_iff.mpr ⟨_, hq⟩)
      simpa [hqseat.1, hkey] using this
    simp only [hfind, Option.map_none, Option.getD_none, hid, seatOf, Option.map_map,
      Option.mem_def, Option.map_eq_some_iff, Function.comp_apply] at hheld
    obtain ⟨p, hp, rfl⟩ := hheld
    exact (hslot p (by simp [Store.mine, hnone, Store.getPhone, hp])).symm

theorem mem_owners {s : Store} {p : PhoneRegistration} :
    p ∈ s.owners ↔ p ∈ s.phones.values ∧ p.IsOwner := by
  simp [Store.owners, Store.listPhones]

theorem PhoneRegistration.isOwner_iff {p : PhoneRegistration} :
    p.IsOwner ↔ ∃ slot, p.slot = .owner slot := by
  unfold IsOwner
  cases p.slot <;> simp

/-- Of two owners one is not the phone. -/
theorem exists_owner_beside {s : Store} (hs : Registry s.phones) (h : 1 < s.owners.length)
    (ref : String) : ∃ p ∈ s.owners, p.phoneId ≠ ref := by
  by_contra hnone
  push Not at hnone
  have hids : s.listPhones.map PhoneRegistration.phoneId = s.phones.keys := by
    simp only [Store.listPhones, Dict.values, Dict.keys, List.map_map]
    refine List.map_congr_left fun item hitem => ?_
    exact hs.id (Dict.get?_eq_some_iff.mpr hitem)
  have hnodup : (s.owners.map PhoneRegistration.phoneId).Nodup := by
    refine List.Nodup.sublist (List.filter_sublist.map _) ?_
    rw [hids]
    exact s.phones.nodup_keys
  have hsame : s.owners.map PhoneRegistration.phoneId = List.replicate s.owners.length ref := by
    refine List.eq_replicate_iff.mpr ⟨List.length_map _, fun id hid => ?_⟩
    obtain ⟨p, hp, rfl⟩ := List.mem_map.mp hid
    exact hnone p hp
  rw [hsame, List.nodup_replicate] at hnodup
  omega

theorem hasOwner_iff {s : Store} : HasOwner s.phones ↔ s.owners ≠ [] := by
  constructor
  · rintro ⟨ref, slot, hslot⟩
    obtain ⟨p, hp, hpslot⟩ := Option.map_eq_some_iff.mp hslot
    exact List.ne_nil_of_mem (mem_owners.mpr
      ⟨Dict.mem_values_iff.mpr ⟨ref, hp⟩, PhoneRegistration.isOwner_iff.mpr ⟨slot, hpslot⟩⟩)
  · intro h
    obtain ⟨p, hp⟩ := List.exists_mem_of_ne_nil _ h
    obtain ⟨hmem, howner⟩ := mem_owners.mp hp
    obtain ⟨ref, href⟩ := Dict.mem_values_iff.mp hmem
    obtain ⟨slot, hslot⟩ := PhoneRegistration.isOwner_iff.mp howner
    exact ⟨ref, slot, by rw [slotOf, href, Option.map_some, hslot]⟩

end Server
end Recto
