import Recto.Profiles.Paths

/-!
# Creating a profile twice

`create_child_profile` looks for the name it is given and stores the name
stripped, and it finds revoked profiles as well as active ones. Calls that name
their profile as it is stored, and no revoked one, are idempotent and never lead
to two active profiles of one name.
-/

namespace Recto
namespace Profiles

/-- The kinds and names of the profiles that are not revoked. -/
def activeNames (mi : MasterIdentity) : List (String × String) :=
  (mi.profiles.filter fun p => !p.revoked).map fun p => (p.kind, p.displayName)

/-- No two of them share kind and name. -/
def NamesUnique (mi : MasterIdentity) : Prop := (activeNames mi).Nodup

/-- The arguments pass the checks that come before the identity is loaded. -/
def ChildArgs.Valid (args : ChildArgs) : Prop :=
  args.kind ≠ "" ∧ strip args.displayName ≠ "" ∧ args.kind ≠ personalMaster ∧
    (∀ hex ∈ args.derivedPubkeyHex, (chars (stripPubkey hex)).length = 128 ∧
      (fromHex (stripPubkey hex)).isSome = true) ∧
    1 ≤ args.revokeQuorumK ∧ (∀ entry ∈ args.deviceIds, strip entry ≠ "") ∧
    (dedupe (args.deviceIds.map strip) = [] ∨
      args.revokeQuorumK ≤ (dedupe (args.deviceIds.map strip)).length)

/-- And the id they ask for is free, unless a profile of the name is there. -/
def ChildArgs.Accepted (args : ChildArgs) (mi : MasterIdentity) : Prop :=
  args.Valid ∧ (mi.named? args.kind args.displayName = none →
    ∀ id ∈ args.profileIdOverride, ∀ p ∈ mi.profiles, p.profileId ≠ id)

/-- A create that is accepted answers an active profile, and the same call once more, at any time,
answers the same and saves nothing. -/
def Repeats (args : ChildArgs) (now : ℤ) (uuid : String) (mi : MasterIdentity) : Prop :=
  ∀ answer written, createChildProfile args now uuid (some mi) = .ok (answer, written) →
    answer.revoked = false ∧ ∀ now' uuid', createChildProfile args now' uuid'
      (loadMasterIdentity ((Operation.create args now uuid).next (some mi))) = .ok (answer, none)

/-- What every call should do: names stay unique, and a create can be repeated. -/
def KeepsNames (op : Operation) (mi : MasterIdentity) : Prop :=
  (∀ mi', loadMasterIdentity (op.next (some mi)) = some mi' → NamesUnique mi') ∧
    match op with
    | .create args now uuid => Repeats args now uuid mi
    | _ => True

/-- An accepted create names no revoked profile, and names a profile that is not there yet without
white space around the name. -/
def NamedAsStored (op : Operation) (mi : MasterIdentity) : Prop :=
  match op with
  | .create args _ _ => args.Accepted mi →
      match mi.named? args.kind args.displayName with
      | some existing => existing.revoked = false
      | none => strip args.displayName = args.displayName
  | _ => True

section
variable {args : ChildArgs} {mi mi' : MasterIdentity} {now : ℤ} {uuid : String}
  {answer target new existing : Profile} {written : Option MasterIdentity} {op : Operation}
  {profileId : String}

/-! ## One create -/

theorem mapM_cleanPubkey_isOk {hex? : Option String} :
    (∃ pubkey, hex?.mapM cleanPubkey = .ok pubkey) ↔
      ∀ hex ∈ hex?, (chars (stripPubkey hex)).length = 128 ∧
        (fromHex (stripPubkey hex)).isSome = true := by
  cases hex? with
  | none => exact iff_of_true ⟨none, rfl⟩ fun _ h => absurd h (Option.not_mem_none _)
  | some hex =>
    simp only [Option.mem_some_iff, forall_eq']
    exact ⟨fun ⟨_, h⟩ => cleanPubkey_of_mapM h, fun h => ⟨_, mapM_cleanPubkey_some h⟩⟩

/-- An accepted create finds the profile or appends one. -/
theorem createChildProfile_eq_ok : createChildProfile args now uuid (some mi) = .ok (answer, written) ↔
    args.Accepted mi ∧
      ((mi.named? args.kind args.displayName = some answer ∧ written = none) ∨
        mi.named? args.kind args.displayName = none ∧
          ∃ pubkey, args.derivedPubkeyHex.mapM cleanPubkey = .ok pubkey ∧
            answer = childProfile args pubkey (dedupe (args.deviceIds.map strip)) now uuid mi ∧
            written = some (mi.append answer)) := by
  simp only [createChildProfile, Except.bind_eq_ok, ensure_eq_ok, bootstrapped_eq_ok,
    Option.some.injEq]
  constructor
  · rintro ⟨_, hkind, _, hname, _, hmaster, pubkey, hpubkey, _, hquorum, _, hentries, _, hbound, _, rfl, h⟩
    have hvalid : args.Valid := ⟨hkind, hname, hmaster, mapM_cleanPubkey_isOk.mp ⟨_, hpubkey⟩, hquorum,
      hentries, hbound⟩
    cases hnamed : mi.named? args.kind args.displayName with
    | some existing =>
      rw [hnamed] at h
      cases h
      exact ⟨⟨hvalid, fun h => absurd (hnamed.symm.trans h) (Option.some_ne_none _)⟩, .inl ⟨rfl, rfl⟩⟩
    | none =>
      rw [hnamed] at h
      simp only [Except.bind_eq_ok, ensure_eq_ok] at h
      obtain ⟨_, hfresh, h⟩ := h
      cases h
      exact ⟨⟨hvalid, fun _ => hfresh⟩, .inr ⟨rfl, pubkey, hpubkey, rfl, rfl⟩⟩
  · rintro ⟨⟨⟨hkind, hname, hmaster, hhex, hquorum, hentries, hbound⟩, hfresh⟩, h⟩
    obtain ⟨pubkey', hpubkey'⟩ := mapM_cleanPubkey_isOk.mpr hhex
    rcases h with ⟨hnamed, rfl⟩ | ⟨hnamed, pubkey, hpubkey, rfl, rfl⟩
    · refine ⟨(), hkind, (), hname, (), hmaster, pubkey', hpubkey', (), hquorum, (), hentries, (),
        hbound, mi, rfl, ?_⟩
      rw [hnamed]
      rfl
    · refine ⟨(), hkind, (), hname, (), hmaster, pubkey, hpubkey, (), hquorum, (), hentries, (),
        hbound, mi, rfl, ?_⟩
      rw [hnamed]
      exact Except.bind_eq_ok.mpr ⟨(), ensure_eq_ok.mpr (hfresh hnamed), rfl⟩

theorem named?_eq_some (h : mi.named? args.kind args.displayName = some existing) :
    existing.kind = args.kind ∧ existing.displayName = args.displayName := by
  simpa using List.find?_some h

/-- In the identity with one more profile, a name not there before is the new profile's. -/
theorem named?_append (new : Profile) (h : mi.named? args.kind args.displayName = none) :
    (mi.append new).named? args.kind args.displayName =
      if new.kind = args.kind ∧ new.displayName = args.displayName then some new else none := by
  unfold MasterIdentity.named? at h ⊢
  rw [MasterIdentity.append, List.find?_append, h, Option.none_or]
  split_ifs with hname
  · exact List.find?_cons_of_pos (by simpa using hname)
  · rw [List.find?_cons_of_neg (by simpa using hname), List.find?_nil]

theorem activeNames_append (hnew : new.revoked = false) :
    activeNames (mi.append new) = activeNames mi ++ [(new.kind, new.displayName)] := by
  simp [activeNames, MasterIdentity.append, hnew]

theorem not_mem_activeNames (h : mi.named? args.kind args.displayName = none) :
    (args.kind, args.displayName) ∉ activeNames mi := by
  intro hmem
  obtain ⟨p, hp, hname⟩ := List.mem_map.mp hmem
  obtain ⟨hkind, hdisplay⟩ := Prod.mk.inj hname
  have hnone := List.find?_eq_none.mp h p (List.mem_filter.mp hp).1
  exact hnone (decide_eq_true ⟨hkind, hdisplay⟩)

/-- What a create loads next time. -/
theorem next_create (hmi : mi.Readable)
    (h : createChildProfile args now uuid (some mi) = .ok (answer, written)) :
    loadMasterIdentity ((Operation.create args now uuid).next (some mi)) = some (written.getD mi) := by
  have hsaved : (Operation.create args now uuid).saved (some mi) = written := by
    rw [Operation.saved, show (Operation.create args now uuid).apply (some mi) = _ from h]
  cases written with
  | none => exact next_of_not_saved hmi hsaved
  | some mi' => exact next_of_saved hmi hsaved

theorem repeats_iff (hmi : mi.Readable) : Repeats args now uuid mi ↔
    NamedAsStored (.create args now uuid) mi := by
  constructor
  · intro hrepeats haccepted
    obtain ⟨pubkey, hpubkey⟩ := mapM_cleanPubkey_isOk.mpr haccepted.1.2.2.2.1
    cases hnamed : mi.named? args.kind args.displayName with
    | some existing =>
      exact (hrepeats existing none
        (createChildProfile_eq_ok.mpr ⟨haccepted, .inl ⟨hnamed, rfl⟩⟩)).1
    | none =>
      have hcreate : createChildProfile args now uuid (some mi) =
          .ok (childProfile args pubkey (dedupe (args.deviceIds.map strip)) now uuid mi, _) :=
        createChildProfile_eq_ok.mpr ⟨haccepted, .inr ⟨hnamed, pubkey, hpubkey, rfl, rfl⟩⟩
      obtain ⟨-, hagain⟩ := hrepeats _ _ hcreate
      have hagain := hagain now uuid
      rw [next_create hmi hcreate, Option.getD_some] at hagain
      obtain ⟨-, ⟨hfound, -⟩ | ⟨-, _, -, -, hwritten⟩⟩ := createChildProfile_eq_ok.mp hagain
      · exact (named?_eq_some hfound).2
      · cases hwritten
  · intro hstored answer written hcreate
    obtain ⟨haccepted, h⟩ := createChildProfile_eq_ok.mp hcreate
    have hstored := hstored haccepted
    rw [next_create hmi hcreate]
    rcases h with ⟨hnamed, rfl⟩ | ⟨hnamed, pubkey, -, rfl, rfl⟩
    · rw [hnamed] at hstored
      exact ⟨hstored, fun now' uuid' =>
        createChildProfile_eq_ok.mpr ⟨haccepted, .inl ⟨hnamed, rfl⟩⟩⟩
    · rw [hnamed] at hstored
      refine ⟨rfl, fun now' uuid' => createChildProfile_eq_ok.mpr ?_⟩
      have hfound := named?_append (childProfile args pubkey
        (dedupe (args.deviceIds.map strip)) now uuid mi) hnamed
      rw [if_pos ⟨rfl, hstored⟩] at hfound
      exact ⟨⟨haccepted.1, fun hnone => absurd (hfound.symm.trans hnone) (Option.some_ne_none _)⟩,
        .inl ⟨hfound, rfl⟩⟩

/-! ## One call -/

/-- Replacing a profile by one of the same name that is no more active keeps names unique. -/
theorem namesUnique_withProfile (hunique : NamesUnique mi) (h : mi.find? profileId = some target)
    (hname : new.kind = target.kind ∧ new.displayName = target.displayName)
    (hactive : new.revoked = false → target.revoked = false) :
    NamesUnique (mi.withProfile profileId new) := by
  obtain ⟨pre, post, hprofiles, -, -, hnew⟩ := find?_eq_some h
  unfold NamesUnique activeNames at hunique ⊢
  rw [hnew]
  rw [hprofiles] at hunique
  refine hunique.sublist ?_
  rw [List.filter_append, List.filter_append, List.map_append, List.map_append]
  refine List.Sublist.append_left ?_ _
  by_cases hrevoked : new.revoked = true
  · rw [List.filter_cons_of_neg (by simp [hrevoked])]
    exact (List.Sublist.filter _ (List.sublist_cons_self _ _)).map _
  · have hfalse := Bool.eq_false_iff.mpr hrevoked
    rw [List.filter_cons_of_pos (by simp [hfalse]), List.filter_cons_of_pos (by simp [hactive hfalse]),
      List.map_cons, List.map_cons, hname.1, hname.2]

theorem keepsNames_iff (hmi : mi.Readable) (hunique : NamesUnique mi) :
    KeepsNames op mi ↔ NamedAsStored op mi := by
  have hload : ∀ {mi'}, loadMasterIdentity (op.next (some mi)) = some mi' →
      mi' = mi ∨ op.saved (some mi) = some mi' := by
    intro mi' hmi'
    cases hsaved : op.saved (some mi) with
    | none => exact .inl (Option.some.inj (hmi'.symm.trans (next_of_not_saved hmi hsaved)))
    | some mi'' => exact .inr (hsaved ▸ hsaved ▸ (next_of_saved hmi hsaved).symm.trans hmi')
  cases op with
  | create args now uuid =>
    unfold KeepsNames
    refine ⟨fun h => (repeats_iff hmi).mp h.2, fun hstored => ⟨fun mi' hmi' => ?_,
      (repeats_iff hmi).mpr hstored⟩⟩
    rcases hload hmi' with rfl | hsaved
    · exact hunique
    · obtain ⟨answer, happly⟩ := saved_eq_some.mp hsaved
      obtain ⟨haccepted, ⟨-, hnone⟩ | ⟨hnamed, pubkey, -, rfl, hwritten⟩⟩ :=
        createChildProfile_eq_ok.mp happly
      · cases hnone
      · obtain rfl := Option.some.inj hwritten
        have hstored := hstored haccepted
        rw [hnamed] at hstored
        unfold NamesUnique
        rw [activeNames_append rfl]
        refine hunique.append (List.nodup_singleton _) fun name hmem hnew => ?_
        rw [List.mem_singleton.mp hnew] at hmem
        refine not_mem_activeNames hnamed ?_
        rw [← hstored]
        exact hmem
  | addDevice profileId phoneId =>
    refine iff_of_true ⟨fun mi' hmi' => ?_, trivial⟩ trivial
    rcases hload hmi' with rfl | hsaved
    · exact hunique
    · obtain ⟨answer, happly⟩ := saved_eq_some.mp hsaved
      obtain ⟨_, target, hmi'', htarget, -, -, -, rfl, rfl⟩ := profileAddDevice_saves happly
      obtain rfl := Option.some.inj hmi''
      exact namesUnique_withProfile hunique htarget ⟨rfl, rfl⟩ id
  | revokeDevice profileId phoneId =>
    refine iff_of_true ⟨fun mi' hmi' => ?_, trivial⟩ trivial
    rcases hload hmi' with rfl | hsaved
    · exact hunique
    · obtain ⟨answer, happly⟩ := saved_eq_some.mp hsaved
      obtain ⟨_, target, hmi'', htarget, -, -, -, rfl, rfl⟩ := profileRevokeDevice_saves happly
      obtain rfl := Option.some.inj hmi''
      exact namesUnique_withProfile hunique htarget ⟨rfl, rfl⟩ id
  | markRevoked profileId =>
    refine iff_of_true ⟨fun mi' hmi' => ?_, trivial⟩ trivial
    rcases hload hmi' with rfl | hsaved
    · exact hunique
    · obtain ⟨answer, happly⟩ := saved_eq_some.mp hsaved
      obtain ⟨_, target, hmi'', htarget, rfl, hwritten⟩ := markProfileRevoked_saves happly
      obtain rfl := Option.some.inj hmi''
      obtain rfl := Option.some.inj hwritten
      exact namesUnique_withProfile hunique htarget ⟨rfl, rfl⟩ nofun

/-! ## Every run -/

/-- The identity a bootstrap saves has one name. -/
theorem namesUnique_bootstrapMaster {hex displayName : String} {label : Option String} {force : Bool}
    {loaded : Option MasterIdentity}
    (h : bootstrapMaster hex displayName label force now uuid loaded = .ok mi) : NamesUnique mi := by
  simp only [bootstrapMaster, Except.bind_eq_ok, ensure_eq_ok] at h
  obtain ⟨key, -, -, -, h⟩ := h
  obtain rfl := Except.pure_eq_ok.mp h
  exact List.nodup_singleton _

end

instance (args : ChildArgs) : Decidable args.Valid := by
  unfold ChildArgs.Valid
  infer_instance

instance (args : ChildArgs) (mi : MasterIdentity) : Decidable (args.Accepted mi) := by
  unfold ChildArgs.Accepted
  infer_instance

instance (op : Operation) (mi : MasterIdentity) : Decidable (NamedAsStored op mi) := by
  match op with
  | .create args now uuid =>
    dsimp only [NamedAsStored]
    cases mi.named? args.kind args.displayName <;> infer_instance
  | .addDevice _ _ => exact instDecidableTrue
  | .revokeDevice _ _ => exact instDecidableTrue
  | .markRevoked _ => exact instDecidableTrue

instance (mi : MasterIdentity) : Decidable (NamesUnique mi) := by
  unfold NamesUnique
  infer_instance

def workProfile (name : String) : Operation :=
  .create { kind := "work", displayName := name } 1760000100 "0d9f3c52-54a8-4b0f-8a53-0c7e1b0f9a11"

end Profiles
end Recto
