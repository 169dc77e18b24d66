import Recto.Profiles.Fields

/-!
# Key paths

A profile's key is derived at the path its row records. A request for a profile
takes the next index of its slot when it is queued and uses it when it is
approved, whatever was approved in between; a direct call takes the next index
at once.
-/

namespace Recto
namespace Profiles

/-- Where a profile's key is derived. -/
def Profile.keyPath (p : Profile) : ℤ × ℤ := (p.derivation.profileCoinType, p.derivation.profileIndex)

/-- A queued `profile_create` request. -/
structure Card where
  candidateProfileId : String
  candidateKind : String
  candidateDisplayName : String
  candidateDerivationIndex : ℤ
  candidateThemeHint : Option String
  candidateScimProvider : Option String
  deriving DecidableEq, Repr

/-- The arguments `_handle_respond` persists an approved card with. -/
def Card.args (card : Card) (childPubkey : String) : ChildArgs where
  kind := card.candidateKind
  displayName := card.candidateDisplayName
  themeHint := card.candidateThemeHint
  scimProvider := card.candidateScimProvider
  profileIndexOverride := some card.candidateDerivationIndex
  profileIdOverride := some card.candidateProfileId
  derivedPubkeyHex := some childPubkey

/-- The fields of a `profile_create` body. -/
structure CreateBody where
  candidateProfileId : String
  kind : String
  displayName : String
  themeHint : Option String := none
  scimProvider : Option String := none

/-- The card for a body, at the next index of its slot. -/
def CreateBody.card (body : CreateBody) (mi : MasterIdentity) : Card where
  candidateProfileId := body.candidateProfileId
  candidateKind := body.kind
  candidateDisplayName := strip body.displayName
  candidateDerivationIndex := nextProfileIndex mi (resolveCoinType body.kind)
  candidateThemeHint := body.themeHint
  candidateScimProvider := body.scimProvider

/-- The fields a body must have. -/
def CreateBody.Complete (body : CreateBody) : Prop :=
  body.candidateProfileId ≠ "" ∧ body.kind ≠ "" ∧ strip body.displayName ≠ ""

instance (body : CreateBody) : Decidable body.Complete :=
  inferInstanceAs (Decidable (_ ∧ _))

/-- `_handle_profile_create`, once the caller is let in: the card it queues, if it queues one. -/
def handleProfileCreate (body : CreateBody) (loaded : Option MasterIdentity) : Option Card :=
  if body.Complete then
    match loaded with
    | none => none
    | some mi => if (mi.find? body.candidateProfileId).isSome then none else some (body.card mi)
  else none

/-- The file and the cards that wait. -/
structure Desk where
  file : Option MasterIdentity
  pending : List Card

inductive DeskStep where
  | request (body : CreateBody)
  | approve (i : ℕ) (childPubkey : String) (now : ℤ)
  | create (args : ChildArgs) (now : ℤ) (uuid : String)

namespace DeskStep

/-- The call of `create_child_profile` that the step makes, if it makes one. -/
def operation (desk : Desk) : DeskStep → Option Operation
  | request _ => none
  | approve i childPubkey now =>
      (desk.pending[i]?).map fun card => .create (card.args childPubkey) now ""
  | create args now uuid => some (.create { args with profileIndexOverride := none } now uuid)

end DeskStep

def Desk.step (desk : Desk) (s : DeskStep) : Desk where
  file :=
    match s.operation desk with
    | some op => op.next desk.file
    | none => loadMasterIdentity desk.file
  pending :=
    match s with
    | .request body => desk.pending ++ (handleProfileCreate body (loadMasterIdentity desk.file)).toList
    | .approve i _ _ => desk.pending.eraseIdx i
    | .create _ _ _ => desk.pending

/-- No two profiles share a key path or an id. -/
def Distinct (file : Option MasterIdentity) : Prop :=
  ∀ mi ∈ loadMasterIdentity file,
    (mi.profiles.map Profile.keyPath).Nodup ∧ (mi.profiles.map Profile.profileId).Nodup

/-- So it is before and after every step. -/
def DistinctAlong : Desk → List DeskStep → Prop
  | desk, [] => Distinct desk.file
  | desk, s :: ss => Distinct desk.file ∧ DistinctAlong (desk.step s) ss

/-- Where an approval persists a profile, no profile has its key path yet. -/
def PathFree (desk : Desk) : DeskStep → Prop
  | .approve i childPubkey now => ∀ card ∈ desk.pending[i]?, ∀ mi ∈ loadMasterIdentity desk.file,
      Changes (.create (card.args childPubkey) now "") mi →
        ∀ p ∈ mi.profiles, p.keyPath ≠
          (resolveCoinType card.candidateKind, card.candidateDerivationIndex)
  | _ => True

/-- `uuid4` gives no id that a profile has. -/
def FreshId (desk : Desk) : DeskStep → Prop
  | .create args _ uuid => args.profileIdOverride = none →
      ∀ mi ∈ loadMasterIdentity desk.file, ∀ p ∈ mi.profiles, p.profileId ≠ uuid
  | _ => True

/-- Every step is taken where the condition holds. -/
def Desk.Along (P : Desk → DeskStep → Prop) : Desk → List DeskStep → Prop
  | _, [] => True
  | desk, s :: ss => P desk s ∧ Desk.Along P (desk.step s) ss

section
variable {desk : Desk} {s : DeskStep} {mi mi' : MasterIdentity} {args : ChildArgs} {now : ℤ}
  {uuid : String}

/-- What a saved create adds, as far as paths and ids go. -/
theorem saved_create (h : (Operation.create args now uuid).saved (some mi) = some mi') :
    ∃ new, mi'.profiles = mi.profiles ++ [new] ∧
      new.keyPath = (resolveCoinType args.kind,
        args.profileIndexOverride.getD (nextProfileIndex mi (resolveCoinType args.kind))) ∧
      new.profileId = args.profileIdOverride.getD uuid ∧
      ∀ id ∈ args.profileIdOverride, ∀ p ∈ mi.profiles, p.profileId ≠ id := by
  obtain ⟨answer, happly⟩ := saved_eq_some.mp h
  obtain ⟨mi, pubkey, hload, -, -, -, -, -, hfresh, rfl, rfl⟩ := createChildProfile_saves happly
  obtain rfl := Option.some.inj hload
  exact ⟨_, rfl, rfl, rfl, hfresh⟩

theorem nodup_map_concat {α β : Type} (f : α → β) {xs : List α} {x : α} :
    ((xs ++ [x]).map f).Nodup ↔ (xs.map f).Nodup ∧ ∀ y ∈ xs, f y ≠ f x := by
  rw [List.map_append, List.map_singleton, List.nodup_append]
  simp

/-- A create keeps paths and ids distinct when its own are free. -/
theorem distinct_next_iff (args : ChildArgs) (now : ℤ) (uuid : String) (hmi : mi.Readable)
    (hdistinct : Distinct (some mi)) (hid : args.profileIdOverride = none → ∀ p ∈ mi.profiles, p.profileId ≠ uuid) :
    Distinct ((Operation.create args now uuid).next (some mi)) ↔
      (Changes (.create args now uuid) mi →
        ∀ p ∈ mi.profiles, p.keyPath ≠ (resolveCoinType args.kind,
          args.profileIndexOverride.getD (nextProfileIndex mi (resolveCoinType args.kind)))) := by
  obtain ⟨hpaths, hids⟩ := hdistinct mi (loadMasterIdentity_of_readable hmi)
  rw [← saved_isSome_iff]
  cases hsaved : (Operation.create args now uuid).saved (some mi) with
  | none =>
    refine iff_of_true (fun mi' hmi' => ?_) (by simp)
    obtain rfl := Option.some.inj ((next_of_not_saved hmi hsaved).symm.trans hmi')
    exact ⟨hpaths, hids⟩
  | some mi' =>
    obtain ⟨new, hprofiles, hpath, hnew, hfresh⟩ := saved_create hsaved
    have hnewId : ∀ p ∈ mi.profiles, p.profileId ≠ new.profileId := by
      intro p hp
      rw [hnew]
      cases hoverride : args.profileIdOverride with
      | none => exact hid hoverride p hp
      | some id => exact hfresh id hoverride p hp
    rw [← hpath]
    constructor
    · intro hnext _ p hp
      have := (hnext mi' (next_of_saved hmi hsaved)).1
      rw [hprofiles, nodup_map_concat] at this
      exact this.2 p hp
    · intro hfree mi'' hmi''
      obtain rfl := Option.some.inj ((next_of_saved hmi hsaved).symm.trans hmi'')
      rw [hprofiles, nodup_map_concat, nodup_map_concat]
      exact ⟨⟨hpaths, hfree rfl⟩, hids, hnewId⟩

/-- One step keeps paths and ids distinct exactly when an approval finds its path free. -/
theorem distinct_step_iff (hdistinct : Distinct desk.file) (hfresh : FreshId desk s) :
    Distinct (desk.step s).file ↔ PathFree desk s := by
  cases hload : loadMasterIdentity desk.file with
  | none =>
    have hnone : Distinct (desk.step s).file := by
      intro mi hmi
      have hfile : (desk.step s).file = none := by
        simp only [Desk.step]
        split
        · rw [Operation.next, hload, saved_none]
          rfl
        · exact hload
      rw [hfile] at hmi
      cases hmi
    refine iff_of_true hnone ?_
    cases s with
    | approve i childPubkey now =>
      intro card _ mi hmi
      rw [hload] at hmi
      cases hmi
    | _ => trivial
  | some mi =>
    obtain ⟨hfile, hmi⟩ := loadMasterIdentity_eq_some.mp hload
    rw [hfile] at hdistinct
    have hstay : Distinct (loadMasterIdentity desk.file) := by
      rw [hload]
      exact hdistinct
    cases s with
    | request body => exact iff_of_true hstay trivial
    | create args now uuid =>
      refine iff_of_true ?_ trivial
      change Distinct ((Operation.create { args with profileIndexOverride := none } now uuid).next
        desk.file)
      rw [hfile]
      have hid : args.profileIdOverride = none → ∀ p ∈ mi.profiles, p.profileId ≠ uuid :=
        fun hnone => hfresh hnone mi hload
      rw [distinct_next_iff { args with profileIndexOverride := none } now uuid hmi hdistinct hid]
      intro _ p hp hpath
      obtain ⟨hcoin, hindex⟩ := Prod.mk.inj hpath
      have hlt := lt_nextProfileIndex hp
      rw [Option.getD_none] at hindex
      rw [hcoin, hindex] at hlt
      exact lt_irrefl _ hlt
    | approve i childPubkey now =>
      cases hcard : desk.pending[i]? with
      | none =>
        refine iff_of_true ?_ fun card h => ?_
        · simp only [Desk.step, DeskStep.operation, hcard, Option.map_none]
          exact hstay
        · rw [hcard] at h
          cases h
      | some card =>
        simp only [Desk.step, DeskStep.operation, hcard, Option.map_some, hfile]
        rw [distinct_next_iff _ now "" hmi hdistinct (fun h => by cases h)]
        constructor
        · intro hfree card' hcard' mi' hmi'
          obtain rfl := Option.some.inj (hcard.symm.trans hcard')
          obtain rfl := Option.some.inj (hload.symm.trans hmi')
          exact hfree
        · intro hfree
          exact hfree card hcard mi hload

end

/-! ## Two cards of one slot -/

instance (file : Option MasterIdentity) : Decidable (Distinct file) := by
  unfold Distinct
  infer_instance

instance DistinctAlong.decidable : ∀ desk steps, Decidable (DistinctAlong desk steps)
  | desk, [] => inferInstanceAs (Decidable (Distinct desk.file))
  | desk, s :: ss =>
      have := DistinctAlong.decidable (desk.step s) ss
      inferInstanceAs (Decidable (Distinct desk.file ∧ DistinctAlong (desk.step s) ss))

instance (desk : Desk) (s : DeskStep) : Decidable (FreshId desk s) := by
  unfold FreshId
  cases s <;> infer_instance

instance (desk : Desk) (s : DeskStep) : Decidable (PathFree desk s) := by
  unfold PathFree
  cases s <;> infer_instance

instance Desk.Along.decidable (P : Desk → DeskStep → Prop) [∀ desk s, Decidable (P desk s)] :
    ∀ desk steps, Decidable (Desk.Along P desk steps)
  | _, [] => inferInstanceAs (Decidable True)
  | desk, s :: ss =>
      have := Desk.Along.decidable P (desk.step s) ss
      inferInstanceAs (Decidable (P desk s ∧ Desk.Along P (desk.step s) ss))

/-- A bootstrapped identity and no cards. -/
def firstDesk : Desk where
  file := bootstrapped?
  pending := []

/-- The card for the pseudonym `name`. -/
def pseudonym (id name : String) : CreateBody where
  candidateProfileId := id
  kind := "personal:child"
  displayName := name

def firstId : String := "5e2f51a2-6a0e-4c0e-8d5b-1f52c6a54a01"

def secondId : String := "5e2f51a2-6a0e-4c0e-8d5b-1f52c6a54a02"

/-- The public keys of the private keys two and three. -/
def secondPoint : String :=
  "c6047f9441ed7d6d3045406e95c07cd85c778e4b8cef3ca7abac09b95c709ee5" ++
    "1ae168fea63dc339a3c58419466ceaeef7f632653266d0e1236431a950cfe52a"

def thirdPoint : String :=
  "f9308a019258c31049344f85f89d5229b531c845836f99b08601f113bce036f9" ++
    "388f7b0f632de8140fe337e62a37f3566500a99934c2231b6cb9fd7584b8e672"

end Profiles
end Recto
