import Recto.Capability.Claims
import Recto.Data.Lockstep

/-!
# What a capability weighs

`load_manifest_from_dict`, and the three walks over a clause and a manifest: the
actions it resolves to, its weight, and the breakdown of the weight an operator
is shown. Strings that Python puts in a message are kept as the data they name.
-/

namespace Recto
namespace Capability

/-- What `load_manifest_from_dict` raises; `typeError` on a member no dictionary can hold. -/
inductive ManifestError where
  | notDict
  | version
  | actionsNotObject
  | actionNotObject (key : String)
  | count (key : String)
  | description (key : String)
  | groupsNotObject
  | groupNotObject (key : String)
  | membersNotList (key : String)
  | unknownMember (key : String) (action : Json)
  | typeError
  deriving DecidableEq, Repr

/-- What the walks raise; `typeError` on a value no dictionary can hold. -/
inductive ClauseError where
  | versionMismatch (clause : Json) (manifest : String)
  | unknownGroup (key : Json) (version : String)
  | unknownAction (key : Json) (version : String)
  | keyError (key : Json)
  | typeError
  deriving DecidableEq, Repr

structure ActionDefinition where
  count : ℤ
  description : String
  deriving DecidableEq, Repr

/-- `ActionManifest`, with its definitions. A group is the list of its actions. -/
structure WeighedManifest where
  version : String
  actions : Dict String ActionDefinition
  groups : Dict String (List String)
  deriving DecidableEq

/-! ## Loading -/

/-- The count of an action; `True` and `False` are numbers too. -/
def readCount (key : String) : Json → Except ManifestError ℤ
  | .int n => if n < 0 then .error (.count key) else .ok n
  | .bool b => .ok (if b then 1 else 0)
  | _ => .error (.count key)

def readDescription (key : String) : Json → Except ManifestError String
  | .str description => .ok description
  | _ => .error (.description key)

def readAction (key : String) : Json → Except ManifestError ActionDefinition
  | .obj defn => do
      let count ← readCount key ((defn.lookup "count").getD .null)
      let description ← readDescription key ((defn.lookup "description").getD (.str ""))
      pure { count, description }
  | _ => .error (.actionNotObject key)

/-- A member of a group, which the actions must hold. -/
def readMember (actions : Dict String ActionDefinition) (key : String) :
    Json → Except ManifestError String
  | .str name => if name ∈ actions then .ok name else .error (.unknownMember key (.str name))
  | .arr _ => .error .typeError
  | .obj _ => .error .typeError
  | x => .error (.unknownMember key x)

def readGroup (actions : Dict String ActionDefinition) (key : String) :
    Json → Except ManifestError (List String)
  | .obj defn =>
      match (defn.lookup "actions").getD (.arr []) with
      | .arr members =>
          members.foldlM (fun names x => do pure (names ++ [← readMember actions key x])) []
      | _ => .error (.membersNotList key)
  | _ => .error (.groupNotObject key)

def readVersion : Json → Except ManifestError String
  | .str s => if s = "" then .error .version else .ok s
  | _ => .error .version

/-- A table of the manifest, by its name. -/
def readTable (error : ManifestError) : Json → Except ManifestError (List (String × Json))
  | .obj items => .ok items
  | _ => .error error

/-- `load_manifest_from_dict` -/
def loadManifestFromDict : Json → Except ManifestError WeighedManifest
  | .obj fields => do
      let version ← readVersion ((fields.lookup "version").getD .null)
      let actionsRaw ← readTable .actionsNotObject ((fields.lookup "actions").getD (.obj []))
      let actions ← actionsRaw.foldlM (fun actions item => do
        pure (actions.set item.1 (← readAction item.1 item.2))) Dict.empty
      let groupsRaw ← readTable .groupsNotObject ((fields.lookup "groups").getD (.obj []))
      let groups ← groupsRaw.foldlM (fun groups item => do
        pure (groups.set item.1 (← readGroup actions item.1 item.2))) Dict.empty
      pure { version, actions, groups }
  | _ => .error .notDict

/-! ## The walks -/

/-- A list or a dictionary has no hash. -/
def Hashable : Json → Prop
  | .arr _ => False
  | .obj _ => False
  | _ => True

/-- `d[key]`, after `key in d`: the key as it is stored, and its value. -/
def findKey {α : Type} (d : Dict String α) (missing : ClauseError) :
    Json → Except ClauseError (String × α)
  | .str name =>
      match d.get? name with
      | some value => .ok (name, value)
      | none => .error missing
  | .arr _ => .error .typeError
  | .obj _ => .error .typeError
  | _ => .error missing

namespace WeighedManifest

variable (m : WeighedManifest)

def findGroup (key : Json) : Except ClauseError (String × List String) :=
  findKey m.groups (.unknownGroup key m.version) key

def findAction (key : Json) : Except ClauseError (String × ActionDefinition) :=
  findKey m.actions (.unknownAction key m.version) key

/-- `permitted.discard(action_key)` -/
def discard (permitted : Finset String) : Json → Except ClauseError (Finset String)
  | .str name => .ok (permitted.erase name)
  | .arr _ => .error .typeError
  | .obj _ => .error .typeError
  | _ => .ok permitted

/-- `resolve_actions` -/
def resolveActions (clause : CapabilityClause) : Except ClauseError (Finset String) := do
  ensure (clause.registryVersion = .str m.version)
    (.versionMismatch clause.registryVersion m.version)
  let permitted ← clause.groups.foldlM (fun permitted key => do
    let group ← m.findGroup key
    pure (permitted ∪ group.2.toFinset)) ∅
  let permitted ← clause.allowActions.foldlM (fun permitted key => do
    let action ← m.findAction key
    pure (insert action.1 permitted)) permitted
  clause.denyActions.foldlM discard permitted

/-- `self.actions[action_key].count` -/
def actionCount (key : Json) : Except ClauseError ℤ := do
  pure (← findKey m.actions (.keyError key) key).2.count

/-- `group_weight` -/
def groupWeight (key : Json) : Except ClauseError ℤ := do
  let group ← findKey m.groups (.keyError key) key
  group.2.foldlM (fun total a => do pure (total + (← m.actionCount (.str a)))) 0

/-- `capability_weight` -/
def capabilityWeight (clause : CapabilityClause) : Except ClauseError ℤ := do
  let groupTotal ← clause.groups.foldlM (fun total key => do
    pure (total + (← m.groupWeight key))) 0
  let actionTotal ← clause.allowActions.foldlM (fun total key => do
    pure (total + (← m.actionCount key))) 0
  pure (groupTotal + actionTotal)

end WeighedManifest

/-- `TIER_WEIGHT_CEILINGS.get(tier)`: `True` and `1.0` are the key `1`. -/
def tierCeiling : Json → Except ClauseError (Option ℤ)
  | .int 0 => .ok (some 5)
  | .int 1 => .ok (some 30)
  | .int 2 => .ok (some 100)
  | .bool b => .ok (some (if b then 30 else 5))
  | .float x =>
      if x = .decimal 0 0 then .ok (some 5) else if x = .decimal 1 0 then .ok (some 30)
      else if x = .decimal 2 0 then .ok (some 100) else .ok none
  | .arr _ => .error .typeError
  | .obj _ => .error .typeError
  | _ => .ok none

structure ActionWeight where
  key : String
  count : ℤ
  deriving DecidableEq, Repr

structure GroupWeight where
  key : String
  weight : ℤ
  actions : List ActionWeight
  deriving DecidableEq, Repr

/-- The dictionary the phone renders. -/
structure WeightBreakdown where
  total : ℤ
  tier : Json
  tierCeiling : Option ℤ
  groups : List GroupWeight
  extraActions : List ActionWeight
  deniedActions : List Json
  deriving DecidableEq, Repr

namespace WeighedManifest

variable (m : WeighedManifest)

/-- The entry of a group: its actions in order, and their weight. -/
def weighGroup (key : Json) : Except ClauseError GroupWeight := do
  let group ← m.findGroup key
  let weighed ← group.2.foldlM (fun weighed a => do
    let count ← m.actionCount (.str a)
    pure (weighed.1 ++ [ActionWeight.mk a count], weighed.2 + count)) ([], 0)
  pure { key := group.1, weight := weighed.2, actions := weighed.1 }

/-- `clause_weight_breakdown` -/
def clauseWeightBreakdown (clause : CapabilityClause) : Except ClauseError WeightBreakdown := do
  ensure (clause.registryVersion = .str m.version)
    (.versionMismatch clause.registryVersion m.version)
  let ceiling ← tierCeiling clause.tier
  let groups ← clause.groups.foldlM (fun groups key => do
    let entry ← m.weighGroup key
    pure (groups.1 ++ [entry], groups.2 + entry.weight)) ([], 0)
  let extras ← clause.allowActions.foldlM (fun extras key => do
    let action ← m.findAction key
    pure (extras.1 ++ [ActionWeight.mk action.1 action.2.count], extras.2 + action.2.count))
    ([], groups.2)
  pure { total := extras.2, tier := clause.tier, tierCeiling := ceiling, groups := groups.1,
         extraActions := extras.1, deniedActions := clause.denyActions }

end WeighedManifest

/-! ## Loaded manifests -/

def CountsNonneg (actions : Dict String ActionDefinition) : Prop :=
  ∀ name defn, actions.get? name = some defn → 0 ≤ defn.count

def MembersIn (actions : Dict String ActionDefinition) (groups : Dict String (List String)) : Prop :=
  ∀ key names, groups.get? key = some names → ∀ a ∈ names, a ∈ actions

/-- What the loader has checked of every manifest it returns. -/
structure WeighedManifest.Loaded (m : WeighedManifest) : Prop where
  nonneg : CountsNonneg m.actions
  members : MembersIn m.actions m.groups

theorem readCount_nonneg {key : String} {x : Json} {n : ℤ} (h : readCount key x = .ok n) :
    0 ≤ n := by
  cases x with
  | int n' =>
    simp only [readCount] at h
    split_ifs at h with hneg
    obtain rfl := Except.ok.inj h
    omega
  | bool b =>
    obtain rfl := Except.ok.inj h
    split_ifs <;> norm_num
  | _ => cases h

theorem readAction_nonneg {key : String} {x : Json} {defn : ActionDefinition}
    (h : readAction key x = .ok defn) : 0 ≤ defn.count := by
  cases x with
  | obj fields =>
    simp only [readAction, Except.bind_eq_ok] at h
    obtain ⟨count, hcount, _, -, h⟩ := h
    obtain rfl := Except.pure_eq_ok.mp h
    exact readCount_nonneg hcount
  | _ => cases h

theorem mem_of_readMember {actions : Dict String ActionDefinition} {key a : String} {x : Json}
    (h : readMember actions key x = .ok a) : a ∈ actions := by
  cases x with
  | str name =>
    simp only [readMember] at h
    split_ifs at h with hmem
    exact Except.ok.inj h ▸ hmem
  | _ => cases h

theorem mem_of_readGroup {actions : Dict String ActionDefinition} {key : String} {x : Json}
    {names : List String} (h : readGroup actions key x = .ok names) : ∀ a ∈ names, a ∈ actions := by
  cases x with
  | obj fields =>
    simp only [readGroup] at h
    split at h
    · refine @foldlM_invariant _ _ _ _ (fun _ names => ∀ a ∈ names, a ∈ actions) [] (by simp) ?_ _ _ h
      intro _ names x names' hnames hstep
      obtain ⟨a, ha, hpure⟩ := Except.bind_eq_ok.mp hstep
      obtain rfl := Except.pure_eq_ok.mp hpure
      simpa [or_imp, forall_and] using ⟨hnames, mem_of_readMember ha⟩
    · cases h
  | _ => cases h

/-- A dictionary that is filled item by item holds what was read of one of them. -/
theorem get?_of_filled {α : Type} {read : String → Json → Except ManifestError α}
    {items : List (String × Json)} {d : Dict String α} {P : α → Prop}
    (h : items.foldlM (fun d item => do pure (d.set item.1 (← read item.1 item.2))) Dict.empty = .ok d)
    (hread : ∀ key x a, read key x = .ok a → P a) : ∀ key a, d.get? key = some a → P a := by
  refine @foldlM_invariant _ _ _ _ (fun _ d => ∀ key a, d.get? key = some a → P a) _ ?_ ?_ _ _ h
  · exact fun key a h => by cases h
  · intro _ d item d' hd hstep key a hkey
    obtain ⟨a', ha', hset⟩ := Except.bind_eq_ok.mp hstep
    obtain rfl := Except.pure_eq_ok.mp hset
    rw [Dict.get?_set] at hkey
    split_ifs at hkey
    · exact Option.some.inj hkey ▸ hread _ _ _ ha'
    · exact hd key a hkey

theorem loaded_of_load {raw : Json} {m : WeighedManifest} (h : loadManifestFromDict raw = .ok m) :
    m.Loaded := by
  cases raw with
  | obj fields =>
    simp only [loadManifestFromDict, Except.bind_eq_ok] at h
    obtain ⟨version, -, actionsRaw, -, actions, hactions, groupsRaw, -, groups, hgroups, h⟩ := h
    obtain rfl := Except.pure_eq_ok.mp h
    exact ⟨get?_of_filled hactions fun _ _ _ => readAction_nonneg,
      get?_of_filled hgroups fun _ _ _ => mem_of_readGroup⟩
  | _ => cases h

/-! ## The walks agree -/

theorem findKey_eq_ok {α : Type} {d : Dict String α} {missing : ClauseError} {key : Json}
    {found : String × α} (h : findKey d missing key = .ok found) :
    key = .str found.1 ∧ d.get? found.1 = some found.2 := by
  cases key with
  | str name =>
    simp only [findKey] at h
    split at h
    · rename_i value hvalue
      obtain rfl := Except.ok.inj h
      exact ⟨rfl, hvalue⟩
    · cases h
  | _ => cases h

theorem findKey_str {α : Type} {d : Dict String α} {missing : ClauseError} {name : String} {value : α}
    (h : d.get? name = some value) : findKey d missing (.str name) = .ok (name, value) := by
  simp only [findKey, h]

/-- A key is found or not, whatever is raised when it is not. -/
theorem lockstep_findKey {α : Type} (d : Dict String α) (missing missing' : ClauseError)
    (key : Json) :
    Lockstep (fun _ _ => True) (· = ·) (findKey d missing key) (findKey d missing' key) := by
  cases key with
  | str name =>
    simp only [findKey]
    cases d.get? name with
    | none => exact .error trivial
    | some value => exact .ok rfl
  | _ => exact .error trivial

namespace WeighedManifest

variable {m : WeighedManifest} {clause : CapabilityClause}

/-! ## Without the counts -/

/-- The manifest without its counts. -/
def manifest (m : WeighedManifest) : ActionManifest := ⟨m.version, m.actions.keys, m.groups⟩

theorem toOption_findGroup (key : Json) :
    (m.findGroup key).toOption.map Prod.snd = m.manifest.groupActions key := by
  cases key with
  | str name =>
    simp only [findGroup, findKey, ActionManifest.groupActions, manifest]
    cases m.groups.get? name <;> rfl
  | _ => rfl

theorem toOption_findAction (key : Json) :
    (m.findAction key).toOption.map Prod.fst = m.manifest.declared key := by
  cases key with
  | str name =>
    simp only [findAction, findKey, ActionManifest.declared, manifest, Dict.mem_keys]
    by_cases hname : name ∈ m.actions
    · obtain ⟨defn, hdefn⟩ := Dict.mem_iff.mp hname
      rw [if_pos hname, hdefn]
      rfl
    · rw [if_neg hname, Dict.get?_eq_none_iff.mpr hname]
      rfl
  | _ => rfl

/-- A loop that looks its keys up and puts a part of what it finds to what it holds. -/
theorem toOption_lookups {α β σ : Type} {find : Json → Except ClauseError α} {part : α → β}
    {read : Json → Option β} (hread : ∀ key, (find key).toOption.map part = read key)
    (put : σ → β → σ) (keys : List Json) (s : σ) :
    (keys.foldlM (fun s key => do
      let found ← find key
      pure (put s (part found))) s : Except ClauseError σ).toOption =
        (keys.mapM read).map fun parts => parts.foldl put s := by
  induction keys generalizing s with
  | nil => rfl
  | cons key keys ih =>
    rw [List.foldlM_cons, List.mapM_cons, ← hread key]
    cases find key with
    | error e => rfl
    | ok found =>
      refine (ih (put s (part found))).trans ?_
      cases keys.mapM read <;> rfl

theorem foldl_union (groups : List (List String)) (s : Finset String) :
    groups.foldl (fun s names => s ∪ names.toFinset) s = s ∪ groups.flatten.toFinset := by
  induction groups generalizing s with
  | nil => simp
  | cons names groups ih =>
    rw [List.foldl_cons, ih, List.flatten_cons, List.toFinset_append, Finset.union_assoc]

theorem foldl_insert (names : List String) (s : Finset String) :
    names.foldl (fun s name => insert name s) s = s ∪ names.toFinset := by
  induction names generalizing s with
  | nil => simp
  | cons name names ih =>
    rw [List.foldl_cons, ih, List.toFinset_cons, Finset.insert_union, Finset.union_insert]

/-- Hashable names are dropped one by one. -/
theorem foldlM_discard {names : List Json} (h : ∀ x ∈ names, Hashable x) (permitted : Finset String) :
    names.foldlM discard permitted = .ok (permitted.filter fun a => .str a ∉ names) := by
  induction names generalizing permitted with
  | nil => simp [pure, Except.pure]
  | cons x names ih =>
    obtain ⟨hx, hnames⟩ := List.forall_mem_cons.mp h
    have hstep : discard permitted x = .ok (permitted.filter fun a => .str a ≠ x) := by
      cases x with
      | str name =>
        simp only [discard]
        congr 1
        ext a
        simp [and_comm]
      | arr _ => exact hx.elim
      | obj _ => exact hx.elim
      | _ => simp [discard]
    rw [List.foldlM_cons, hstep, ok_bind, ih hnames, Finset.filter_filter]
    simp only [List.mem_cons, not_or]

/-- Without the counts the resolution is the one that scopes are evaluated by. -/
theorem resolveActions_manifest (hdeny : ∀ x ∈ clause.denyActions, Hashable x) :
    (m.resolveActions clause).toOption =
      (Capability.resolveActions clause m.manifest).map List.toFinset := by
  have hgroups : ∀ s, (clause.groups.foldlM (fun permitted key => do
      let group ← m.findGroup key
      pure (permitted ∪ group.2.toFinset)) s).toOption =
        (clause.groups.mapM m.manifest.groupActions).map fun groups => s ∪ groups.flatten.toFinset := by
    intro s
    simp only [← foldl_union]
    exact toOption_lookups toOption_findGroup (fun s names => s ∪ names.toFinset) _ s
  have hallowed : ∀ s, (clause.allowActions.foldlM (fun permitted key => do
      let action ← m.findAction key
      pure (insert action.1 permitted)) s).toOption =
        (clause.allowActions.mapM m.manifest.declared).map fun names => s ∪ names.toFinset := by
    intro s
    simp only [← foldl_insert]
    exact toOption_lookups toOption_findAction (fun s name => insert name s) _ s
  unfold resolveActions Capability.resolveActions
  by_cases hversion : clause.registryVersion = .str m.version
  · have hensure : ensure (clause.registryVersion = .str m.version)
        (ClauseError.versionMismatch clause.registryVersion m.version) = .ok () := if_pos hversion
    have hguard : (guard (clause.registryVersion = .str m.manifest.version) : Option Unit) = some () :=
      if_pos hversion
    rw [hensure, hguard, ok_bind, toOption_bind, hgroups]
    simp only [Option.bind_eq_bind, Option.bind_some]
    cases clause.groups.mapM m.manifest.groupActions with
    | none => rfl
    | some groups =>
      simp only [Option.map_some, Option.bind_some]
      rw [toOption_bind, hallowed]
      cases clause.allowActions.mapM m.manifest.declared with
      | none => rfl
      | some allowed =>
        simp only [Option.map_some, Option.bind_some, foldlM_discard hdeny]
        refine congrArg some ?_
        rw [Finset.empty_union, ← List.toFinset_append, List.toFinset_filter]
        simp
  · have hensure : ensure (clause.registryVersion = .str m.version)
        (ClauseError.versionMismatch clause.registryVersion m.version) =
          .error (.versionMismatch clause.registryVersion m.version) := if_neg hversion
    have hguard : (guard (clause.registryVersion = .str m.manifest.version) : Option Unit) = none :=
      if_neg hversion
    rw [hensure, hguard]
    rfl

/-! ## What the breakdown shows -/

/-- What an action of the manifest counts. -/
def count (m : WeighedManifest) (a : String) : ℤ := (m.actions.get? a).elim 0 ActionDefinition.count

theorem Loaded.count_nonneg (hm : m.Loaded) (a : String) : 0 ≤ m.count a := by
  unfold count
  cases h : m.actions.get? a with
  | none => exact le_rfl
  | some defn => exact hm.nonneg a defn h

theorem actionCount_str {a : String} (h : a ∈ m.actions) : m.actionCount (.str a) = .ok (m.count a) := by
  obtain ⟨defn, hdefn⟩ := Dict.mem_iff.mp h
  rw [actionCount, findKey_str hdefn, count, hdefn]
  rfl

/-- The entry of an action. -/
def entry (m : WeighedManifest) (a : String) : ActionWeight := ⟨a, m.count a⟩

theorem weighMembers {members : List String} (h : ∀ a ∈ members, a ∈ m.actions)
    (entries : List ActionWeight) (weight : ℤ) :
    members.foldlM (fun weighed a => do
      let count ← m.actionCount (.str a)
      pure (weighed.1 ++ [ActionWeight.mk a count], weighed.2 + count)) (entries, weight) =
        (.ok (entries ++ members.map m.entry, weight + (members.map m.count).sum) :
          Except ClauseError (List ActionWeight × ℤ)) := by
  induction members generalizing entries weight with
  | nil => simp [pure, Except.pure]
  | cons a members ih =>
    obtain ⟨ha, hmembers⟩ := List.forall_mem_cons.mp h
    rw [List.foldlM_cons, actionCount_str ha]
    refine (ih hmembers _ _).trans ?_
    simp [entry, add_assoc]

theorem sumMembers {members : List String} (h : ∀ a ∈ members, a ∈ m.actions) (total : ℤ) :
    members.foldlM (fun total a => do pure (total + (← m.actionCount (.str a)))) total =
      (.ok (total + (members.map m.count).sum) : Except ClauseError ℤ) := by
  induction members generalizing total with
  | nil => simp [pure, Except.pure]
  | cons a members ih =>
    obtain ⟨ha, hmembers⟩ := List.forall_mem_cons.mp h
    rw [List.foldlM_cons, actionCount_str ha]
    refine (ih hmembers _).trans ?_
    simp [add_assoc]

/-- The entry of a group of the manifest. -/
def groupEntry (m : WeighedManifest) (group : String × List String) : GroupWeight :=
  { key := group.1, weight := (group.2.map m.count).sum, actions := group.2.map m.entry }

theorem Loaded.weighGroup_eq (hm : m.Loaded) (key : Json) :
    m.weighGroup key = (m.findGroup key).map m.groupEntry := by
  cases h : m.findGroup key with
  | error e => rw [weighGroup, h]; rfl
  | ok group =>
    rw [weighGroup, h]
    have hmembers := hm.members _ _ (findKey_eq_ok h).2
    rw [ok_bind, weighMembers hmembers [] 0]
    simp only [List.nil_append, zero_add]
    rfl

theorem Loaded.lockstep_groupWeight (hm : m.Loaded) (key : Json) :
    Lockstep (fun _ _ => True) (fun weight entry => weight = entry.weight)
      (m.groupWeight key) (m.weighGroup key) := by
  rw [hm.weighGroup_eq]
  have hfind := lockstep_findKey m.groups (.keyError key) (.unknownGroup key m.version) key
  unfold groupWeight findGroup
  cases hgroup : findKey m.groups (.unknownGroup key m.version) key with
  | error e =>
    rw [hgroup] at hfind
    generalize findKey m.groups (.keyError key) key = found at hfind ⊢
    cases hfind with
    | error _ => exact .error trivial
  | ok group =>
    obtain ⟨group', hgroup', rfl⟩ := hfind.of_ok hgroup
    rw [hgroup', ok_bind, sumMembers (hm.members _ _ (findKey_eq_ok hgroup).2) 0]
    exact .ok (by simp [groupEntry])

theorem sum_insert_le {f : String → ℤ} (hf : ∀ a, 0 ≤ f a) (a : String) (s : Finset String) :
    ∑ b ∈ insert a s, f b ≤ f a + ∑ b ∈ s, f b := by
  have hfa := hf a
  by_cases hmem : a ∈ s
  · rw [Finset.insert_eq_of_mem hmem]
    omega
  · rw [Finset.sum_insert hmem]

theorem sum_toFinset_le {f : String → ℤ} (hf : ∀ a, 0 ≤ f a) (names : List String) :
    ∑ a ∈ names.toFinset, f a ≤ (names.map f).sum := by
  induction names with
  | nil => simp
  | cons a names ih =>
    rw [List.toFinset_cons, List.map_cons, List.sum_cons]
    have hinsert := sum_insert_le hf a names.toFinset
    omega

/-- What is resolved so far weighs no more than what is shown so far. -/
structure Shown (m : WeighedManifest) (permitted : Finset String) (groups : List GroupWeight)
    (extras : List ActionWeight) (total : ℤ) : Prop where
  declared : ∀ a ∈ permitted, a ∈ m.actions
  added : total = (groups.map GroupWeight.weight).sum + (extras.map ActionWeight.count).sum
  entries : ∀ g ∈ groups, g.weight = (g.actions.map ActionWeight.count).sum
  covered : ∑ a ∈ permitted, m.count a ≤ total

theorem shown_start : m.Shown ∅ [] [] 0 := ⟨by simp, by simp, by simp, by simp⟩

theorem Shown.group (hm : m.Loaded) {permitted : Finset String} {groups : List GroupWeight}
    {extras : List ActionWeight} {total : ℤ} (h : m.Shown permitted groups extras total)
    {group : String × List String} (hgroup : m.groups.get? group.1 = some group.2) :
    m.Shown (permitted ∪ group.2.toFinset) (groups ++ [m.groupEntry group]) extras
      (total + (m.groupEntry group).weight) := by
  have hmembers := hm.members _ _ hgroup
  refine ⟨?_, ?_, ?_, ?_⟩
  · simpa [or_imp, forall_and] using ⟨h.declared, hmembers⟩
  · rw [h.added]
    simp
    ring
  · simp only [List.mem_append, List.mem_singleton, or_imp, forall_and, forall_eq]
    exact ⟨h.entries, by simp [groupEntry, entry, Function.comp_def]⟩
  · have hunion : ∑ a ∈ permitted ∪ group.2.toFinset, m.count a ≤
        ∑ a ∈ permitted, m.count a + ∑ a ∈ group.2.toFinset, m.count a := by
      rw [← Finset.sum_union_inter]
      have hinter : 0 ≤ ∑ a ∈ permitted ∩ group.2.toFinset, m.count a :=
        Finset.sum_nonneg fun a _ => hm.count_nonneg a
      omega
    have hgroup : ∑ a ∈ group.2.toFinset, m.count a ≤ (group.2.map m.count).sum :=
      sum_toFinset_le hm.count_nonneg group.2
    have hcovered := h.covered
    simp only [groupEntry]
    omega

theorem Shown.extra (hm : m.Loaded) {permitted : Finset String} {groups : List GroupWeight}
    {extras : List ActionWeight} {total : ℤ} (h : m.Shown permitted groups extras total)
    {a : String} (ha : a ∈ m.actions) :
    m.Shown (insert a permitted) groups (extras ++ [m.entry a]) (total + m.count a) := by
  refine ⟨?_, ?_, h.entries, ?_⟩
  · simpa [or_imp, forall_and] using ⟨ha, h.declared⟩
  · rw [h.added]
    simp [entry]
    ring
  · have hcovered := h.covered
    have hinsert := sum_insert_le hm.count_nonneg a permitted
    omega

theorem tierCeiling_ok {tier : Json} (h : Hashable tier) : ∃ ceiling, tierCeiling tier = .ok ceiling := by
  cases tier with
  | int n =>
    unfold tierCeiling
    split <;> first | exact ⟨_, rfl⟩ | simp_all
  | float x =>
    simp only [tierCeiling]
    split_ifs <;> exact ⟨_, rfl⟩
  | arr _ => exact h.elim
  | obj _ => exact h.elim
  | _ => exact ⟨_, rfl⟩

theorem Shown.mono (hm : m.Loaded) {permitted rest : Finset String} {groups : List GroupWeight}
    {extras : List ActionWeight} {total : ℤ} (h : m.Shown permitted groups extras total)
    (hrest : rest ⊆ permitted) : m.Shown rest groups extras total :=
  ⟨fun a ha => h.declared a (hrest ha), h.added, h.entries,
    (Finset.sum_le_sum_of_subset_of_nonneg hrest fun a _ _ => hm.count_nonneg a).trans h.covered⟩

/-- The two walks stop at the same fault; without one, the breakdown covers what is resolved. -/
theorem lockstep_breakdown (hm : m.Loaded) (htier : Hashable clause.tier)
    (hdeny : ∀ x ∈ clause.denyActions, Hashable x) :
    Lockstep (· = ·) (fun permitted b => m.Shown permitted b.groups b.extraActions b.total)
      (m.resolveActions clause) (m.clauseWeightBreakdown clause) := by
  obtain ⟨ceiling, hceiling⟩ := tierCeiling_ok htier
  unfold resolveActions clauseWeightBreakdown
  refine (Lockstep.ensure rfl).bind fun _ _ _ => ?_
  rw [hceiling, ok_bind]
  have hgroups : Lockstep (· = ·) (fun permitted groups => m.Shown permitted groups.1 [] groups.2)
      (clause.groups.foldlM (fun permitted key => do
        let group ← m.findGroup key
        pure (permitted ∪ group.2.toFinset)) ∅)
      (clause.groups.foldlM (fun groups key => do
        let entry ← m.weighGroup key
        pure (groups.1 ++ [entry], groups.2 + entry.weight)) ([], 0)) := by
    refine Lockstep.foldlM (fun permitted groups key h => ?_) shown_start
    rw [hm.weighGroup_eq]
    cases hgroup : m.findGroup key with
    | error e => exact .error rfl
    | ok group => exact .ok (h.group hm (findKey_eq_ok hgroup).2)
  refine hgroups.bind fun permitted groups h => ?_
  have hextras : Lockstep (· = ·)
      (fun permitted extras => m.Shown permitted groups.1 extras.1 extras.2)
      (clause.allowActions.foldlM (fun permitted key => do
        let action ← m.findAction key
        pure (insert action.1 permitted)) permitted)
      (clause.allowActions.foldlM (fun extras key => do
        let action ← m.findAction key
        pure (extras.1 ++ [ActionWeight.mk action.1 action.2.count], extras.2 + action.2.count))
        ([], groups.2)) := by
    refine Lockstep.foldlM (fun permitted extras key h => ?_) h
    cases haction : m.findAction key with
    | error e => exact .error rfl
    | ok action =>
      have hget := (findKey_eq_ok haction).2
      have hcount : m.count action.1 = action.2.count := by rw [count, hget]; rfl
      have hnext := h.extra hm (Dict.mem_of_get? hget)
      rw [entry, hcount] at hnext
      exact .ok hnext
  refine hextras.bind fun permitted extras h => ?_
  rw [foldlM_discard hdeny]
  exact .ok (h.mono hm (Finset.filter_subset _ _))

/-- The total shown is the weight the manifest gives the clause. -/
theorem capabilityWeight_eq (hm : m.Loaded) {b : WeightBreakdown}
    (h : m.clauseWeightBreakdown clause = .ok b) : m.capabilityWeight clause = .ok b.total := by
  simp only [clauseWeightBreakdown, Except.bind_eq_ok] at h
  obtain ⟨-, -, ceiling, -, groups, hgroups, extras, hextras, h⟩ := h
  obtain rfl := Except.pure_eq_ok.mp h
  have hgroupTotal : Lockstep (fun _ _ => True) (fun total groups => total = groups.2)
      (clause.groups.foldlM (fun total key => do pure (total + (← m.groupWeight key))) 0)
      (clause.groups.foldlM (fun groups key => do
        let entry ← m.weighGroup key
        pure (groups.1 ++ [entry], groups.2 + entry.weight)) ([], 0)) := by
    refine Lockstep.foldlM (fun total groups key h => ?_) rfl
    exact (hm.lockstep_groupWeight key).bind fun weight entry hweight => .ok (by rw [h, hweight])
  obtain ⟨groupTotal, hgroupTotal, rfl⟩ := hgroupTotal.of_ok hgroups
  have hactionTotal : Lockstep (fun _ _ => True) (fun total extras => groups.2 + total = extras.2)
      (clause.allowActions.foldlM (fun total key => do pure (total + (← m.actionCount key))) 0)
      (clause.allowActions.foldlM (fun extras key => do
        let action ← m.findAction key
        pure (extras.1 ++ [ActionWeight.mk action.1 action.2.count], extras.2 + action.2.count))
        ([], groups.2)) := by
    refine Lockstep.foldlM (fun total extras key h => ?_) (add_zero groups.2)
    have hfind := lockstep_findKey m.actions (.keyError key) (.unknownAction key m.version) key
    unfold actionCount findAction
    rw [bind_assoc]
    refine hfind.bind fun found action hfound => ?_
    subst hfound
    exact .ok (by rw [← h, add_assoc])
  obtain ⟨actionTotal, hactionTotal, htotal⟩ := hactionTotal.of_ok hextras
  rw [capabilityWeight, hgroupTotal, ok_bind, hactionTotal]
  exact congrArg Except.ok htotal

/-- For a loaded manifest and a clause that can be hashed, the breakdown fails exactly as the
resolution does; its total is the capability's weight, the sum of its own entries, and at least
what the permitted actions count. -/
theorem weight_covers {raw : Json} (hload : loadManifestFromDict raw = .ok m)
    (htier : Hashable clause.tier) (hdeny : ∀ x ∈ clause.denyActions, Hashable x) :
    (∀ e, m.clauseWeightBreakdown clause = .error e ↔ m.resolveActions clause = .error e) ∧
      ∀ b, m.clauseWeightBreakdown clause = .ok b →
        m.capabilityWeight clause = .ok b.total ∧
        b.total = (b.groups.map GroupWeight.weight).sum + (b.extraActions.map ActionWeight.count).sum ∧
        (∀ g ∈ b.groups, g.weight = (g.actions.map ActionWeight.count).sum) ∧
        ∃ permitted, m.resolveActions clause = .ok permitted ∧ (∀ a ∈ permitted, a ∈ m.actions) ∧
          ∑ a ∈ permitted, m.count a ≤ b.total := by
  have hm := loaded_of_load hload
  have hwalks := lockstep_breakdown hm htier hdeny
  refine ⟨fun e => (hwalks.error_iff e).symm, fun b hb => ?_⟩
  obtain ⟨permitted, hpermitted, hshown⟩ := hwalks.of_ok hb
  exact ⟨capabilityWeight_eq hm hb, hshown.added, hshown.entries, permitted, hpermitted,
    hshown.declared, hshown.covered⟩

/-- Two groups that share an action. -/
def sampleRaw : Json :=
  .obj [("version", .str "v1"),
    ("actions", .obj [("doc:edit", .obj [("count", .int 1)]), ("doc:drop", .obj [("count", .int 5)])]),
    ("groups", .obj [("docs", .obj [("actions", .arr [.str "doc:edit", .str "doc:drop"])]),
      ("edits", .obj [("actions", .arr [.str "doc:edit"])])])]

def sampleManifest : WeighedManifest where
  version := "v1"
  actions := ⟨[("doc:edit", ⟨1, ""⟩), ("doc:drop", ⟨5, ""⟩)], by decide⟩
  groups := ⟨[("docs", ["doc:edit", "doc:drop"]), ("edits", ["doc:edit"])], by decide⟩

/-- Both groups and one of their actions again, one action denied. -/
def sampleClause : CapabilityClause where
  tier := .int 1
  registryVersion := .str "v1"
  groups := [.str "docs", .str "edits"]
  scope := { env := [], services := [], repos := [], createForOwner := .null, chatRoomId := .null,
             targetUserId := .null, pairingCode := .null, payloadSha256 := .null }
  allowActions := [.str "doc:edit"]
  denyActions := [.str "doc:drop"]
  limits := { perHour := [], perDay := [], perSession := [] }

def sampleBreakdown : WeightBreakdown where
  total := 8
  tier := .int 1
  tierCeiling := some 30
  groups := [⟨"docs", 6, [⟨"doc:edit", 1⟩, ⟨"doc:drop", 5⟩]⟩, ⟨"edits", 1, [⟨"doc:edit", 1⟩]⟩]
  extraActions := [⟨"doc:edit", 1⟩]
  deniedActions := [.str "doc:drop"]

theorem weight_covers_sample :
    sampleManifest.capabilityWeight sampleClause = .ok 8 ∧
      ∃ permitted, sampleManifest.resolveActions sampleClause = .ok permitted ∧
        ∑ a ∈ permitted, sampleManifest.count a ≤ 8 := by
  have hload : loadManifestFromDict sampleRaw = .ok sampleManifest := by decide +kernel
  have hdeny : ∀ x ∈ sampleClause.denyActions, Hashable x := by simp [sampleClause, Hashable]
  have htier : Hashable sampleClause.tier := trivial
  have hshown : sampleManifest.clauseWeightBreakdown sampleClause = .ok sampleBreakdown := by
    decide +kernel
  obtain ⟨hweight, -, -, permitted, hpermitted, -, hle⟩ :=
    (weight_covers hload htier hdeny).2 _ hshown
  exact ⟨hweight, permitted, hpermitted, hle⟩

end WeighedManifest

end Capability
end Recto
