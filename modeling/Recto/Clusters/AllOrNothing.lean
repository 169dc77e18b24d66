import Recto.Clusters.Registry

/-!
# All or nothing

An operation of the cluster registry edits the records before it persists them, so a
write that raises leaves the edit behind. A run is all or nothing exactly when every
operation whose write raises would have edited nothing.
-/

namespace Recto
namespace Clusters

variable {c : Deployment}

/-- What the claim on the registry asks of a run. -/
structure AllOrNothing (c : Deployment) (calls : List RegistryCall) : Prop where
  /-- A call that raises leaves the records as they were. -/
  undone : ∀ before call after, calls = before ++ call :: after → ∀ e,
    ((registryRun c before).registry.step c call).2 = .error e →
      ((registryRun c before).registry.step c call).1.records =
        (registryRun c before).registry.records
  /-- The records are those of the file, after any of the calls. -/
  filed : ∀ before after, calls = before ++ after →
    (registryRun c before).registry.records = loadRecords (registryRun c before).registry.file
  /-- The token of every record was returned. -/
  returned : ∀ before after, calls = before ++ after → ∀ id r,
    (registryRun c before).registry.records.get? id = some r →
      ∃ token ∈ (registryRun c before).tokens, r.heartbeatTokenSha256 = c.sha256Hex token

/-- One of the writes that the call would make raises. -/
def Writes.Raise (c : Deployment) (w : Writes) : Prop :=
  w.registryRaises = true ∨ c.projects = true ∧ w.projectionRaises = true

instance (c : Deployment) (w : Writes) : Decidable (w.Raise c) :=
  inferInstanceAs (Decidable (_ ∨ _ ∧ _))

/-- Where a write raises, the operation edits nothing. -/
def ClusterRegistry.Meets (c : Deployment) (s : ClusterRegistry) : RegistryCall → Prop
  | .operate op w => w.Raise c → ∀ e, edit c s.records op = .ok e → e.records = s.records
  | .reload => True

/-- Every call of the run meets it. -/
def MeetsAll (c : Deployment) (calls : List RegistryCall) : Prop :=
  ∀ before call after, calls = before ++ call :: after →
    (registryRun c before).registry.Meets c call

/-! ## Reading back what was written -/

/-- Every record stands under its own id. -/
def Keyed (records : Dict String ClusterRecord) : Prop :=
  ∀ id r, records.get? id = some r → r.clusterId = id

theorem Keyed.empty : Keyed ∅ := by
  intro id r hr
  simp at hr

theorem Keyed.set {records : Dict String ClusterRecord} (h : Keyed records) {id : String}
    {r : ClusterRecord} (hid : r.clusterId = id) : Keyed (records.set id r) := by
  intro k x hx
  rw [Dict.get?_set] at hx
  split_ifs at hx with hk
  · rw [← Option.some.inj hx, hk, hid]
  · exact h k x hx

theorem setItem_of_notMem {κ ν : Type*} [DecidableEq κ] {k : κ} (v : ν) {items : List (κ × ν)}
    (h : k ∉ items.map Prod.fst) : setItem k v items = items ++ [(k, v)] := by
  induction items with
  | nil => rfl
  | cons item items ih =>
    obtain ⟨k', v'⟩ := item
    simp only [List.map_cons, List.mem_cons, not_or] at h
    rw [setItem, if_neg (Ne.symm h.1), ih h.2, List.cons_append]

theorem foldl_set_items (items : List (String × ClusterRecord)) (d : Dict String ClusterRecord)
    (hkeyed : ∀ item ∈ items, item.2.clusterId = item.1)
    (hnodup : ((d.items ++ items).map Prod.fst).Nodup) :
    ((items.map Prod.snd).foldl (fun d r => d.set r.clusterId r) d).items = d.items ++ items := by
  induction items generalizing d with
  | nil => simp
  | cons item items ih =>
    obtain ⟨id, r⟩ := item
    have hid : r.clusterId = id := hkeyed (id, r) List.mem_cons_self
    have hnew : id ∉ d.items.map Prod.fst := by
      rw [List.map_append, List.nodup_append] at hnodup
      exact fun hmem => hnodup.2.2 id hmem id (by simp) rfl
    have hset : (d.set r.clusterId r).items = d.items ++ [(id, r)] := by
      rw [hid]
      exact setItem_of_notMem r hnew
    rw [List.map_cons, List.foldl_cons, ih _ (fun i hi => hkeyed i (List.mem_cons_of_mem _ hi)),
      hset, List.append_assoc, List.singleton_append]
    rw [hset, List.append_assoc]
    exact hnodup

/-- The records that were written are read back. -/
theorem loadRecords_values {records : Dict String ClusterRecord} (h : Keyed records) (now : ℤ) :
    loadRecords (some ⟨now, records.values⟩) = records := by
  refine Dict.ext ?_
  refine (foldl_set_items records.items ∅ ?_ ?_).trans (by simp)
  · intro item hitem
    exact h item.1 item.2 (Dict.get?_eq_some_iff.mpr hitem)
  · simpa using records.nodup

/-! ## Edits -/

theorem authenticated_eq_ok {records : Dict String ClusterRecord} {id token : String}
    {r : ClusterRecord} (h : authenticated c records id token = .ok r) :
    records.get? id = some r := by
  rw [authenticated] at h
  split at h
  · cases h
  · split_ifs at h
    rwa [← Except.ok.inj h]

/-- What an edit does to the records: each stands under its id, with the token it had or the one
that the call will return. -/
structure Edit.Fits (c : Deployment) (records : Dict String ClusterRecord) (e : Edit) : Prop where
  keyed : Keyed e.records
  token : ∀ id r, e.records.get? id = some r →
    (∃ old, records.get? id = some old ∧ r.heartbeatTokenSha256 = old.heartbeatTokenSha256) ∨
      ∃ stored token, e.returns = .registered stored token ∧
        r.heartbeatTokenSha256 = c.sha256Hex token

/-- A record put in place of one with the same id and token. -/
theorem Edit.Fits.replace {records : Dict String ClusterRecord} (hkeyed : Keyed records)
    {id : String} {old : ClusterRecord} (hget : records.get? id = some old) {r : ClusterRecord}
    (hid : r.clusterId = old.clusterId)
    (htoken : r.heartbeatTokenSha256 = old.heartbeatTokenSha256) (returns : Returned) :
    Edit.Fits c records ⟨records.set id r, returns, true⟩ where
  keyed := hkeyed.set (hid.trans (hkeyed id old hget))
  token := by
    intro k x hx
    rw [Dict.get?_set] at hx
    split_ifs at hx with hk
    · subst hk
      exact .inl ⟨old, hget, by rw [← Option.some.inj hx, htoken]⟩
    · exact .inl ⟨x, hx, rfl⟩

theorem editReap_fits {records : Dict String ClusterRecord} (hkeyed : Keyed records) (now : ℤ) :
    (editReap records now).Fits c records where
  keyed := by
    intro id r hr
    simp only [editReap, Dict.get?_mapValues, Option.map_eq_some_iff] at hr
    obtain ⟨old, hold, rfl⟩ := hr
    split_ifs
    · exact hkeyed id old hold
    · exact hkeyed id old hold
  token := by
    intro id r hr
    simp only [editReap, Dict.get?_mapValues, Option.map_eq_some_iff] at hr
    obtain ⟨old, hold, rfl⟩ := hr
    refine .inl ⟨old, hold, ?_⟩
    split_ifs <;> rfl

theorem edit_fits {records : Dict String ClusterRecord} (hkeyed : Keyed records) {op : Operation}
    {e : Edit} (h : edit c records op = .ok e) : e.Fits c records := by
  cases op with
  | register names endpoints metadata leaseTtlSeconds token now =>
    simp only [edit, editRegister] at h
    split at h
    · cases h
    · split_ifs at h
      obtain rfl := Except.ok.inj h
      refine ⟨hkeyed.set rfl, ?_⟩
      intro id r hr
      rw [Dict.get?_set] at hr
      split_ifs at hr
      · exact .inr ⟨_, token, rfl, by rw [← Option.some.inj hr]⟩
      · exact .inl ⟨r, hr, rfl⟩
  | heartbeat id token endpoints metadata now =>
    obtain ⟨r, hr, h⟩ := Except.bind_eq_ok.mp h
    split_ifs at h
    obtain rfl := Except.pure_eq_ok.mp h
    refine .replace hkeyed (authenticated_eq_ok hr) ?_ ?_ _ <;> rfl
  | retire id token reason now =>
    obtain ⟨r, hr, h⟩ := Except.bind_eq_ok.mp h
    obtain rfl := Except.pure_eq_ok.mp h
    refine .replace hkeyed (authenticated_eq_ok hr) ?_ ?_ _ <;> rfl
  | reap now =>
    obtain rfl := Except.ok.inj h
    exact editReap_fits hkeyed now

/-- An edit that is not persisted changes nothing, and its call returns no token. -/
theorem edit_idle {records : Dict String ClusterRecord} {op : Operation} {e : Edit}
    (h : edit c records op = .ok e) (hidle : e.persists = false) :
    e.records = records ∧ tokenReturned (.ok e.returns) = [] := by
  cases op with
  | register names endpoints metadata leaseTtlSeconds token now =>
    simp only [edit, editRegister] at h
    split at h
    · cases h
    · split_ifs at h
      obtain rfl := Except.ok.inj h
      cases hidle
  | heartbeat id token endpoints metadata now =>
    obtain ⟨r, -, h⟩ := Except.bind_eq_ok.mp h
    split_ifs at h
    obtain rfl := Except.pure_eq_ok.mp h
    cases hidle
  | retire id token reason now =>
    obtain ⟨r, -, h⟩ := Except.bind_eq_ok.mp h
    obtain rfl := Except.pure_eq_ok.mp h
    cases hidle
  | reap now =>
    obtain rfl := Except.ok.inj h
    refine ⟨?_, rfl⟩
    simp only [editReap, Bool.not_eq_false', List.isEmpty_iff, List.filter_eq_nil_iff] at hidle
    have hsame : ∀ item ∈ records.items,
        (item.1, if item.2.lapsed now then { item.2 with status := .orphaned } else item.2) = item := by
      intro item hitem
      rw [if_neg (hidle item.2 (List.mem_map.mpr ⟨item, hitem, rfl⟩))]
    exact Dict.ext ((List.map_congr_left hsame).trans (List.map_id _))

/-! ## Persisting -/

/-- Where no write raises, the file holds the records of the memory. -/
theorem persist_of_not_raise {w : Writes} (h : ¬w.Raise c) (s : ClusterRegistry) :
    (persist c w s).2 = .ok () ∧ (persist c w s).1.records = s.records ∧
      (persist c w s).1.file = some ⟨w.updatedAtUnix, s.records.values⟩ := by
  have hregistry : w.registryRaises = false := by
    by_contra hne
    exact h (.inl (by simpa using hne))
  rw [persist, hregistry, exportProjection]
  by_cases hprojects : c.projects = true
  · have hprojection : w.projectionRaises = false := by
      by_contra hne
      exact h (.inr ⟨hprojects, by simpa using hne⟩)
    simp [hprojects, hprojection]
  · simp [hprojects]

/-- Where one raises, the call does; the file is as it was or holds the records of the memory. -/
theorem persist_of_raise {w : Writes} (h : w.Raise c) (s : ClusterRegistry) :
    (persist c w s).2 = .error .osError ∧ (persist c w s).1.records = s.records ∧
      ((persist c w s).1.file = s.file ∨
        (persist c w s).1.file = some ⟨w.updatedAtUnix, s.records.values⟩) := by
  rw [persist]
  by_cases hregistry : w.registryRaises = true
  · simp [hregistry]
  · obtain ⟨hprojects, hprojection⟩ := h.resolve_left hregistry
    simp [hregistry, exportProjection, hprojects, hprojection]

/-! ## Runs -/

/-- What the file and the tokens hold against the records. -/
structure RegistryRun.Kept (c : Deployment) (s : RegistryRun) : Prop where
  keyed : Keyed s.registry.records
  filed : s.registry.records = loadRecords s.registry.file
  returned : ∀ id r, s.registry.records.get? id = some r →
    ∃ token ∈ s.tokens, r.heartbeatTokenSha256 = c.sha256Hex token

/-- It is about the records, the file's records and the tokens only. -/
theorem RegistryRun.Kept.congr {s s' : RegistryRun} (h : s.Kept c)
    (hrecords : s'.registry.records = s.registry.records)
    (hfiled : loadRecords s'.registry.file = s.registry.records) (htokens : s'.tokens = s.tokens) :
    s'.Kept c where
  keyed := by
    rw [hrecords]
    exact h.keyed
  filed := hrecords.trans hfiled.symm
  returned := by
    rw [hrecords, htokens]
    exact h.returned

/-- The call persists its edit. -/
theorem step_of_persists {s : ClusterRegistry} {op : Operation} {w : Writes} {e : Edit}
    (hedit : edit c s.records op = .ok e) (hpersists : e.persists = true) :
    s.step c (.operate op w) =
      ((persist c w { s with records := e.records }).1,
        (persist c w { s with records := e.records }).2.map fun _ => e.returns) := by
  simp only [ClusterRegistry.step, hedit, hpersists, if_true]

/-- A write raises, and the edit is none. -/
theorem RegistryRun.Kept.raised {s : RegistryRun} (h : s.Kept c) {op : Operation} {w : Writes}
    {e : Edit} (hedit : edit c s.registry.records op = .ok e) (hpersists : e.persists = true)
    (hraise : w.Raise c) (hsame : e.records = s.registry.records) :
    (s.next c (.operate op w)).Kept c ∧
      (s.registry.step c (.operate op w)).1.records = s.registry.records := by
  obtain ⟨hout, hrecords, hfile⟩ :=
    persist_of_raise hraise { s.registry with records := e.records }
  have hstep := step_of_persists (w := w) hedit hpersists
  have hkept : (s.registry.step c (.operate op w)).1.records = s.registry.records := by
    rw [hstep]
    exact hrecords.trans hsame
  refine ⟨h.congr hkept ?_ ?_, hkept⟩
  · show loadRecords (s.registry.step c (.operate op w)).1.file = s.registry.records
    rw [hstep]
    rcases hfile with hfile | hfile
    · rw [hfile]
      exact h.filed.symm
    · rw [hfile, hsame]
      exact loadRecords_values h.keyed w.updatedAtUnix
  · simp [RegistryRun.next, hstep, hout, Except.map, tokenReturned]

/-- The writes land, and the answer carries the token of a new record. -/
theorem RegistryRun.Kept.landed {s : RegistryRun} (h : s.Kept c) {op : Operation} {w : Writes}
    {e : Edit} (hedit : edit c s.registry.records op = .ok e) (hpersists : e.persists = true)
    (hraise : ¬w.Raise c) :
    (s.next c (.operate op w)).Kept c ∧
      (s.registry.step c (.operate op w)).2 = .ok e.returns := by
  obtain ⟨hout, hrecords, hfile⟩ :=
    persist_of_not_raise hraise { s.registry with records := e.records }
  have hfits := edit_fits h.keyed hedit
  have hstep := step_of_persists (w := w) hedit hpersists
  have hnext : s.next c (.operate op w) =
      ⟨(persist c w { s.registry with records := e.records }).1,
        s.tokens ++ tokenReturned (.ok e.returns)⟩ := by
    simp [RegistryRun.next, hstep, hout, Except.map]
  rw [hnext, hstep]
  refine ⟨⟨hrecords ▸ hfits.keyed, ?_, ?_⟩, by simp [hout, Except.map]⟩
  · rw [hrecords, hfile]
    exact (loadRecords_values hfits.keyed _).symm
  · intro id r hr
    have hget : e.records.get? id = some r := by
      rw [← hr]
      exact congrArg (Dict.get? · id) hrecords.symm
    rcases hfits.token id r hget with ⟨old, hold, htoken⟩ | ⟨stored, token, hreturns, htoken⟩
    · obtain ⟨token, hmem, hhash⟩ := h.returned id old hold
      exact ⟨token, List.mem_append_left _ hmem, htoken.trans hhash⟩
    · refine ⟨token, List.mem_append_right _ ?_, htoken⟩
      simp [hreturns, tokenReturned]

/-- A call that meets the condition keeps it, and leaves the records where it raises. -/
theorem RegistryRun.Kept.next {s : RegistryRun} (h : s.Kept c) {call : RegistryCall}
    (hmeets : s.registry.Meets c call) :
    (s.next c call).Kept c ∧ ∀ e, (s.registry.step c call).2 = .error e →
      (s.registry.step c call).1.records = s.registry.records := by
  cases call with
  | reload =>
    refine ⟨h.congr h.filed.symm h.filed.symm ?_, by simp [ClusterRegistry.step]⟩
    simp [RegistryRun.next, ClusterRegistry.step, tokenReturned]
  | operate op w =>
    cases hedit : edit c s.registry.records op with
    | error e =>
      have hstep : s.registry.step c (.operate op w) = (s.registry, .error e) := by
        simp only [ClusterRegistry.step, hedit]
      have hnext : s.next c (.operate op w) = s := by
        simp [RegistryRun.next, hstep, tokenReturned]
      rw [hnext, hstep]
      exact ⟨h, fun _ _ => rfl⟩
    | ok e =>
      by_cases hpersists : e.persists = true
      · by_cases hraise : w.Raise c
        · obtain ⟨hkept, hrecords⟩ := h.raised hedit hpersists hraise (hmeets hraise e hedit)
          exact ⟨hkept, fun _ _ => hrecords⟩
        · obtain ⟨hkept, hout⟩ := h.landed hedit hpersists hraise
          exact ⟨hkept, fun x herror => by simp [hout] at herror⟩
      · obtain ⟨hsame, htokens⟩ := edit_idle hedit (by simpa using hpersists)
        have hstep : s.registry.step c (.operate op w) = (s.registry, .ok e.returns) := by
          simp [ClusterRegistry.step, hedit, hpersists, hsame]
        have hnext : s.next c (.operate op w) = s := by
          simp [RegistryRun.next, hstep, htokens]
        rw [hnext, hstep]
        exact ⟨h, by simp⟩

theorem registryRun_concat (calls : List RegistryCall) (call : RegistryCall) :
    registryRun c (calls ++ [call]) = (registryRun c calls).next c call := by
  rw [registryRun, List.foldl_append]
  rfl

theorem MeetsAll.before {before after : List RegistryCall} (h : MeetsAll c (before ++ after)) :
    MeetsAll c before := by
  rintro first call rest rfl
  exact h first call (rest ++ after) (by rw [List.append_assoc, List.cons_append])

theorem kept_registryRun {calls : List RegistryCall} (h : MeetsAll c calls) :
    (registryRun c calls).Kept c := by
  induction calls using List.reverseRecOn with
  | nil => exact ⟨Keyed.empty, rfl, by simp [registryRun, ClusterRegistry.init]⟩
  | append_singleton calls call ih =>
    rw [registryRun_concat]
    exact ((ih h.before).next (h calls call [] rfl)).1

/-- A deployment with a projection; the digest is a stand-in. -/
def sampleDeployment : Deployment where
  tables := .ascii
  sha256 raw := raw.take 32
  projects := true
  defaultLeaseTtlSeconds := 180

/-- A cluster is registered while the registry file cannot be written. -/
def sampleRegistration : RegistryCall :=
  .operate (.register ⟨"ncus", "01", "Blue"⟩ none none none "token" 1000) { registryRaises := true }

end Clusters
end Recto
