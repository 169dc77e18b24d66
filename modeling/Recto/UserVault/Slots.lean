import Recto.UserVault.Watch

/-!
# The slots of the user vault

The three handlers are served side by side. A grant that the store has dropped
or the list has ended stays over as long as every put finds the live grants of
its slot among those its own request has listed; where another grant was put in
between, the one it drops was never revoked and can be sent again.
-/

namespace Recto
namespace UserVault

open Capability Grants State

/-! ## What a history shows -/

section
variable {ι : Type}

/-- The grant an event stored. -/
def stored : Event ι Query Answer Moment → Option VaultGrant
  | ⟨_, _, .putGrant g, _⟩ => some g
  | _ => none

/-- The grants an event listed. -/
def listing : Event ι Query Answer Moment → List VaultGrant
  | ⟨_, _, .listGrants _ _, (grants : List VaultGrant)⟩ => grants
  | _ => []

/-- Whose grants an event listed. -/
def listedFor : Event ι Query Answer Moment → Option (String × String)
  | ⟨_, _, .listGrants consumer subject, _⟩ => some (consumer, subject)
  | _ => none

/-- The grants whose end an event answered. -/
def told : Event ι Query Answer Moment → List String
  | ⟨_, _, .send (.grantRevoked grantId), _⟩ => [grantId]
  | ⟨_, _, .send (.stopped grantIds), _⟩ => grantIds
  | _ => []

/-- The event answered a stop-all. -/
def stopAnswered : Event ι Query Answer Moment → Bool
  | ⟨_, _, .send (.stopped _), _⟩ => true
  | _ => false

/-- No grant of the id is live now or later. -/
def Over (backend : RevocationBackend) (c : Server ι) (grantId : String) : Prop :=
  ∀ now, (∀ e ∈ c.trace, e.env.now ≤ now) → ∀ g, g.grantId = grantId →
    ¬ Live backend c.shared now g

/-- One grant of a slot is live at most; what a newer grant of the slot superseded, what a revoke or
a stop-all answered, and what stood for the key when an answered stop-all listed it, is over. -/
structure SlotsHold (backend : RevocationBackend) (requests : ι → VaultRequest) (c : Server ι) :
    Prop where
  oneLive : ∀ now g g', Live backend c.shared now g → Live backend c.shared now g' →
    g.record.slot = g'.record.slot → g = g'
  superseded : ∀ earlier e later, c.trace = earlier ++ e :: later → ∀ g' ∈ stored e,
    ∀ e₀ ∈ earlier, ∀ g ∈ stored e₀, g.record.slot = g'.record.slot → g.grantId ≠ g'.grantId →
      Over backend c g.grantId
  answered : ∀ e ∈ c.trace, ∀ grantId ∈ told e, Over backend c grantId
  stopped : ∀ earlier e later, c.trace = earlier ++ e :: later → listedFor e ≠ none →
    (∃ e' ∈ later, e'.thread = e.thread ∧ stopAnswered e' = true) →
    ∀ record ∈ (requests e.thread).stopRecord, ∀ e₀ ∈ earlier, ∀ g ∈ stored e₀,
      (g.record.consumer, g.record.subject) = (record.consumer, record.subject) →
      g.record.key = record.key → Over backend c g.grantId

/-- A put and a later put of another grant for its slot, by where they stand in the history. -/
theorem SlotsHold.superseded_at {backend : RevocationBackend} {requests : ι → VaultRequest}
    {c : Server ι} (h : SlotsHold backend requests c) {m n : ℕ} {g g' : VaultGrant}
    (hg : c.trace[m]?.bind stored = some g) (hg' : c.trace[n]?.bind stored = some g') (hmn : m < n)
    (hslot : g.record.slot = g'.record.slot) (hid : g.grantId ≠ g'.grantId) :
    Over backend c g.grantId := by
  obtain ⟨e₀, he₀, hg⟩ := Option.bind_eq_some_iff.mp hg
  obtain ⟨e, he, hg'⟩ := Option.bind_eq_some_iff.mp hg'
  obtain ⟨hn, rfl⟩ := List.getElem?_eq_some_iff.mp he
  have hsplit : c.trace = c.trace.take n ++ c.trace[n] :: c.trace.drop (n + 1) := by
    rw [← List.drop_eq_getElem_cons hn, List.take_append_drop]
  have hmem : e₀ ∈ c.trace.take n := List.mem_of_getElem? (by rwa [List.getElem?_take_of_lt hmn])
  exact h.superseded _ _ _ hsplit g' hg' e₀ hmem g hg hslot hid

/-- The grants a request has listed so far. -/
def listedBy [DecidableEq ι] (c : Server ι) (i : ι) : List VaultGrant :=
  (c.trace.filter fun e => e.thread = i).flatMap listing

/-- Where the next call stores a grant, its request has listed every other live grant of the
slot. -/
def PutFindsListed [DecidableEq ι] (backend : RevocationBackend) (c : Server ι)
    (turn : ι × Moment) : Prop :=
  match c.threads turn.1 with
  | .call (.putGrant g) _ => ∀ old ∈ c.shared.grants, Live backend c.shared turn.2.now old →
      old.record.slot = g.record.slot → old.grantId ≠ g.grantId → old ∈ listedBy c turn.1
  | _ => True

instance [DecidableEq ι] (backend : RevocationBackend) (c : Server ι) :
    (turn : ι × Moment) → Decidable (PutFindsListed backend c turn)
  | (i, m) => by
    unfold PutFindsListed
    split <;> infer_instance

/-- The records that the requests present. -/
def recordsOf (requests : ι → VaultRequest) (i : ι) : Option GrantRecord := (requests i).grantRecord

/-- The grant was made from a record that some request presents. -/
def Presented (cfg : Config) (records : ι → Option GrantRecord) (g : VaultGrant) : Prop :=
  (∃ i, records i = some g.record) ∧ g.grantId = g.record.grantId cfg.env

/-- Among the records presented no two have one digest. -/
def NoCollision (cfg : Config) (records : ι → Option GrantRecord) : Prop :=
  ∀ i j, ∀ r ∈ records i, ∀ r' ∈ records j,
    cfg.env.sha256 (canonicalJson r.toDict) = cfg.env.sha256 (canonicalJson r'.toDict) →
      canonicalJson r.toDict = canonicalJson r'.toDict

/-- The grant has run out, or stands on the list until it does. -/
def Dead (c : Server ι) (g : VaultGrant) : Prop :=
  (∃ e ∈ c.trace, g.record.notAfter ≤ e.env.now) ∨
    ∃ entry, c.shared.revocations.get? (grantJti g.grantId) = some entry ∧
      entry.originalExp = g.record.notAfter

variable {cfg : Config} {requests : ι → VaultRequest} {backend : RevocationBackend} {c c' : Server ι}
  {g g' : VaultGrant}

theorem Presented.record_eq {records : ι → Option GrantRecord} (hsha : NoCollision cfg records)
    (hg : Presented cfg records g) (hg' : Presented cfg records g') (h : g.grantId = g'.grantId) :
    g.record = g'.record := by
  obtain ⟨⟨i, hi⟩, hid⟩ := hg
  obtain ⟨⟨j, hj⟩, hid'⟩ := hg'
  rw [hid, hid'] at h
  exact GrantRecord.toDict_injective (hsha i j _ hi _ hj (hex_injective h))

theorem Dead.congr (h : Dead c g) (hid : g.grantId = g'.grantId) (hrecord : g.record = g'.record) :
    Dead c g' := by
  unfold Dead at h ⊢
  rwa [← hid, ← hrecord]

/-- What is dead is over. -/
theorem Dead.not_live (law : Lawful backend) (h : Dead c g) {now : ℤ}
    (hnow : ∀ e ∈ c.trace, e.env.now ≤ now) : ¬ Live backend c.shared now g := by
  rintro ⟨-, hwindow, hrevoked⟩
  rcases h with ⟨e, he, hexp⟩ | ⟨entry, hget, hexp⟩
  · have := hnow e he
    omega
  · have hheld : HeldPast c.shared.revocations (grantJti g.grantId) now :=
      ⟨entry, hget, by omega⟩
    rw [law.revoked_of_heldPast hheld le_rfl] at hrevoked
    cases hrevoked

/-- A stored grant that is not live has run out or stands on the list. -/
theorem of_not_live (law : Lawful backend) {now : ℤ} (hmem : g ∈ c.shared.grants)
    (h : ¬ Live backend c.shared now g) : g.record.notAfter ≤ now ∨
      ∃ entry, c.shared.revocations.get? (grantJti g.grantId) = some entry := by
  by_contra hneither
  obtain ⟨hwindow, hfree⟩ := not_or.mp hneither
  refine h ⟨hmem, not_le.mp hwindow, Bool.eq_false_iff.mpr fun hrevoked => ?_⟩
  obtain ⟨entry, hget, -⟩ := (law.revoked_iff _ _ _).mp hrevoked
  exact hfree ⟨entry, hget⟩

end

/-! ## The ids on the list -/

theorem grantJti_injective : Function.Injective grantJti := by
  intro a b h
  simpa [grantJti] using h

theorem grantJti_ne_stopJti (a b : String) : grantJti a ≠ stopJti b := by
  intro h
  have := congrArg (fun s => (chars s).take 3) h
  simp [grantJti, stopJti] at this

/-! ## The invariant -/

section
variable {ι : Type} (cfg : Config) (requests : ι → VaultRequest) (c : Server ι)

/-- Every grant in the store was presented, one stands for each slot, the list ends each no earlier
than its window does, and a grant that was stored stands there still or is dead. -/
structure Kept : Prop where
  presented : ∀ g ∈ c.shared.grants, Presented cfg (recordsOf requests) g
  distinct : ∀ g ∈ c.shared.grants, ∀ g' ∈ c.shared.grants,
    g.record.slot = g'.record.slot → g = g'
  lasting : ∀ g, Presented cfg (recordsOf requests) g → ∀ entry,
    c.shared.revocations.get? (grantJti g.grantId) = some entry →
      entry.originalExp = g.record.notAfter
  stands : ∀ e ∈ c.trace, ∀ g ∈ stored e, Presented cfg (recordsOf requests) g ∧
    (Dead c g ∨ ∃ g' ∈ c.shared.grants, g'.grantId = g.grantId)

/-- What the requests have learnt is so. -/
structure Aware [DecidableEq ι] (known : ι → Known) : Prop where
  seen : ∀ i, ∀ g ∈ (known i).seen, Presented cfg (recordsOf requests) g
  listed : ∀ i, ∀ g ∈ listedBy c i, g ∈ (known i).seen
  ended : ∀ i g, Presented cfg (recordsOf requests) g → grantJti g.grantId ∈ (known i).ended → Dead c g
  clock : ∀ i t, (known i).clock = some t → ∃ e ∈ c.trace, e.env.now = t
  owners : ∀ e ∈ c.trace, ∀ owner, listedFor e = some owner → (requests e.thread).owner = some owner
  covers : ∀ earlier e later, c.trace = earlier ++ e :: later → ∀ e₀ ∈ earlier, ∀ g ∈ stored e₀,
    listedFor e = some (g.record.consumer, g.record.subject) →
      Dead c g ∨ ∃ g' ∈ (known e.thread).seen, g'.grantId = g.grantId

/-- What was superseded, answered or stopped is dead. -/
structure Settled : Prop where
  superseded : ∀ earlier e later, c.trace = earlier ++ e :: later → ∀ g' ∈ stored e,
    ∀ e₀ ∈ earlier, ∀ g ∈ stored e₀, g.record.slot = g'.record.slot → g.grantId ≠ g'.grantId →
      Dead c g
  answered : ∀ e ∈ c.trace, ∀ g, Presented cfg (recordsOf requests) g → g.grantId ∈ told e → Dead c g
  stopped : ∀ earlier e later, c.trace = earlier ++ e :: later →
    (∃ e' ∈ later, e'.thread = e.thread ∧ stopAnswered e' = true) →
    ∀ record ∈ (requests e.thread).stopRecord, ∀ e₀ ∈ earlier, ∀ g ∈ stored e₀,
      listedFor e = some (g.record.consumer, g.record.subject) → g.record.key = record.key →
        Dead c g

end

/-! ## One call -/

section
variable {ι : Type}

/-- The second state is the first after a call. -/
structure After (backend : RevocationBackend) (i : ι) (m : Moment) (q : Query) (c c' : Server ι) :
    Prop where
  trace : c'.trace = c.trace ++ [⟨i, m, q, (exec backend q m c.shared).1⟩]
  shared : c'.shared = (exec backend q m c.shared).2

variable {cfg : Config} {requests : ι → VaultRequest} {backend : RevocationBackend} {c c' : Server ι}
  {known : ι → Known} {i : ι} {m : Moment} {q : Query} {g g' : VaultGrant}

theorem exec_grants (hq : ∀ g, q ≠ .putGrant g) (s : Shared) :
    (exec backend q m s).2.grants = s.grants := by
  cases q with
  | putGrant g => exact absurd rfl (hq g)
  | carryOut record value =>
    simp only [exec]
    split <;> rfl
  | _ => rfl

theorem After.mem (h : After backend i m q c c') {e : Event ι Query Answer Moment} :
    e ∈ c'.trace ↔ e ∈ c.trace ∨ e = ⟨i, m, q, (exec backend q m c.shared).1⟩ := by
  simp [h.trace]

/-- An entry that a request adds under the id of a grant lasts as long as the grant. -/
theorem lasts_of_adds (hsha : NoCollision cfg (recordsOf requests)) {k : Known}
    (hallow : (watch cfg (requests i)).allows k q)
    (hseen : ∀ g ∈ k.seen, Presented cfg (recordsOf requests) g)
    (hg : Presented cfg (recordsOf requests) g) {entry : RevocationEntry} (hadds : Adds q entry)
    (hjti : entry.jti = grantJti g.grantId) : entry.originalExp = g.record.notAfter := by
  rcases hadds with rfl | rfl
  · obtain ⟨-, ⟨old, hold, -, hj, hexp⟩ | ⟨actId, hj⟩⟩ := hallow
    · have hid : old.grantId = g.grantId := grantJti_injective (hj.symm.trans hjti)
      rw [hexp, (hseen old hold).record_eq hsha hg hid]
    · exact absurd (hjti.symm.trans hj) (grantJti_ne_stopJti _ _)
  · exact hallow.elim

theorem Dead.after (law : Lawful backend) (h : After backend i m q c c')
    (hadds : ∀ entry, Adds q entry → entry.jti = grantJti g.grantId →
      entry.originalExp = g.record.notAfter) (hdead : Dead c g) : Dead c' g := by
  rcases hdead with ⟨e, he, hexp⟩ | ⟨entry, hget, hexp⟩
  · exact .inl ⟨e, h.mem.mpr (.inl he), hexp⟩
  · by_cases hnow : m.now < entry.originalExp
    · obtain ⟨e', hget', hcase⟩ := law.exec_get?_kept (q := q) hget hnow
      refine .inr ⟨e', h.shared ▸ hget', ?_⟩
      rcases hcase with rfl | ⟨hadd, hjti⟩
      · exact hexp
      · exact hadds e' hadd hjti
    · exact .inl ⟨_, h.mem.mpr (.inr rfl), by rw [← hexp]; exact not_lt.mp hnow⟩

/-- The list ends no grant early. -/
theorem Kept.lasting_after (law : Lawful backend) (h : After backend i m q c c')
    (hkept : Kept cfg requests c) (hg : Presented cfg (recordsOf requests) g)
    (hadds : ∀ entry, Adds q entry → entry.jti = grantJti g.grantId →
      entry.originalExp = g.record.notAfter) (entry : RevocationEntry)
    (hget : c'.shared.revocations.get? (grantJti g.grantId) = some entry) :
    entry.originalExp = g.record.notAfter := by
  rw [h.shared] at hget
  rcases law.exec_get? hget with hold | ⟨hadd, hjti⟩
  · exact hkept.lasting g hg entry hold
  · exact hadds entry hadd hjti

theorem mem_stored {e : Event ι Query Answer Moment} : g ∈ stored e ↔ e.query = .putGrant g := by
  rcases e with ⟨_, _, q, _⟩
  cases q <;> simp [stored]

theorem listedFor_eq_some {e : Event ι Query Answer Moment} {consumer subject : String} :
    listedFor e = some (consumer, subject) ↔ e.query = .listGrants consumer subject := by
  rcases e with ⟨_, _, q, _⟩
  cases q <;> simp [listedFor]

theorem mem_told {e : Event ι Query Answer Moment} {grantId : String} (h : grantId ∈ told e) :
    e.query = .send (.grantRevoked grantId) ∨
      ∃ grantIds, e.query = .send (.stopped grantIds) ∧ grantId ∈ grantIds := by
  rcases e with ⟨_, _, q, _⟩
  cases q with
  | send reply =>
    cases reply with
    | grantRevoked id => exact .inl (by rw [List.mem_singleton.mp h])
    | stopped ids => exact .inr ⟨ids, rfl, h⟩
    | _ => simp [told] at h
  | _ => simp [told] at h

theorem stopAnswered_iff {e : Event ι Query Answer Moment} :
    stopAnswered e = true ↔ ∃ grantIds, e.query = .send (.stopped grantIds) := by
  rcases e with ⟨_, _, q, _⟩
  cases q with
  | send reply => cases reply <;> simp [stopAnswered]
  | _ => simp [stopAnswered]

theorem mem_putUserVaultGrant {now : ℤ} {grants : List VaultGrant} :
    g' ∈ putUserVaultGrant now g grants ↔
      (g' ∈ grants ∧ g'.record.slot ≠ g.record.slot ∧ now < g'.record.notAfter) ∨ g' = g := by
  simp [putUserVaultGrant]

theorem slotsHold_of_settled (law : Lawful backend) (hsha : NoCollision cfg (recordsOf requests))
    (hkept : Kept cfg requests c) (hsettled : Settled cfg requests c)
    (howners : ∀ e ∈ c.trace, ∀ owner, listedFor e = some owner →
      (requests e.thread).owner = some owner) : SlotsHold backend requests c := by
  have hover : ∀ g, Presented cfg (recordsOf requests) g → Dead c g → Over backend c g.grantId := by
    intro g hg hdead now hnow g' hid hlive
    have hrecord := (hkept.presented g' hlive.1).record_eq hsha hg hid
    exact (hdead.congr hid.symm hrecord.symm).not_live law hnow hlive
  refine ⟨?_, ?_, ?_, ?_⟩
  · exact fun now g g' hg hg' hslot => hkept.distinct g hg.1 g' hg'.1 hslot
  · intro earlier e later htrace g' hg' e₀ he₀ g hg hslot hid
    exact hover g (hkept.stands e₀ (by simp [htrace, he₀]) g hg).1
      (hsettled.superseded earlier e later htrace g' hg' e₀ he₀ g hg hslot hid)
  · rintro e he grantId htold now hnow g rfl hlive
    have hg := hkept.presented g hlive.1
    exact hover g hg (hsettled.answered e he g hg htold) now hnow g rfl hlive
  · intro earlier e later htrace hlists hanswered record hrecord e₀ he₀ g hg howner hkey
    refine hover g (hkept.stands e₀ (by simp [htrace, he₀]) g hg).1
      (hsettled.stopped earlier e later htrace hanswered record hrecord e₀ he₀ g hg ?_ hkey)
    obtain ⟨owner, howns⟩ := Option.ne_none_iff_exists'.mp hlists
    have hrequest := howners e (by simp [htrace]) owner howns
    rw [(VaultRequest.of_stopRecord hrecord).1] at hrequest
    rw [howns, ← hrequest, ← howner]

/-- A grant that another one of its slot takes the place of is dead by then. -/
theorem dead_of_superseded (law : Lawful backend) (hsha : NoCollision cfg (recordsOf requests))
    [DecidableEq ι] (h : After backend i m (.putGrant g) c c') (hkept : Kept cfg requests c)
    (haware : Aware cfg requests c known)
    (hallow : (watch cfg (requests i)).allows (known i) (.putGrant g))
    (hfinds : ∀ old ∈ c.shared.grants, Live backend c.shared m.now old →
      old.record.slot = g.record.slot → old.grantId ≠ g.grantId → old ∈ listedBy c i)
    (hmem : g' ∈ c.shared.grants) (hslot : g'.record.slot = g.record.slot)
    (hid : g'.grantId ≠ g.grantId) : Dead c' g' := by
  have hg' := hkept.presented g' hmem
  have hadds : ∀ entry, Adds (.putGrant g) entry → entry.jti = grantJti g'.grantId →
      entry.originalExp = g'.record.notAfter :=
    fun _ hadd hjti => lasts_of_adds hsha hallow (haware.seen i) hg' hadd hjti
  by_cases hlive : Live backend c.shared m.now g'
  · have hseen := haware.listed i g' (hfinds g' hmem hlive hslot hid)
    exact (haware.ended i g' hg' (hallow.2.2.2 g' hseen hslot hid)).after law h hadds
  · rcases of_not_live law hmem hlive with hexp | ⟨entry, hget⟩
    · exact .inl ⟨_, h.mem.mpr (.inr rfl), hexp⟩
    · exact Dead.after law h hadds (.inr ⟨entry, hget, hkept.lasting g' hg' entry hget⟩)

end

section
variable {ι : Type} [DecidableEq ι] {cfg : Config} {requests : ι → VaultRequest}
  {backend : RevocationBackend} {c c' : Server ι} {known : ι → Known} {i : ι} {m : Moment}
  {q : Query} {g g' : VaultGrant}

/-- Where the call stores a grant, its request has listed the live grants of the slot. -/
def Finds (backend : RevocationBackend) (i : ι) (m : Moment) (q : Query) (c : Server ι) : Prop :=
  ∀ g, q = .putGrant g → ∀ old ∈ c.shared.grants, Live backend c.shared m.now old →
    old.record.slot = g.record.slot → old.grantId ≠ g.grantId → old ∈ listedBy c i

theorem Kept.after (law : Lawful backend) (hsha : NoCollision cfg (recordsOf requests))
    (h : After backend i m q c c') (hkept : Kept cfg requests c) (haware : Aware cfg requests c known)
    (hallow : (watch cfg (requests i)).allows (known i) q) (hfinds : Finds backend i m q c) :
    Kept cfg requests c' := by
  have hadds : ∀ g, Presented cfg (recordsOf requests) g → ∀ entry, Adds q entry →
      entry.jti = grantJti g.grantId → entry.originalExp = g.record.notAfter :=
    fun g hg _ hadd hjti => lasts_of_adds hsha hallow (haware.seen i) hg hadd hjti
  have hlasting : ∀ g, Presented cfg (recordsOf requests) g → ∀ entry,
      c'.shared.revocations.get? (grantJti g.grantId) = some entry →
        entry.originalExp = g.record.notAfter :=
    fun g hg => hkept.lasting_after law h hg (hadds g hg)
  by_cases hput : ∃ g, q = .putGrant g
  · obtain ⟨g, rfl⟩ := hput
    have hg : Presented cfg (recordsOf requests) g := ⟨⟨i, hallow.2.1⟩, hallow.2.2.1⟩
    have hmem : ∀ g', g' ∈ c'.shared.grants ↔
        (g' ∈ c.shared.grants ∧ g'.record.slot ≠ g.record.slot ∧ m.now < g'.record.notAfter) ∨
          g' = g := fun g' => by rw [h.shared]; exact mem_putUserVaultGrant
    refine ⟨?_, ?_, hlasting, ?_⟩
    · intro g' hg'
      rcases (hmem g').mp hg' with ⟨hold, -, -⟩ | rfl
      · exact hkept.presented g' hold
      · exact hg
    · intro a ha b hb hslot
      rcases (hmem a).mp ha with ⟨hamem, haslot, -⟩ | rfl <;>
        rcases (hmem b).mp hb with ⟨hbmem, hbslot, -⟩ | rfl
      · exact hkept.distinct a hamem b hbmem hslot
      · exact absurd hslot haslot
      · exact absurd hslot.symm hbslot
      · rfl
    · intro e he g₀ hg₀
      rcases h.mem.mp he with he | rfl
      · obtain ⟨hpresented, hdead | ⟨g', hg', hid'⟩⟩ := hkept.stands e he g₀ hg₀
        · exact ⟨hpresented, .inl (hdead.after law h (hadds g₀ hpresented))⟩
        · refine ⟨hpresented, ?_⟩
          have hrecord' := (hkept.presented g' hg').record_eq hsha hpresented hid'
          by_cases hsame : g'.grantId = g.grantId
          · exact .inr ⟨g, (hmem g).mpr (.inr rfl), hsame.symm.trans hid'⟩
          by_cases hslot : g'.record.slot = g.record.slot
          · exact .inl ((dead_of_superseded law hsha h hkept haware hallow (hfinds g rfl) hg' hslot
              hsame).congr hid' hrecord')
          by_cases hexp : m.now < g'.record.notAfter
          · exact .inr ⟨g', (hmem g').mpr (.inl ⟨hg', hslot, hexp⟩), hid'⟩
          · exact .inl (.inl ⟨_, h.mem.mpr (.inr rfl), hrecord' ▸ not_lt.mp hexp⟩)
      · obtain rfl : g = g₀ := Query.putGrant.inj (mem_stored.mp hg₀)
        exact ⟨hg, .inr ⟨g, (hmem g).mpr (.inr rfl), rfl⟩⟩
  · have hgrants : c'.shared.grants = c.shared.grants := by
      rw [h.shared]
      exact exec_grants (fun g hq => hput ⟨g, hq⟩) _
    refine ⟨hgrants ▸ hkept.presented, hgrants ▸ hkept.distinct, hlasting, ?_⟩
    intro e he g hg
    rcases h.mem.mp he with he | rfl
    · obtain ⟨hpresented, hstands⟩ := hkept.stands e he g hg
      exact ⟨hpresented, hstands.imp (fun hdead => hdead.after law h (hadds g hpresented))
        fun hold => hgrants ▸ hold⟩
    · exact absurd ⟨g, mem_stored.mp hg⟩ hput

theorem mem_seen_learn {k : Known} {s : Shared}
    (h : g ∈ (k.learn q (exec backend q m s).1).seen) : g ∈ k.seen ∨ g ∈ s.grants := by
  cases q with
  | listGrants consumer subject =>
    exact (List.mem_append.mp h).imp_right List.mem_of_mem_filter
  | getGrant grantId =>
    cases hfound : getUserVaultGrant grantId s.grants with
    | none =>
      simp only [exec, hfound] at h
      exact .inl h
    | some g' =>
      simp only [exec, hfound] at h
      refine (List.mem_append.mp h).imp_right fun h => ?_
      rw [List.mem_singleton.mp h]
      exact List.mem_of_find?_eq_some hfound
  | isRevoked jti =>
    rw [(k.onward_isRevoked jti _).seen] at h
    exact .inl h
  | addRevocation entry =>
    cases hadd : (addRevocation backend m.now entry s.revocations).1 with
    | none =>
      simp only [exec, hadd] at h
      exact .inl h
    | some _ =>
      simp only [exec, hadd] at h
      exact .inl h
  | _ => exact .inl h

theorem seen_learn_of_mem {k : Known} {s : Shared} (h : g ∈ k.seen) :
    g ∈ (k.learn q (exec backend q m s).1).seen := by
  cases q with
  | listGrants consumer subject => exact List.mem_append_left _ h
  | getGrant grantId =>
    simp only [exec]
    cases getUserVaultGrant grantId s.grants with
    | none => exact h
    | some g' => exact List.mem_append_left _ h
  | isRevoked jti =>
    rw [(k.onward_isRevoked jti _).seen]
    exact h
  | addRevocation entry =>
    simp only [exec]
    cases (addRevocation backend m.now entry s.revocations).1 <;> exact h
  | _ => exact h

/-- What a request learns to have ended stands on the list. -/
theorem of_mem_ended_learn (law : Lawful backend) {k : Known} {s : Shared} {jti : String}
    (h : jti ∈ (k.learn q (exec backend q m s).1).ended) :
    jti ∈ k.ended ∨ ∃ entry, (exec backend q m s).2.revocations.get? jti = some entry := by
  cases q with
  | getGrant grantId =>
    simp only [exec] at h
    cases hfound : getUserVaultGrant grantId s.grants <;> simp only [hfound] at h <;> exact .inl h
  | isRevoked j =>
    cases hrevoked : (isRevoked backend m.now j s.revocations).1 with
    | false =>
      simp only [exec, hrevoked] at h
      exact .inl h
    | true =>
      simp only [exec, hrevoked] at h
      rcases h with _ | ⟨_, h⟩
      · obtain ⟨entry, hget, hexp⟩ := (law.revoked_iff _ _ _).mp hrevoked
        exact .inr ⟨entry, (law.isRevoked_get? _ _ _ _ _).mpr ⟨hget, hexp⟩⟩
      · exact .inl h
  | addRevocation entry =>
    cases hadd : (addRevocation backend m.now entry s.revocations).1 with
    | none =>
      simp only [exec, hadd] at h
      exact .inl h
    | some _ =>
      simp only [exec, hadd] at h
      rcases h with _ | ⟨_, h⟩
      · obtain ⟨e, hget, -⟩ := law.add_self _ _ _ hadd
        exact .inr ⟨e, hget⟩
      · exact .inl h
  | _ => exact .inl h

theorem clock_learn {k : Known} {s : Shared} {t : ℤ}
    (h : (k.learn q (exec backend q m s).1).clock = some t) : k.clock = some t ∨ m.now = t := by
  cases q with
  | time => exact .inr (Option.some.inj h)
  | getGrant grantId =>
    simp only [exec] at h
    cases hfound : getUserVaultGrant grantId s.grants <;> simp only [hfound] at h <;> exact .inl h
  | isRevoked j =>
    simp only [exec] at h
    cases hrevoked : (isRevoked backend m.now j s.revocations).1 <;> simp only [hrevoked] at h <;>
      exact .inl h
  | addRevocation entry =>
    simp only [exec] at h
    cases hadd : (addRevocation backend m.now entry s.revocations).1 <;> simp only [hadd] at h <;>
      exact .inl h
  | _ => exact .inl h

theorem listedBy_after (h : After backend i m q c c') (j : ι) :
    listedBy c' j = listedBy c j ++
      if i = j then listing (⟨i, m, q, (exec backend q m c.shared).1⟩ : Event ι _ _ _) else [] := by
  unfold listedBy
  rw [h.trace, List.filter_append, List.flatMap_append, List.filter_singleton]
  split_ifs with hij <;> simp [hij]

theorem Aware.after (law : Lawful backend) (hsha : NoCollision cfg (recordsOf requests))
    (h : After backend i m q c c') (hkept : Kept cfg requests c) (haware : Aware cfg requests c known)
    (hallow : (watch cfg (requests i)).allows (known i) q) :
    Aware cfg requests c'
      (Function.update known i ((known i).learn q (exec backend q m c.shared).1)) := by
  have hadds : ∀ g, Presented cfg (recordsOf requests) g → ∀ entry, Adds q entry →
      entry.jti = grantJti g.grantId → entry.originalExp = g.record.notAfter :=
    fun g hg _ hadd hjti => lasts_of_adds hsha hallow (haware.seen i) hg hadd hjti
  have hdead : ∀ g, Presented cfg (recordsOf requests) g → Dead c g → Dead c' g :=
    fun g hg hdead => hdead.after law h (hadds g hg)
  have hseen : ∀ j g, g ∈ (known j).seen → g ∈ (Function.update known i
      ((known i).learn q (exec backend q m c.shared).1) j).seen := by
    intro j g hg
    by_cases hj : j = i
    · subst hj
      rw [Function.update_self]
      exact seen_learn_of_mem hg
    · rwa [Function.update_of_ne hj]
  refine ⟨?_, ?_, ?_, ?_, ?_, ?_⟩
  · intro j g hg
    by_cases hj : j = i
    · subst hj
      rw [Function.update_self] at hg
      exact (mem_seen_learn hg).elim (haware.seen j g) (hkept.presented g)
    · rw [Function.update_of_ne hj] at hg
      exact haware.seen j g hg
  · intro j g hg
    rw [listedBy_after h, List.mem_append] at hg
    rcases hg with hg | hg
    · exact hseen j g (haware.listed j g hg)
    · split_ifs at hg with hj
      · subst hj
        rw [Function.update_self]
        cases q with
        | listGrants consumer subject => exact List.mem_append_right _ hg
        | _ => simp [listing] at hg
      · simp at hg
  · intro j g hg hended
    by_cases hj : j = i
    · subst hj
      rw [Function.update_self] at hended
      rcases of_mem_ended_learn law hended with hold | ⟨entry, hget⟩
      · exact hdead g hg (haware.ended j g hg hold)
      · rw [← h.shared] at hget
        exact .inr ⟨entry, hget, hkept.lasting_after law h hg (hadds g hg) entry hget⟩
    · rw [Function.update_of_ne hj] at hended
      exact hdead g hg (haware.ended j g hg hended)
  · intro j t ht
    have hclock : (known j).clock = some t ∨ m.now = t := by
      by_cases hj : j = i
      · subst hj
        rw [Function.update_self] at ht
        exact clock_learn ht
      · rw [Function.update_of_ne hj] at ht
        exact .inl ht
    rcases hclock with hold | rfl
    · obtain ⟨e, he, het⟩ := haware.clock j t hold
      exact ⟨e, h.mem.mpr (.inl he), het⟩
    · exact ⟨_, h.mem.mpr (.inr rfl), rfl⟩
  · rintro e he ⟨consumer, subject⟩ hlisted
    rcases h.mem.mp he with he | rfl
    · exact haware.owners e he _ hlisted
    · obtain rfl : q = .listGrants consumer subject := listedFor_eq_some.mp hlisted
      exact hallow
  · intro earlier e later htrace e₀ he₀ g hg hlisted
    rw [h.trace] at htrace
    rcases eq_or_of_concat_eq htrace with ⟨rfl, rfl, -⟩ | ⟨later, -, htrace⟩
    · obtain rfl : q = .listGrants g.record.consumer g.record.subject :=
        listedFor_eq_some.mp hlisted
      obtain ⟨hpresented, hold | ⟨g', hg', hid⟩⟩ := hkept.stands e₀ he₀ g hg
      · exact .inl (hdead g hpresented hold)
      · refine .inr ⟨g', ?_, hid⟩
        have hrecord := (hkept.presented g' hg').record_eq hsha hpresented hid
        rw [Function.update_self]
        refine List.mem_append_right _ (List.mem_filter.mpr ⟨hg', ?_⟩)
        simp [hrecord]
    · have hpresented := (hkept.stands e₀ (by simp [htrace, he₀]) g hg).1
      rcases haware.covers earlier e later htrace e₀ he₀ g hg hlisted with hold | ⟨g', hg', hid⟩
      · exact .inl (hdead g hpresented hold)
      · exact .inr ⟨g', hseen _ g' hg', hid⟩

theorem Settled.after (law : Lawful backend) (hsha : NoCollision cfg (recordsOf requests))
    (h : After backend i m q c c') (hkept : Kept cfg requests c) (haware : Aware cfg requests c known)
    (hsettled : Settled cfg requests c) (hallow : (watch cfg (requests i)).allows (known i) q)
    (hfinds : Finds backend i m q c) : Settled cfg requests c' := by
  have hdead : ∀ g, Presented cfg (recordsOf requests) g → Dead c g → Dead c' g := fun g hg hdead =>
    hdead.after law h fun _ hadd hjti => lasts_of_adds hsha hallow (haware.seen i) hg hadd hjti
  refine ⟨?_, ?_, ?_⟩
  · intro earlier e later htrace g' hg' e₀ he₀ g hg hslot hid
    rw [h.trace] at htrace
    rcases eq_or_of_concat_eq htrace with ⟨rfl, rfl, -⟩ | ⟨later, -, htrace⟩
    · obtain rfl : q = .putGrant g' := mem_stored.mp hg'
      obtain ⟨hpresented, hold | ⟨old, hold, hsame⟩⟩ := hkept.stands e₀ he₀ g hg
      · exact hdead g hpresented hold
      · have hrecord := (hkept.presented old hold).record_eq hsha hpresented hsame
        exact (dead_of_superseded law hsha h hkept haware hallow (hfinds g' rfl) hold
          (hrecord ▸ hslot) (hsame ▸ hid)).congr hsame hrecord
    · have hpresented := (hkept.stands e₀ (by simp [htrace, he₀]) g hg).1
      exact hdead g hpresented
        (hsettled.superseded earlier e later htrace g' hg' e₀ he₀ g hg hslot hid)
  · intro e he g hpresented htold
    rcases h.mem.mp he with he | rfl
    · exact hdead g hpresented (hsettled.answered e he g hpresented htold)
    · refine hdead g hpresented (haware.ended i g hpresented ?_)
      rcases mem_told htold with hq | ⟨grantIds, hq, hmem⟩
      · obtain rfl : q = .send (.grantRevoked g.grantId) := hq
        exact hallow
      · obtain rfl : q = .send (.stopped grantIds) := hq
        exact hallow.1 _ hmem
  · rintro earlier e later htrace ⟨e', he', hthread, hanswered⟩ record hrecord e₀ he₀ g hg hlisted hkey
    rw [h.trace] at htrace
    obtain ⟨-, -, rfl⟩ | ⟨later, rfl, hbefore⟩ := eq_or_of_concat_eq htrace
    · cases he'
    clear htrace
    have hpresented := (hkept.stands e₀ (by simp [hbefore, he₀]) g hg).1
    refine hdead g hpresented ?_
    rcases List.mem_append.mp he' with he' | he'
    · exact hsettled.stopped earlier e later hbefore ⟨e', he', hthread, hanswered⟩ record hrecord e₀
        he₀ g hg hlisted hkey
    -- the stop-all answers now: what it listed of the key has run out or was ended
    obtain rfl := List.mem_singleton.mp he'
    obtain ⟨grantIds, hq⟩ := stopAnswered_iff.mp hanswered
    obtain rfl : q = .send (.stopped grantIds) := hq
    obtain rfl : i = e.thread := hthread
    obtain ⟨-, record', hrecord', hleft⟩ := hallow
    obtain rfl : record = record' := Option.some.inj (hrecord.symm.trans hrecord')
    rcases haware.covers earlier e later hbefore e₀ he₀ g hg hlisted with hold | ⟨g', hg', hid⟩
    · exact hold
    · have hpresented' := haware.seen _ g' hg'
      have hsame := hpresented'.record_eq hsha hpresented hid
      refine Dead.congr ?_ hid hsame
      rcases hleft g' hg' (hsame ▸ hkey) with ⟨t, ht, hexp⟩ | hended
      · obtain ⟨e'', he'', het⟩ := haware.clock _ t ht
        exact .inl ⟨e'', he'', het ▸ hexp⟩
      · exact haware.ended _ g' hpresented' hended

/-- What holds along every schedule of the three handlers. -/
structure Sound (cfg : Config) (requests : ι → VaultRequest) (c : Server ι) (known : ι → Known) :
    Prop where
  kept : Kept cfg requests c
  aware : Aware cfg requests c known
  settled : Settled cfg requests c

theorem Sound.step (law : Lawful backend) (hsha : NoCollision cfg (recordsOf requests))
    {next : Answer q → Handler} (h : Sound cfg requests c known) (hcall : c.threads i = .call q next)
    (hallow : (watch cfg (requests i)).allows (known i) q)
    (hput : PutFindsListed backend c (i, m)) :
    Sound cfg requests (Serving.step (exec backend) c (i, m))
      (Function.update known i ((known i).learn q (exec backend q m c.shared).1)) := by
  have hafter : After backend i m q c (Serving.step (exec backend) c (i, m)) := by
    rw [Serving.step_call hcall]
    exact ⟨rfl, rfl⟩
  have hfinds : Finds backend i m q c := by
    rintro g rfl
    simpa [PutFindsListed, hcall] using hput
  exact ⟨h.kept.after law hsha hafter h.aware hallow hfinds,
    h.aware.after law hsha hafter h.kept hallow,
    h.settled.after law hsha hafter h.kept h.aware hallow hfinds⟩

/-! ## Every schedule -/

/-- The requests before their first call. -/
def serve (cfg : Config) (requests : ι → VaultRequest) (shared : Shared) : Server ι :=
  Serving.start shared fun i => (requests i).handler cfg

/-- A store without grants, where no grant's id is on the list. -/
theorem sound_serve {shared : Shared} (hempty : shared.grants = [])
    (hfree : ∀ grantId, shared.revocations.get? (grantJti grantId) = none) :
    Sound cfg requests (serve cfg requests shared) fun _ => .nothing where
  kept := by
    constructor <;> simp [serve, Serving.start, hempty, hfree]
  aware := by
    constructor <;> simp [serve, Serving.start, Known.nothing, listedBy]
  settled := by
    constructor <;> simp [serve, Serving.start]

/-- Along every schedule on which each put finds the live grants of its slot among those its request
has listed, every slot holds one live grant at most and what has ended stays so. -/
theorem slots_hold {cfg : Config} {backend : RevocationBackend} (hbackend : IsBackend backend)
    {requests : ι → VaultRequest} (hsha : NoCollision cfg (recordsOf requests)) {shared : Shared}
    (hempty : shared.grants = [])
    (hfree : ∀ grantId, shared.revocations.get? (grantJti grantId) = none)
    {turns : List (ι × Moment)}
    (hcondition : Serving.Along (exec backend) (PutFindsListed backend) (serve cfg requests shared)
      turns) :
    SlotsHold backend requests (Serving.run (exec backend) (serve cfg requests shared) turns) := by
  obtain ⟨known, h, -⟩ := Serving.run_monitored (m := fun i => watch cfg (requests i))
    (P := PutFindsListed backend)
    (fun i q e s => watch_answers cfg (requests i) backend q e s) (sound_serve hempty hfree)
    (fun i => watched_handler (requests i))
    (fun c known i m q next hcall hallow h hput =>
      h.step hbackend.lawful hsha hcall hallow hput) hcondition
  exact slotsHold_of_settled hbackend.lawful hsha h.kept h.settled h.aware.owners

end
/-! ## Two grants of one slot -/

def vaultPhoneKey : String := "IdQrxAbgXcv02lY20wV63nAD443I9f0MCgB1PjGAP80"

def vaultSubject : String := "qUkfTBv3sM_7rcui248Cjks_KGfLWeHzoLwZaPPFEkI"

/-- A grant of the deploy key to one agent. -/
def vaultRecord (nonce : String) : GrantRecord where
  bootloaderId := "boot-1"
  consumer := "app"
  subject := vaultSubject
  agentHandle := "1PC8WineBrUQ-apCjx7tupJgErWR_velGOd2p8m9GCQ"
  key := "deploy"
  scope := "ssh:sign"
  notAfter := 1762592000
  nonce

def firstRecord : GrantRecord := vaultRecord "n-first-grant-01"

def secondRecord : GrantRecord := vaultRecord "n-second-grant-1"

def firstSignature : String :=
  "gM-K7gXHly_JvyirU5pFxqdts6GID7BjVBo2cZrmGzlBl1kx6ucVZ9j84OR229QyHBUBdGsnkYq13yta1Jw1AA"

def secondSignature : String :=
  "nKF8dKNusU3dcVsO42G18m_DZS3N9I88XWXQbpX-RkR6-HYtriLHHzNxk4bj2roT6YUi1xApZMh0HnbkpyPVBw"

/-- SHA-256 of the records and the Ed25519 signatures of the phone, as far as they are asked. -/
def vaultConfig : Config where
  env :=
    { sha256 := fun raw =>
        if raw = canonicalJson firstRecord.toDict then
          (fromHex "66380bc42fb788e94a381df71a3410000b23b9fb618bb84a2520f756b306a780").getD []
        else if raw = canonicalJson secondRecord.toDict then
          (fromHex "794de3d73e3bb4e7459d8dddce592318a9903fa652a0bb7fe51609840fd93ec9").getD []
        else []
      recoverPublicKey := fun _ _ => none }
  verifySignature message signature key algorithm :=
    key = vaultPhoneKey && algorithm = "ed25519" &&
      ((message = firstRecord.signedMessage && signature = firstSignature) ||
        (message = secondRecord.signedMessage && signature = secondSignature))
  bootloaderId := "boot-1"
  connections := false
  operatorPubkey := none
  consumerTokens := ∅
  relayUrls := ∅
  signsResults := false
  vaultSecrets := ∅
  manifest := none
  operatorToken := none
  userVault := true

def vaultShared : Shared where
  revocations := ∅
  grants := []
  connections := { rows := ∅, values := ∅ }

def vaultMoment : Moment where
  now := 1760000010
  phones := [{ phoneId := "phone-1", publicKeyB64u := vaultPhoneKey, algorithm := "ed25519"
               memberBindings := [("app", vaultSubject)] }]
  vaultRefuses := false
  consumerReply := .failed
  token := ""

/-- The first grant, the second, and the second sent again. -/
def vaultRequests (i : Fin 3) : VaultRequest :=
  if i = 0 then
    .grant (.obj [("record", firstRecord.toDict), ("signature_b64u", .str firstSignature)])
  else .grant (.obj [("record", secondRecord.toDict), ("signature_b64u", .str secondSignature)])

/-- So many calls of a request, one after the other. -/
def callsOf (i : Fin 3) (n : ℕ) : List (Fin 3 × Moment) := List.replicate n (i, vaultMoment)

theorem vaultRequests_noCollision : NoCollision vaultConfig (recordsOf vaultRequests) := by
  unfold NoCollision
  decide +kernel

/-- One grant after the other: the later one takes the place of the earlier and ends it, and sending
the earlier again is refused. -/
theorem slots_hold_sample : SlotsHold StateStore.revocations vaultRequests
    (Serving.run (exec StateStore.revocations) (serve vaultConfig vaultRequests vaultShared)
      (callsOf 1 7 ++ callsOf 0 9 ++ callsOf 2 4)) :=
  slots_hold (.inl rfl) vaultRequests_noCollision rfl (fun _ => rfl) (by decide +kernel)

/-- A stored grant of the sample. -/
def vaultGrant (record : GrantRecord) (signature : String) : VaultGrant where
  grantId := record.grantId vaultConfig.env
  record
  signature := .str signature
  signerPhoneRef := "phone-1"
  admittedAtUnix := 1760000010

/-- The first grant's request lists before the second grant is put and puts after it. The second is
dropped without an entry on the list, and sent again it is live. -/
def racedGrants : Server (Fin 3) :=
  Serving.run (exec StateStore.revocations) (serve vaultConfig vaultRequests vaultShared)
    (callsOf 0 4 ++ callsOf 1 7 ++ callsOf 0 3 ++ callsOf 2 9)

theorem racedGrants_revive : ¬ SlotsHold StateStore.revocations vaultRequests racedGrants := by
  intro h
  have hputs : racedGrants.trace[9]?.bind stored = some (vaultGrant secondRecord secondSignature) ∧
      racedGrants.trace[12]?.bind stored = some (vaultGrant firstRecord firstSignature) ∧
      (∀ e ∈ racedGrants.trace, e.env.now ≤ 1760000010) ∧
      Live StateStore.revocations racedGrants.shared 1760000010
        (vaultGrant secondRecord secondSignature) ∧
      (vaultGrant secondRecord secondSignature).grantId ≠
        (vaultGrant firstRecord firstSignature).grantId := by decide +kernel
  obtain ⟨hsecond, hfirst, hnow, hlive, hid⟩ := hputs
  exact h.superseded_at hsecond hfirst (by decide) rfl hid 1760000010 hnow _ rfl hlive

end UserVault
end Recto
