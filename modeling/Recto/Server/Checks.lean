import Recto.Server.Seating

/-!
# What a check establishes

Each handler decides on the store before it writes. A decision that passed is
taken apart here once, for every proof that uses it.
-/

namespace Recto
namespace Server

open Genesis

variable {env : Host} {s : Store}

/-! ## Verifiers -/

theorem verify_eq_ok {payload : Bytes} {signature publicKey algorithm : String} {b : Bool} :
    verify env payload signature publicKey algorithm = .ok b ↔
      env.verifySignature payload signature publicKey algorithm = some b := by
  unfold verify
  split
  · rename_i h
    simp [h]
  · rename_i h
    simp [h]

theorem requireCanonicalKey_eq_ok {publicKey algorithm : String}
    (h : requireCanonicalKey publicKey algorithm = .ok ()) : CanonicalKey publicKey := by
  unfold requireCanonicalKey at h
  split at h
  · rename_i raw hraw
    exact ⟨raw, hraw, (ensure_eq_ok.mp h).1⟩
  · cases h

/-! ## Registration -/

/-- What holds of a registration before any slot question. -/
structure Admitted (env : Host) (s : Store) (kind : ChallengeKind) (inc : Incoming) : Prop where
  canonical : CanonicalKey inc.publicKey
  kind : challengeKind env s inc.challenge = .ok kind
  proof : env.verifySignature (utf8 inc.challenge) inc.signature inc.publicKey inc.algorithm =
    some true
  ref : inc.ref = phoneRef env inc.publicKey

theorem admit_eq_ok {reg : Registration} {kind : ChallengeKind} {inc : Incoming}
    (h : admitRegistration env s reg = .ok (kind, inc)) : Admitted env s kind inc := by
  simp only [admitRegistration, Except.bind_eq_ok, ensure_eq_ok] at h
  obtain ⟨_, -, _, -, _, -, _, hcanonical, k, hkind, proved, hproof, _, rfl, _, -, h⟩ := h
  split at h
  · simp only [Except.bind_eq_ok, ensure_eq_ok, Except.pure_eq_ok, Prod.mk.injEq] at h
    obtain ⟨_, -, _, -, _, -, _, -, rfl, rfl⟩ := h
    exact ⟨requireCanonicalKey_eq_ok hcanonical, hkind, verify_eq_ok.mp hproof, rfl⟩
  · cases h

/-- What the owner plane decides, and on what. -/
inductive Decided (env : Host) (s : Store) (reg : Registration) (inc : Incoming) :
    Admission → Prop
  | repair (mine : PhoneRegistration) (hmine : s.mine inc = some mine) (howner : mine.IsOwner) :
      Decided env s reg inc (.repair mine.slot)
  | genesis (slot : OwnerSlot) (hnew : s.mine inc = none) (howners : s.owners = [])
      (hopened : s.ownerGenesis = some .opened) (hunsealed : sealedChainOrNone env s = .ok none) :
      Decided env s reg inc (.genesis slot)
  | seat (ask : Ask) (entry : OwnerEnroll) (hnew : s.mine inc = none)
      (hcommitted : committedReset s (s.listResets.filter fun r =>
        r.fresh.map Fresh.publicKey = some inc.publicKey) = .ok none)
      (hask : askFor env s reg inc ask.slot = .ok ask) (hentry : entry ∈ s.listOwnerEnrolls)
      (hadmits : entry.Admits ask inc.publicKey s.clock)
      (happroval : checkApproval entry ask.sealedChain = .ok ()) :
      Decided env s reg inc (.seat ask entry)
  | contested (ask : Ask) (hnew : s.mine inc = none)
      (hask : askFor env s reg inc ask.slot = .ok ask) : Decided env s reg inc (.contested ask)
  | ask (ask : Ask) (hnew : s.mine inc = none)
      (hask : askFor env s reg inc ask.slot = .ok ask) : Decided env s reg inc (.ask ask)

theorem askFor_slot {reg : Registration} {inc : Incoming} {slot : OwnerSlot} {ask : Ask}
    (h : askFor env s reg inc slot = .ok ask) : ask.slot = slot := by
  simp only [askFor, Except.bind_eq_ok, Except.pure_eq_ok] at h
  obtain ⟨_, -, _, -, _, -, _, -, rfl⟩ := h
  rfl

theorem ownerAdmission_eq_ok {reg : Registration} {inc : Incoming} {a : Admission}
    (h : ownerAdmission env s reg inc = .ok a) : Decided env s reg inc a := by
  simp only [ownerAdmission, Except.bind_eq_ok] at h
  obtain ⟨slot, -, h⟩ := h
  split at h
  · rename_i mine hmine
    simp only [Except.bind_eq_ok, ensure_eq_ok, Except.pure_eq_ok] at h
    obtain ⟨_, howner, rfl⟩ := h
    exact .repair mine hmine howner
  · rename_i hnew
    simp only [Except.bind_eq_ok, ensure_eq_ok] at h
    obtain ⟨committed, hcommitted, _, rfl, h⟩ := h
    split at h
    · rename_i hopened
      simp only [Except.bind_eq_ok, ensure_eq_ok, Except.pure_eq_ok] at h
      obtain ⟨cs, hcs, _, hnone, rfl⟩ := h
      obtain rfl := Option.isNone_iff_eq_none.mp hnone
      exact .genesis slot hnew hopened.1 hopened.2 hcs
    · rw [Except.bind_eq_ok] at h
      obtain ⟨ask, hask, h⟩ := h
      obtain rfl := askFor_slot hask
      split at h
      · rename_i entry hentry
        simp only [Except.bind_eq_ok, Except.pure_eq_ok] at h
        obtain ⟨_, happroval, rfl⟩ := h
        exact .seat ask entry hnew hcommitted hask (List.mem_of_find?_eq_some hentry)
          (by simpa using List.find?_some hentry) happroval
      · split at h
        · rw [Except.pure_eq_ok] at h
          exact h ▸ .contested ask hnew hask
        · rw [Except.pure_eq_ok] at h
          exact h ▸ .ask ask hnew hask

/-! ## Resets -/

/-- An open reset past its window, in one of the states. -/
structure Opened (s : Store) (intentId : String) (states : List ResetState) (r : ResetRecord) :
    Prop where
  get : s.getReset intentId = some r
  notCancelled : r.state ≠ .cancelled
  notRevoked : s.isRevoked r.intent.jti = false
  state : r.state ∈ states
  due : r.intent.notBefore ≤ s.clock
  notExpired : ¬r.Expired s.clock

theorem openReset_eq_ok {intentId : String} {states : List ResetState} {r : ResetRecord}
    (h : openReset s intentId states = .ok r) : Opened s intentId states r := by
  unfold openReset at h
  split at h
  · cases h
  · rename_i r' hget
    simp only [Except.bind_eq_ok, ensure_eq_ok, Except.pure_eq_ok] at h
    obtain ⟨_, ⟨hcancelled, hrevoked⟩, _, hstate, _, hdue, _, hexpired, rfl⟩ := h
    exact ⟨hget, hcancelled, hrevoked, hstate, hdue, hexpired⟩

theorem answered_eq_ok {r : ResetRecord} {fresh : Fresh} {slot : OwnerSlot}
    (h : r.answered = .ok (fresh, slot)) : r.fresh = some fresh ∧ r.slot = some slot := by
  unfold ResetRecord.answered at h
  split at h
  · rename_i f sl hf hs
    simp only [Except.ok.injEq, Prod.mk.injEq] at h
    exact ⟨hf.trans (congrArg some h.1), hs.trans (congrArg some h.2)⟩
  all_goals cases h

/-- What a completion that is not committed appends, and on what. -/
structure Completing (env : Host) (s : Store) (cs : ChainState) (intentId sig : String)
    (c : Completion) where
  fresh : Fresh
  slot : OwnerSlot
  value : Bytes
  message : Bytes
  opened : Opened s intentId [.registered] c.r
  answered : c.r.answered = .ok (fresh, slot)
  value_eq : unb64u fresh.publicKey = some value
  message_eq : draftMessage env cs (resetDraft cs c.r fresh slot value) = .ok message
  passphrase : verifyPassphrase env cs message sig = true
  record : c.record = recordOf (resetDraft cs c.r fresh slot value) [sig, fresh.proof]

theorem checkComplete_eq_ok {cs : ChainState} {intentId sig : String} {c : Completion}
    (h : checkComplete env s cs intentId sig = .ok c) :
    Nonempty (Completing env s cs intentId sig c) := by
  simp only [checkComplete, Except.bind_eq_ok] at h
  obtain ⟨r, hr, ⟨fresh, slot⟩, hanswered, h⟩ := h
  split at h
  · cases h
  · rename_i value hvalue
    simp only [Except.bind_eq_ok, ensure_eq_ok, Except.pure_eq_ok] at h
    obtain ⟨message, hmessage, _, hpassphrase, rfl⟩ := h
    exact ⟨⟨fresh, slot, value, message, openReset_eq_ok hr, hanswered, hvalue, hmessage,
      hpassphrase, rfl⟩⟩

theorem committedNow_eq_some {intentId : String} {r : ResetRecord} :
    committedNow s intentId = .ok (some r) ↔
      s.getReset intentId = some r ∧ r.state = .registered ∧ resetEntryOnChain s r = .ok true := by
  unfold committedNow
  split
  · rename_i r' hget
    rw [hget]
    split
    · rename_i hstate
      simp only [Except.bind_eq_ok, Except.pure_eq_ok, Option.some.injEq]
      constructor
      · rintro ⟨committed, hcommitted, h⟩
        split at h
        · rename_i htrue
          obtain rfl := Option.some.inj h
          exact ⟨rfl, hstate, htrue ▸ hcommitted⟩
        · cases h
      · rintro ⟨rfl, -, hcommitted⟩
        exact ⟨true, hcommitted, rfl⟩
    · rename_i hstate
      simp only [Except.ok.injEq, reduceCtorEq, Option.some.injEq, false_iff, not_and]
      rintro rfl h
      exact absurd h hstate
  · rename_i hget
    simp [hget]

/-- What an abort finds. -/
theorem checkAborted_eq_ok {abort : Abort} {spent : Option ResetRecord} {r : ResetRecord}
    {committed : Bool} (h : checkAborted s abort spent = .ok (r, committed)) :
    spent = some r ∧ r.state.IsOpen ∧
      (committed = true → r.state = .registered ∧ resetEntryOnChain s r = .ok true) := by
  simp only [checkAborted, Except.bind_eq_ok] at h
  obtain ⟨_, -, h⟩ := h
  split at h
  · cases h
  · rename_i r'
    simp only [Except.bind_eq_ok, ensure_eq_ok] at h
    obtain ⟨_, hopen, h⟩ := h
    split at h
    · rename_i hstate
      simp only [Except.bind_eq_ok, Except.pure_eq_ok, Prod.mk.injEq] at h
      obtain ⟨_, hcommitted, rfl, rfl⟩ := h
      exact ⟨rfl, hopen, fun htrue => ⟨hstate, htrue ▸ hcommitted⟩⟩
    · simp only [Except.pure_eq_ok, Prod.mk.injEq] at h
      obtain ⟨rfl, rfl⟩ := h
      exact ⟨rfl, hopen, fun hfalse => absurd hfalse Bool.false_ne_true⟩

/-! ## Revokes -/

theorem checkRevoke_eq_ok {revoker target : PhoneRegistration} {isSelf : Bool}
    (h : checkRevoke env s revoker target isSelf = .ok ()) :
    (revoker.IsOwner ∨ isSelf = true) ∧
      (isSelf = false → target.IsOwner → checkSibling env s target = .ok ()) ∧
      (target.IsOwner → 1 < s.owners.length) := by
  simp only [checkRevoke, Except.bind_eq_ok, ensure_eq_ok] at h
  obtain ⟨_, hplane, h⟩ := h
  split at h
  · simp only [Except.bind_eq_ok, ensure_eq_ok] at h
    obtain ⟨_, hsibling, howners⟩ := h
    exact ⟨hplane, fun _ _ => hsibling, howners⟩
  · rename_i hnot
    simp only [ensure_eq_ok] at h
    exact ⟨hplane, fun hself howner => absurd ⟨hself, howner⟩ hnot, h⟩

end Server
end Recto
