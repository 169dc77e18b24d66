import Recto.Phone.PushTokenSync

/-!
# When `Unchanged` is true

The recorded hash is that of the token the bootloader holds while the call that
made the bootloader's last write has been the one to write the record after it.
A record that is not written, because the store failed or the answer was lost,
leaves the older one standing.
-/

namespace Recto
namespace Phone

section
variable {ι : Type} [DecidableEq ι] {sha256 : Bytes → Bytes} {bootloaderId phoneId : String}
  {c : PushServing ι} {stages : ι → PushStage} {l : PushLedger ι}

/-- What a settled ledger says of the record, what its writer has left, and what each run fetched. -/
structure LedgerKept (sha256 : Bytes → Bytes) (bootloaderId phoneId : String) (c : PushServing ι)
    (stages : ι → PushStage) (l : PushLedger ι) : Prop where
  recorded : l.owed = false → c.shared.sentHashes (storeKey bootloaderId phoneId) = none ∨
    ∃ token, c.shared.pushTokens phoneId = some (some token) ∧
      c.shared.sentHashes (storeKey bootloaderId phoneId) = some (tokenHash sha256 token)
  written : ∀ i, l.writer = some i → (stages i).tried = true ∧
    ∀ phoneId' token, (stages i).left = some (phoneId', token) →
      phoneId' = phoneId ∧ c.shared.pushTokens phoneId = some token
  fetched : ∀ i token, Fetched c i token ↔ (stages i).fetched = some token

variable {i : ι} {m : PushMoment} {q : PushQuery} {next : PushAnswer q → PushProgram}

theorem fetched_step (hcall : c.threads i = .call q next) (j : ι) (token : PushToken) :
    Fetched (Serving.step pushExec c (i, m)) j token ↔
      Fetched c j token ∨ (i = j ∧ fetchedIn ⟨i, m, q, (pushExec q m c.shared).1⟩ = some token) := by
  rw [Serving.step_call hcall]
  simp only [Fetched, List.mem_append, List.mem_singleton]
  constructor
  · rintro ⟨e, he | rfl, hthread, hfetched⟩
    · exact .inl ⟨e, he, hthread, hfetched⟩
    · exact .inr ⟨hthread, hfetched⟩
  · rintro (⟨e, he, hthread, hfetched⟩ | ⟨hthread, hfetched⟩)
    · exact ⟨e, .inl he, hthread, hfetched⟩
    · exact ⟨_, .inr rfl, hthread, hfetched⟩

/-- The fetches that the stages remember are those of the trace. -/
theorem LedgerKept.fetched_step (h : LedgerKept sha256 bootloaderId phoneId c stages l)
    (hcall : c.threads i = .call q next)
    (hallow : (pushMonitor sha256 bootloaderId).allows (stages i) q) (j : ι) (token : PushToken) :
    Fetched (Serving.step pushExec c (i, m)) j token ↔
      (Function.update stages i ((pushMonitor sha256 bootloaderId).next (stages i) q
        (pushExec q m c.shared).1) j).fetched = some token := by
  rw [Phone.fetched_step hcall, h.fetched]
  by_cases hj : j = i
  · subst hj
    rw [Function.update_self]
    cases q with
    | fetchToken =>
      have hnone : (stages j).fetched = none := hallow
      simp [hnone, pushMonitor, fetchedIn, pushExec]
    | _ => simp [pushMonitor, fetchedIn]
  · rw [Function.update_of_ne hj]
    exact or_iff_left fun hi => hj hi.1.symm

/-- A call that writes neither the phone's token nor its record leaves the ledger. -/
theorem next_quiet (hwrites : writesToken phoneId c (i, m) = none)
    (hrecord : writesRecord bootloaderId phoneId c (i, m) = false) :
    l.next bootloaderId sha256 phoneId c (i, m) = l := by
  simp [PushLedger.next, hwrites, hrecord]

/-- A call that leaves the phone's token and record as they were. -/
theorem LedgerKept.quiet (h : LedgerKept sha256 bootloaderId phoneId c stages l)
    (hcall : c.threads i = .call q next)
    (hallow : (pushMonitor sha256 bootloaderId).allows (stages i) q)
    (hwrites : writesToken phoneId c (i, m) = none)
    (hrecord : writesRecord bootloaderId phoneId c (i, m) = false)
    (hhash : (pushExec q m c.shared).2.sentHashes (storeKey bootloaderId phoneId) =
      c.shared.sentHashes (storeKey bootloaderId phoneId))
    (htoken : (pushExec q m c.shared).2.pushTokens phoneId = c.shared.pushTokens phoneId)
    (hstage : (stages i).tried = true →
      ((pushMonitor sha256 bootloaderId).next (stages i) q (pushExec q m c.shared).1).tried = true ∧
        ((pushMonitor sha256 bootloaderId).next (stages i) q (pushExec q m c.shared).1).left =
          (stages i).left) :
    LedgerKept sha256 bootloaderId phoneId (Serving.step pushExec c (i, m))
      (Function.update stages i ((pushMonitor sha256 bootloaderId).next (stages i) q
        (pushExec q m c.shared).1)) (l.next bootloaderId sha256 phoneId c (i, m)) := by
  have hshared : (Serving.step pushExec c (i, m)).shared = (pushExec q m c.shared).2 := by
    rw [Serving.step_call hcall]
  refine ⟨?_, ?_, h.fetched_step hcall hallow⟩
  · rw [next_quiet hwrites hrecord, hshared, hhash, htoken]
    exact h.recorded
  · rw [next_quiet hwrites hrecord, hshared, htoken]
    intro j hj
    obtain ⟨htried, hleft⟩ := h.written j hj
    by_cases hji : j = i
    · subst hji
      rw [Function.update_self]
      exact ⟨(hstage htried).1, (hstage htried).2 ▸ hleft⟩
    · rw [Function.update_of_ne hji]
      exact ⟨htried, hleft⟩

/-- A call that makes the bootloader hold a token, or none, of the phone. -/
theorem LedgerKept.token (h : LedgerKept sha256 bootloaderId phoneId c stages l)
    (hcall : c.threads i = .call q next)
    (hallow : (pushMonitor sha256 bootloaderId).allows (stages i) q) (token : Option PushToken)
    (hwrites : writesToken phoneId c (i, m) = some token)
    (hhash : (pushExec q m c.shared).2.sentHashes = c.shared.sentHashes)
    (htoken : (pushExec q m c.shared).2.pushTokens phoneId = some token)
    (hstage : ((pushMonitor sha256 bootloaderId).next (stages i) q
        (pushExec q m c.shared).1).tried = true ∧
      ∀ phoneId' token', ((pushMonitor sha256 bootloaderId).next (stages i) q
        (pushExec q m c.shared).1).left = some (phoneId', token') →
          phoneId' = phoneId ∧ token' = token) :
    LedgerKept sha256 bootloaderId phoneId (Serving.step pushExec c (i, m))
      (Function.update stages i ((pushMonitor sha256 bootloaderId).next (stages i) q
        (pushExec q m c.shared).1)) (l.next bootloaderId sha256 phoneId c (i, m)) := by
  have hshared : (Serving.step pushExec c (i, m)).shared = (pushExec q m c.shared).2 := by
    rw [Serving.step_call hcall]
  refine ⟨fun howed => ?_, fun j hj => ?_, h.fetched_step hcall hallow⟩
  · simp only [PushLedger.next, hwrites, decide_eq_false_iff_not, not_and_or, not_not] at howed
    rw [hshared, hhash, htoken]
    rcases howed with hnone | hsame
    · exact .inl hnone
    · rw [hsame]
      cases token with
      | none => exact .inl rfl
      | some token => exact .inr ⟨token, rfl, rfl⟩
  · simp only [PushLedger.next, hwrites, Option.some.injEq] at hj
    subst hj
    rw [Function.update_self, hshared, htoken]
    refine ⟨hstage.1, fun phoneId' token' hleft => ?_⟩
    obtain ⟨hphone, rfl⟩ := hstage.2 phoneId' token' hleft
    exact ⟨hphone, rfl⟩

/-- A call that writes the record of the phone, or forgets it. -/
theorem LedgerKept.record (h : LedgerKept sha256 bootloaderId phoneId c stages l)
    (hcall : c.threads i = .call q next)
    (hallow : (pushMonitor sha256 bootloaderId).allows (stages i) q) {token : Option PushToken}
    (hleft : (stages i).left = some (phoneId, token))
    (hwrites : writesToken phoneId c (i, m) = none)
    (hrecord : writesRecord bootloaderId phoneId c (i, m) = true)
    (hhash : (pushExec q m c.shared).2.sentHashes (storeKey bootloaderId phoneId) =
      token.map (tokenHash sha256))
    (htoken : (pushExec q m c.shared).2.pushTokens = c.shared.pushTokens)
    (hstage : (pushMonitor sha256 bootloaderId).next (stages i) q (pushExec q m c.shared).1 = stages i) :
    LedgerKept sha256 bootloaderId phoneId (Serving.step pushExec c (i, m))
      (Function.update stages i ((pushMonitor sha256 bootloaderId).next (stages i) q
        (pushExec q m c.shared).1)) (l.next bootloaderId sha256 phoneId c (i, m)) := by
  have hshared : (Serving.step pushExec c (i, m)).shared = (pushExec q m c.shared).2 := by
    rw [Serving.step_call hcall]
  have hnext : l.next bootloaderId sha256 phoneId c (i, m) = ⟨l.writer, l.writer ≠ some i⟩ := by
    simp only [PushLedger.next, hwrites, hrecord, if_true]
  refine ⟨fun howed => ?_, fun j hj => ?_, h.fetched_step hcall hallow⟩
  · rw [hnext] at howed
    simp only [decide_eq_false_iff_not, not_not] at howed
    have hheld := ((h.written i howed).2 phoneId token hleft).2
    rw [hshared, hhash, htoken, hheld]
    cases token with
    | none => exact .inl rfl
    | some token => exact .inr ⟨token, rfl, rfl⟩
  · rw [hnext] at hj
    rw [hstage, Function.update_eq_self, hshared, htoken]
    exact h.written j hj

/-- What every call keeps. -/
theorem LedgerKept.step (h : LedgerKept sha256 bootloaderId phoneId c stages l)
    (hcall : c.threads i = .call q next)
    (hallow : (pushMonitor sha256 bootloaderId).allows (stages i) q) :
    LedgerKept sha256 bootloaderId phoneId (Serving.step pushExec c (i, m))
      (Function.update stages i ((pushMonitor sha256 bootloaderId).next (stages i) q
        (pushExec q m c.shared).1)) (l.next bootloaderId sha256 phoneId c (i, m)) := by
  have hnext : c.next? i = some q := Serving.next?_eq_some.mpr ⟨next, hcall⟩
  cases q with
  | updatePushToken phoneId' token =>
    have hfresh : (stages i).tried = false := hallow
    by_cases happlied : m.applied ∧ (c.shared.pushTokens phoneId').isSome
    · by_cases hphone : phoneId' = phoneId
      · subst hphone
        refine h.token hcall hallow (some token) ?_ ?_ ?_ ⟨rfl, fun phoneId' token' hleft => ?_⟩
        · simp only [writesToken, hnext, happlied, and_self, if_true]
        · simp only [pushExec, if_pos happlied]
        · simp only [pushExec, if_pos happlied, Function.update_self]
        · simp only [pushMonitor, Option.ite_none_right_eq_some, Option.some.injEq,
            Prod.mk.injEq] at hleft
          exact ⟨hleft.2.1.symm, hleft.2.2.symm⟩
      · refine h.quiet hcall hallow ?_ ?_ ?_ ?_ fun htried => by simp [hfresh] at htried
        · simp [writesToken, hnext, hphone]
        · simp [writesRecord, hnext]
        · simp only [pushExec, if_pos happlied]
        · simp only [pushExec, if_pos happlied, Function.update_of_ne (Ne.symm hphone)]
    · refine h.quiet hcall hallow ?_ ?_ ?_ ?_ fun htried => by simp [hfresh] at htried
      · simp only [writesToken, hnext]
        exact if_neg fun hw => happlied ⟨hw.1, hw.2.1⟩
      · simp [writesRecord, hnext]
      · simp only [pushExec, if_neg happlied]
      · simp only [pushExec, if_neg happlied]
  | register token =>
    have hfresh : (stages i).tried = false := hallow
    by_cases happlied : m.applied = true
    · by_cases hphone : m.phoneId = phoneId
      · subst hphone
        refine h.token hcall hallow (usable token) ?_ ?_ ?_
          ⟨rfl, fun phoneId' token' hleft => ?_⟩
        · simp [writesToken, hnext, happlied]
        · simp only [pushExec, if_pos happlied]
        · simp only [pushExec, if_pos happlied, Function.update_self]
        · simp only [pushMonitor, pushExec, if_pos happlied, Option.map_eq_some_iff,
            Option.ite_none_right_eq_some, Option.some.injEq, Prod.mk.injEq] at hleft
          obtain ⟨_, ⟨-, rfl⟩, rfl, rfl⟩ := hleft
          exact ⟨rfl, rfl⟩
      · refine h.quiet hcall hallow ?_ ?_ ?_ ?_ fun htried => by simp [hfresh] at htried
        · simp [writesToken, hnext, hphone]
        · simp [writesRecord, hnext]
        · simp only [pushExec, if_pos happlied]
        · simp only [pushExec, if_pos happlied, Function.update_of_ne (Ne.symm hphone)]
    · refine h.quiet hcall hallow ?_ ?_ ?_ ?_ fun htried => by simp [hfresh] at htried
      · simp [writesToken, hnext, happlied]
      · simp [writesRecord, hnext]
      · simp only [pushExec, if_neg happlied]
      · simp only [pushExec, if_neg happlied]
  | setLastSentHash key hash =>
    have hmay := hallow
    obtain ⟨phoneId', token, hleft, rfl, rfl⟩ := hmay
    have hwrites : writesToken phoneId c (i, m) = none := by simp [writesToken, hnext]
    by_cases hfails : m.storeFails = true
    · refine h.quiet hcall hallow hwrites ?_ ?_ ?_ fun htried => ⟨htried, rfl⟩
      · simp [writesRecord, hnext, hfails]
      · simp only [pushExec, if_pos hfails]
      · simp only [pushExec, if_pos hfails]
    · by_cases hphone : phoneId' = phoneId
      · subst hphone
        refine h.record hcall hallow hleft hwrites ?_ ?_ ?_ rfl
        · simp [writesRecord, hnext, hfails]
        · simp only [pushExec, if_neg hfails, Function.update_self, Option.map_some]
        · simp only [pushExec, if_neg hfails]
      · have hkey : storeKey bootloaderId phoneId ≠ storeKey bootloaderId phoneId' :=
          fun hkey => hphone (storeKey_injective hkey).symm
        refine h.quiet hcall hallow hwrites ?_ ?_ ?_ fun htried => ⟨htried, rfl⟩
        · simp [writesRecord, hnext, hkey.symm]
        · simp only [pushExec, if_neg hfails, Function.update_of_ne hkey]
        · simp only [pushExec, if_neg hfails]
  | forget key =>
    have hmay := hallow
    obtain ⟨phoneId', hleft, rfl⟩ := hmay
    have hwrites : writesToken phoneId c (i, m) = none := by simp [writesToken, hnext]
    by_cases hfails : m.storeFails = true
    · refine h.quiet hcall hallow hwrites ?_ ?_ ?_ fun htried => ⟨htried, rfl⟩
      · simp [writesRecord, hnext, hfails]
      · simp only [pushExec, if_pos hfails]
      · simp only [pushExec, if_pos hfails]
    · by_cases hphone : phoneId' = phoneId
      · subst hphone
        refine h.record hcall hallow hleft hwrites ?_ ?_ ?_ rfl
        · simp [writesRecord, hnext, hfails]
        · simp only [pushExec, if_neg hfails, Function.update_self, Option.map_none]
        · simp only [pushExec, if_neg hfails]
      · have hkey : storeKey bootloaderId phoneId ≠ storeKey bootloaderId phoneId' :=
          fun hkey => hphone (storeKey_injective hkey).symm
        refine h.quiet hcall hallow hwrites ?_ ?_ ?_ fun htried => ⟨htried, rfl⟩
        · simp [writesRecord, hnext, hkey.symm]
        · simp only [pushExec, if_neg hfails, Function.update_of_ne hkey]
        · simp only [pushExec, if_neg hfails]
  | waitGate =>
    refine h.quiet hcall hallow ?_ ?_ ?_ ?_ fun htried => ⟨htried, rfl⟩
    · simp [writesToken, hnext]
    · simp [writesRecord, hnext]
    · simp only [pushExec]
      split_ifs <;> rfl
    · simp only [pushExec]
      split_ifs <;> rfl
  | _ =>
    refine h.quiet hcall hallow ?_ ?_ rfl rfl fun htried => ⟨htried, rfl⟩
    · simp [writesToken, hnext]
    · simp [writesRecord, hnext]

/-! ## Every schedule -/

/-- Along every schedule the programs stay where their stages say, and the ledger is kept. -/
theorem exists_ledgerKept (turns : List (ι × PushMoment))
    (hobeys : ∀ i, (pushMonitor sha256 bootloaderId).Obeys (fun _ _ => True) (stages i) (c.threads i))
    (h : LedgerKept sha256 bootloaderId phoneId c stages l) :
    ∃ stages, LedgerKept sha256 bootloaderId phoneId (Serving.run pushExec c turns) stages
        (ledgerAfter bootloaderId sha256 phoneId l c turns) ∧
      ∀ i, (pushMonitor sha256 bootloaderId).Obeys (fun _ _ => True) (stages i)
        ((Serving.run pushExec c turns).threads i) := by
  induction turns generalizing c stages l with
  | nil => exact ⟨stages, h, hobeys⟩
  | cons turn turns ih =>
    obtain ⟨i, m⟩ := turn
    rw [Serving.run_cons, ledgerAfter]
    cases hthread : c.threads i with
    | done a =>
      have hquiet : l.next bootloaderId sha256 phoneId c (i, m) = l :=
        next_quiet (by simp [writesToken, Serving.next?, hthread])
          (by simp [writesRecord, Serving.next?, hthread])
      rw [Serving.step_done hthread, hquiet]
      exact ih hobeys h
    | call q next =>
      have hi := hobeys i
      rw [hthread, Monitor.obeys_call] at hi
      refine ih (fun j => ?_) (h.step hthread hi.1)
      rw [Serving.step_call hthread]
      by_cases hj : j = i
      · subst hj
        simpa using hi.2 _ trivial
      · simpa [Function.update_of_ne hj] using hobeys j

/-- A read after which the run answers `Unchanged` found the hash of the token that the run fetched. -/
theorem AnswersUnchanged.matched (h : LedgerKept sha256 bootloaderId phoneId c stages l)
    (hobeys : ∀ i, (pushMonitor sha256 bootloaderId).Obeys (fun _ _ => True) (stages i) (c.threads i))
    (hanswers : AnswersUnchanged bootloaderId phoneId c (i, m)) :
    ∃ token, (∀ token', Fetched c i token' ↔ token' = token) ∧
      c.shared.sentHashes (storeKey bootloaderId phoneId) = some (tokenHash sha256 token) := by
  obtain ⟨next, hcall⟩ := Serving.next?_eq_some.mp hanswers.1
  obtain ⟨next', hcall'⟩ := Serving.next?_eq_some.mp hanswers.2
  have hi := hobeys i
  rw [hcall, Monitor.obeys_call] at hi
  have hthen := hi.2 (pushExec (.getLastSentHash (storeKey bootloaderId phoneId)) m c.shared).1 trivial
  rw [Serving.step_call hcall] at hcall'
  simp only [Function.update_self] at hcall'
  rw [hcall', Monitor.obeys_call] at hthen
  have hmatched := hthen.1 rfl
  simp only [pushMonitor, Option.any_eq_true, decide_eq_true_eq] at hmatched
  obtain ⟨token, htoken, hlast⟩ := hmatched
  refine ⟨token, fun token' => ?_, ?_⟩
  · rw [h.fetched, htoken, Option.some.injEq, eq_comm]
  · simp only [pushExec] at hlast
    split_ifs at hlast
    · simp at hlast
    · simpa using hlast

/-- On every schedule on which the ledger is settled wherever a run answers `Unchanged`, the
bootloader then holds for the phone the token that the run fetched. -/
theorem unchanged_is_held (bootloaderId : String) (hsha : Function.Injective sha256)
    (tasks : ι → PushTask) (pushTokens : String → Option (Option PushToken))
    (turns : List (ι × PushMoment))
    (hsettled : ∀ before turn after phoneId, turns = before ++ turn :: after →
      AnswersUnchanged bootloaderId phoneId
        (Serving.run pushExec (servePush bootloaderId sha256 tasks pushTokens) before) turn →
      (ledgerAfter bootloaderId sha256 phoneId ⟨none, false⟩
        (servePush bootloaderId sha256 tasks pushTokens) before).owed = false) :
    ∀ before turn after phoneId, turns = before ++ turn :: after →
      AnswersUnchanged bootloaderId phoneId
        (Serving.run pushExec (servePush bootloaderId sha256 tasks pushTokens) before) turn →
      ∃ token,
        (∀ token', Fetched
          (Serving.run pushExec (servePush bootloaderId sha256 tasks pushTokens) before) turn.1 token' ↔
            token' = token) ∧
        (Serving.run pushExec (servePush bootloaderId sha256 tasks pushTokens) before).shared.pushTokens
          phoneId = some (some token) := by
  intro before turn after phoneId hturns hanswers
  have hstart : LedgerKept sha256 bootloaderId phoneId (servePush bootloaderId sha256 tasks pushTokens)
      (fun _ => .fresh) ⟨none, false⟩ :=
    ⟨fun _ => .inl rfl, nofun, by simp [Fetched, servePush, Serving.start, PushStage.fresh]⟩
  obtain ⟨stages, hkept, hobeys⟩ :=
    exists_ledgerKept before (fun i => obeys_program (tasks i)) hstart
  obtain ⟨token, hfetched, hmatched⟩ := hanswers.matched hkept hobeys
  refine ⟨token, hfetched, ?_⟩
  rcases hkept.recorded (hsettled before turn after phoneId hturns hanswers) with
    hnone | ⟨token', hheld, hrecord⟩
  · rw [hmatched] at hnone
    cases hnone
  · rw [hmatched, Option.some.injEq] at hrecord
    rw [hheld, tokenHash_injective hsha hrecord]

end

/-! ## One phone -/

def sampleToken : PushToken := ⟨"token-a", .fcm⟩

/-- SHA-256 on the text of the token, and another injective function elsewhere. -/
def sampleTokenHash (raw : Bytes) : Bytes :=
  if raw = utf8 "fcm\ntoken-a" then
    [132, 191, 217, 215, 133, 237, 182, 163, 10, 32, 239, 134, 44, 9, 19, 156, 72, 215, 137, 154,
    195, 137, 116, 84, 118, 245, 28, 223, 78, 203, 225, 22]
  else List.replicate 33 0 ++ raw

def samplePaired : PairingState := ⟨"phone-1", "https://box.example"⟩

/-- A pairing with the token, a pairing without one, and a sync. -/
def sampleTasks : Fin 3 → PushTask
  | 0 => .pair samplePaired.bootloaderUrl (some sampleToken)
  | 1 => .pair samplePaired.bootloaderUrl none
  | 2 => .sync (some samplePaired)

def sampleServe : PushServing (Fin 3) :=
  servePush "boot-1" sampleTokenHash sampleTasks fun _ => none

def samplePushMoment : PushMoment := ⟨false, some (some sampleToken), false, true, true, "phone-1"⟩

/-- Two calls of a run: the first pairing registers the token and records it, and the sync takes the
gate and fetches. -/
def sampleTurns (i : Fin 3) : List (Fin 3 × PushMoment) := [(i, samplePushMoment), (i, samplePushMoment)]

/-- The second pairing registers no token, and the record of the first cannot be forgotten. -/
def sampleForgetTurns (i : Fin 3) : List (Fin 3 × PushMoment) :=
  [(i, samplePushMoment), (i, { samplePushMoment with storeFails := true })]

/-- The sync after the first pairing. -/
theorem unchanged_is_held_sample :
    ∃ token,
      (∀ token', Fetched (Serving.run pushExec sampleServe (sampleTurns 0 ++ sampleTurns 2)) 2
        token' ↔ token' = token) ∧
      (Serving.run pushExec sampleServe (sampleTurns 0 ++ sampleTurns 2)).shared.pushTokens
        "phone-1" = some (some token) := by
  have hother {c : PushServing (Fin 3)} {i : Fin 3} {key : String}
      (h : (c.next? i).any (fun q => q matches .getLastSentHash _) = false) :
      c.next? i ≠ some (.getLastSentHash key) := fun hkey => by rw [hkey] at h; cases h
  have hread : (Serving.run pushExec sampleServe (sampleTurns 0 ++ sampleTurns 2)).next? 2 =
      some (.getLastSentHash (storeKey "boot-1" "phone-1")) := by decide +kernel
  refine unchanged_is_held "boot-1" (Capability.injective_of_digest rfl _) sampleTasks
    (fun _ => none) (sampleTurns 0 ++ sampleTurns 2 ++ [(2, samplePushMoment)]) ?_
    (sampleTurns 0 ++ sampleTurns 2) (2, samplePushMoment) [] "phone-1" rfl (by decide +kernel)
  intro before turn after phoneId hturns hanswers
  have hbefore : before = (sampleTurns 0 ++ sampleTurns 2 ++
      [(2, samplePushMoment)]).take before.length := by
    rw [hturns, List.take_left]
  have hturn : (sampleTurns 0 ++ sampleTurns 2 ++ [(2, samplePushMoment)])[before.length]? =
      some turn := by
    rw [hturns, List.getElem?_append_right le_rfl, Nat.sub_self, List.getElem?_cons_zero]
  have hlength : before.length ≤ 4 := by
    have := congrArg List.length hturns
    simp [sampleTurns] at this
    omega
  generalize before.length = k at hbefore hturn hlength
  subst hbefore
  -- Only the last of the turns reads the record.
  interval_cases k <;> obtain rfl := Option.some.inj hturn
  · exact absurd hanswers.1 (hother (by decide +kernel))
  · exact absurd hanswers.1 (hother (by decide +kernel))
  · exact absurd hanswers.1 (hother (by decide +kernel))
  · exact absurd hanswers.1 (hother (by decide +kernel))
  · have hphone := Option.some.inj (hread.symm.trans hanswers.1)
    obtain rfl := storeKey_injective (PushQuery.getLastSentHash.inj hphone)
    decide +kernel

/-- The record of the first pairing outlives the second, and a sync then says that the bootloader has
the token. -/
theorem unforgotten_record_unchanged :
    Serving.Along pushExec GateKept sampleServe
      (sampleTurns 0 ++ sampleForgetTurns 1 ++ sampleTurns 2 ++ [(2, samplePushMoment)]) ∧
    AnswersUnchanged "boot-1" "phone-1" (Serving.run pushExec sampleServe
      (sampleTurns 0 ++ sampleForgetTurns 1 ++ sampleTurns 2)) (2, samplePushMoment) ∧
    Fetched (Serving.run pushExec sampleServe
      (sampleTurns 0 ++ sampleForgetTurns 1 ++ sampleTurns 2)) 2 sampleToken ∧
    (Serving.run pushExec sampleServe
      (sampleTurns 0 ++ sampleForgetTurns 1 ++ sampleTurns 2)).shared.pushTokens "phone-1" =
        some none := by decide +kernel

end Phone
end Recto
