import Mathlib.Tactic
import Recto.Sessions.Store

/-!
# The uses of a session are bounded

What `get_session` serves is unexpired, belongs to a phone registered at that
moment, is for the pair its phone signed, and carries a token with uses left, in
every run that never stores a token again after a use, never stores a session
whose phone has gone, and never restarts on a file of sessions that lags behind.
-/

namespace Recto
namespace Sessions

variable {w : Tokens} {b : Bootloader} {st : Store} {spent : String → ℤ} {s sess : Session}
  {phones : Dict String String} {pair : String × String} {lands : Bool}

/-! ## What a session stands for -/

/-- The token says what the session holds. -/
def Covered (w : Tokens) (s : Session) : Prop :=
  ∃ claims, w.claims s.jwt = some claims ∧ claims.aud = w.audience ∧ claims.pair? = some s.pair ∧
    claims.exp = s.expiresAtUnix ∧ claims.rectoMaxUses = s.maxUses

/-- The session's phone is registered, with the key that signed the token. -/
def Owned (w : Tokens) (phones : Dict String String) (s : Session) : Prop :=
  (phones.get? s.phoneId).any (fun key => w.signed key s.jwt) = true

instance : Decidable (Owned w phones s) := inferInstanceAs (Decidable (_ = true))

/-- A session is served well: unexpired, its phone's, for the pair the phone signed, and with a use
of its token left. -/
structure ServedWell (w : Tokens) (b : Bootloader) (pair : String × String) (s : Session) : Prop where
  unexpired : b.now < s.expiresAtUnix
  registered : ∃ key, b.store.phones.get? s.phoneId = some key ∧ w.signed key s.jwt = true
  covered : ∃ claims, w.claims s.jwt = some claims ∧ claims.aud = w.audience ∧
    claims.pair? = some pair ∧ s.pair = pair ∧
    (0 < claims.rectoMaxUses → b.spent s.jwt < claims.rectoMaxUses)

/-- The phone that holds the id of a registration, if any, has its key. -/
def KeepsIds (phones : Dict String String) (reg : PhoneRegistration) : Prop :=
  phones.get? (storedId phones reg) = none ∨
    phones.get? (storedId phones reg) = some reg.publicKeyB64u

instance (reg : PhoneRegistration) : Decidable (KeepsIds phones reg) :=
  inferInstanceAs (Decidable (_ ∨ _))

/-- A session is stored while its phone is still registered under the key that signed, and with no
use of its token before. -/
def PutSound (b : Bootloader) : Option Request → Prop
  | some (.verified key sess) =>
    b.store.phones.get? sess.phoneId = some key ∧ (0 < sess.maxUses → b.spent sess.jwt ≤ 0)
  | _ => True

/-- The steps that keep the count and the phone of each session: besides the stores, no registration
takes the id of another key, and a restart finds in the file no session whose phone has gone or whose
count lags behind. -/
def Sound (w : Tokens) (b : Bootloader) : Event → Prop
  | .put request _ => PutSound b b.requests[request]?
  | .register reg _ => KeepsIds b.store.phones reg
  | .replace occupant reg _ _ => KeepsIds (b.store.phones.erase occupant) reg
  | .restart => ∀ s ∈ b.store.sessionsFile,
    Owned w b.store.phones s ∧ (0 < s.maxUses → b.spent s.jwt ≤ s.usesSoFar)
  | _ => True

/-- Every step of a run meets the condition. -/
def Keeping (w : Tokens) : Bootloader → List Event → Prop
  | _, [] => True
  | b, event :: events => Sound w b event ∧ Keeping w (b.step w event) events

instance PutSound.decidable (b : Bootloader) : (r : Option Request) → Decidable (PutSound b r)
  | some (.verified _ _) => inferInstanceAs (Decidable (_ ∧ _))
  | some (.found ..) | some .refused | none => inferInstanceAs (Decidable True)

instance Sound.decidable (w : Tokens) (b : Bootloader) : (event : Event) → Decidable (Sound w b event)
  | .put request _ => PutSound.decidable b b.requests[request]?
  | .register .. | .replace .. => inferInstanceAs (Decidable (KeepsIds _ _))
  | .restart => inferInstanceAs (Decidable (∀ s ∈ b.store.sessionsFile, _ ∧ _))
  | .lookUp .. | .verify _ | .get .. | .increment .. | .revoke .. | .tick _ =>
    inferInstanceAs (Decidable True)

instance Keeping.decidable (w : Tokens) : (b : Bootloader) → (events : List Event) →
    Decidable (Keeping w b events)
  | _, [] => inferInstanceAs (Decidable True)
  | b, event :: events =>
    have := Keeping.decidable w (b.step w event) events
    inferInstanceAs (Decidable (Sound w b event ∧ Keeping w (b.step w event) events))

/-! ## The store -/

/-- What every session in memory and in the file is. -/
structure Kept (w : Tokens) (spent : String → ℤ) (st : Store) : Prop where
  sessions : ∀ pair s, st.sessions.get? pair = some s → pair = s.pair ∧ Covered w s ∧
    Owned w st.phones s ∧ (0 < s.maxUses → spent s.jwt ≤ s.usesSoFar)
  file : ∀ s ∈ st.sessionsFile, Covered w s

/-- A token is for one pair. -/
theorem Covered.pair_eq (h : Covered w s) (h' : Covered w sess) (hjwt : s.jwt = sess.jwt) :
    s.pair = sess.pair := by
  obtain ⟨claims, hclaims, -, hpair, -⟩ := h
  obtain ⟨claims', hclaims', -, hpair', -⟩ := h'
  rw [hjwt, hclaims', Option.some.injEq] at hclaims
  rw [hclaims, hpair, Option.some.injEq] at hpair'
  exact hpair'

theorem Kept.save (h : Kept w spent st) (lands : Bool) : Kept w spent (saveSessions lands st).2 := by
  unfold saveSessions
  split_ifs
  · refine ⟨h.sessions, fun s hs => ?_⟩
    obtain ⟨pair, hpair⟩ := Dict.mem_values_iff.mp hs
    exact (h.sessions pair s hpair).2.1
  · exact h

/-- Sessions may go, and phones that have none. -/
theorem Kept.drop {sessions : Dict (String × String) Session} (h : Kept w spent st)
    (hsessions : ∀ pair s, sessions.get? pair = some s → st.sessions.get? pair = some s ∧
      phones.get? s.phoneId = st.phones.get? s.phoneId) :
    Kept w spent { st with phones, sessions } := by
  refine ⟨fun pair s hs => ?_, h.file⟩
  obtain ⟨hold, hphone⟩ := hsessions pair s hs
  obtain ⟨hpair, hcovered, howned, hspent⟩ := h.sessions pair s hold
  refine ⟨hpair, hcovered, ?_, hspent⟩
  rw [Owned, hphone]
  exact howned

theorem Kept.set (h : Kept w spent st) (hcovered : Covered w s) (howned : Owned w st.phones s)
    (hspent : 0 < s.maxUses → spent s.jwt ≤ s.usesSoFar) :
    Kept w spent { st with sessions := st.sessions.set s.pair s } := by
  refine ⟨fun pair s' hs' => ?_, h.file⟩
  rw [Dict.get?_set] at hs'
  split_ifs at hs' with hpair
  · obtain rfl := Option.some.inj hs'
    exact ⟨hpair, hcovered, howned, hspent⟩
  · exact h.sessions pair s' hs'

theorem Kept.getSession (h : Kept w spent st) (now : ℚ) (pair : String × String) (lands : Bool) :
    Kept w spent (getSession now pair lands st).2 := by
  unfold Sessions.getSession
  cases st.sessions.get? pair with
  | none => exact h
  | some sess =>
    dsimp only
    split_ifs
    · refine (h.drop fun pair' s hs => ?_).save lands
      rw [Dict.get?_erase] at hs
      split_ifs at hs
      exact ⟨hs, rfl⟩
    · exact h

/-- An increment counts for its own session, which is the only one of its token. -/
theorem Kept.increment (h : Kept w b.spent b.store) (pair : String × String) (lands : Bool) :
    Kept w (countUse pair b) (incrementSessionUses pair lands b.store).2 := by
  unfold incrementSessionUses countUse
  cases hsess : b.store.sessions.get? pair with
  | none => exact h
  | some sess =>
    obtain ⟨rfl, hcovered, howned, hspent⟩ := h.sessions pair sess hsess
    suffices hset : Kept w (Function.update b.spent sess.jwt (b.spent sess.jwt + 1))
        { b.store with
          sessions := b.store.sessions.set sess.pair
            { sess with usesSoFar := sess.usesSoFar + 1 } } from hset.save lands
    refine ⟨fun pair' s hs => ?_, h.file⟩
    rw [Dict.get?_set] at hs
    split_ifs at hs with hpair
    · obtain rfl := Option.some.inj hs
      refine ⟨hpair, hcovered, howned, fun hmax => ?_⟩
      rw [Function.update_self]
      exact Int.add_le_add_right (hspent hmax) 1
    · obtain ⟨rfl, hcovered', howned', hspent'⟩ := h.sessions pair' s hs
      have hjwt : s.jwt ≠ sess.jwt := fun hjwt => hpair (hcovered'.pair_eq hcovered hjwt)
      refine ⟨rfl, hcovered', howned', ?_⟩
      rwa [Function.update_of_ne hjwt]

theorem phoneId_of_withoutPhone {sessions : Dict (String × String) Session} {phoneId : String}
    (h : (withoutPhone phoneId sessions).get? pair = some s) :
    sessions.get? pair = some s ∧ s.phoneId ≠ phoneId := by
  obtain ⟨hs, hphone⟩ := Dict.get?_filter.mp h
  exact ⟨hs, of_decide_eq_true hphone⟩

/-- Without a phone go its sessions. -/
theorem Kept.erasePhone (h : Kept w spent st) (phoneId : String) :
    Kept w spent
      { st with
        phones := st.phones.erase phoneId
        sessions := withoutPhone phoneId st.sessions } := by
  refine h.drop fun pair s hs => ?_
  obtain ⟨hold, hphone⟩ := phoneId_of_withoutPhone hs
  exact ⟨hold, by rw [Dict.get?_erase, if_neg hphone]⟩

/-- A registration that takes no other key's id leaves every session its phone. -/
theorem Kept.setPhone {reg : PhoneRegistration} (h : Kept w spent st)
    (hkeeps : KeepsIds st.phones reg) :
    Kept w spent
      { st with phones := st.phones.set (storedId st.phones reg) reg.publicKeyB64u } := by
  refine ⟨fun pair s hs => ?_, h.file⟩
  obtain ⟨hpair, hcovered, howned, hspent⟩ := h.sessions pair s hs
  refine ⟨hpair, hcovered, ?_, hspent⟩
  rw [Owned] at howned ⊢
  rw [Dict.get?_set]
  split_ifs with hid
  · rw [hid] at howned
    rcases hkeeps with hnone | hsome
    · rw [hnone] at howned
      simp at howned
    · rwa [hsome] at howned
  · exact howned

theorem Kept.revoke (h : Kept w spent st) (phoneId : String) (phonesLand sessionsLand : Bool) :
    Kept w spent (revokePhone phoneId phonesLand sessionsLand st).2 := by
  unfold revokePhone
  split_ifs
  · exact (h.erasePhone phoneId).save sessionsLand
  · exact h
  · exact h

theorem Kept.replace {reg : PhoneRegistration} (h : Kept w spent st) (occupant : String)
    (phonesLand sessionsLand : Bool) (hkeeps : KeepsIds (st.phones.erase occupant) reg) :
    Kept w spent (replacePhone occupant reg phonesLand sessionsLand st).2 := by
  unfold replacePhone
  split_ifs
  · exact ((h.erasePhone occupant).setPhone hkeeps).save sessionsLand
  · exact h
  · exact h

/-- What is loaded stood in the file, under its pair. -/
theorem mem_of_loadSessions {file : List Session} (h : (loadSessions file).get? pair = some s) :
    s ∈ file ∧ pair = s.pair := by
  unfold loadSessions at h
  induction file using List.reverseRecOn with
  | nil => simp at h
  | append_singleton file last ih =>
    rw [List.foldl_append, List.foldl_cons, List.foldl_nil, Dict.get?_set] at h
    split_ifs at h with hpair
    · obtain rfl := Option.some.inj h
      exact ⟨by simp, hpair⟩
    · exact ⟨List.mem_append_left _ (ih h).1, (ih h).2⟩

theorem Kept.restart (h : Kept w spent st) (hfile : ∀ s ∈ st.sessionsFile,
      Owned w st.phones s ∧ (0 < s.maxUses → spent s.jwt ≤ s.usesSoFar)) :
    Kept w spent { st with sessions := loadSessions st.sessionsFile } := by
  refine ⟨fun pair s hs => ?_, h.file⟩
  obtain ⟨hmem, hpair⟩ := mem_of_loadSessions hs
  exact ⟨hpair, h.file s hmem, hfile s hmem⟩

/-! ## Requests -/

/-- A verified request holds what its token says, and no use. -/
def Request.Kept (w : Tokens) : Request → Prop
  | .verified key s => Covered w s ∧ w.signed key s.jwt = true ∧ s.usesSoFar = 0
  | _ => True

theorem Request.Kept.verify {r : Request} (h : r.Kept w) (now : ℚ) : (verifyRequest w now r).Kept w := by
  cases r with
  | found phoneId key token =>
    unfold verifyRequest
    dsimp only
    cases hverified : w.verifyJwt token key now with
    | none => trivial
    | some claims =>
      dsimp only
      cases hpair : claims.pair? with
      | none => trivial
      | some pair =>
        obtain ⟨hclaims, haccepted⟩ := Option.filter_eq_some_iff.mp hverified
        simp only [Bool.and_eq_true, decide_eq_true_eq] at haccepted
        exact ⟨⟨claims, hclaims, haccepted.1.2, hpair, rfl, rfl⟩, haccepted.1.1, rfl⟩
  | verified key sess => exact h
  | refused => trivial

/-! ## Runs -/

/-- What holds of a bootloader in every run whose steps are sound. -/
structure Bootloader.Kept (w : Tokens) (b : Bootloader) : Prop where
  store : Sessions.Kept w b.spent b.store
  requests : ∀ r ∈ b.requests, r.Kept w

theorem Bootloader.kept_start (now : ℚ) : (Bootloader.start now).Kept w where
  store := ⟨by simp [Bootloader.start], by simp [Bootloader.start]⟩
  requests := by simp [Bootloader.start]

theorem Bootloader.Kept.step {event : Event} (h : b.Kept w) (hsound : Sound w b event) :
    (b.step w event).Kept w := by
  cases event with
  | lookUp phoneId token =>
    simp only [Bootloader.step]
    cases b.store.phones.get? phoneId with
    | none => exact h
    | some key =>
      refine ⟨h.store, fun r hr => ?_⟩
      rcases List.mem_append.mp hr with hr | hr
      · exact h.requests r hr
      · rw [List.mem_singleton.mp hr]
        trivial
  | verify request =>
    refine ⟨h.store, fun r hr => ?_⟩
    have hr : r ∈ b.requests.modify request (verifyRequest w b.now) := hr
    obtain ⟨i, hi, rfl⟩ := List.mem_iff_getElem.mp hr
    rw [List.getElem_modify]
    have hmem := h.requests _ (List.getElem_mem (by simpa using hi))
    split_ifs
    · exact hmem.verify b.now
    · exact hmem
  | put request lands =>
    simp only [Bootloader.step]
    simp only [Sound] at hsound
    cases hrequest : b.requests[request]? with
    | none => exact h
    | some r =>
      rw [hrequest] at hsound
      cases r with
      | found phoneId key token => exact h
      | refused => exact h
      | verified key sess =>
        obtain ⟨hphone, hspent⟩ := hsound
        obtain ⟨hcovered, hsigned, huses⟩ := h.requests _ (List.mem_of_getElem? hrequest)
        have howned : Owned w b.store.phones sess := by
          rw [Owned, hphone]
          exact hsigned
        refine ⟨(h.store.set hcovered howned (by rwa [huses])).save lands, fun r hr => ?_⟩
        rcases List.mem_or_eq_of_mem_set hr with hr | rfl
        · exact h.requests r hr
        · trivial
  | get pair lands => exact ⟨h.store.getSession b.now pair lands, h.requests⟩
  | increment pair lands => exact ⟨h.store.increment pair lands, h.requests⟩
  | revoke phoneId phonesLand sessionsLand =>
    exact ⟨h.store.revoke phoneId phonesLand sessionsLand, h.requests⟩
  | register reg lands =>
    refine ⟨?_, h.requests⟩
    change Sessions.Kept w b.spent (registerPhone reg lands b.store).2
    unfold registerPhone
    split_ifs
    · exact h.store.setPhone hsound
    · exact h.store
  | replace occupant reg phonesLand sessionsLand =>
    exact ⟨h.store.replace occupant phonesLand sessionsLand hsound, h.requests⟩
  | restart => exact ⟨h.store.restart hsound, by simp [Bootloader.step]⟩
  | tick time => exact ⟨h.store, h.requests⟩

theorem Bootloader.Kept.run {events : List Event} (h : b.Kept w) (hkeeping : Keeping w b events) :
    (b.run w events).Kept w := by
  induction events generalizing b with
  | nil => exact h
  | cons event events ih => exact ih (h.step hkeeping.1) hkeeping.2

theorem keeping_append {before after : List Event} :
    Keeping w b (before ++ after) ↔ Keeping w b before ∧ Keeping w (b.run w before) after := by
  induction before generalizing b with
  | nil => simp [Keeping, Bootloader.run]
  | cons event before ih => simp [Keeping, Bootloader.run, ih, and_assoc]

/-- What is served out of a kept store is served well. -/
theorem Bootloader.Kept.servedWell (h : b.Kept w)
    (hserved : (getSession b.now pair lands b.store).1 = .ok (some s)) : ServedWell w b pair s := by
  unfold getSession at hserved
  cases hsess : b.store.sessions.get? pair with
  | none => simp [hsess] at hserved
  | some sess =>
    rw [hsess] at hserved
    dsimp only at hserved
    split_ifs at hserved with hover
    · cases hsaved : (saveSessions lands { b.store with
        sessions := b.store.sessions.erase pair }).1 <;> simp [hsaved, Except.map] at hserved
    · obtain rfl : sess = s := by simpa using hserved
      simp only [Bool.or_eq_true, not_or, Session.isExpired, decide_eq_true_eq, not_le] at hover
      obtain ⟨hpair, ⟨claims, hclaims, haud, hpair', -, hmax⟩, howned, hspent⟩ :=
        h.store.sessions pair sess hsess
      refine ⟨hover.1, (Option.any_eq_true _ _).mp howned, claims, hclaims, haud, hpair ▸ hpair', hpair.symm,
        fun hpos => ?_⟩
      rw [hmax] at hpos ⊢
      have huses := hover.2
      simp only [Session.isExhausted, if_neg (not_le.mpr hpos), decide_eq_true_eq, not_le] at huses
      exact (hspent hpos).trans_lt huses

/-- In every run whose steps are sound, every session served is served well. -/
theorem getSession_servedWell (w : Tokens) (now : ℚ) (events : List Event)
    (hkeeping : Keeping w (Bootloader.start now) events) :
    ∀ before pair lands after, events = before ++ .get pair lands :: after → ∀ s,
      (getSession ((Bootloader.start now).run w before).now pair lands
        ((Bootloader.start now).run w before).store).1 = .ok (some s) →
      ServedWell w ((Bootloader.start now).run w before) pair s := by
  rintro before pair lands after rfl s hserved
  have hbefore := (keeping_append.mp hkeeping).1
  exact ((Bootloader.kept_start now).run hbefore).servedWell hserved

/-- One token, for one use of one secret. -/
def sampleTokens : Tokens where
  claims := fun token =>
    if token = "jwt" then some ⟨"myservice:API_KEY", "bootloader", 2000, 1000, 1⟩ else none
  signed := fun key _ => key = "K"
  audience := "bootloader"

/-- A phone registers and its token is issued. -/
def issued : List Event :=
  [.register ⟨"phone", "K"⟩ true, .lookUp "phone" "jwt", .verify 0, .put 0 true]

def sampleSession : Session :=
  ⟨"myservice", "API_KEY", "phone", "jwt", 2000, 1000, 1, 0⟩

theorem getSession_servedWell_issued :
    ServedWell sampleTokens ((Bootloader.start 1500).run sampleTokens issued)
      ("myservice", "API_KEY") sampleSession :=
  getSession_servedWell sampleTokens 1500 (issued ++ [.get ("myservice", "API_KEY") true])
    (by decide +kernel) issued ("myservice", "API_KEY") true [] rfl sampleSession (by decide +kernel)

/-- The token is used once, issued again, and served again. -/
def reissued : List Event :=
  issued ++ [.increment ("myservice", "API_KEY") true, .lookUp "phone" "jwt", .verify 1, .put 1 true]

/-- A second issue of a spent token is served although its one use is gone. -/
theorem getSession_reissued_served :
    (getSession ((Bootloader.start 1500).run sampleTokens reissued).now ("myservice", "API_KEY") true
        ((Bootloader.start 1500).run sampleTokens reissued).store).1 = .ok (some sampleSession) ∧
      ¬ServedWell sampleTokens ((Bootloader.start 1500).run sampleTokens reissued)
        ("myservice", "API_KEY") sampleSession := by
  refine ⟨by decide +kernel, fun h => ?_⟩
  obtain ⟨claims, hclaims, -, -, -, hspent⟩ := h.covered
  obtain rfl : (⟨"myservice:API_KEY", "bootloader", 2000, 1000, 1⟩ : SessionClaims) = claims := by
    simpa [sampleTokens, sampleSession] using hclaims
  exact absurd (hspent (by decide)) (by decide +kernel)

end Sessions
end Recto
