import Recto.Data.Dict
import Recto.Data.SortBy
import Mathlib.Data.String.Basic

/-!
# The revocation list on its two backends

The file backend drops what has expired before every call and lets the first
entry of a jti stand. The Postgres backend overwrites the row of a jti and drops
what has expired only when it is asked. Both are run here over one sequence of
timed calls and compared with what the list is for: a jti counts as revoked
until the expiry it was added with.
-/

namespace Recto
namespace State

structure RevocationEntry where
  jti : String
  revokedAt : ℤ
  originalExp : ℤ
  reason : Option String
  deriving DecidableEq, Repr

/-- `is_expired`: the expiry is a whole second, so the clock's whole seconds decide. -/
def RevocationEntry.isExpired (e : RevocationEntry) (now : ℤ) : Bool := e.originalExp ≤ now

/-- The entries by jti: the file backend's dictionary, or the rows of the table. -/
abbrev Revocations := Dict String RevocationEntry

inductive RevocationCall where
  | add (entry : RevocationEntry)
  | isRevoked (jti : String)
  | list
  deriving DecidableEq, Repr

inductive RevocationAnswer where
  | added
  | raised
  | revoked (answer : Bool)
  | entries (listed : List RevocationEntry)
  deriving DecidableEq, Repr

/-- A call at a time: what it answers and the entries it leaves. -/
abbrev RevocationBackend := Revocations → ℤ → RevocationCall → RevocationAnswer × Revocations

/-- `_purge_expired_revocations`, the same on both backends. -/
def purgeExpiredRevocations (s : Revocations) (now : ℤ) : Revocations :=
  s.filter fun _ e => !e.isExpired now

/-- Strings compare by code point in Python. -/
abbrev codePointOrder : LinearOrder String := inferInstance

namespace StateStore

/-- The first entry of a jti stands. -/
def addRevocation (s : Revocations) (now : ℤ) (entry : RevocationEntry) : Revocations :=
  let s := purgeExpiredRevocations s now
  if entry.jti ∈ s then s else s.set entry.jti entry

/-- `sorted(values, key=lambda e: e.jti)` -/
def listRevocations (s : Revocations) : List RevocationEntry :=
  sortBy codePointOrder RevocationEntry.jti s.values

def revocations : RevocationBackend := fun s now call =>
  match call with
  | .add entry => (.added, addRevocation s now entry)
  | .isRevoked jti =>
      let s := purgeExpiredRevocations s now
      (.revoked (decide (jti ∈ s)), s)
  | .list =>
      let s := purgeExpiredRevocations s now
      (.entries (listRevocations s), s)

end StateStore

namespace PostgresStateStore

/-- The column `original_exp_unix bigint` holds the value. -/
def FitsBigint (n : ℤ) : Prop := -2 ^ 63 ≤ n ∧ n < 2 ^ 63

instance (n : ℤ) : Decidable (FitsBigint n) := inferInstanceAs (Decidable (_ ∧ _))

/-- `INSERT ... ON CONFLICT (jti) DO UPDATE` -/
def addRevocation (s : Revocations) (entry : RevocationEntry) : Option Revocations :=
  if FitsBigint entry.originalExp then some (s.set entry.jti entry) else none

/-- `ORDER BY jti`, in the order of the database's collation. -/
def listRevocations (collation : LinearOrder String) (s : Revocations) : List RevocationEntry :=
  sortBy collation RevocationEntry.jti s.values

def revocations (collation : LinearOrder String) : RevocationBackend := fun s now call =>
  match call with
  | .add entry =>
      match addRevocation s entry with
      | some s' => (.added, s')
      | none => (.raised, s)
  | .isRevoked jti =>
      let s := purgeExpiredRevocations s now
      (.revoked (decide (jti ∈ s)), s)
  | .list =>
      let s := purgeExpiredRevocations s now
      (.entries (listRevocations collation s), s)

end PostgresStateStore

/-! ## Runs -/

/-- The entries a sequence of timed calls leaves. -/
def leftBy (backend : RevocationBackend) (calls : List (ℤ × RevocationCall)) : Revocations :=
  calls.foldl (fun s c => (backend s c.1 c.2).2) ∅

/-- What the calls of the sequence are answered. -/
def answersFrom (backend : RevocationBackend) :
    Revocations → List (ℤ × RevocationCall) → List RevocationAnswer
  | _, [] => []
  | s, c :: rest => (backend s c.1 c.2).1 :: answersFrom backend (backend s c.1 c.2).2 rest

def answers (backend : RevocationBackend) (calls : List (ℤ × RevocationCall)) :
    List RevocationAnswer := answersFrom backend ∅ calls

variable {backend : RevocationBackend} {calls pre : List (ℤ × RevocationCall)} {t now : ℤ}

theorem answersFrom_append (s : Revocations) (xs ys : List (ℤ × RevocationCall)) :
    answersFrom backend s (xs ++ ys) = answersFrom backend s xs ++
      answersFrom backend (xs.foldl (fun s c => (backend s c.1 c.2).2) s) ys := by
  induction xs generalizing s with
  | nil => rfl
  | cons c xs ih => simp [answersFrom, ih]

theorem answers_concat (c : ℤ × RevocationCall) :
    answers backend (pre ++ [c]) = answers backend pre ++ [(backend (leftBy backend pre) c.1 c.2).1] :=
  answersFrom_append ∅ pre [c]

theorem answers_concat_eq_iff {backend' : RevocationBackend} (c : ℤ × RevocationCall) :
    answers backend (pre ++ [c]) = answers backend' (pre ++ [c]) ↔
      answers backend pre = answers backend' pre ∧
        (backend (leftBy backend pre) c.1 c.2).1 = (backend' (leftBy backend' pre) c.1 c.2).1 := by
  rw [answers_concat, answers_concat]
  constructor
  · intro h
    have hinj := List.append_inj' h rfl
    exact ⟨hinj.1, by simpa using hinj.2⟩
  · rintro ⟨hpre, hlast⟩
    rw [hpre, hlast]

theorem leftBy_concat (c : ℤ × RevocationCall) :
    leftBy backend (pre ++ [c]) = (backend (leftBy backend pre) c.1 c.2).2 := by
  simp [leftBy]

/-! ## What the list is for -/

/-- Some call added the entry, and it has not expired. -/
def Live (calls : List (ℤ × RevocationCall)) (now : ℤ) (e : RevocationEntry) : Prop :=
  (∃ t, (t, .add e) ∈ calls) ∧ now < e.originalExp

/-- The time is not before any of the calls. -/
def NotBefore (calls : List (ℤ × RevocationCall)) (now : ℤ) : Prop := ∀ c ∈ calls, c.1 ≤ now

/-- The times of the calls never decrease. -/
def OneClock (calls : List (ℤ × RevocationCall)) : Prop := calls.Pairwise fun c d => c.1 ≤ d.1

instance : Decidable (NotBefore calls now) := inferInstanceAs (Decidable (∀ c ∈ calls, _))

instance : Decidable (OneClock calls) := inferInstanceAs (Decidable (List.Pairwise _ _))

/-- The two backends answer the sequence alike, and would answer alike whatever was asked next,
at any moment of it. -/
def Agree (collation : LinearOrder String) (calls : List (ℤ × RevocationCall)) : Prop :=
  ∀ pre, pre <+: calls → ∀ now, NotBefore pre now → ∀ call, (∀ e, call ≠ .add e) →
    answers StateStore.revocations (pre ++ [(now, call)]) =
      answers (PostgresStateStore.revocations collation) (pre ++ [(now, call)])

/-- Once an add returned, its jti is revoked until it expires, whatever calls followed. -/
def Lasting (backend : RevocationBackend) (calls : List (ℤ × RevocationCall)) : Prop :=
  ∀ pre t e later, pre ++ (t, .add e) :: later <+: calls →
    (backend (leftBy backend pre) t (.add e)).1 = .added →
    ∀ now, NotBefore (pre ++ (t, .add e) :: later) now → now < e.originalExp →
      (backend (leftBy backend (pre ++ (t, .add e) :: later)) now (.isRevoked e.jti)).1 =
        .revoked true

/-- An entry that has not expired is not added again with another content. -/
def SameAgain (c d : ℤ × RevocationCall) : Prop :=
  ∀ e e', c.2 = .add e → d.2 = .add e' → e.jti = e'.jti → d.1 < e.originalExp → e = e'

/-- The collation orders two jtis that stand on the list together as their code points do. -/
def Collated (collation : LinearOrder String) (c d : ℤ × RevocationCall) : Prop :=
  ∀ e e', c.2 = .add e → d.2 = .add e' → e.jti ≠ e'.jti → d.1 < e.originalExp →
    d.1 < e'.originalExp → (codePointOrder.le e.jti e'.jti ↔ collation.le e.jti e'.jti)

/-- What the calls must be for the backends to agree. -/
structure Undisputed (collation : LinearOrder String) (calls : List (ℤ × RevocationCall)) :
    Prop where
  sameAgain : calls.Pairwise SameAgain
  collated : calls.Pairwise (Collated collation)
  fits : ∀ t e, (t, RevocationCall.add e) ∈ calls → PostgresStateStore.FitsBigint e.originalExp

/-! ## What the entries left are -/

/-- The entries that count at a time, by jti, are the ones added that have not expired. -/
def Tracks (s : Revocations) (calls : List (ℤ × RevocationCall)) : Prop :=
  ∀ now, NotBefore calls now → ∀ jti e,
    (purgeExpiredRevocations s now).get? jti = some e ↔ e.jti = jti ∧ Live calls now e

theorem get?_purge {s : Revocations} {jti : String} {e : RevocationEntry} :
    (purgeExpiredRevocations s now).get? jti = some e ↔
      s.get? jti = some e ∧ now < e.originalExp := by
  simp [purgeExpiredRevocations, Dict.get?_filter, RevocationEntry.isExpired]

theorem get?_purge_purge {s : Revocations} (h : t ≤ now) {jti : String} {e : RevocationEntry} :
    (purgeExpiredRevocations (purgeExpiredRevocations s t) now).get? jti = some e ↔
      (purgeExpiredRevocations s now).get? jti = some e := by
  simp only [get?_purge]
  constructor
  · rintro ⟨⟨hs, -⟩, hnow⟩
    exact ⟨hs, hnow⟩
  · rintro ⟨hs, hnow⟩
    exact ⟨⟨hs, by omega⟩, hnow⟩

theorem NotBefore.of_concat {c : ℤ × RevocationCall} (h : NotBefore (pre ++ [c]) now) :
    NotBefore pre now ∧ c.1 ≤ now := by
  simpa [NotBefore, or_imp, forall_and] using h

theorem NotBefore.concat (h : NotBefore pre t) (call : RevocationCall) :
    NotBefore (pre ++ [(t, call)]) t := by
  simpa [NotBefore, or_imp, forall_and] using h

theorem OneClock.notBefore {c : ℤ × RevocationCall} (h : OneClock (pre ++ [c])) :
    NotBefore pre c.1 := by
  intro d hd
  exact (List.pairwise_append.mp h).2.2 d hd c (List.mem_singleton_self c)

theorem live_concat_add {e e' : RevocationEntry} :
    Live (pre ++ [(t, .add e')]) now e ↔ Live pre now e ∨ (e = e' ∧ now < e.originalExp) := by
  simp only [Live, List.mem_append, List.mem_singleton, Prod.mk.injEq, RevocationCall.add.injEq,
    exists_or, ← or_and_right]
  simp

theorem live_concat_of_ne {call : RevocationCall} (hcall : ∀ e, call ≠ .add e)
    {e : RevocationEntry} : Live (pre ++ [(t, call)]) now e ↔ Live pre now e := by
  have hne : RevocationCall.add e ≠ call := fun h => hcall e h.symm
  simp [Live, hne]

/-- Asking drops what has expired and changes nothing that counts. -/
theorem Tracks.ask {s : Revocations} (h : Tracks s pre) {call : RevocationCall}
    (hcall : ∀ e, call ≠ .add e) :
    Tracks (purgeExpiredRevocations s t) (pre ++ [(t, call)]) := by
  intro now hnow jti e
  obtain ⟨hpre, ht⟩ := hnow.of_concat
  rw [get?_purge_purge ht, live_concat_of_ne hcall]
  exact h now hpre jti e

theorem Tracks.sameAgain {s : Revocations} (h : Tracks s pre) (ht : NotBefore pre t)
    {e e' : RevocationEntry} (hsame : ∀ c ∈ pre, SameAgain c (t, .add e'))
    (he : (purgeExpiredRevocations s t).get? e'.jti = some e) : e = e' := by
  obtain ⟨hjti, ⟨t₀, hmem⟩, hexp⟩ := (h t ht e'.jti e).mp he
  exact hsame _ hmem e e' rfl rfl hjti hexp

theorem StateStore.tracks_add {s : Revocations} (h : Tracks s pre) (ht : NotBefore pre t)
    {e' : RevocationEntry} (hsame : ∀ c ∈ pre, SameAgain c (t, .add e')) :
    Tracks (StateStore.addRevocation s t e') (pre ++ [(t, .add e')]) := by
  intro now hnow jti e
  obtain ⟨hpre, htn⟩ := hnow.of_concat
  rw [live_concat_add]
  dsimp only [StateStore.addRevocation]
  split_ifs with hmem
  · -- the entry that stands is the one added again
    obtain ⟨e₀, he₀⟩ := Dict.mem_iff.mp hmem
    obtain rfl := h.sameAgain ht hsame he₀
    rw [get?_purge_purge htn, h now hpre]
    have hlive : Live pre t e₀ := ((h t ht _ _).mp he₀).2
    constructor
    · rintro ⟨hjti, hl⟩
      exact ⟨hjti, Or.inl hl⟩
    · rintro ⟨hjti, hl | ⟨rfl, hexp⟩⟩
      · exact ⟨hjti, hl⟩
      · exact ⟨hjti, hlive.1, hexp⟩
  · rw [get?_purge, Dict.get?_set]
    split_ifs with hjti
    · subst hjti
      simp only [Option.some.injEq]
      constructor
      · rintro ⟨rfl, hexp⟩
        exact ⟨rfl, Or.inr ⟨rfl, hexp⟩⟩
      · rintro ⟨hjti, hl | ⟨rfl, hexp⟩⟩
        · have hold := (h now hpre e'.jti e).mpr ⟨hjti, hl⟩
          rw [get?_purge] at hold
          exact absurd (Dict.mem_of_get? (get?_purge.mpr ⟨hold.1, by omega⟩)) hmem
        · exact ⟨rfl, hexp⟩
    · rw [← get?_purge, get?_purge_purge htn, h now hpre]
      constructor
      · rintro ⟨rfl, hl⟩
        exact ⟨rfl, Or.inl hl⟩
      · rintro ⟨rfl, hl | ⟨rfl, -⟩⟩
        · exact ⟨rfl, hl⟩
        · exact absurd rfl hjti

theorem PostgresStateStore.tracks_add {s s' : Revocations} (h : Tracks s pre)
    {e' : RevocationEntry} (hsame : ∀ c ∈ pre, SameAgain c (t, .add e'))
    (hadd : PostgresStateStore.addRevocation s e' = some s') :
    Tracks s' (pre ++ [(t, .add e')]) := by
  intro now hnow jti e
  obtain ⟨hpre, htn⟩ := hnow.of_concat
  unfold PostgresStateStore.addRevocation at hadd
  split_ifs at hadd with hfit
  cases hadd
  rw [live_concat_add, get?_purge, Dict.get?_set]
  split_ifs with hjti
  · subst hjti
    simp only [Option.some.injEq]
    constructor
    · rintro ⟨rfl, hexp⟩
      exact ⟨rfl, Or.inr ⟨rfl, hexp⟩⟩
    · rintro ⟨hjti, ⟨⟨t₀, hmem⟩, hexp⟩ | ⟨rfl, hexp⟩⟩
      · exact ⟨(hsame _ hmem e e' rfl rfl hjti (by simp only; omega)).symm, hexp⟩
      · exact ⟨rfl, hexp⟩
  · rw [← get?_purge, h now hpre]
    constructor
    · rintro ⟨rfl, hl⟩
      exact ⟨rfl, Or.inl hl⟩
    · rintro ⟨rfl, hl | ⟨rfl, -⟩⟩
      · exact ⟨rfl, hl⟩
      · exact absurd rfl hjti

theorem StateStore.tracks_leftBy (hclock : OneClock calls) (hsame : calls.Pairwise SameAgain) :
    Tracks (leftBy StateStore.revocations calls) calls := by
  induction calls using List.reverseRecOn with
  | nil =>
    intro now _ jti e
    simp [leftBy, get?_purge, Live]
  | append_singleton pre c ih =>
    obtain ⟨hpre, -, hlast⟩ := List.pairwise_append.mp hsame
    have htracks := ih (List.pairwise_append.mp hclock).1 hpre
    obtain ⟨t, call⟩ := c
    rw [leftBy_concat]
    cases call with
    | add e => exact tracks_add htracks hclock.notBefore fun c hc => hlast c hc _ (by simp)
    | isRevoked jti => exact htracks.ask fun e h => by cases h
    | list => exact htracks.ask fun e h => by cases h

theorem PostgresStateStore.tracks_leftBy (collation : LinearOrder String)
    (hsame : calls.Pairwise SameAgain)
    (hfits : ∀ t e, (t, RevocationCall.add e) ∈ calls → FitsBigint e.originalExp) :
    Tracks (leftBy (PostgresStateStore.revocations collation) calls) calls := by
  induction calls using List.reverseRecOn with
  | nil =>
    intro now _ jti e
    simp [leftBy, get?_purge, Live]
  | append_singleton pre c ih =>
    obtain ⟨hpre, -, hlast⟩ := List.pairwise_append.mp hsame
    have htracks := ih hpre fun t e hm => hfits t e (List.mem_append_left _ hm)
    obtain ⟨t, call⟩ := c
    rw [leftBy_concat]
    cases call with
    | add e =>
      have hfit : FitsBigint e.originalExp := hfits t e (by simp)
      have hadd : addRevocation (leftBy (revocations collation) pre) e =
          some ((leftBy (revocations collation) pre).set e.jti e) := if_pos hfit
      simp only [revocations, hadd]
      exact tracks_add htracks (fun c hc => hlast c hc _ (by simp)) hadd
    | isRevoked jti => exact htracks.ask fun e h => by cases h
    | list => exact htracks.ask fun e h => by cases h

theorem Tracks.mem_iff {s : Revocations} (h : Tracks s calls) (hnow : NotBefore calls now)
    (jti : String) :
    jti ∈ purgeExpiredRevocations s now ↔ ∃ e, e.jti = jti ∧ Live calls now e := by
  simp only [Dict.mem_iff, h now hnow]

theorem Tracks.mem_values_iff {s : Revocations} (h : Tracks s calls) (hnow : NotBefore calls now)
    (e : RevocationEntry) :
    e ∈ (purgeExpiredRevocations s now).values ↔ Live calls now e := by
  simp [Dict.mem_values_iff, h now hnow]

theorem Tracks.nodup_values {s : Revocations} (h : Tracks s calls) (hnow : NotBefore calls now) :
    (purgeExpiredRevocations s now).values.Nodup := by
  have hkeys : (purgeExpiredRevocations s now).values.map RevocationEntry.jti =
      (purgeExpiredRevocations s now).keys := by
    rw [Dict.values, Dict.keys, List.map_map]
    apply List.map_congr_left
    rintro ⟨jti, e⟩ hmem
    exact ((h now hnow jti e).mp (Dict.get?_eq_some_iff.mpr hmem)).1
  exact List.Nodup.of_map _ (hkeys ▸ Dict.nodup_keys _)

theorem Tracks.eq_of_jti {s : Revocations} (h : Tracks s calls) (hnow : NotBefore calls now)
    {e e' : RevocationEntry} (he : Live calls now e) (he' : Live calls now e')
    (hjti : e.jti = e'.jti) : e = e' := by
  have hget := (h now hnow e'.jti e).mpr ⟨hjti, he⟩
  have hget' := (h now hnow e'.jti e').mpr ⟨rfl, he'⟩
  exact Option.some.inj (hget.symm.trans hget')

theorem Tracks.lasting {backend : RevocationBackend}
    (hask : ∀ s now jti, (backend s now (.isRevoked jti)).1 =
      .revoked (decide (jti ∈ purgeExpiredRevocations s now)))
    (h : ∀ pre, pre <+: calls → Tracks (leftBy backend pre) pre) : Lasting backend calls := by
  intro pre t e later hprefix _ now hnow hexp
  have hmem : e.jti ∈
      purgeExpiredRevocations (leftBy backend (pre ++ (t, .add e) :: later)) now :=
    ((h _ hprefix).mem_iff hnow e.jti).mpr ⟨e, rfl, ⟨t, by simp⟩, hexp⟩
  rw [hask, decide_eq_true hmem]

/-! ## The backends side by side -/

variable {collation : LinearOrder String} {s s' : Revocations} {e : RevocationEntry}

/-- Two tables that track one sequence list the same entries. -/
theorem Tracks.perm_values (h : Tracks s calls) (h' : Tracks s' calls)
    (hnow : NotBefore calls now) :
    (purgeExpiredRevocations s now).values.Perm (purgeExpiredRevocations s' now).values := by
  refine (List.perm_ext_iff_of_nodup (h.nodup_values hnow) (h'.nodup_values hnow)).mpr fun e => ?_
  rw [h.mem_values_iff hnow, h'.mem_values_iff hnow]

theorem Tracks.listRevocations_eq_iff (h : Tracks s calls) (h' : Tracks s' calls)
    (hnow : NotBefore calls now) :
    StateStore.listRevocations (purgeExpiredRevocations s now) =
        PostgresStateStore.listRevocations collation (purgeExpiredRevocations s' now) ↔
      ∀ e, Live calls now e → ∀ e', Live calls now e' →
        (codePointOrder.le e.jti e'.jti ↔ collation.le e.jti e'.jti) := by
  have hkey : ∀ a ∈ (purgeExpiredRevocations s now).values,
      ∀ b ∈ (purgeExpiredRevocations s now).values, a.jti = b.jti → a = b := fun a ha b hb =>
    h.eq_of_jti hnow ((h.mem_values_iff hnow a).mp ha) ((h.mem_values_iff hnow b).mp hb)
  simp only [StateStore.listRevocations, PostgresStateStore.listRevocations,
    sortBy_eq_sortBy_iff (h.perm_values h' hnow) hkey, h.mem_values_iff hnow]

theorem Undisputed.of_prefix (h : Undisputed collation calls) (hpre : pre <+: calls) :
    Undisputed collation pre where
  sameAgain := h.sameAgain.sublist hpre.sublist
  collated := h.collated.sublist hpre.sublist
  fits := fun t e hmem => h.fits t e (hpre.subset hmem)

theorem Undisputed.tracks (h : Undisputed collation calls) (hclock : OneClock calls) :
    Tracks (leftBy StateStore.revocations calls) calls ∧
      Tracks (leftBy (PostgresStateStore.revocations collation) calls) calls :=
  ⟨StateStore.tracks_leftBy hclock h.sameAgain,
    PostgresStateStore.tracks_leftBy collation h.sameAgain h.fits⟩

/-- Two jtis on the list at once stand in one order, whichever was added first. -/
theorem collated_of_live (h : calls.Pairwise (Collated collation)) (hnow : NotBefore calls now)
    {e e' : RevocationEntry} (he : Live calls now e) (he' : Live calls now e') :
    codePointOrder.le e.jti e'.jti ↔ collation.le e.jti e'.jti := by
  by_cases hne : e.jti = e'.jti
  · rw [hne]
    exact iff_of_true (codePointOrder.le_refl _) (collation.le_refl _)
  obtain ⟨⟨t, ht⟩, hexp⟩ := he
  obtain ⟨⟨t', ht'⟩, hexp'⟩ := he'
  have hle : t ≤ now := hnow _ ht
  have hle' : t' ≤ now := hnow _ ht'
  obtain ⟨i, hi, hgi⟩ := List.mem_iff_getElem.mp ht
  obtain ⟨j, hj, hgj⟩ := List.mem_iff_getElem.mp ht'
  rcases lt_trichotomy i j with hij | rfl | hij
  · have hpair := List.pairwise_iff_getElem.mp h i j hi hj hij
    rw [hgi, hgj] at hpair
    exact hpair e e' rfl rfl hne (by simp only; omega) (by simp only; omega)
  · obtain ⟨-, rfl⟩ : t = t' ∧ e = e' := by simpa using hgi.symm.trans hgj
    exact absurd rfl hne
  · have hpair := List.pairwise_iff_getElem.mp h j i hj hi hij
    rw [hgi, hgj] at hpair
    have hturned : codePointOrder.le e'.jti e.jti ↔ collation.le e'.jti e.jti :=
      hpair e' e rfl rfl (Ne.symm hne) (by simp only; omega) (by simp only; omega)
    rw [le_iff_not_le_of_ne codePointOrder hne, le_iff_not_le_of_ne collation hne, hturned]

/-- Tables that track one sequence of collated jtis answer every question alike. -/
theorem Tracks.ask_eq (h : Tracks s calls) (h' : Tracks s' calls) (hnow : NotBefore calls now)
    (hcollated : calls.Pairwise (Collated collation)) {call : RevocationCall}
    (hcall : ∀ e, call ≠ .add e) :
    (StateStore.revocations s now call).1 =
      (PostgresStateStore.revocations collation s' now call).1 := by
  cases call with
  | add e => exact absurd rfl (hcall e)
  | isRevoked jti =>
    have hmem : jti ∈ purgeExpiredRevocations s now ↔ jti ∈ purgeExpiredRevocations s' now :=
      (h.mem_iff hnow jti).trans (h'.mem_iff hnow jti).symm
    simp only [StateStore.revocations, PostgresStateStore.revocations, hmem]
  | list =>
    simp only [StateStore.revocations, PostgresStateStore.revocations]
    rw [(h.listRevocations_eq_iff h' hnow).mpr fun e he e' he' =>
      collated_of_live hcollated hnow he he']

theorem Undisputed.answers_eq (h : Undisputed collation calls) (hclock : OneClock calls) :
    answers StateStore.revocations calls =
      answers (PostgresStateStore.revocations collation) calls := by
  induction calls using List.reverseRecOn with
  | nil => rfl
  | append_singleton pre c ih =>
    have hpre := h.of_prefix (List.prefix_append pre [c])
    have hclock' : OneClock pre := (List.pairwise_append.mp hclock).1
    obtain ⟨htracks, htracks'⟩ := hpre.tracks hclock'
    obtain ⟨t, call⟩ := c
    refine (answers_concat_eq_iff _).mpr ⟨ih hpre hclock', ?_⟩
    cases call with
    | add e =>
      have hfit : PostgresStateStore.FitsBigint e.originalExp := h.fits t e (by simp)
      simp [StateStore.revocations, PostgresStateStore.revocations,
        PostgresStateStore.addRevocation, hfit]
    | isRevoked jti => exact htracks.ask_eq htracks' hclock.notBefore hpre.collated nofun
    | list => exact htracks.ask_eq htracks' hclock.notBefore hpre.collated nofun

theorem Undisputed.agree (h : Undisputed collation calls) (hclock : OneClock calls) :
    Agree collation calls := by
  intro pre hpre now hnow call hcall
  have hclock' : OneClock pre := List.Pairwise.sublist hpre.sublist hclock
  have hpre' := h.of_prefix hpre
  obtain ⟨htracks, htracks'⟩ := hpre'.tracks hclock'
  exact (answers_concat_eq_iff _).mpr
    ⟨hpre'.answers_eq hclock', htracks.ask_eq htracks' hnow hpre'.collated hcall⟩

/-- The last add of an agreed sequence raised on neither backend. -/
theorem Agree.fits (h : Agree collation calls) {t : ℤ} {e : RevocationEntry}
    (hpre : pre ++ [(t, .add e)] <+: calls) (hnow : NotBefore (pre ++ [(t, .add e)]) t) :
    PostgresStateStore.FitsBigint e.originalExp := by
  have hadds := ((answers_concat_eq_iff _).mp (h _ hpre t hnow .list nofun)).1
  have hlast := ((answers_concat_eq_iff _).mp hadds).2
  by_contra hfit
  simp [StateStore.revocations, PostgresStateStore.revocations, PostgresStateStore.addRevocation,
    hfit] at hlast

/-- Both backends list the same entries at every moment of an agreed sequence. -/
theorem Agree.listRevocations_eq (h : Agree collation calls) (hpre : pre <+: calls)
    (hnow : NotBefore pre now) :
    StateStore.listRevocations
        (purgeExpiredRevocations (leftBy StateStore.revocations pre) now) =
      PostgresStateStore.listRevocations collation
        (purgeExpiredRevocations
          (leftBy (PostgresStateStore.revocations collation) pre) now) := by
  have hlast := ((answers_concat_eq_iff _).mp (h pre hpre now hnow .list nofun)).2
  simpa [StateStore.revocations, PostgresStateStore.revocations] using hlast

theorem Agree.mem_values_iff (h : Agree collation calls) (hpre : pre <+: calls)
    (hnow : NotBefore pre now) (e : RevocationEntry) :
    e ∈ (purgeExpiredRevocations (leftBy StateStore.revocations pre) now).values ↔
      e ∈ (purgeExpiredRevocations
        (leftBy (PostgresStateStore.revocations collation) pre) now).values := by
  have hmem := congrArg (e ∈ ·) (h.listRevocations_eq hpre hnow)
  simpa [StateStore.listRevocations, PostgresStateStore.listRevocations] using hmem

/-- An add over a standing entry of its jti shows on the Postgres list and not on the other. -/
theorem Agree.sameAgain (h : Agree collation (pre ++ [(t, .add e)])) (hnow : NotBefore pre t)
    (htracks : Tracks (leftBy StateStore.revocations pre) pre)
    (htracks' : Tracks (leftBy (PostgresStateStore.revocations collation) pre) pre)
    {c : ℤ × RevocationCall} (hc : c ∈ pre) : SameAgain c (t, .add e) := by
  rintro e₀ e' hadd hadd' hjti hexp
  obtain rfl : e = e' := by simpa using hadd'
  by_contra hne
  have hlast := hnow.concat (.add e)
  have hfit := h.fits List.prefix_rfl hlast
  have hstands := (htracks t hnow e.jti e₀).mpr ⟨hjti, ⟨c.1, hadd ▸ hc⟩, hexp⟩
  have hfile : e₀ ∈ (purgeExpiredRevocations
      (leftBy StateStore.revocations (pre ++ [(t, .add e)])) t).values := by
    rw [leftBy_concat, Dict.mem_values_iff]
    dsimp only [StateStore.revocations, StateStore.addRevocation]
    rw [if_pos (Dict.mem_of_get? hstands)]
    exact ⟨e.jti, (get?_purge_purge le_rfl).mpr hstands⟩
  have hshown := (h.mem_values_iff List.prefix_rfl hlast e₀).mp hfile
  rw [leftBy_concat] at hshown
  simp only [PostgresStateStore.revocations, PostgresStateStore.addRevocation, if_pos hfit]
    at hshown
  obtain ⟨jti, hget⟩ := Dict.mem_values_iff.mp hshown
  rw [get?_purge, Dict.get?_set] at hget
  split_ifs at hget with hk
  · exact hne (Option.some.inj hget.1).symm
  · have := (htracks' t hnow jti e₀).mp (get?_purge.mpr hget)
    exact hk (this.1.symm.trans hjti)

theorem Agree.of_prefix (h : Agree collation calls) (hpre : pre <+: calls) :
    Agree collation pre := fun _ hp => h _ (hp.trans hpre)

theorem Agree.undisputed (h : Agree collation calls) (hclock : OneClock calls) :
    Undisputed collation calls := by
  induction calls using List.reverseRecOn with
  | nil => exact ⟨List.Pairwise.nil, List.Pairwise.nil, by simp⟩
  | append_singleton pre c ih =>
    obtain ⟨t, call⟩ := c
    have hclock' : OneClock pre := (List.pairwise_append.mp hclock).1
    have hpre := ih (h.of_prefix (List.prefix_append _ _)) hclock'
    obtain ⟨htracks, htracks'⟩ := hpre.tracks hclock'
    have hnow : NotBefore pre t := hclock.notBefore
    have hsame : (pre ++ [(t, call)]).Pairwise SameAgain := by
      refine List.pairwise_append.mpr ⟨hpre.sameAgain, List.pairwise_singleton _ _, ?_⟩
      rintro c hc d hd e e' hadd hadd'
      obtain rfl := List.mem_singleton.mp hd
      obtain rfl : call = .add e' := hadd'
      exact h.sameAgain hnow htracks htracks' hc e e' hadd rfl
    have hfits : ∀ t' e, (t', RevocationCall.add e) ∈ pre ++ [(t, call)] →
        PostgresStateStore.FitsBigint e.originalExp := by
      intro t' e hmem
      rcases List.mem_append.mp hmem with hmem | hmem
      · exact hpre.fits t' e hmem
      · obtain ⟨rfl, rfl⟩ := Prod.mk.inj (List.mem_singleton.mp hmem)
        exact h.fits List.prefix_rfl (hnow.concat _)
    refine ⟨hsame, ?_, hfits⟩
    refine List.pairwise_append.mpr ⟨hpre.collated, List.pairwise_singleton _ _, ?_⟩
    rintro c hc d hd e e' hadd hadd' - hexp hexp'
    obtain rfl := List.mem_singleton.mp hd
    have hlast := hnow.concat call
    -- both jtis stand on the two lists, and these are equal
    have hlive : Live (pre ++ [(t, call)]) t e := ⟨⟨c.1, by simp [← hadd, hc]⟩, hexp⟩
    have hlive' : Live (pre ++ [(t, call)]) t e' := ⟨⟨t, by simp [← hadd']⟩, hexp'⟩
    exact (Tracks.listRevocations_eq_iff (StateStore.tracks_leftBy hclock hsame)
      (PostgresStateStore.tracks_leftBy collation hsame hfits) hlast).mp
        (h.listRevocations_eq List.prefix_rfl hlast) e hlive e' hlive'

theorem Undisputed.lasting (h : Undisputed collation calls) (hclock : OneClock calls) :
    Lasting StateStore.revocations calls ∧
      Lasting (PostgresStateStore.revocations collation) calls := by
  have htracks := fun pre (hpre : pre <+: calls) =>
    (h.of_prefix hpre).tracks (List.Pairwise.sublist hpre.sublist hclock)
  exact ⟨Tracks.lasting (fun _ _ _ => rfl) fun pre hpre => (htracks pre hpre).1,
    Tracks.lasting (fun _ _ _ => rfl) fun pre hpre => (htracks pre hpre).2⟩

/-- The backends agree on a sequence, and what was added on either is revoked until it expires,
exactly when no standing entry is added again with another content, no two jtis that stand
together collate against their code points, and every expiry fits its column. -/
theorem revocations_agree_iff (collation : LinearOrder String)
    {calls : List (ℤ × RevocationCall)} (hclock : OneClock calls) :
    (Agree collation calls ∧ Lasting StateStore.revocations calls ∧
      Lasting (PostgresStateStore.revocations collation) calls) ↔ Undisputed collation calls := by
  constructor
  · rintro ⟨hagree, -, -⟩
    exact hagree.undisputed hclock
  · intro h
    exact ⟨h.agree hclock, h.lasting hclock⟩

/-- A jti revoked until 100, and revoked again until 50. -/
def shortenedRevocation : List (ℤ × RevocationCall) :=
  [(10, .add ⟨"grant-7", 10, 100, none⟩), (20, .add ⟨"grant-7", 20, 50, none⟩),
    (60, .isRevoked "grant-7")]

theorem revocations_agree_iff_sample :
    (Agree codePointOrder [(10, .add ⟨"grant-7", 10, 100, none⟩), (20, .isRevoked "grant-7")] ∧
      Lasting StateStore.revocations
        [(10, .add ⟨"grant-7", 10, 100, none⟩), (20, .isRevoked "grant-7")] ∧
      Lasting (PostgresStateStore.revocations codePointOrder)
        [(10, .add ⟨"grant-7", 10, 100, none⟩), (20, .isRevoked "grant-7")]) := by
  refine (revocations_agree_iff codePointOrder (by simp [OneClock])).mpr ⟨?_, ?_, ?_⟩
  · simp [SameAgain]
  · simp [Collated]
  · simp [PostgresStateStore.FitsBigint]

/-- The second entry replaces the first in the table: at 60 the file backend answers that the jti
is revoked, the Postgres backend that it is not, though its first add runs until 100. -/
theorem shortenedRevocation_disagrees :
    OneClock shortenedRevocation ∧
      answers StateStore.revocations shortenedRevocation = [.added, .added, .revoked true] ∧
      answers (PostgresStateStore.revocations codePointOrder) shortenedRevocation =
        [.added, .added, .revoked false] ∧
      ¬Lasting (PostgresStateStore.revocations codePointOrder) shortenedRevocation := by
  refine ⟨by decide +kernel, by decide +kernel, by decide +kernel, fun h => ?_⟩
  have hanswer := h [] 10 ⟨"grant-7", 10, 100, none⟩
    [(20, .add ⟨"grant-7", 20, 50, none⟩)] ⟨[(60, .isRevoked "grant-7")], rfl⟩
    (by decide +kernel) 60 (by decide +kernel) (by decide)
  revert hanswer
  decide +kernel

end State
end Recto
