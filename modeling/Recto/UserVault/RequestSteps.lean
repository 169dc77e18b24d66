import Recto.UserVault.RequestBook

/-!
# One call of the request book

How a call may turn a request, said once; from it the shape of the book after any
run, and what becomes of a request between two states of a run.
-/

namespace Recto
namespace UserVault

/-- Answered by a person or by the grant it asked for. -/
def Status.answered (s : Status) : Prop := s = .admitted ∨ s = .denied ∨ s = .revoked

instance (s : Status) : Decidable s.answered := inferInstanceAs (Decidable (_ ∨ _ ∨ _))

/-- How a call, at a whole second, may turn a request of the book. -/
inductive Turned (now : ℤ) (call : BookCall) (r : GrantRequest) : GrantRequest → Prop where
  | same : Turned now call r r
  | expired (hopen : r.status = .opened) (hlate : r.expiresAt ≤ now) :
      Turned now call r { r with status := .expired }
  | admitted (slot : RequestSlot) (grantId : String) (notAfter : ℤ)
      (hcall : call = .resolveGrant slot grantId notAfter) (hawaits : r.awaitsGrant slot) :
      Turned now call r
        { r.silenced .admitted with
          resolvedGrantId := some grantId, resolvedNotAfter := some notAfter }
  | revoked (grantIds : List String) (hcall : call = .resolveRevoke grantIds)
      (hawaits : r.awaitsRevoke grantIds) : Turned now call r (r.silenced .revoked)
  | denied (hopen : r.status = .opened) (hearly : now < r.expiresAt) :
      Turned now call r (r.silenced .denied)

namespace Turned

variable {now : ℤ} {call : BookCall} {r r' : GrantRequest}

theorem object (h : Turned now call r r') : r'.object = r.object := by cases h <;> rfl

theorem slot (h : Turned now call r r') : r'.slot = r.slot := by cases h <;> rfl

/-- A settled request stays as it is. -/
theorem settled (h : Turned now call r r') (hr : r.status ≠ .opened) : r' = r := by
  cases h with
  | same => rfl
  | expired hopen => exact absurd hopen hr
  | admitted _ _ _ _ hawaits => exact absurd hawaits.1 hr
  | revoked _ _ hawaits => exact absurd hawaits.1 hr
  | denied hopen => exact absurd hopen hr

/-- No request opens again. -/
theorem opened (h : Turned now call r r') (hr : r'.status = .opened) : r.status = .opened := by
  by_contra hne
  rw [h.settled hne] at hr
  exact hne hr

/-- An answered request keeps no text. -/
theorem silent (h : Turned now call r r')
    (hr : r.status.answered → r.purpose = none ∧ r.agentName = none) (hr' : r'.status.answered) :
    r'.purpose = none ∧ r'.agentName = none := by
  cases h with
  | same => exact hr hr'
  | expired => simp [Status.answered] at hr'
  | _ => exact ⟨rfl, rfl⟩

end Turned

namespace RequestBook

variable {b : RequestBook} {k : String} {r' : GrantRequest} {now : ℤ}

/-! ## The sweep -/

theorem get?_sweep (h : (b.sweep now).byId.get? k = some r') :
    ∃ r, b.byId.get? k = some r ∧ r' = r.swept now := by
  obtain ⟨hget, -⟩ := Dict.get?_filter.mp h
  rw [Dict.get?_mapValues, Option.map_eq_some_iff] at hget
  obtain ⟨r, hr, rfl⟩ := hget
  exact ⟨r, hr, rfl⟩

theorem turned_swept (now : ℤ) (call : BookCall) (r : GrantRequest) :
    Turned now call r (r.swept now) := by
  rw [GrantRequest.swept]
  split_ifs with h
  · exact .expired h.1 h.2
  · exact .same

/-- A request of the swept book comes of one that was there. -/
theorem turned_of_sweep (call : BookCall) (h : (b.sweep now).byId.get? k = some r') :
    ∃ r, b.byId.get? k = some r ∧ Turned now call r r' := by
  obtain ⟨r, hr, rfl⟩ := get?_sweep h
  exact ⟨r, hr, turned_swept now call r⟩

/-- What the sweep leaves open has time left. -/
theorem swept_opened {r : GrantRequest} (h : (r.swept now).status = .opened) :
    r.swept now = r ∧ now < r.expiresAt := by
  rw [GrantRequest.swept] at h ⊢
  split_ifs at h ⊢ with hlate
  exact ⟨rfl, not_le.mp fun hle => hlate ⟨h, hle⟩⟩

/-- A raise is refused, or finds room and the slot free. -/
theorem raiseRequest_cases (b : RequestBook) (now : ℤ) (arg : Raise) :
    ((b.raiseRequest now arg).1 =
        { b.sweep now with
          raises := b.raises.set arg.subject (b.recentRaises now arg.subject) } ∧
      ∀ r, (b.raiseRequest now arg).2 ≠ .raised r) ∨
    ((b.recentRaises now arg.subject).length < raisesPerHour ∧
      (∀ k r, (b.sweep now).byId.get? k = some r → r.status = .opened → r.slot ≠ arg.slot) ∧
      (b.raiseRequest now arg).1 =
        { byId := (b.sweep now).byId.set arg.requestId (arg.request b.made now)
          raises := b.raises.set arg.subject (b.recentRaises now arg.subject ++ [now])
          made := b.made + 1 } ∧
      (b.raiseRequest now arg).2 = .raised (arg.request b.made now)) := by
  have htimes : (b.sweep now).recentRaises now arg.subject = b.recentRaises now arg.subject := rfl
  rw [raiseRequest]
  simp only [htimes]
  split_ifs with hlimit htaken
  · exact .inl ⟨rfl, by simp⟩
  · exact .inl ⟨rfl, by simp⟩
  · refine .inr ⟨not_le.mp hlimit, ?_, rfl, rfl⟩
    intro k r hr hopen hslot
    exact htaken ⟨r, Dict.mem_values_iff.mpr ⟨k, hr⟩, hopen, hslot⟩

/-! ## Any call -/

/-- After a call a request is the one just raised, or comes of one that was there. -/
theorem step_get? {clock : ℚ} {call : BookCall}
    (h : (b.step clock call).1.byId.get? k = some r') :
    (∃ arg, call = .raiseRequest arg ∧ k = arg.requestId ∧
        r' = arg.request b.made (wholeSeconds clock) ∧
        (b.step clock call).1.made = b.made + 1 ∧
        ∀ k' other, k' ≠ k → (b.step clock call).1.byId.get? k' = some other →
          other.status = .opened → other.slot ≠ r'.slot) ∨
      ∃ r, b.byId.get? k = some r ∧ Turned (wholeSeconds clock) call r r' := by
  cases call with
  | raiseRequest arg =>
    rcases raiseRequest_cases b (wholeSeconds clock) arg with ⟨hbook, -⟩ | ⟨-, hfree, hbook, -⟩
    · rw [step, hbook] at h
      exact .inr (turned_of_sweep _ h)
    · rw [show (b.step clock (.raiseRequest arg)).1 = _ from hbook] at h ⊢
      rw [Dict.get?_set] at h
      split_ifs at h with hk
      · obtain rfl := Option.some.inj h
        refine .inl ⟨arg, rfl, hk, rfl, rfl, ?_⟩
        intro k' other hk' hother hopen
        rw [Dict.get?_set, if_neg (hk ▸ hk')] at hother
        exact hfree k' other hother hopen
      · exact .inr (turned_of_sweep _ h)
  | openForPhone phoneId =>
    exact .inr (turned_of_sweep _ h)
  | get requestId =>
    exact .inr (turned_of_sweep _ h)
  | resolveGrant slot grantId notAfter =>
    simp only [step, resolveGrant, Dict.get?_mapValues, Option.map_eq_some_iff] at h
    obtain ⟨r, hr, hturn⟩ := h
    refine .inr ⟨r, hr, ?_⟩
    split_ifs at hturn with hawaits
    · exact hturn ▸ .admitted slot grantId notAfter rfl hawaits
    · exact hturn ▸ .same
  | resolveRevoke grantIds =>
    simp only [step, resolveRevoke, Dict.get?_mapValues, Option.map_eq_some_iff] at h
    obtain ⟨r, hr, hturn⟩ := h
    refine .inr ⟨r, hr, ?_⟩
    split_ifs at hturn with hawaits
    · exact hturn ▸ .revoked grantIds rfl hawaits
    · exact hturn ▸ .same
  | deny requestId =>
    rw [step, deny] at h
    cases hget : (b.sweep (wholeSeconds clock)).byId.get? requestId with
    | none =>
      simp only [hget] at h
      exact .inr (turned_of_sweep _ h)
    | some found =>
      simp only [hget] at h
      split_ifs at h with hopen
      · exact .inr (turned_of_sweep _ h)
      · rw [Dict.get?_set] at h
        split_ifs at h with hk
        · subst hk
          obtain ⟨r, hr, rfl⟩ := get?_sweep hget
          obtain ⟨hsame, hearly⟩ := swept_opened (not_not.mp hopen)
          rw [hsame] at h hopen
          exact .inr ⟨r, hr, Option.some.inj h ▸ .denied (not_not.mp hopen) hearly⟩
        · exact .inr (turned_of_sweep _ h)
  | len => exact .inr ⟨r', h, .same⟩

/-- The count of objects made never falls. -/
theorem made_le_step (b : RequestBook) (clock : ℚ) (call : BookCall) :
    b.made ≤ (b.step clock call).1.made := by
  cases call with
  | raiseRequest arg =>
    rcases raiseRequest_cases b (wholeSeconds clock) arg with ⟨hbook, -⟩ | ⟨-, -, hbook, -⟩
    · rw [step, hbook]
      exact le_rfl
    · rw [step, hbook]
      exact Nat.le_succ b.made
  | deny requestId =>
    rw [step, deny]
    split
    · exact le_rfl
    · split_ifs <;> exact le_rfl
  | _ => exact le_rfl

/-! ## The shape of the book -/

/-- What holds of the book between calls. -/
structure Sound (b : RequestBook) : Prop where
  made : ∀ k r, b.byId.get? k = some r → r.object < b.made
  distinct : ∀ k k' r r', b.byId.get? k = some r → b.byId.get? k' = some r' →
    r.object = r'.object → k = k'
  single : ∀ k k' r r', b.byId.get? k = some r → b.byId.get? k' = some r' →
    r.status = .opened → r'.status = .opened → r.slot = r'.slot → k = k'
  silent : ∀ k r, b.byId.get? k = some r → r.status.answered →
    r.purpose = none ∧ r.agentName = none

theorem sound_init : RequestBook.init.Sound := by
  constructor <;> simp [init]

theorem Sound.step (h : b.Sound) (clock : ℚ) (call : BookCall) : (b.step clock call).1.Sound where
  made := by
    intro k r' hr'
    rcases step_get? hr' with ⟨arg, -, -, rfl, hmade, -⟩ | ⟨r, hr, hturn⟩
    · rw [hmade]
      exact Nat.lt_succ_self b.made
    · rw [hturn.object]
      exact (h.made k r hr).trans_le (made_le_step b clock call)
  distinct := by
    intro k k' x x' hx hx' hobject
    rcases step_get? hx with ⟨arg, hcall, hk, rfl, -, -⟩ | ⟨r, hr, hturn⟩
    · rcases step_get? hx' with ⟨arg', hcall', hk', -, -, -⟩ | ⟨r', hr', hturn'⟩
      · rw [hcall] at hcall'
        rw [hk, hk', BookCall.raiseRequest.inj hcall']
      · rw [hturn'.object] at hobject
        exact absurd (h.made k' r' hr') (by rw [← hobject]; exact lt_irrefl b.made)
    · rcases step_get? hx' with ⟨arg', hcall', hk', rfl, -, -⟩ | ⟨r', hr', hturn'⟩
      · rw [hturn.object] at hobject
        exact absurd (h.made k r hr) (by rw [hobject]; exact lt_irrefl b.made)
      · rw [hturn.object, hturn'.object] at hobject
        exact h.distinct k k' r r' hr hr' hobject
  single := by
    intro k k' x x' hx hx' hopen hopen' hslot
    by_contra hne
    rcases step_get? hx with ⟨-, -, -, -, -, hfree⟩ | ⟨r, hr, hturn⟩
    · exact hfree k' x' (Ne.symm hne) hx' hopen' hslot.symm
    · rcases step_get? hx' with ⟨-, -, -, -, -, hfree⟩ | ⟨r', hr', hturn'⟩
      · exact hfree k x hne hx hopen hslot
      · rw [hturn.slot, hturn'.slot] at hslot
        exact hne (h.single k k' r r' hr hr' (hturn.opened hopen) (hturn'.opened hopen') hslot)
  silent := by
    intro k r' hr' hanswered
    rcases step_get? hr' with ⟨arg, -, -, rfl, -, -⟩ | ⟨r, hr, hturn⟩
    · simp [Raise.request, Status.answered] at hanswered
    · exact hturn.silent (h.silent k r hr) hanswered

/-! ## What becomes of a request -/

/-- A later book holds no more of the requests made so far, each under its id, and a settled one
with its status. -/
structure Evolves (b b' : RequestBook) : Prop where
  made : b.made ≤ b'.made
  kept : ∀ k r', b'.byId.get? k = some r' → r'.object < b.made →
    ∃ r, b.byId.get? k = some r ∧ r'.object = r.object ∧
      (r.status ≠ .opened → r'.status = r.status)

theorem Evolves.refl (b : RequestBook) : Evolves b b where
  made := le_rfl
  kept := fun _ r' h _ => ⟨r', h, rfl, fun _ => rfl⟩

theorem Evolves.trans {a b c : RequestBook} (hab : Evolves a b) (hbc : Evolves b c) :
    Evolves a c where
  made := hab.made.trans hbc.made
  kept := by
    intro k r'' hr'' hmade
    obtain ⟨r', hr', hobject', hsettled'⟩ := hbc.kept k r'' hr'' (hmade.trans_le hab.made)
    obtain ⟨r, hr, hobject, hsettled⟩ := hab.kept k r' hr' (hobject' ▸ hmade)
    refine ⟨r, hr, hobject'.trans hobject, fun hne => ?_⟩
    have hstatus := hsettled hne
    exact (hsettled' (hstatus ▸ hne)).trans hstatus

theorem evolves_step (b : RequestBook) (clock : ℚ) (call : BookCall) :
    Evolves b (b.step clock call).1 where
  made := made_le_step b clock call
  kept := by
    intro k r' hr' hmade
    rcases step_get? hr' with ⟨arg, -, -, rfl, -, -⟩ | ⟨r, hr, hturn⟩
    · exact absurd hmade (lt_irrefl b.made)
    · exact ⟨r, hr, hturn.object, fun hne => by rw [hturn.settled hne]⟩

end RequestBook

end UserVault
end Recto
