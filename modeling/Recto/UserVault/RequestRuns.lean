import Mathlib.Data.List.TakeWhile
import Recto.UserVault.RequestSteps

/-!
# Runs of the request book

Resolving a grant or a revoke does not sweep, so it also answers a request whose
window has passed; and the book counts in whole seconds. Where neither bites, a run
keeps what the book is for: one open request per slot, ten raises an hour, one answer
per request, in its window and without its text.
-/

namespace Recto
namespace UserVault

/-- The clock never goes back. -/
def NeverBack (calls : List (ℚ × BookCall)) : Prop := (calls.map Prod.fst).Pairwise (· ≤ ·)

/-- When the subject's accepted raises were made. -/
def BookRun.raisesOf (s : BookRun) (subject : String × String) : List ℚ :=
  (s.raised.filter fun raised => decide (raised.2 = subject)).map Prod.fst

/-- What the book is for, of a run. -/
structure LawfulBook (calls : List (ℚ × BookCall)) : Prop where
  /-- One open, unexpired request per slot. -/
  single : ∀ (now : ℚ) k k' r r',
    (bookRun calls).book.byId.get? k = some r → (bookRun calls).book.byId.get? k' = some r' →
      r.status = .opened → now < r.expiresAt → r'.status = .opened → now < r'.expiresAt →
        r.slot = r'.slot → k = k'
  /-- At most ten raises of a subject in any hour. -/
  hourly : ∀ subject (start : ℚ),
    ((bookRun calls).raisesOf subject).countP
      (fun t => decide (start ≤ t ∧ t < start + 3600)) ≤ raisesPerHour
  /-- A request that was not there before a call is open. -/
  born : ∀ before clock call after, calls = before ++ (clock, call) :: after → ∀ k r',
    ((bookRun before).book.step clock call).1.byId.get? k = some r' →
      (∃ r, (bookRun before).book.byId.get? k = some r ∧ r'.object = r.object) ∨
        r'.status = .opened
  /-- A status that is no longer open has changed for the last time. -/
  once : ∀ before after, calls = before ++ after → ∀ k k' r r',
    (bookRun before).book.byId.get? k = some r → (bookRun calls).book.byId.get? k' = some r' →
      r'.object = r.object → k' = k ∧ (r.status ≠ .opened → r'.status = r.status)
  /-- A request is answered before it expires. -/
  inTime : ∀ before clock call after, calls = before ++ (clock, call) :: after → ∀ k r r',
    (bookRun before).book.byId.get? k = some r →
      ((bookRun before).book.step clock call).1.byId.get? k = some r' →
        r'.object = r.object → r.status = .opened → r'.status.answered → clock < r.expiresAt
  /-- An answered request keeps no text. -/
  silent : ∀ k r, (bookRun calls).book.byId.get? k = some r → r.status.answered →
    r.purpose = none ∧ r.agentName = none

/-- A call that resolves only requests with time left, or raises with no raise of the subject less
than an hour back that whole seconds count as an hour back. -/
def BookRun.Meets (s : BookRun) (clock : ℚ) : BookCall → Prop
  | .resolveGrant slot _ _ =>
      ∀ k r, s.book.byId.get? k = some r → r.awaitsGrant slot → clock < r.expiresAt
  | .resolveRevoke grantIds =>
      ∀ k r, s.book.byId.get? k = some r → r.awaitsRevoke grantIds → clock < r.expiresAt
  | .raiseRequest arg =>
      ∀ t ∈ s.raisesOf arg.subject,
        wholeSeconds t ≤ wholeSeconds clock - 3600 → t ≤ clock - 3600
  | _ => True

/-- Every call of the run does. -/
def MeetsAll (calls : List (ℚ × BookCall)) : Prop :=
  ∀ before clock call after, calls = before ++ (clock, call) :: after →
    (bookRun before).Meets clock call

theorem bookRun_concat (calls : List (ℚ × BookCall)) (entry : ℚ × BookCall) :
    bookRun (calls ++ [entry]) = (bookRun calls).next entry := by
  rw [bookRun, List.foldl_append]
  rfl

theorem book_concat (calls : List (ℚ × BookCall)) (clock : ℚ) (call : BookCall) :
    (bookRun (calls ++ [(clock, call)])).book = ((bookRun calls).book.step clock call).1 := by
  rw [bookRun_concat]
  rfl

theorem sound_bookRun (calls : List (ℚ × BookCall)) : (bookRun calls).book.Sound := by
  induction calls using List.reverseRecOn with
  | nil => exact RequestBook.sound_init
  | append_singleton calls entry ih =>
    rw [book_concat]
    exact ih.step entry.1 entry.2

theorem evolves_bookRun (before after : List (ℚ × BookCall)) :
    RequestBook.Evolves (bookRun before).book (bookRun (before ++ after)).book := by
  induction after using List.reverseRecOn with
  | nil =>
    rw [List.append_nil]
    exact RequestBook.Evolves.refl _
  | append_singleton after entry ih =>
    rw [← List.append_assoc, book_concat]
    exact ih.trans (RequestBook.evolves_step _ entry.1 entry.2)

/-! ## Raises of an hour -/

/-- The times the book holds of a subject are its last raises, in whole seconds; the others are an
hour back. -/
def Counted (s : BookRun) (now : ℚ) (subject : String × String) : Prop :=
  ∃ gone kept, s.raisesOf subject = gone ++ kept ∧
    (s.book.raises.get? subject).getD [] = kept.map wholeSeconds ∧
    kept.length ≤ raisesPerHour ∧ ∀ t ∈ gone, t ≤ now - 3600

theorem Counted.later {s : BookRun} {a b : ℚ} (hab : a ≤ b) {subject : String × String}
    (h : Counted s a subject) : Counted s b subject := by
  obtain ⟨gone, kept, hsplit, htimes, hlen, hold⟩ := h
  exact ⟨gone, kept, hsplit, htimes, hlen, fun t ht => (hold t ht).trans (sub_le_sub_right hab _)⟩

/-- A raise of the subject first lets go of the raises an hour back. -/
theorem Counted.trim {s : BookRun} {clock : ℚ} {subject : String × String}
    (h : Counted s clock subject)
    (hmeets : ∀ t ∈ s.raisesOf subject,
      wholeSeconds t ≤ wholeSeconds clock - 3600 → t ≤ clock - 3600) :
    ∃ gone kept, s.raisesOf subject = gone ++ kept ∧
      s.book.recentRaises (wholeSeconds clock) subject = kept.map wholeSeconds ∧
      kept.length ≤ raisesPerHour ∧ ∀ t ∈ gone, t ≤ clock - 3600 := by
  obtain ⟨gone, kept, hsplit, htimes, hlen, hold⟩ := h
  let past : ℚ → Bool := fun t => decide (wholeSeconds t ≤ wholeSeconds clock - 3600)
  refine ⟨gone ++ kept.takeWhile past, kept.dropWhile past, ?_, ?_, ?_, ?_⟩
  · rw [hsplit, List.append_assoc, List.takeWhile_append_dropWhile]
  · rw [RequestBook.recentRaises, htimes, List.dropWhile_map]
    rfl
  · exact (List.dropWhile_sublist past).length_le.trans hlen
  · intro t ht
    rcases List.mem_append.mp ht with ht | ht
    · exact hold t ht
    · refine hmeets t ?_ (of_decide_eq_true (List.mem_takeWhile_imp (p := past) ht))
      rw [hsplit]
      exact List.mem_append_right _ ((List.takeWhile_sublist past).subset ht)

/-- A call that is no raise leaves the raises of every subject. -/
theorem raises_next_of_ne {s : BookRun} {clock : ℚ} {call : BookCall}
    (hcall : ∀ arg, call ≠ .raiseRequest arg) (subject : String × String) :
    (s.next (clock, call)).raisesOf subject = s.raisesOf subject ∧
      (s.next (clock, call)).book.raises = s.book.raises := by
  cases call with
  | raiseRequest arg => exact absurd rfl (hcall arg)
  | deny requestId =>
    refine ⟨by simp [BookRun.next, BookRun.raisesOf, acceptedRaise], ?_⟩
    simp only [BookRun.next, RequestBook.step, RequestBook.deny]
    split
    · rfl
    · split_ifs <;> rfl
  | _ => exact ⟨by simp [BookRun.next, BookRun.raisesOf, acceptedRaise], rfl⟩

/-- The raises of a subject, and the hour counts of them. -/
structure Hourly (s : BookRun) (now : ℚ) (subject : String × String) : Prop where
  counted : Counted s now subject
  hourly : ∀ start : ℚ, (s.raisesOf subject).countP
    (fun t => decide (start ≤ t ∧ t < start + 3600)) ≤ raisesPerHour

/-- A call that leaves a subject's raises, and the times held of them, keeps its hour counts. -/
theorem Hourly.same {s s' : BookRun} {now : ℚ} {subject : String × String}
    (h : Hourly s now subject) (hraised : s'.raisesOf subject = s.raisesOf subject)
    (hheld : s'.book.raises.get? subject = s.book.raises.get? subject) : Hourly s' now subject := by
  obtain ⟨gone, kept, hsplit, htimes, hlen, hold⟩ := h.counted
  refine ⟨⟨gone, kept, ?_, ?_, hlen, hold⟩, ?_⟩
  · rw [hraised, hsplit]
  · rw [hheld, htimes]
  · rw [hraised]
    exact h.hourly

/-- Of the raises within an hour of a new one, all are still held. -/
theorem countP_hour_le {gone kept : List ℚ} {clock start : ℚ}
    (hold : ∀ t ∈ gone, t ≤ clock - 3600) (hin : start ≤ clock ∧ clock < start + 3600) :
    (gone ++ kept).countP (fun t => decide (start ≤ t ∧ t < start + 3600)) ≤ kept.length := by
  have hgone : gone.countP (fun t => decide (start ≤ t ∧ t < start + 3600)) = 0 := by
    rw [List.countP_eq_zero]
    intro t ht
    have hpast := hold t ht
    simp only [decide_eq_true_eq, not_and, not_lt]
    intro hstart
    linarith [hin.2]
  rw [List.countP_append, hgone, zero_add]
  exact List.countP_le_length

/-- A raise of the subject keeps the hour counts. -/
theorem Hourly.raised {s : BookRun} {clock : ℚ} {arg : Raise}
    (h : Hourly s clock arg.subject) (hmeets : s.Meets clock (.raiseRequest arg)) :
    Hourly (s.next (clock, .raiseRequest arg)) clock arg.subject := by
  obtain ⟨gone, kept, hsplit, htimes, hlen, hold⟩ := h.counted.trim hmeets
  rcases RequestBook.raiseRequest_cases s.book (wholeSeconds clock) arg with
    ⟨hbook, hreply⟩ | ⟨hroom, -, hbook, hreply⟩
  · -- refused: only what is an hour back is let go
    have hnone : (s.next (clock, .raiseRequest arg)).raisesOf arg.subject =
        s.raisesOf arg.subject := by
      have haccepted : acceptedRaise clock (.raiseRequest arg)
          (s.book.raiseRequest (wholeSeconds clock) arg).2 = [] := by
        cases hout : (s.book.raiseRequest (wholeSeconds clock) arg).2 with
        | raised r => exact absurd hout (hreply r)
        | _ => rfl
      simp [BookRun.next, BookRun.raisesOf, RequestBook.step, haccepted]
    refine ⟨⟨gone, kept, by rw [hnone, hsplit], ?_, hlen, hold⟩, by rw [hnone]; exact h.hourly⟩
    simp only [BookRun.next, RequestBook.step, hbook, Dict.get?_set_self, Option.getD_some, htimes]
  · have hnew : (s.next (clock, .raiseRequest arg)).raisesOf arg.subject =
        s.raisesOf arg.subject ++ [clock] := by
      simp [BookRun.next, BookRun.raisesOf, RequestBook.step, hreply, acceptedRaise]
    rw [htimes, List.length_map] at hroom
    refine ⟨⟨gone, kept ++ [clock], ?_, ?_, ?_, hold⟩, ?_⟩
    · rw [hnew, hsplit, List.append_assoc]
    · simp only [BookRun.next, RequestBook.step, hbook, Dict.get?_set_self, Option.getD_some,
        htimes, List.map_append, List.map_cons, List.map_nil]
    · rw [List.length_append]
      exact hroom
    · intro start
      rw [hnew]
      by_cases hin : start ≤ clock ∧ clock < start + 3600
      · rw [hsplit, List.append_assoc]
        refine (countP_hour_le hold hin).trans ?_
        rw [List.length_append]
        exact hroom
      · rw [List.countP_append, List.countP_singleton, if_neg (by simpa using hin), add_zero]
        exact h.hourly start

/-- A raise of another subject leaves this one's. -/
theorem raises_next_of_subject_ne {s : BookRun} {clock : ℚ} {arg : Raise}
    {subject : String × String} (hsubject : subject ≠ arg.subject) :
    (s.next (clock, .raiseRequest arg)).raisesOf subject = s.raisesOf subject ∧
      (s.next (clock, .raiseRequest arg)).book.raises.get? subject =
        s.book.raises.get? subject := by
  constructor
  · have haccepted : ∀ reply, (acceptedRaise clock (.raiseRequest arg) reply).filter
        (fun raised => decide (raised.2 = subject)) = [] := by
      intro reply
      cases reply <;> simp [acceptedRaise, Ne.symm hsubject]
    simp [BookRun.next, BookRun.raisesOf, haccepted]
  · rcases RequestBook.raiseRequest_cases s.book (wholeSeconds clock) arg with
      ⟨hbook, -⟩ | ⟨-, -, hbook, -⟩
    all_goals
      simp only [BookRun.next, RequestBook.step, hbook]
      rw [Dict.get?_set_of_ne _ hsubject]

theorem Hourly.next {s : BookRun} {clock : ℚ} {call : BookCall} {subject : String × String}
    (h : Hourly s clock subject) (hmeets : s.Meets clock call) :
    Hourly (s.next (clock, call)) clock subject := by
  by_cases hraise : ∃ arg, call = .raiseRequest arg
  · obtain ⟨arg, rfl⟩ := hraise
    by_cases hsubject : subject = arg.subject
    · subst hsubject
      exact h.raised hmeets
    · obtain ⟨hsame, hheld⟩ := @raises_next_of_subject_ne s clock arg subject hsubject
      exact h.same hsame hheld
  · obtain ⟨hsame, hraises⟩ :=
      raises_next_of_ne (s := s) (fun arg heq => hraise ⟨arg, heq⟩) subject
    exact h.same hsame (by rw [hraises])

theorem NeverBack.concat {calls : List (ℚ × BookCall)} {entry : ℚ × BookCall}
    (h : NeverBack (calls ++ [entry])) :
    NeverBack calls ∧ ∀ earlier ∈ calls, earlier.1 ≤ entry.1 := by
  simpa [NeverBack, List.pairwise_append] using h

theorem MeetsAll.concat {calls : List (ℚ × BookCall)} {entry : ℚ × BookCall}
    (h : MeetsAll (calls ++ [entry])) :
    MeetsAll calls ∧ (bookRun calls).Meets entry.1 entry.2 :=
  ⟨fun before clock call after heq =>
    h before clock call (after ++ [entry]) (by rw [heq, List.append_assoc, List.cons_append]),
    h calls entry.1 entry.2 [] rfl⟩

theorem hourly_bookRun {calls : List (ℚ × BookCall)} (hclock : NeverBack calls)
    (hmeets : MeetsAll calls) {now : ℚ} (hnow : ∀ entry ∈ calls, entry.1 ≤ now)
    (subject : String × String) : Hourly (bookRun calls) now subject := by
  induction calls using List.reverseRecOn generalizing now with
  | nil =>
    exact ⟨⟨[], [], rfl, by simp [bookRun, RequestBook.init], by simp, by simp⟩,
      by simp [bookRun, BookRun.raisesOf]⟩
  | append_singleton calls entry ih =>
    obtain ⟨hclock, hbefore⟩ := hclock.concat
    obtain ⟨hmeets, hlast⟩ := hmeets.concat
    have hnext := (ih hclock hmeets hbefore).next hlast
    rw [bookRun_concat]
    exact ⟨hnext.counted.later (hnow entry (by simp)), hnext.hourly⟩

/-! ## The run -/

theorem cast_lt_of_wholeSeconds_lt {clock : ℚ} {e : ℤ} (h : wholeSeconds clock < e) : clock < e := by
  rw [wholeSeconds] at h
  split_ifs at h
  · exact Int.floor_lt.mp h
  · exact (Int.le_ceil clock).trans_lt (by exact_mod_cast h)

/-- A call that meets the condition answers no request past its window. -/
theorem Turned.inTime {s : BookRun} {clock : ℚ} {call : BookCall} {k : String}
    {r r' : GrantRequest} (h : Turned (wholeSeconds clock) call r r') (hmeets : s.Meets clock call)
    (hget : s.book.byId.get? k = some r) (hopen : r.status = .opened) (hr' : r'.status.answered) :
    clock < r.expiresAt := by
  cases h with
  | same => simp [hopen, Status.answered] at hr'
  | expired => simp [Status.answered] at hr'
  | admitted slot grantId notAfter hcall hawaits =>
    subst hcall
    exact hmeets k r hget hawaits
  | revoked grantIds hcall hawaits =>
    subst hcall
    exact hmeets k r hget hawaits
  | denied _ hearly => exact cast_lt_of_wholeSeconds_lt hearly

/-- A run whose calls resolve only requests with time left, and whose raises come a full hour after
those that whole seconds count as an hour back, keeps what the book is for. -/
theorem request_book_lawful (calls : List (ℚ × BookCall)) (hclock : NeverBack calls)
    (hmeets : MeetsAll calls) : LawfulBook calls where
  single := fun _ k k' r r' hr hr' hopen _ hopen' _ hslot =>
    (sound_bookRun calls).single k k' r r' hr hr' hopen hopen' hslot
  hourly := by
    intro subject
    rcases List.eq_nil_or_concat calls with rfl | ⟨before, last, rfl⟩
    · simp [bookRun, BookRun.raisesOf]
    · rw [List.concat_eq_append] at hclock hmeets ⊢
      have hlast : ∀ entry ∈ before ++ [last], entry.1 ≤ last.1 := by
        intro entry hentry
        rcases List.mem_append.mp hentry with hentry | hentry
        · exact hclock.concat.2 entry hentry
        · rw [List.mem_singleton.mp hentry]
      exact (hourly_bookRun hclock hmeets hlast subject).hourly
  born := by
    rintro before clock call after - k r' hr'
    rcases RequestBook.step_get? hr' with ⟨arg, -, -, rfl, -, -⟩ | ⟨r, hr, hturn⟩
    · exact .inr rfl
    · exact .inl ⟨r, hr, hturn.object⟩
  once := by
    rintro before after rfl k k' r r' hr hr' hobject
    have hmade : r'.object < (bookRun before).book.made := by
      rw [hobject]
      exact (sound_bookRun before).made k r hr
    obtain ⟨x, hx, hxobject, hsettled⟩ := (evolves_bookRun before after).kept k' r' hr' hmade
    obtain rfl : k' = k :=
      (sound_bookRun before).distinct k' k x r hx hr (hxobject.symm.trans hobject)
    rw [hx] at hr
    obtain rfl := Option.some.inj hr
    exact ⟨rfl, hsettled⟩
  inTime := by
    rintro before clock call after rfl k r r' hr hr' hobject hopen hanswered
    rcases RequestBook.step_get? hr' with ⟨arg, -, -, rfl, -, -⟩ | ⟨x, hx, hturn⟩
    · simp [Raise.request, Status.answered] at hanswered
    · rw [hr] at hx
      obtain rfl := Option.some.inj hx
      exact hturn.inTime (hmeets before clock call after rfl) hr hopen hanswered
  silent := fun k r hr hanswered => (sound_bookRun calls).silent k r hr hanswered

/-! ## A late answer -/

/-- A grant request, as a platform raises it. -/
def sampleRaise : Raise where
  requestId := "uvreq-1"
  action := actionGrant
  phoneId := "pk_1"
  agentId := "agent"
  slot := ⟨"app", "alice", "helper", "key"⟩
  scope := "sign"
  notAfter := 9000
  purpose := some "to send mail"

/-- Raised at midnight of the clock, and its grant admitted later. -/
def sampleAnswered (clock : ℚ) : List (ℚ × BookCall) :=
  [(0, .raiseRequest sampleRaise), (clock, .resolveGrant sampleRaise.slot "grant-1" 9000)]

theorem sampleRaised_get? (clock : ℚ) :
    (bookRun ((sampleAnswered clock).take 1)).book.byId.get? "uvreq-1" =
      some (sampleRaise.request 0 0) := by
  rfl

theorem request_book_lawful_sample : LawfulBook (sampleAnswered 299) := by
  refine request_book_lawful (sampleAnswered 299) (by norm_num [NeverBack, sampleAnswered]) ?_
  intro before clock call after heq
  match before, heq with
  | [], heq =>
    obtain ⟨⟨rfl, rfl⟩, -⟩ := List.cons.inj heq |>.imp Prod.mk.inj id
    intro t ht
    simp [bookRun, BookRun.raisesOf] at ht
  | [first], heq =>
    obtain ⟨rfl, hrest⟩ := List.cons.inj heq
    obtain ⟨⟨rfl, rfl⟩, -⟩ := List.cons.inj hrest |>.imp Prod.mk.inj id
    intro k r hr hawaits
    have hvalues : ∀ x ∈ (bookRun [(0, .raiseRequest sampleRaise)]).book.byId.values,
        x.expiresAt = 300 := by decide +kernel
    rw [hvalues r (Dict.mem_values_iff.mpr ⟨k, hr⟩)]
    norm_num
  | first :: second :: rest, heq => simp [sampleAnswered] at heq

/-- A grant admitted when the window has passed still answers the request. -/
theorem request_book_late : ¬∀ calls, NeverBack calls → LawfulBook calls := by
  intro h
  have hlawful := h (sampleAnswered 300) (by norm_num [NeverBack, sampleAnswered])
  have hlate := hlawful.inTime ((sampleAnswered 300).take 1) 300 _ [] rfl "uvreq-1"
    (sampleRaise.request 0 0)
    { (sampleRaise.request 0 0).silenced .admitted with
      resolvedGrantId := some "grant-1", resolvedNotAfter := some 9000 }
    (sampleRaised_get? 300) rfl rfl rfl (Or.inl rfl)
  norm_num [sampleRaise, Raise.request, requestWindowSeconds] at hlate

end UserVault
end Recto
