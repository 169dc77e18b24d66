import Mathlib.Tactic
import Recto.Text.Repr

/-!
# The restart policy and its back-off

A restart policy can only be built from fields the configuration admits. The
delay before a restart follows the documented curve, but for one early exit: past
sixty-three attempts the exponential delay is the cap, whatever the curve is.
Delays are whole seconds, which the conversion to a float keeps.
-/

namespace Recto
namespace Restart

/-! ## The policy -/

/-- The fields of `RestartSpec` that the restart loop reads. -/
structure RestartFields where
  policy : String
  backoff : String
  initialDelaySeconds : ℤ
  maxDelaySeconds : ℤ
  maxAttempts : ℤ
  deriving DecidableEq, Repr

/-- `ConfigValidationError`, with its problems. -/
structure ConfigValidationError where
  problems : List String
  deriving DecidableEq, Repr

/-- `RestartSpec`: no policy exists that its validation refuses. -/
structure RestartSpec extends RestartFields where
  policy_mem : policy ∈ ["always", "never", "on-failure"]
  backoff_mem : backoff ∈ ["exponential", "linear", "constant"]
  initial_nonneg : 0 ≤ initialDelaySeconds
  initial_le_max : initialDelaySeconds ≤ maxDelaySeconds
  maxAttempts_nonneg : 0 ≤ maxAttempts
  deriving DecidableEq

/-- One problem, and the value that has it. -/
def problem (field rule got : String) : ConfigValidationError :=
  ⟨["spec.restart." ++ field ++ ": must be " ++ rule ++ ", got " ++ got]⟩

/-- `RestartSpec.__post_init__`. What `repr` shows of a name is Unicode's to say. -/
def RestartSpec.new (printable : Char → Bool) (fields : RestartFields) :
    Except ConfigValidationError RestartSpec :=
  if hpolicy : fields.policy ∈ ["always", "never", "on-failure"] then
    if hbackoff : fields.backoff ∈ ["exponential", "linear", "constant"] then
      if hinitial : 0 ≤ fields.initialDelaySeconds then
        if hmax : fields.initialDelaySeconds ≤ fields.maxDelaySeconds then
          if hattempts : 0 ≤ fields.maxAttempts then
            .ok ⟨fields, hpolicy, hbackoff, hinitial, hmax, hattempts⟩
          else .error (problem "max_attempts" ">= 0 (0=unlimited)" (toString fields.maxAttempts))
        else .error (problem "max_delay_seconds" ">= initial_delay_seconds"
          ("max=" ++ toString fields.maxDelaySeconds ++ " initial=" ++
            toString fields.initialDelaySeconds))
      else .error (problem "initial_delay_seconds" ">= 0" (toString fields.initialDelaySeconds))
    else .error (problem "backoff" "exponential|linear|constant"
      (String.ofList (Json.reprStr printable fields.backoff)))
  else .error (problem "policy" "always|never|on-failure"
    (String.ofList (Json.reprStr printable fields.policy)))

/-- Every policy comes out of its own fields, and nothing else does. -/
theorem RestartSpec.new_eq_ok {printable : Char → Bool} {fields : RestartFields} {spec : RestartSpec} :
    RestartSpec.new printable fields = .ok spec ↔ spec.toRestartFields = fields := by
  unfold RestartSpec.new
  constructor
  · intro h
    split_ifs at h
    cases h
    rfl
  · rintro rfl
    rw [dif_pos spec.policy_mem, dif_pos spec.backoff_mem, dif_pos spec.initial_nonneg,
      dif_pos spec.initial_le_max, dif_pos spec.maxAttempts_nonneg]

/-! ## The delay -/

inductive RestartError where
  | valueError (message : String)
  | maxAttemptsReached (message : String)
  deriving DecidableEq, Repr

/-- `next_delay` -/
def nextDelay (attempt : ℤ) (fields : RestartFields) : Except RestartError ℤ :=
  if attempt < 0 then .error (.valueError ("attempt must be >= 0, got " ++ toString attempt))
  else if attempt = 0 then .ok 0
  else if 0 < fields.maxAttempts ∧ fields.maxAttempts < attempt then
    .error (.maxAttemptsReached ("restart attempt " ++ toString attempt ++
      " exceeds max_attempts=" ++ toString fields.maxAttempts))
  else
    let initial := fields.initialDelaySeconds
    let cap := fields.maxDelaySeconds
    let delay :=
      if fields.backoff = "constant" then initial
      else if fields.backoff = "linear" then initial * attempt
      else if fields.backoff = "exponential" then
        -- The exponent is never computed past 62.
        if 62 < attempt - 1 then cap else initial * 2 ^ (attempt - 1).toNat
      else initial
    .ok (min delay cap)

/-- The attempt is one the limit allows; zero is no limit. -/
def RestartFields.WithinLimit (fields : RestartFields) (attempt : ℤ) : Prop :=
  fields.maxAttempts = 0 ∨ attempt ≤ fields.maxAttempts

/-- What the delay grows to before the cap, as the documentation has it. -/
def RestartFields.grown (fields : RestartFields) (attempt : ℤ) : ℤ :=
  if fields.backoff = "exponential" then fields.initialDelaySeconds * 2 ^ (attempt - 1).toNat
  else if fields.backoff = "linear" then fields.initialDelaySeconds * attempt
  else fields.initialDelaySeconds

/-- The documented curve. -/
def RestartFields.curve (fields : RestartFields) (attempt : ℤ) : ℤ :=
  min (fields.grown attempt) fields.maxDelaySeconds

/-- The early exit is taken while the curve is still under the cap. -/
def RestartFields.Overshoots (fields : RestartFields) (attempt : ℤ) : Prop :=
  fields.backoff = "exponential" ∧ 64 ≤ attempt ∧
    fields.initialDelaySeconds * 2 ^ (attempt - 1).toNat < fields.maxDelaySeconds

instance (fields : RestartFields) (attempt : ℤ) : Decidable (fields.WithinLimit attempt) :=
  inferInstanceAs (Decidable (_ ∨ _))

instance (fields : RestartFields) (attempt : ℤ) : Decidable (fields.Overshoots attempt) :=
  inferInstanceAs (Decidable (_ ∧ _))

/-- The delay of an attempt the limit allows. -/
def RestartFields.delay (fields : RestartFields) (attempt : ℤ) : ℤ :=
  if fields.Overshoots attempt then fields.maxDelaySeconds else fields.curve attempt

section
variable {fields : RestartFields} {spec : RestartSpec} {attempt later : ℤ}

theorem nextDelay_eq_delay (spec : RestartSpec) (hone : 1 ≤ attempt)
    (hlimit : spec.WithinLimit attempt) :
    nextDelay attempt spec.toRestartFields = .ok (spec.delay attempt) := by
  have hbudget : ¬(0 < spec.maxAttempts ∧ spec.maxAttempts < attempt) := by
    rintro ⟨hpos, hlt⟩
    rcases hlimit with h | h <;> omega
  unfold nextDelay
  rw [if_neg (by omega), if_neg (by omega), if_neg hbudget]
  refine congrArg Except.ok ?_
  simp only [RestartFields.delay, RestartFields.Overshoots, RestartFields.curve,
    RestartFields.grown]
  have hbackoff := spec.backoff_mem
  simp only [List.mem_cons, List.not_mem_nil, or_false] at hbackoff
  rcases hbackoff with h | h | h
  · simp only [h, String.reduceEq, if_false, if_true, true_and]
    by_cases hlate : 62 < attempt - 1
    · rw [if_pos hlate, min_self]
      split_ifs with hover
      · rfl
      · exact (min_eq_right (not_lt.mp fun hlt => hover ⟨by omega, hlt⟩)).symm
    · rw [if_neg hlate, if_neg fun hover => by omega]
  · simp [h]
  · simp [h]

theorem RestartSpec.initial_le_grown (spec : RestartSpec) (hone : 1 ≤ attempt) :
    spec.initialDelaySeconds ≤ spec.grown attempt := by
  have hinitial := spec.initial_nonneg
  unfold RestartFields.grown
  split_ifs
  · exact le_mul_of_one_le_right hinitial (one_le_pow₀ one_le_two)
  · exact le_mul_of_one_le_right hinitial hone
  · exact le_rfl

theorem RestartSpec.grown_mono (spec : RestartSpec) (h : attempt ≤ later) :
    spec.grown attempt ≤ spec.grown later := by
  have hinitial := spec.initial_nonneg
  unfold RestartFields.grown
  split_ifs
  · have hpow : (2 : ℤ) ^ (attempt - 1).toNat ≤ 2 ^ (later - 1).toNat :=
      pow_le_pow_right₀ one_le_two (by omega)
    exact mul_le_mul_of_nonneg_left hpow hinitial
  · exact mul_le_mul_of_nonneg_left h hinitial
  · exact le_rfl

theorem RestartFields.delay_le_max : fields.delay attempt ≤ fields.maxDelaySeconds := by
  unfold delay
  split_ifs
  · exact le_rfl
  · exact min_le_right _ _

theorem RestartFields.curve_le_delay : fields.curve attempt ≤ fields.delay attempt := by
  unfold delay
  split_ifs
  · exact min_le_right _ _
  · exact le_rfl

/-- Once the early exit is taken the delay stays at the cap. -/
theorem RestartFields.delay_eq_max (h : fields.Overshoots attempt) (hle : attempt ≤ later) :
    fields.delay later = fields.maxDelaySeconds := by
  unfold delay
  split_ifs with hlater
  · rfl
  · refine min_eq_right ?_
    rw [grown, if_pos h.1]
    exact not_lt.mp fun hlt => hlater ⟨h.1, h.2.1.trans hle, hlt⟩

theorem RestartSpec.delay_mono (spec : RestartSpec) (h : attempt ≤ later) :
    spec.delay attempt ≤ spec.delay later := by
  by_cases hover : spec.Overshoots attempt
  · rw [RestartFields.delay_eq_max hover h]
    exact RestartFields.delay_le_max
  · calc spec.delay attempt = spec.curve attempt := if_neg hover
      _ ≤ spec.curve later := min_le_min_right _ (spec.grown_mono h)
      _ ≤ spec.delay later := RestartFields.curve_le_delay

theorem RestartFields.delay_eq_curve_iff :
    fields.delay attempt = fields.curve attempt ↔ ¬fields.Overshoots attempt := by
  refine ⟨fun h hover => ?_, fun h => if_neg h⟩
  rw [delay, if_pos hover, curve, grown, if_pos hover.1, min_eq_left hover.2.2.le] at h
  exact absurd hover.2.2 (by omega)

/-- The delay of every attempt the limit allows lies between the initial delay and the cap and never
falls; it is the documented one exactly while the early exit is not taken under the cap. -/
theorem nextDelay_follows_curve_iff (spec : RestartSpec) (attempt : ℤ) (hone : 1 ≤ attempt)
    (hlimit : spec.WithinLimit attempt) :
    ∃ delay, nextDelay attempt spec.toRestartFields = .ok delay ∧
      min spec.initialDelaySeconds spec.maxDelaySeconds ≤ delay ∧ delay ≤ spec.maxDelaySeconds ∧
      (∀ later, attempt ≤ later → spec.WithinLimit later →
        ∃ next, nextDelay later spec.toRestartFields = .ok next ∧ delay ≤ next) ∧
      (delay = spec.curve attempt ↔ ¬spec.Overshoots attempt) := by
  refine ⟨spec.delay attempt, nextDelay_eq_delay spec hone hlimit, ?_, RestartFields.delay_le_max,
    fun later hlater hallowed => ?_, RestartFields.delay_eq_curve_iff⟩
  · calc min spec.initialDelaySeconds spec.maxDelaySeconds ≤ spec.curve attempt :=
          min_le_min_right _ (spec.initial_le_grown hone)
      _ ≤ spec.delay attempt := RestartFields.curve_le_delay
  · exact ⟨spec.delay later, nextDelay_eq_delay spec (hone.trans hlater) hallowed,
      spec.delay_mono hlater⟩

/-- No delay at first, a minute at most, and no limit of attempts. -/
def sampleSpec : RestartSpec where
  policy := "always"
  backoff := "exponential"
  initialDelaySeconds := 0
  maxDelaySeconds := 60
  maxAttempts := 0
  policy_mem := by simp
  backoff_mem := by simp
  initial_nonneg := by decide
  initial_le_max := by decide
  maxAttempts_nonneg := by decide

theorem nextDelay_follows_curve_iff_sample :
    ∃ delay, nextDelay 64 sampleSpec.toRestartFields = .ok delay ∧ min 0 60 ≤ delay ∧ delay ≤ 60 ∧
      (∀ later, 64 ≤ later → sampleSpec.WithinLimit later →
        ∃ next, nextDelay later sampleSpec.toRestartFields = .ok next ∧ delay ≤ next) ∧
      (delay = sampleSpec.curve 64 ↔ ¬sampleSpec.Overshoots 64) :=
  nextDelay_follows_curve_iff sampleSpec 64 (by decide) (.inl rfl)

/-- The doubling of nothing is nothing, and the sixty-fourth restart waits a minute. -/
theorem nextDelay_leaves_curve :
    nextDelay 64 sampleSpec.toRestartFields = .ok 60 ∧ sampleSpec.curve 64 = 0 :=
  ⟨by decide +kernel, by decide +kernel⟩

end

end Restart
end Recto
