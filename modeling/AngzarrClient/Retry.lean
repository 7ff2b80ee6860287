import AngzarrClient.Lib.Traced
import Mathlib.Algebra.Order.Field.Rat
import Mathlib.Tactic.Linarith

/-!
# Retrying with exponential backoff

`AngzarrClient.ExponentialBackoffRetry.execute` calls an operation until it succeeds or
the attempts run out, reports each failure it retries, and sleeps before the next
attempt. What it is to do is `AngzarrClient.ExponentialBackoffRetry.Follows`, a relation
with a constructor for each way an attempt can go: it succeeds, it is the last and fails,
or it fails and is retried after its delay.

Reporting and sleeping happen inside the handler of the failure, so whatever the callback
raises is raised in its place. The delay is `min_delay * math.pow(2, attempt)` before it is
capped, and `math.pow` leaves the doubles at the 1024th power. So the schedule is followed to
its end exactly when no attempt from the 1024th on is retried, and no report raises
(`AngzarrClient.ExponentialBackoffRetry.follows_iff`).

The sleep is taken to return: what `time.sleep` raises, on a delay its clock does not hold or
out of a signal's handler, is left out.

Delays are exact rationals here; the power alone has the double's range, and its overflow is
the one exception computing a delay raises.
-/

namespace AngzarrClient

/-- What `random.random()` returns. -/
structure Draw where
  value : ℚ
  nonneg : 0 ≤ value
  lt_one : value < 1

/-- What leaves `execute`: an exception of the operation's or of the callback's, or one of
the language's own. -/
inductive RetryError (ε : Type) where
  | exception (e : ε)
  /-- `OverflowError`: a result past the doubles. -/
  | overflowError
  /-- `TypeError`: nothing to raise. -/
  | typeError
  deriving DecidableEq

/-- What `execute` does on its way. -/
inductive RetryEvent (ε : Type) where
  /-- The operation, called for an attempt. -/
  | attempt (index : ℕ)
  /-- `on_retry`, called with an attempt's index and its exception. -/
  | onRetry (index : ℕ) (e : ε)
  /-- `time.sleep`. -/
  | sleep (delay : ℚ)
  deriving DecidableEq

/-- `math.pow(2, i)`: past the doubles from the 1024th power on. -/
def pow2 {ε : Type} (i : ℕ) : Except (RetryError ε) ℚ :=
  if i < 1024 then .ok (2 ^ i) else .error .overflowError

/-- `ExponentialBackoffRetry`, made of delays that are not negative and of at least one
attempt. -/
structure ExponentialBackoffRetry (ε : Type) where
  minDelay : ℚ := 1 / 10
  maxDelay : ℚ := 5
  maxAttempts : ℕ := 10
  jitter : Bool := true
  /-- The callback, which may itself raise. -/
  onRetry : Option (ℕ → ε → Except (RetryError ε) Unit) := none
  minDelay_nonneg : 0 ≤ minDelay := by norm_num
  maxDelay_nonneg : 0 ≤ maxDelay := by norm_num
  maxAttempts_pos : 0 < maxAttempts := by norm_num

/-- `default_retry_policy`. -/
def defaultRetryPolicy {ε : Type} : ExponentialBackoffRetry ε where
  minDelay := 1 / 10
  maxDelay := 5
  maxAttempts := 10
  jitter := true

namespace ExponentialBackoffRetry

variable {ε α : Type} (policy : ExponentialBackoffRetry ε)

/-- `_compute_delay`, on what `random.random()` returns. -/
def computeDelay (draw : Draw) (attempt : ℕ) : Except (RetryError ε) ℚ := do
  let power ← pow2 attempt
  let delay := policy.minDelay * power
  let delay := min delay policy.maxDelay
  return if policy.jitter then delay * (1 / 2 + draw.value * (1 / 2)) else delay

/-- The handler of a failed attempt: where it is to be retried, it is reported, and the
delay is slept. -/
def handleFailure (draw : Draw) (attempt : ℕ) (e : ε) :
    Traced (RetryEvent ε) (RetryError ε) Unit := do
  if attempt < policy.maxAttempts - 1 then
    match policy.onRetry with
    | some report => Traced.call (.onRetry attempt e) (report attempt e)
    | none => pure ()
    let delay ← Traced.ofExcept (policy.computeDelay draw attempt)
    Traced.call (.sleep delay) (.ok ())

/-- The loop of `execute`, with the attempts that remain and the last exception.
`operation i` is what the attempt `i` comes to and `draws i` what `random` returns in its
handler. -/
def loop (operation : ℕ → Except ε α) (draws : ℕ → Draw) :
    ℕ → ℕ → Option ε → Traced (RetryEvent ε) (RetryError ε) α
  | 0, _, none => Traced.raise .typeError
  | 0, _, some lastErr => Traced.raise (.exception lastErr)
  | remaining + 1, attempt, _ =>
    match operation attempt with
    | .ok value => Traced.call (.attempt attempt) (.ok value)
    | .error e => do
      Traced.call (.attempt attempt) (.ok ())
      policy.handleFailure (draws attempt) attempt e
      loop operation draws remaining (attempt + 1) (some e)

/-- `execute`. -/
def execute (operation : ℕ → Except ε α) (draws : ℕ → Draw) :
    Traced (RetryEvent ε) (RetryError ε) α :=
  policy.loop operation draws policy.maxAttempts 0 none

/-! ### The schedule -/

/-- The delay after an attempt: `min_delay` doubled with every attempt, up to
`max_delay`, times a factor between a half and one under jitter. -/
def Slept (attempt : ℕ) (delay : ℚ) : Prop :=
  ∃ factor : ℚ, delay = min (policy.minDelay * 2 ^ attempt) policy.maxDelay * factor ∧
    if policy.jitter then 1 / 2 ≤ factor ∧ factor ≤ 1 else factor = 1

/-- The report of an attempt that is retried, where there is a callback. -/
def reported (attempt : ℕ) (e : ε) : List (RetryEvent ε) :=
  match policy.onRetry with
  | some _ => [.onRetry attempt e]
  | none => []

/-- **The schedule, from an attempt on.** -/
inductive Follows (operation : ℕ → Except ε α) :
    ℕ → Traced (RetryEvent ε) (RetryError ε) α → Prop
  /-- The attempt succeeds: its value is returned. -/
  | succeeded {i : ℕ} {value : α} : operation i = .ok value →
      Follows operation i ⟨[.attempt i], .ok value⟩
  /-- The last attempt fails: its own exception is raised. -/
  | exhausted {i : ℕ} {e : ε} : operation i = .error e → i + 1 = policy.maxAttempts →
      Follows operation i ⟨[.attempt i], .error (.exception e)⟩
  /-- Another attempt fails: it is reported, its delay is slept, and the next is made. -/
  | retried {i : ℕ} {e : ε} {delay : ℚ} {run : Traced (RetryEvent ε) (RetryError ε) α} :
      operation i = .error e → i + 1 < policy.maxAttempts → policy.Slept i delay →
      Follows operation (i + 1) run →
      Follows operation i
        ⟨.attempt i :: policy.reported i e ++ .sleep delay :: run.log, run.result⟩

/-- Whether the callback, where there is one, returns when an attempt is reported. -/
def Reports (attempt : ℕ) (e : ε) : Prop :=
  ∀ report, policy.onRetry = some report → report attempt e = .ok ()

/-- **Every attempt that is retried can be**: it is before the 1024th, and its report
returns. Of the attempts from `i` on, those are retried that fail with every one before
them, the last of all apart. -/
def Retriable (operation : ℕ → Except ε α) (i : ℕ) : Prop :=
  ∀ k e, i ≤ k → k + 1 < policy.maxAttempts → operation k = .error e →
    (∀ j, i ≤ j → j < k → ∃ e', operation j = .error e') → k < 1024 ∧ policy.Reports k e

variable {policy}

/-- The attempts a run made. -/
def attempts (log : List (RetryEvent ε)) : List ℕ :=
  log.filterMap fun
    | .attempt i => some i
    | _ => none

@[simp] theorem attempts_reported (attempt : ℕ) (e : ε) :
    attempts (policy.reported attempt e) = [] := by
  unfold reported
  cases policy.onRetry with
  | none => rfl
  | some report => rfl

/-- **What follows the schedule** calls the operation until its first success or as often
as it may, and ends as the last of those calls did. -/
theorem Follows.exists_last {operation : ℕ → Except ε α} {i : ℕ}
    {run : Traced (RetryEvent ε) (RetryError ε) α} (h : policy.Follows operation i run) :
    ∃ k, attempts run.log = List.range' i (k + 1) ∧
      (∀ j, i ≤ j → j < i + k → ∃ e, operation j = .error e) ∧
      ((∃ value, operation (i + k) = .ok value ∧ run.result = .ok value) ∨
        i + k + 1 = policy.maxAttempts ∧
          ∃ e, operation (i + k) = .error e ∧ run.result = .error (.exception e)) := by
  induction h with
  | @succeeded i value hok =>
    exact ⟨0, rfl, fun j hij hji => absurd hij (by omega), .inl ⟨value, hok, rfl⟩⟩
  | @exhausted i e herror hlast =>
    exact ⟨0, rfl, fun j hij hji => absurd hij (by omega), .inr ⟨hlast, e, herror, rfl⟩⟩
  | @retried i e delay run herror hmore hslept hrun ih =>
    obtain ⟨k, hattempts, hfails, hend⟩ := ih
    refine ⟨k + 1, ?_, fun j hij hjk => ?_, ?_⟩
    · have hlog : attempts (.attempt i :: policy.reported i e ++ .sleep delay :: run.log) =
          i :: (attempts (policy.reported i e) ++ attempts run.log) := by
        simp [attempts]
      rw [hlog, attempts_reported, hattempts, List.nil_append, ← List.range'_succ]
    · rcases Nat.eq_or_lt_of_le hij with rfl | hlt
      · exact ⟨e, herror⟩
      · exact hfails j hlt (by omega)
    · rw [show i + (k + 1) = i + 1 + k by omega]
      exact hend

/-! ### The delay -/

theorem factor_bounds (draw : Draw) :
    1 / 2 ≤ 1 / 2 + draw.value * (1 / 2) ∧ 1 / 2 + draw.value * (1 / 2) ≤ 1 := by
  have hnonneg := draw.nonneg
  have hlt := draw.lt_one
  constructor
  · linarith
  · linarith

/-- Before the 1024th power the delay is the schedule's. -/
theorem exists_computeDelay (draw : Draw) {attempt : ℕ} (h : attempt < 1024) :
    ∃ delay, policy.computeDelay draw attempt = .ok delay ∧ policy.Slept attempt delay := by
  refine ⟨_, by rw [computeDelay, pow2, if_pos h]; rfl, ?_⟩
  cases hjitter : policy.jitter with
  | true =>
    refine ⟨1 / 2 + draw.value * (1 / 2), rfl, ?_⟩
    rw [hjitter]
    exact factor_bounds draw
  | false =>
    refine ⟨1, (mul_one _).symm, ?_⟩
    rw [hjitter]
    rfl

/-- From the 1024th power on there is no delay. -/
theorem computeDelay_overflow (draw : Draw) {attempt : ℕ} (h : ¬attempt < 1024) :
    policy.computeDelay draw attempt = .error .overflowError := by
  rw [computeDelay, pow2, if_neg h]
  rfl

/-! ### The handler -/

/-- The last attempt's failure is not handled. -/
theorem handleFailure_last (draw : Draw) {attempt : ℕ} (e : ε)
    (h : ¬attempt + 1 < policy.maxAttempts) : policy.handleFailure draw attempt e = pure () := by
  rw [handleFailure, if_neg (by omega)]

/-- A failure that can be retried is reported, and its delay is slept. -/
theorem exists_handleFailure (draw : Draw) {attempt : ℕ} {e : ε}
    (h : attempt + 1 < policy.maxAttempts) (hpow : attempt < 1024)
    (hreports : policy.Reports attempt e) :
    ∃ delay, policy.Slept attempt delay ∧
      policy.handleFailure draw attempt e =
        ⟨policy.reported attempt e ++ [.sleep delay], .ok ()⟩ := by
  obtain ⟨delay, hdelay, hslept⟩ := policy.exists_computeDelay draw hpow
  refine ⟨delay, hslept, ?_⟩
  rw [handleFailure, if_pos (by omega), hdelay, reported]
  unfold Reports at hreports
  cases hcallback : policy.onRetry with
  | none => rfl
  | some report =>
    simp only [hreports report hcallback]
    rfl

/-- A failure that cannot be retried ends the run in its handler, before it slept. -/
theorem exists_handleFailure_error (draw : Draw) {attempt : ℕ} {e : ε}
    (h : attempt + 1 < policy.maxAttempts)
    (hcannot : ¬(attempt < 1024 ∧ policy.Reports attempt e)) :
    ∃ log raised, policy.handleFailure draw attempt e = ⟨log, .error raised⟩ ∧
      ∀ delay, .sleep delay ∉ log := by
  rw [handleFailure, if_pos (by omega)]
  cases hcallback : policy.onRetry with
  | none =>
    have hpow : ¬attempt < 1024 := fun hpow =>
      hcannot ⟨hpow, fun report hreport => by rw [hcallback] at hreport; cases hreport⟩
    rw [computeDelay_overflow draw hpow]
    exact ⟨[], _, rfl, fun _ => List.not_mem_nil⟩
  | some report =>
    refine ⟨[.onRetry attempt e], ?_⟩
    cases hreport : report attempt e with
    | error raised =>
      simp only [hreport]
      exact ⟨raised, rfl, by simp⟩
    | ok _ =>
      have hpow : ¬attempt < 1024 := fun hpow => hcannot ⟨hpow, fun report' hreport' => by
        rw [hcallback] at hreport'
        obtain rfl := Option.some.inj hreport'
        exact hreport⟩
      simp only [hreport, computeDelay_overflow draw hpow]
      exact ⟨_, rfl, by simp⟩

/-! ### The loop -/

section Loop

variable {operation : ℕ → Except ε α} {draws : ℕ → Draw} {i : ℕ}

/-- Nothing that a success ends is retried. -/
theorem retriable_of_ok {value : α} (h : operation i = .ok value) :
    policy.Retriable operation i := by
  intro k e hik _ hk hfails
  rcases Nat.eq_or_lt_of_le hik with rfl | hlt
  · rw [h] at hk
    cases hk
  · obtain ⟨e', he'⟩ := hfails i le_rfl hlt
    rw [h] at he'
    cases he'

/-- The attempts from one that fails on can be retried exactly when it can, and those
after it. -/
theorem retriable_of_error {e : ε} (h : operation i = .error e)
    (hmore : i + 1 < policy.maxAttempts) :
    policy.Retriable operation i ↔
      (i < 1024 ∧ policy.Reports i e) ∧ policy.Retriable operation (i + 1) := by
  constructor
  · intro hall
    refine ⟨hall i e le_rfl hmore h fun j hij hji => absurd hij (by omega), ?_⟩
    intro k e' hik hk hfail hfails
    refine hall k e' (by omega) hk hfail fun j hij hjk => ?_
    rcases Nat.eq_or_lt_of_le hij with rfl | hlt
    · exact ⟨e, h⟩
    · exact hfails j hlt hjk
  · rintro ⟨hfirst, hrest⟩ k e' hik hk hfail hfails
    rcases Nat.eq_or_lt_of_le hik with rfl | hlt
    · rw [h] at hfail
      cases hfail
      exact hfirst
    · exact hrest k e' hlt hk hfail fun j hij hjk => hfails j (by omega) hjk

/-- What follows the schedule past a failure has slept. -/
theorem Follows.retried_of_error {e : ε} {run : Traced (RetryEvent ε) (RetryError ε) α}
    (hrun : policy.Follows operation i run) (h : operation i = .error e)
    (hmore : i + 1 < policy.maxAttempts) :
    ∃ delay rest, policy.Slept i delay ∧ policy.Follows operation (i + 1) rest ∧
      run = ⟨.attempt i :: policy.reported i e ++ .sleep delay :: rest.log, rest.result⟩ := by
  cases hrun with
  | succeeded hok =>
    rw [h] at hok
    cases hok
  | exhausted _ hlast => exact absurd hlast (by omega)
  | retried herror _ hslept hrest =>
    rw [h] at herror
    cases herror
    exact ⟨_, _, hslept, hrest, rfl⟩

/-- A success is returned at once. -/
theorem loop_ok {value : α} (h : operation i = .ok value) (remaining : ℕ) (lastErr : Option ε) :
    policy.loop operation draws (remaining + 1) i lastErr = ⟨[.attempt i], .ok value⟩ := by
  rw [loop, h]
  rfl

/-- A failure whose handler raises ends the loop with what was raised. -/
theorem loop_raised {e : ε} (h : operation i = .error e) {log : List (RetryEvent ε)}
    {raised : RetryError ε} (hhandler : policy.handleFailure (draws i) i e = ⟨log, .error raised⟩)
    (remaining : ℕ) (lastErr : Option ε) :
    policy.loop operation draws (remaining + 1) i lastErr =
      ⟨.attempt i :: log, .error raised⟩ := by
  rw [loop, h]
  simp only [hhandler]
  rfl

/-- A failure whose handler returns leads to the next attempt. -/
theorem loop_handled {e : ε} (h : operation i = .error e) {log : List (RetryEvent ε)}
    (hhandler : policy.handleFailure (draws i) i e = ⟨log, .ok ()⟩)
    (remaining : ℕ) (lastErr : Option ε) :
    policy.loop operation draws (remaining + 1) i lastErr =
      let rest := policy.loop operation draws remaining (i + 1) (some e)
      ⟨.attempt i :: log ++ rest.log, rest.result⟩ := by
  rw [loop, h]
  simp only [hhandler]
  rfl

/-- **The loop follows the schedule exactly where every attempt it retries can be.** -/
theorem follows_loop_iff (remaining : ℕ) (lastErr : Option ε)
    (hremaining : i + (remaining + 1) = policy.maxAttempts) :
    policy.Follows operation i (policy.loop operation draws (remaining + 1) i lastErr) ↔
      policy.Retriable operation i := by
  induction remaining generalizing i lastErr with
  | zero =>
    cases hop : operation i with
    | ok value =>
      rw [loop_ok hop]
      exact iff_of_true (.succeeded hop) (retriable_of_ok hop)
    | error e =>
      have hlast : policy.handleFailure (draws i) i e = ⟨[], .ok ()⟩ :=
        handleFailure_last (draws i) e (by omega)
      rw [loop_handled hop hlast]
      refine iff_of_true (.exhausted hop (by omega)) fun k e' hik hk _ _ => ?_
      omega
  | succ remaining ih =>
    cases hop : operation i with
    | ok value =>
      rw [loop_ok hop]
      exact iff_of_true (.succeeded hop) (retriable_of_ok hop)
    | error e =>
      have hmore : i + 1 < policy.maxAttempts := by omega
      rw [retriable_of_error hop hmore]
      by_cases hcan : i < 1024 ∧ policy.Reports i e
      · have hrest : i + 1 + (remaining + 1) = policy.maxAttempts := by omega
        rw [and_iff_right hcan, ← ih (some e) hrest]
        obtain ⟨delay, hslept, hhandler⟩ := exists_handleFailure (draws i) hmore hcan.1 hcan.2
        rw [loop_handled hop hhandler]
        constructor
        · intro hrun
          obtain ⟨delay', rest, _, hrest, heq⟩ := hrun.retried_of_error hop hmore
          -- The two logs have the same start: the delay is the one that was slept.
          obtain ⟨hlog, hresult⟩ := Traced.ext_iff.mp heq
          simp only [List.append_assoc, List.cons_append, List.nil_append,
            List.cons.injEq, true_and, List.append_cancel_left_eq] at hlog
          exact (Traced.ext hlog.2 hresult) ▸ hrest
        · intro hrest
          have hrun := Follows.retried hop hmore hslept hrest
          simpa only [List.append_assoc, List.cons_append, List.nil_append] using hrun
      · obtain ⟨log, raised, hhandler, hlog⟩ := exists_handleFailure_error (draws i) hmore hcan
        rw [loop_raised hop hhandler]
        refine iff_of_false (fun hrun => ?_) fun h => hcan h.1
        obtain ⟨delay, rest, _, _, heq⟩ := hrun.retried_of_error hop hmore
        have hmem : RetryEvent.sleep delay ∈ log := by
          have hlogs := congrArg Traced.log heq
          simp only [List.cons_append, List.cons.injEq, true_and] at hlogs
          rw [hlogs]
          exact List.mem_append_right _ List.mem_cons_self
        exact hlog delay hmem

end Loop

/-- **Retrying follows its schedule to the end exactly when every attempt it retries can
be retried**: none from the 1024th on is, and no report raises. -/
theorem follows_iff (operation : ℕ → Except ε α) (draws : ℕ → Draw) :
    policy.Follows operation 0 (policy.execute operation draws) ↔
      policy.Retriable operation 0 := by
  obtain ⟨remaining, hremaining⟩ := Nat.exists_eq_succ_of_ne_zero policy.maxAttempts_pos.ne'
  rw [execute, hremaining]
  exact follows_loop_iff remaining none (by omega)

/-- Where no report raises, that is: at most 1025 attempts, or a success among the first
1025. -/
theorem retriable_iff {operation : ℕ → Except ε α}
    (hreports : ∀ k e, policy.Reports k e) :
    policy.Retriable operation 0 ↔
      policy.maxAttempts ≤ 1025 ∨ ∃ j ≤ 1024, ∃ value, operation j = .ok value := by
  constructor
  · intro h
    by_contra hnot
    push Not at hnot
    obtain ⟨hmax, hfails⟩ := hnot
    have herror : ∀ j ≤ 1024, ∃ e, operation j = .error e := by
      intro j hj
      cases hop : operation j with
      | error e => exact ⟨e, rfl⟩
      | ok value => exact absurd hop (hfails j hj value)
    obtain ⟨e, he⟩ := herror 1024 le_rfl
    have hpow := (h 1024 e (by omega) hmax he fun j _ hj => herror j (by omega)).1
    omega
  · rintro (hmax | ⟨j, hj, value, hvalue⟩) k e _ hk he hfails
    · exact ⟨by omega, hreports k e⟩
    · refine ⟨?_, hreports k e⟩
      by_contra hpow
      rcases Nat.eq_or_lt_of_le (show j ≤ k by omega) with rfl | hlt
      · rw [hvalue] at he
        cases he
      · obtain ⟨e', he'⟩ := hfails j (Nat.zero_le j) hlt
        rw [hvalue] at he'
        cases he'

/-- A policy of 1026 attempts. -/
def manyAttempts : ExponentialBackoffRetry Unit := { maxAttempts := 1026, jitter := false }

/-- The schedule of 1026 attempts that all fail is not followed to its end: the power of
the last but one is past the doubles, and its `OverflowError` is raised. -/
theorem not_follows_of_overflow :
    let policy := manyAttempts
    let operation : ℕ → Except Unit Unit := fun _ => .error ()
    ¬policy.Follows operation 0 (policy.execute operation fun _ => ⟨0, le_rfl, one_pos⟩) := by
  intro policy operation hfollows
  have hretriable := (follows_loop_iff 1025 none rfl).mp hfollows
  have hpow := (hretriable 1024 () (by omega) (by decide) rfl fun _ _ _ => ⟨(), rfl⟩).1
  omega

end ExponentialBackoffRetry

end AngzarrClient
