import BareMetal.Backoff

/-!
# Retries in place

An operation is tried again after a growing and jittered wait, until it succeeds, fails in a way
that trying again cannot mend, or has been tried often enough. What the waits are depends on the
arithmetic in which they are computed, which for real waits is the one of floats.
-/

namespace BareMetal

/-- An arithmetic for waits: how they become numbers of seconds, and these become waits. -/
structure WaitArithmetic (W F : Type) where
  seconds : W → F
  times : F → F → F
  smaller : F → F → F
  /-- The wait of a number of seconds, none if it would be negative or too long. -/
  wait? : F → Option W

namespace WaitArithmetic

variable {W F : Type}

/-- Whole nanoseconds, computed with floats. -/
def floating : WaitArithmetic Span Float where
  seconds := Span.toSeconds
  times := (· * ·)
  smaller := BackoffPolicy.smaller
  wait? := Span.ofSeconds?

/-- The wait times a random factor. -/
def jittered? (A : WaitArithmetic W F) (delay : W) (jitter : F) : Option W :=
  A.wait? (A.times (A.seconds delay) jitter)

end WaitArithmetic

/-- How an operation is tried again. -/
structure RetryRule (W F : Type) where
  /-- The number of attempts, without limit if it is zero. -/
  maxAttempts : Nat
  /-- The wait after the first failure. -/
  initial : W
  /-- What waits grow up to. -/
  max : W
  multiplier : F

/-- How an operation is tried again if nothing else is said. -/
structure RetryPolicy extends RetryRule Span Float where
  maxAttempts := 0
  initial := .millis 200
  max := .seconds 30
  multiplier := 2
deriving Inhabited

/-! ## Series of attempts -/

/-- What is done in a series. -/
inductive RetryEvent (W ε α : Type)
  | attempt (outcome : Except ε α)
  | sleep (wait : W)

/-- What comes next in a series. -/
inductive RetryStage (W ε α : Type)
  /-- One more attempt. Those before it were counted, with 32 bits, and the wait is the one to follow. -/
  | due (counted : UInt32) (delay : W)
  | ended (result : Except ε α)
  /-- Nothing, since a wait would have been negative or too long. -/
  | outOfRange

/-- A series of attempts: what was done, and what comes next. -/
structure RetrySeries (W ε α : Type) where
  events : List (RetryEvent W ε α)
  stage : RetryStage W ε α

namespace RetrySeries

variable {W ε α : Type}

/-- The number of attempts that were made. -/
def attempts (s : RetrySeries W ε α) : Nat := s.events.countP fun
  | .attempt _ => true
  | .sleep _ => false

/-- The waits that were slept. -/
def sleeps (s : RetrySeries W ε α) : List W := s.events.filterMap fun
  | .attempt _ => none
  | .sleep wait => some wait

/-- The result of the last attempt, if the series has come to its end. -/
def result (s : RetrySeries W ε α) : Option (Except ε α) :=
  match s.stage with
  | .ended result => some result
  | .due .. | .outOfRange => none

end RetrySeries

namespace RetryRule

variable {W F ε α : Type}

/-- Whether a number of attempts is all that are allowed. -/
def exhausted (r : RetryRule W F) (counted : UInt32) : Bool :=
  0 < r.maxAttempts && r.maxAttempts ≤ counted.toNat

/-- The wait that follows a wait. -/
def grow? (r : RetryRule W F) (A : WaitArithmetic W F) (delay : W) : Option W :=
  A.wait? (A.smaller (A.times (A.seconds delay) r.multiplier) (A.seconds r.max))

/-- Makes one more attempt if it is due, and sleeps after it if it is not the last one. -/
def attempt (r : RetryRule W F) (A : WaitArithmetic W F) (retryable : ε → Bool)
    (outcome : Except ε α) (jitter : F) (s : RetrySeries W ε α) : RetrySeries W ε α :=
  match s.stage with
  | .ended _ | .outOfRange => s
  | .due counted delay =>
    let counted := counted + 1
    let tried := s.events ++ [.attempt outcome]
    match outcome with
    | .ok a => ⟨tried, .ended (.ok a)⟩
    | .error e =>
      if r.exhausted counted || !retryable e then ⟨tried, .ended (.error e)⟩
      else
        match A.jittered? delay jitter with
        | none => ⟨tried, .outOfRange⟩
        | some wait =>
          let slept := tried ++ [.sleep wait]
          match r.grow? A delay with
          | none => ⟨slept, .outOfRange⟩
          | some next => ⟨slept, .due counted next⟩

/-- The series after at most so many attempts, each with its own outcome and its own jitter. -/
def series (r : RetryRule W F) (A : WaitArithmetic W F) (retryable : ε → Bool)
    (outcome : Nat → Except ε α) (jitter : Nat → F) : Nat → RetrySeries W ε α
  | 0 => ⟨[], .due 0 r.initial⟩
  | n + 1 => r.attempt A retryable (outcome n) (jitter n) (r.series A retryable outcome jitter n)

/-- The whole series, none if it needs more than `fuel` attempts. -/
def run (r : RetryRule W F) (A : WaitArithmetic W F) (retryable : ε → Bool)
    (outcome : Nat → Except ε α) (jitter : Nat → F) (fuel : Nat) : Option (RetrySeries W ε α) :=
  let s := r.series A retryable outcome jitter fuel
  match s.stage with
  | .due .. => none
  | .ended _ | .outOfRange => some s

end RetryRule

/-- The whole series with real waits, none if it needs more than `fuel` attempts. -/
def RetryPolicy.run {ε α : Type} (p : RetryPolicy) (retryable : ε → Bool) (outcome : Nat → Except ε α)
    (jitter : Nat → Float) (fuel : Nat) : Option (RetrySeries Span ε α) :=
  p.toRetryRule.run .floating retryable outcome jitter fuel

end BareMetal
