import BareMetal.Dict
import BareMetal.Time.Span

/-!
# Backoff

How long to wait before a failed object is looked at again. Every object has its own streak of
failures, and the wait grows with the streak up to a limit. A streak that has not grown for twice
the limit is forgotten when the next failure of any object is recorded.
-/

namespace BareMetal

/-- How waits grow. -/
structure BackoffPolicy where
  initial : Span := .seconds 5
  max : Span := .seconds 300
  multiplier : Float := 2
deriving Inhabited

namespace BackoffPolicy

/-- How waits grow if nothing else is said. -/
def standard : BackoffPolicy := {}

/-- A float to a whole power, by repeated squaring. -/
def powerFrom : (fuel : Nat) → (result base : Float) → (n : Nat) → Float
  | 0, r, _, _ => r
  | fuel + 1, r, a, n =>
    let r := if n % 2 = 1 then r * a else r
    if n / 2 = 0 then r else powerFrom fuel r (a * a) (n / 2)

/-- A float to a whole power below `2 ^ 32`. -/
def power (a : Float) (n : Nat) : Float := powerFrom 32 1 a n

/-- The smaller of two floats; one that is no number does not count. -/
def smaller (a b : Float) : Float := if a.isNaN then b else if b.isNaN then a else if b < a then b else a

/-- The wait after a streak of the given length, none if it would be negative. -/
def delay? (p : BackoffPolicy) (streak : Nat) : Option Span :=
  Span.ofSeconds? (smaller (p.initial.toSeconds * power p.multiplier (min streak 32)) p.max.toSeconds)

end BackoffPolicy

/-- A streak of failures: its length and the time of the last one, in nanoseconds on the steady
clock. -/
structure Streak where
  length : Nat
  last : Nat
deriving DecidableEq

/-- The streaks of all objects. -/
abbrev Backoff := Dict Streak

namespace Backoff

/-- The streaks that are not stale. -/
def fresh (b : Backoff) (p : BackoffPolicy) (now : Nat) : Backoff :=
  b.filter fun _ s => now - s.last < p.max.double.nanos

/-- Records a failure of `key`; the wait depends on the failures before it. -/
def record (b : Backoff) (p : BackoffPolicy) (now : Nat) (key : String) : Option Span × Backoff :=
  let b := b.fresh p now
  let n := ((b.get? key).map (·.length)).getD 0
  (p.delay? n, b.insert key ⟨min (n + 1) (2 ^ 32 - 1), now⟩)

/-- Ends the streak of `key`. -/
def reset (b : Backoff) (key : String) : Backoff := b.erase key

/-- The length of the streak of `key`. -/
def failures (b : Backoff) (key : String) : Nat := ((b.get? key).map (·.length)).getD 0

end Backoff

end BareMetal
