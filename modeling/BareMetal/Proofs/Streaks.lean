import BareMetal.Backoff
import Mathlib.Algebra.Group.Nat.Defs

/-!
# Streaks of failures

How long a failed object waits is decided by what happened to it alone. What is remembered of an object
tells the length of its streak after any history (`Backoff.Moment.Tells.after`), although every failure
sweeps the memory of all objects, and the wait grows with that length as the policy says
(`Backoff.waits_follow_streak`).
-/

namespace BareMetal

/-! ## The standard waits -/

namespace BackoffPolicy

/-- Beyond 32 failures the wait does not grow. -/
theorem delay?_min (p : BackoffPolicy) (n : Nat) {m : Nat} (hm : 32 ≤ m) :
    p.delay? (min n m) = p.delay? n := by
  have hmin : min (min n m) 32 = min n 32 := by omega
  unfold delay?
  rw [hmin]

/-- Five seconds, doubled with every failure before, and at most five minutes. -/
def standardSeconds (streak : Nat) : Nat := min (5 * 2 ^ streak) 300

theorem standardSeconds_lt (n : Nat) : standardSeconds n < 2 ^ 64 :=
  Nat.lt_of_le_of_lt (Nat.min_le_right ..) (by decide)

theorem delay?_standard (n : Nat) :
    standard.delay? n = some (.seconds (standardSeconds n) (standardSeconds_lt n)) := by
  have hshort : ∀ n < 33, standard.delay? n = some (.seconds (standardSeconds n) (standardSeconds_lt n)) := by
    decide +kernel
  rcases Nat.lt_or_ge n 33 with hn | hn
  · exact hshort n hn
  · have hlong (m : Nat) (hm : 32 ≤ m) : standardSeconds m = 300 := by
      have hpow : 2 ^ 32 ≤ 2 ^ m := Nat.pow_le_pow_right (by decide) hm
      unfold standardSeconds
      omega
    have hmin : min n 32 = 32 := by omega
    rw [← delay?_min standard n (Nat.le_refl 32), hmin, hshort 32 (by decide)]
    simp only [hlong 32 (Nat.le_refl 32), hlong n (by omega)]

end BackoffPolicy

namespace Backoff

/-! ## Histories -/

/-- What is done with the streaks, or the passing of time. -/
inductive Step
  /-- An object fails. -/
  | record (key : String)
  /-- The length of a streak is looked at. -/
  | look (key : String)
  | reset (key : String)
  | pass (nanos : Nat)
deriving DecidableEq

/-- The step is about the key, or time passes. -/
def Step.concerns (key : String) : Step → Bool
  | record k | reset k => k = key
  | look _ => false
  | pass _ => true

/-- How many failures of the key are in the streak that is under way when the given time has gone by
after a history, whose latest step comes first. A streak ends with a reset of the key, and when the
limit goes by without a failure of the key. -/
def streak (limit : Nat) (key : String) : (idle : Nat) → List Step → Nat
  | _, [] => 0
  | idle, .record k :: h =>
    if k = key then if idle < limit then streak limit key 0 h + 1 else 0 else streak limit key idle h
  | idle, .look _ :: h => streak limit key idle h
  | idle, .reset k :: h => if k = key then 0 else streak limit key idle h
  | idle, .pass nanos :: h => streak limit key (idle + nanos) h

/-- Of three failures and a fourth after the limit, a fifth has one before it. -/
example : streak 600 "a" 0 [.record "b", .record "a", .pass 600, .record "a", .pass 599, .record "a"] = 1 := rfl

variable {limit idle : Nat} {key : String} {h : List Step}

/-- Only the steps about the key and the passing of time make its streak. -/
theorem streak_filter (limit : Nat) (key : String) (idle : Nat) (h : List Step) :
    streak limit key idle (h.filter (·.concerns key)) = streak limit key idle h := by
  induction h generalizing idle with
  | nil => rfl
  | cons s h ih =>
    cases s with
    | record k | reset k =>
      by_cases hk : k = key
      · rw [List.filter_cons_of_pos (by simpa [Step.concerns] using hk)]
        simp only [streak, ih]
      · rw [List.filter_cons_of_neg (by simpa [Step.concerns] using hk)]
        simp only [streak, hk, if_false, ih]
    | look => exact ih idle
    | pass nanos => exact ih (idle + nanos)

/-- The streaks, and the time on the steady clock. -/
structure Moment where
  streaks : Backoff := ∅
  now : Nat := 0

namespace Moment

variable {p : BackoffPolicy} {m : Moment}

/-- What a failure of the key would have it wait. -/
def wait? (p : BackoffPolicy) (m : Moment) (key : String) : Option Span := (m.streaks.record p m.now key).1

/-- The moment after a step. -/
def step (p : BackoffPolicy) (m : Moment) : Step → Moment
  | .record key => { m with streaks := (m.streaks.record p m.now key).2 }
  | .look _ => m
  | .reset key => { m with streaks := m.streaks.reset key }
  | .pass nanos => { m with now := m.now + nanos }

/-- The moment after some steps. -/
def after (p : BackoffPolicy) (m : Moment) (steps : List Step) : Moment := steps.foldl (step p) m

/-! ## What is remembered -/

/-- What is remembered of the key tells its streak after the history, now and at any later time. -/
def Tells (p : BackoffPolicy) (m : Moment) (key : String) (h : List Step) : Prop :=
  match m.streaks.get? key with
  | none => ∀ idle, streak p.max.double.nanos key idle h = 0
  | some s => s.last ≤ m.now ∧ ∃ n, s.length = min n (2 ^ 32 - 1) ∧ ∀ idle,
      streak p.max.double.nanos key idle h = if m.now - s.last + idle < p.max.double.nanos then n else 0

theorem tells_of_none (hget : m.streaks.get? key = none) :
    m.Tells p key h ↔ ∀ idle, streak p.max.double.nanos key idle h = 0 := by
  rw [Tells, hget]

theorem tells_of_some {s : Streak} (hget : m.streaks.get? key = some s) :
    m.Tells p key h ↔ s.last ≤ m.now ∧ ∃ n, s.length = min n (2 ^ 32 - 1) ∧ ∀ idle,
      streak p.max.double.nanos key idle h = if m.now - s.last + idle < p.max.double.nanos then n else 0 := by
  rw [Tells, hget]

theorem Tells.of_eq {m' : Moment} {h' : List Step} (ht : m.Tells p key h)
    (hget : m'.streaks.get? key = m.streaks.get? key) (hnow : m'.now = m.now)
    (hstreak : ∀ idle, streak p.max.double.nanos key idle h' = streak p.max.double.nanos key idle h) :
    m'.Tells p key h' := by
  unfold Tells at ht ⊢
  simpa only [hget, hnow, hstreak] using ht

theorem get?_fresh (b : Backoff) (p : BackoffPolicy) (now : Nat) (key : String) :
    (b.fresh p now).get? key = (b.get? key).filter fun s => now - s.last < p.max.double.nanos :=
  Dict.get?_filter b _ key

/-- What is left of a key by a sweep tells the streak that goes on. -/
theorem Tells.length_fresh (ht : m.Tells p key h) :
    (((m.streaks.fresh p m.now).get? key).map (·.length)).getD 0 =
      min (streak p.max.double.nanos key 0 h) (2 ^ 32 - 1) := by
  rw [get?_fresh]
  cases hget : m.streaks.get? key with
  | none =>
    rw [(tells_of_none hget).1 ht 0]
    rfl
  | some s =>
    obtain ⟨-, n, hlength, hstreak⟩ := (tells_of_some hget).1 ht
    rw [hstreak 0]
    by_cases hfresh : m.now - s.last < p.max.double.nanos <;> simp [Option.filter, hfresh, hlength]

/-- A failure waits as long as its streak says. -/
theorem Tells.wait?_eq (ht : m.Tells p key h) :
    m.wait? p key = p.delay? (streak p.max.double.nanos key 0 h) := by
  show p.delay? _ = _
  rw [ht.length_fresh, BackoffPolicy.delay?_min p _ (by decide)]

/-- A sweep for another key leaves what is told of this one. -/
theorem Tells.sweep (ht : m.Tells p key h) : Tells p { m with streaks := m.streaks.fresh p m.now } key h := by
  have hfresh := get?_fresh m.streaks p m.now key
  cases hget : m.streaks.get? key with
  | none =>
    rw [hget] at hfresh
    exact (tells_of_none hfresh).2 ((tells_of_none hget).1 ht)
  | some s =>
    obtain ⟨hlast, n, hlength, hstreak⟩ := (tells_of_some hget).1 ht
    rw [hget] at hfresh
    by_cases hs : m.now - s.last < p.max.double.nanos
    · rw [Option.filter_some_pos (by simpa using hs)] at hfresh
      exact (tells_of_some hfresh).2 ⟨hlast, n, hlength, hstreak⟩
    · rw [Option.filter_some_neg (by simpa using hs)] at hfresh
      refine (tells_of_none hfresh).2 fun idle => ?_
      rw [hstreak idle, if_neg (by omega)]

/-- The streaks after a failure of some key. -/
theorem get?_record (m : Moment) (p : BackoffPolicy) (k key : String) :
    (m.step p (.record k)).streaks.get? key = if key = k then
      some ⟨min ((((m.streaks.fresh p m.now).get? k).map (·.length)).getD 0 + 1) (2 ^ 32 - 1), m.now⟩
    else (m.streaks.fresh p m.now).get? key :=
  Dict.get?_insert ..

/-- One step keeps that what is remembered tells the streak. -/
theorem Tells.step (ht : m.Tells p key h) (s : Step) : (m.step p s).Tells p key (s :: h) := by
  cases s with
  | record k =>
    have hget := get?_record m p k key
    by_cases hk : key = k
    · subst hk
      rw [if_pos rfl, ht.length_fresh] at hget
      refine (tells_of_some hget).2 ⟨Nat.le_refl m.now, streak p.max.double.nanos key 0 h + 1, ?_, fun idle => ?_⟩
      · dsimp only
        omega
      · have hidle : (m.step p (.record key)).now - m.now + idle = idle := by
          rw [show (m.step p (.record key)).now = m.now from rfl, Nat.sub_self, Nat.zero_add]
        rw [hidle, streak, if_pos rfl]
    · rw [if_neg hk] at hget
      exact ht.sweep.of_eq hget rfl fun idle => if_neg (Ne.symm hk)
  | look => exact ht
  | reset k =>
    have hget : (m.step p (.reset k)).streaks.get? key = _ := Dict.get?_erase m.streaks k key
    by_cases hk : key = k
    · rw [if_pos hk] at hget
      exact (tells_of_none hget).2 fun idle => if_pos hk.symm
    · rw [if_neg hk] at hget
      exact ht.of_eq hget rfl fun idle => if_neg (Ne.symm hk)
  | pass nanos =>
    cases hget : m.streaks.get? key with
    | none =>
      have hlater : (m.step p (.pass nanos)).streaks.get? key = none := hget
      exact (tells_of_none hlater).2 fun idle => (tells_of_none hget).1 ht (idle + nanos)
    | some s =>
      have hlater : (m.step p (.pass nanos)).streaks.get? key = some s := hget
      have hnow : (m.step p (.pass nanos)).now = m.now + nanos := rfl
      obtain ⟨hlast, n, hlength, hstreak⟩ := (tells_of_some hget).1 ht
      refine (tells_of_some hlater).2 ⟨by omega, n, hlength, fun idle => ?_⟩
      have hidle : (m.step p (.pass nanos)).now - s.last + idle = m.now - s.last + (idle + nanos) := by omega
      rw [hidle, streak, hstreak]

theorem Tells.after (ht : m.Tells p key h) (steps : List Step) :
    (m.after p steps).Tells p key (steps.reverse ++ h) := by
  induction steps generalizing m h with
  | nil => exact ht
  | cons s steps ih =>
    rw [List.reverse_cons, List.append_assoc]
    exact ih (ht.step s)

/-- When nothing is remembered, a failure after some steps waits as long as its streak in them says. -/
theorem wait?_after (p : BackoffPolicy) (now : Nat) (steps : List Step) (key : String) :
    ((⟨∅, now⟩ : Moment).after p steps).wait? p key =
      p.delay? (streak p.max.double.nanos key 0 steps.reverse) := by
  have hnew : (⟨∅, now⟩ : Moment).Tells p key [] := (tells_of_none rfl).2 fun _ => rfl
  have htold := hnew.after steps
  rw [List.append_nil] at htold
  exact htold.wait?_eq

end Moment

/-- After any steps a failure of a key waits five seconds, doubled for every failure in the streak of the
key that is under way, and at most five minutes; a streak ends with a reset of the key, and when ten
minutes go by without a failure of it. Without the steps about other keys it waits just as long. -/
theorem waits_follow_streak (now : Nat) (steps : List Step) (key : String) :
    ((⟨∅, now⟩ : Moment).after .standard steps).wait? .standard key =
        some (.seconds (min (5 * 2 ^ streak (600 * 10 ^ 9) key 0 steps.reverse) 300)
          (BackoffPolicy.standardSeconds_lt _)) ∧
      ((⟨∅, now⟩ : Moment).after .standard (steps.filter (·.concerns key))).wait? .standard key =
        ((⟨∅, now⟩ : Moment).after .standard steps).wait? .standard key := by
  have hlimit : BackoffPolicy.standard.max.double.nanos = 600 * 10 ^ 9 := by decide
  rw [Moment.wait?_after, Moment.wait?_after, hlimit, ← List.filter_reverse, streak_filter]
  exact ⟨BackoffPolicy.delay?_standard _, rfl⟩

end Backoff

end BareMetal
