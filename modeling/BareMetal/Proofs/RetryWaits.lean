import BareMetal.Proofs.Retrying
import Mathlib.Algebra.Order.Field.Basic
import Mathlib.Algebra.Order.Field.Rat
import Mathlib.Order.Interval.Set.Basic
import Mathlib.Tactic.IntervalCases
import Mathlib.Tactic.Linarith
import Mathlib.Tactic.NormNum

/-!
# How long the sleeps of a series are

In exact arithmetic the wait that is due after an attempt grows as a power of the multiplier up to the
limit of the rule (`RetryRule.wait_succ`). The jitter comes after that and makes a sleep longer by up to a half,
and the first wait is not limited at all. So the sleeps stay within the limit for all jitters just if one and
a half times the unlimited wait does (`RetryRule.sleeps_limited_iff`).
-/

namespace BareMetal

/-- An exact number of seconds in the range of waits. -/
abbrev ExactWait : Type := Set.Ico (0 : ℚ) (2 ^ 64)

/-- Waits computed without rounding. -/
def WaitArithmetic.exact : WaitArithmetic ExactWait ℚ where
  seconds := Subtype.val
  times := (· * ·)
  smaller := min
  wait? x := if h : x ∈ Set.Ico 0 (2 ^ 64) then some ⟨x, h⟩ else none

/-- Factors that jitter can be: from a half to less than one and a half. -/
def Drawn (jitter : Nat → ℚ) : Prop := ∀ n, jitter n ∈ Set.Ico (1 / 2) (3 / 2)

namespace RetryRule

variable {ε α : Type} {r : RetryRule ExactWait ℚ} {retryable : ε → Bool} {outcome : Nat → Except ε α}
  {jitter : Nat → ℚ} {delay : ExactWait} {n : Nat}

/-! ## Waits -/

theorem jittered?_exact (delay : ExactWait) (j : ℚ) (w : ExactWait) :
    WaitArithmetic.exact.jittered? delay j = some w ↔ (w : ℚ) = delay * j := by
  simp only [WaitArithmetic.jittered?, WaitArithmetic.exact, Option.dite_none_right_eq_some, Option.some.injEq]
  constructor
  · rintro ⟨-, rfl⟩
    rfl
  · rintro h
    exact ⟨h ▸ w.2, Subtype.ext h.symm⟩

theorem min_mem (hmult : 1 ≤ r.multiplier) (delay : ExactWait) :
    min (delay * r.multiplier) r.max ∈ Set.Ico (0 : ℚ) (2 ^ 64) :=
  ⟨le_min (mul_nonneg delay.2.1 (by linarith)) r.max.2.1, min_lt_of_right_lt r.max.2.2⟩

theorem grow?_exact (hmult : 1 ≤ r.multiplier) (delay : ExactWait) :
    r.grow? .exact delay = some ⟨min (delay * r.multiplier) r.max, min_mem hmult delay⟩ :=
  dif_pos (min_mem hmult delay)

/-- The wait that is due after an attempt. -/
def wait (r : RetryRule ExactWait ℚ) : Nat → ℚ
  | 0 => r.initial
  | n + 1 => min (r.wait n * r.multiplier) r.max

theorem wait_mem (hmult : 1 ≤ r.multiplier) (n : Nat) : r.wait n ∈ Set.Ico (0 : ℚ) (2 ^ 64) := by
  induction n with
  | zero => exact r.initial.2
  | succ n ih => exact min_mem hmult ⟨_, ih⟩

theorem delay?_exact (hmult : 1 ≤ r.multiplier) (n : Nat) :
    r.delay? .exact n = some ⟨r.wait n, wait_mem hmult n⟩ := by
  induction n with
  | zero => rfl
  | succ n ih => rw [delay?, ih, Option.bind_some, grow?_exact hmult]; rfl

/-- The wait is the unlimited one, or the limit. -/
theorem wait_succ (hmult : 1 ≤ r.multiplier) (n : Nat) :
    r.wait (n + 1) = min (r.initial * r.multiplier ^ (n + 1)) r.max := by
  induction n with
  | zero => rw [wait, wait, zero_add, pow_one]
  | succ n ih =>
    -- what has reached the limit stays there
    have hlimit : (r.max : ℚ) ≤ r.max * r.multiplier := le_mul_of_one_le_right r.max.2.1 hmult
    rw [wait, ih, min_mul_of_nonneg _ _ (by linarith), min_assoc, min_eq_right hlimit, pow_succ _ (n + 1),
      mul_assoc]

theorem wait_le (hmult : 1 ≤ r.multiplier) (n : Nat) : r.wait n ≤ r.initial * r.multiplier ^ n := by
  cases n with
  | zero => rw [wait, pow_zero, mul_one]
  | succ n => exact (wait_succ hmult n).le.trans (min_le_left _ _)

theorem wait_le_sup (n : Nat) : r.wait n ≤ (r.initial : ℚ) ⊔ r.max := by
  cases n with
  | zero => exact le_sup_left
  | succ n => exact (min_le_right _ _).trans le_sup_right

/-! ## Sleeps -/

/-- A sleep takes as long as the wait that is due, times the jitter. -/
theorem eq_of_mem_sleeps (hbudget : r.maxAttempts < 2 ^ 32) (hmult : 1 ≤ r.multiplier) {w : ExactWait}
    (hw : w ∈ (r.series .exact retryable outcome jitter n).sleeps) :
    ∃ k, r.GoesOn retryable outcome k ∧ (w : ℚ) = r.wait k * jitter k := by
  obtain ⟨k, -, hgoes, hslept⟩ := (accounts_series hbudget n).sleeps w hw
  rw [delay?_exact hmult, Option.bind_some, jittered?_exact] at hslept
  exact ⟨k, hgoes, hslept⟩

/-- An attempt that goes on is followed by a sleep of that length, if all the sleeps are in range. -/
theorem mem_sleeps_of_goesOn (hbudget : r.maxAttempts < 2 ^ 32) (hmult : 1 ≤ r.multiplier)
    (hrange : ∀ k, r.wait k * jitter k ∈ Set.Ico (0 : ℚ) (2 ^ 64)) (hgoes : r.GoesOn retryable outcome n) :
    ⟨r.wait n * jitter n, hrange n⟩ ∈ (r.series .exact retryable outcome jitter (n + 1)).sleeps := by
  have hwaits : r.Waits .exact retryable outcome jitter (fun k => ⟨r.wait k, wait_mem hmult k⟩)
      (fun k => ⟨r.wait k * jitter k, hrange k⟩) :=
    ⟨rfl, fun k _ => (jittered?_exact _ _ _).2 rfl, fun k _ => grow?_exact hmult _⟩
  rw [series_of_goesOn hbudget hwaits fun k hk => hgoes k (Nat.le_of_lt_succ hk)]
  exact mem_sleeps_turns (Nat.lt_succ_self n)

/-- Within the range of jitter there is one that makes a wait longer than a limit, unless one and a half times
the wait is within the limit. -/
theorem exists_draw {wait limit : ExactWait} (h : (limit : ℚ) < 3 / 2 * wait) :
    ∃ j ∈ Set.Ico (1 / 2 : ℚ) (3 / 2), wait * j ∈ Set.Ico (0 : ℚ) (2 ^ 64) ∧ limit < wait * j := by
  have hpos : (0 : ℚ) < wait := by linarith [limit.2.1]
  have hroom : (limit : ℚ) ⊔ wait / 2 < 3 / 2 * (wait : ℚ) ⊓ 2 ^ 64 :=
    sup_lt_iff.2 ⟨lt_inf_iff.2 ⟨h, limit.2.2⟩, lt_inf_iff.2 ⟨by linarith, by linarith [wait.2.2]⟩⟩
  obtain ⟨x, hlow, hhigh⟩ := exists_between hroom
  obtain ⟨hover, hhalf⟩ := sup_lt_iff.1 hlow
  obtain ⟨hthree, hrange⟩ := lt_inf_iff.1 hhigh
  have hx : wait * (x / wait) = x := mul_div_cancel₀ x hpos.ne'
  refine ⟨x / wait, ⟨?_, ?_⟩, ?_, ?_⟩
  · rw [le_div_iff₀ hpos]
    linarith
  · rw [div_lt_iff₀ hpos]
    exact hthree
  · rw [hx]
    exact ⟨by linarith [limit.2.1], hrange⟩
  · rw [hx]
    exact hover

/-- If all sleeps stay within the limit for all jitters, one and a half times each wait that is due does. -/
theorem wait_limited (hbudget : r.maxAttempts < 2 ^ 32) (hmult : 1 ≤ r.multiplier)
    (h : ∀ jitter, Drawn jitter → ∀ n, ∀ w ∈ (r.series .exact retryable outcome jitter n).sleeps, w ≤ r.max)
    (hgoes : r.GoesOn retryable outcome n) : 3 / 2 * r.wait n ≤ r.max := by
  by_contra hover
  have hlimit : (r.max : ℚ) < 3 / 2 * ((⟨r.wait n, wait_mem hmult n⟩ : ExactWait) : ℚ) := not_le.1 hover
  obtain ⟨j, hj, hrange, hlonger⟩ := exists_draw hlimit
  -- the other waits are slept as they are
  let draw : Nat → ℚ := fun k => if k = n then j else 1
  have hdrawn : Drawn draw := by
    intro k
    by_cases hk : k = n
    · simpa [draw, hk] using hj
    · simp only [draw, if_neg hk]
      norm_num
  have hranges : ∀ k, r.wait k * draw k ∈ Set.Ico (0 : ℚ) (2 ^ 64) := by
    intro k
    by_cases hk : k = n
    · simpa [draw, hk] using hrange
    · simpa [draw, hk] using wait_mem hmult k
  have hle : r.wait n * draw n ≤ r.max :=
    h draw hdrawn (n + 1) _ (mem_sleeps_of_goesOn hbudget hmult hranges hgoes)
  have hdraw : draw n = j := if_pos rfl
  rw [hdraw] at hle
  exact absurd hle (not_le.2 hlonger)

/-- One and a half times the wait is within the limit just if one and a half times the unlimited wait is, as
long as this holds of the first wait. -/
theorem unlimited_le (hmult : 1 ≤ r.multiplier) (hfirst : 3 / 2 * r.wait 0 ≤ r.max)
    (hwait : 3 / 2 * r.wait n ≤ r.max) : 3 / 2 * (r.initial * r.multiplier ^ n) ≤ (r.max : ℚ) := by
  cases n with
  | zero => rwa [pow_zero, mul_one]
  | succ n =>
    rw [wait_succ hmult] at hwait
    rcases min_choice (r.initial * r.multiplier ^ (n + 1)) (r.max : ℚ) with hmin | hmin
    · rwa [hmin] at hwait
    · -- then nothing is waited at all
      rw [hmin] at hwait
      have hmax : (r.max : ℚ) = 0 := le_antisymm (by linarith) r.max.2.1
      have hinitial : (r.initial : ℚ) = 0 := le_antisymm (by rw [wait] at hfirst; linarith) r.initial.2.1
      rw [hinitial, hmax]
      linarith

/-- With a multiplier of at least one, all sleeps stay within the limit for all jitters just if one and a half
times the unlimited wait does after every attempt that is followed by another. Otherwise sleeps are longer, by
at most a half of the limit or of the first wait. -/
theorem sleeps_limited_iff (r : RetryRule ExactWait ℚ) (retryable : ε → Bool) (outcome : Nat → Except ε α)
    (hbudget : r.maxAttempts < 2 ^ 32) (hmult : 1 ≤ r.multiplier) :
    ((∀ jitter, Drawn jitter → ∀ n, ∀ w ∈ (r.series .exact retryable outcome jitter n).sleeps, w ≤ r.max) ↔
      ∀ n, r.GoesOn retryable outcome n → 3 / 2 * (r.initial * r.multiplier ^ n) ≤ (r.max : ℚ)) ∧
    ∀ jitter, Drawn jitter → ∀ n, ∀ w ∈ (r.series .exact retryable outcome jitter n).sleeps,
      (w : ℚ) ≤ 3 / 2 * ((r.initial : ℚ) ⊔ r.max) := by
  have hstretch {jitter : Nat → ℚ} (hdrawn : Drawn jitter) (k : Nat) : r.wait k * jitter k ≤ 3 / 2 * r.wait k := by
    rw [mul_comm]
    exact mul_le_mul_of_nonneg_right (hdrawn k).2.le (wait_mem hmult k).1
  refine ⟨⟨fun h n hgoes => ?_, fun h jitter hdrawn n w hw => ?_⟩, fun jitter hdrawn n w hw => ?_⟩
  · have hfirst : r.GoesOn retryable outcome 0 := fun k hk => hgoes k (by omega)
    exact unlimited_le hmult (wait_limited hbudget hmult h hfirst) (wait_limited hbudget hmult h hgoes)
  · obtain ⟨k, hgoes, hlength⟩ := eq_of_mem_sleeps hbudget hmult hw
    rw [← Subtype.coe_le_coe, hlength]
    linarith [hstretch hdrawn k, wait_le hmult k, h k hgoes]
  · obtain ⟨k, -, hlength⟩ := eq_of_mem_sleeps hbudget hmult hw
    rw [hlength]
    linarith [hstretch hdrawn k, r.wait_le_sup k]

/-- A rule with twice the wait after each attempt. -/
def doubling (maxAttempts : Nat) (initial max : ExactWait) : RetryRule ExactWait ℚ := ⟨maxAttempts, initial, max, 2⟩

/-- A fifth of a second at first, and up to half a minute. -/
def shortSeries : RetryRule ExactWait ℚ := doubling 3 ⟨1 / 5, by norm_num⟩ ⟨30, by norm_num⟩

/-- Three attempts at most are too few for waits to come near the limit. -/
theorem sleeps_limited_shortSeries : shortSeries.maxAttempts < 2 ^ 32 ∧ 1 ≤ shortSeries.multiplier ∧
    ∀ jitter, Drawn jitter → ∀ n, ∀ w ∈
      (shortSeries.series .exact (fun _ => true) (fun _ => (.error () : Except Unit Unit)) jitter n).sleeps,
        w ≤ shortSeries.max := by
  have hbudget : shortSeries.maxAttempts < 2 ^ 32 := by decide
  have hmult : 1 ≤ shortSeries.multiplier := by norm_num [shortSeries, doubling]
  refine ⟨hbudget, hmult, (sleeps_limited_iff shortSeries (fun _ => true) _ hbudget hmult).1.2 fun n hgoes => ?_⟩
  have hn : n < 2 := by
    by_contra hn
    exact hgoes 2 (by omega) (.inr rfl)
  interval_cases n <;> norm_num [shortSeries, doubling]

/-- A wait of one second. -/
def oneSecond : ExactWait := ⟨1, by norm_num⟩

/-- A wait of ten seconds. -/
def tenSeconds : ExactWait := ⟨10, by norm_num⟩

@[simp] theorem coe_oneSecond : (oneSecond : ℚ) = 1 := rfl

@[simp] theorem coe_tenSeconds : (tenSeconds : ℚ) = 10 := rfl

/-- Up to one second, starting with this wait. -/
def upToSecond (initial : ExactWait) : RetryRule ExactWait ℚ := doubling 0 initial oneSecond

theorem goesOn_upToSecond (initial : ExactWait) :
    (upToSecond initial).GoesOn (fun _ => true) RetryPolicy.refusals 0 := by
  intro k _ hstop
  rcases hstop with hsettles | hlast
  · simp [Settles, RetryPolicy.refusals] at hsettles
  · exact Nat.succ_ne_zero k hlast

/-- The first sleep is the first wait times the jitter. -/
theorem mem_sleeps_upToSecond {initial : ExactWait} (hinitial : (initial : ℚ) ≤ 10) {j : ℚ}
    (hj : j ∈ Set.Ico (1 / 2) (3 / 2)) {w : ExactWait} (hw : (w : ℚ) = initial * j) :
    w ∈ ((upToSecond initial).series .exact (fun _ => true) RetryPolicy.refusals (fun _ => j) 1).sleeps := by
  have hbudget : (upToSecond initial).maxAttempts < 2 ^ 32 := by norm_num [upToSecond, doubling]
  have hmult : 1 ≤ (upToSecond initial).multiplier := by norm_num [upToSecond, doubling]
  have hrange (k : Nat) : (upToSecond initial).wait k * j ∈ Set.Ico (0 : ℚ) (2 ^ 64) := by
    have hwait := (upToSecond initial).wait_mem hmult k
    have hten : (upToSecond initial).wait k ≤ 10 :=
      ((upToSecond initial).wait_le_sup k).trans (sup_le hinitial (by norm_num [upToSecond, doubling]))
    exact ⟨mul_nonneg hwait.1 (by linarith [hj.1]), by nlinarith [hj.1, hj.2, hwait.1]⟩
  have hmem := mem_sleeps_of_goesOn hbudget hmult hrange (goesOn_upToSecond initial)
  have hsleep : w = ⟨(upToSecond initial).wait 0 * j, hrange 0⟩ := Subtype.ext hw
  exact hsleep ▸ hmem

/-- With a limit of one second, a wait of one second is slept for longer if its jitter is five quarters, and a
first wait of ten seconds even without jitter; the latter also with real waits. -/
theorem sleeps_over_limit :
    (∃ jitter, Drawn jitter ∧ ∃ w ∈ ((upToSecond oneSecond).series .exact (fun _ => true)
      RetryPolicy.refusals jitter 1).sleeps, (upToSecond oneSecond).max < w) ∧
    (∃ jitter, Drawn jitter ∧ ∃ w ∈ ((upToSecond tenSeconds).series .exact (fun _ => true)
      RetryPolicy.refusals jitter 1).sleeps, (upToSecond tenSeconds).max < w) ∧
    (({ maxAttempts := 2, initial := .seconds 10, max := .second } : RetryPolicy).run (fun _ => true)
      RetryPolicy.refusals (fun _ => 1) 2).map (·.sleeps) = some [.seconds 10] := by
  refine ⟨⟨fun _ => 5 / 4, fun _ => by norm_num, ⟨5 / 4, by norm_num⟩,
      mem_sleeps_upToSecond (by norm_num) (by norm_num) (by norm_num), ?_⟩,
    ⟨fun _ => 1, fun _ => by norm_num, ⟨10, by norm_num⟩,
      mem_sleeps_upToSecond (by norm_num) (by norm_num) (by norm_num), ?_⟩, ?_⟩
  · rw [← Subtype.coe_lt_coe]
    norm_num [upToSecond, doubling]
  · rw [← Subtype.coe_lt_coe]
    norm_num [upToSecond, doubling]
  · decide +kernel

end RetryRule

end BareMetal
