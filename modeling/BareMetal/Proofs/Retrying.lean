import BareMetal.Retry
import Mathlib.Data.Nat.Find
import Mathlib.Order.Bounds.Basic

/-!
# When a series of attempts ends

A series of attempts goes on until an outcome settles it or the last allowed attempt was made. What it has
done before is known step by step (`RetryRule.series_of_goesOn`), in every arithmetic and whatever the jitter
is, so that it ends with the first attempt that stops it, or never (`RetryRule.stops_at_first`).
-/

namespace BareMetal

variable {W F ε α : Type}

/-- The outcome is a success, or a failure that is not worth another attempt. -/
def Settles (retryable : ε → Bool) : Except ε α → Prop
  | .ok _ => True
  | .error e => retryable e = false

theorem not_settles_iff {retryable : ε → Bool} {o : Except ε α} :
    ¬Settles retryable o ↔ ∃ e, o = .error e ∧ retryable e = true := by
  cases o <;> simp [Settles]

namespace RetryRule

variable {r : RetryRule W F} {A : WaitArithmetic W F} {retryable : ε → Bool} {outcome : Nat → Except ε α}
  {jitter : Nat → F} {delay slept : Nat → W} {n : Nat}

/-- No attempt follows the one with this number, counted from zero: its outcome settles the matter, or it is
the last one that is allowed. -/
def Stops (r : RetryRule W F) (retryable : ε → Bool) (outcome : Nat → Except ε α) (n : Nat) : Prop :=
  Settles retryable (outcome n) ∨ n + 1 = r.maxAttempts

/-- The attempt with this number is made, and another one after it. -/
def GoesOn (r : RetryRule W F) (retryable : ε → Bool) (outcome : Nat → Except ε α) (n : Nat) : Prop :=
  ∀ k ≤ n, ¬r.Stops retryable outcome k

/-- The waits that are due after the attempts, before and after their jitter. None of them is out of range
as long as the series goes on. -/
structure Waits (r : RetryRule W F) (A : WaitArithmetic W F) (retryable : ε → Bool)
    (outcome : Nat → Except ε α) (jitter : Nat → F) (delay slept : Nat → W) : Prop where
  first : delay 0 = r.initial
  jittered : ∀ n, r.GoesOn retryable outcome n → A.jittered? (delay n) (jitter n) = some (slept n)
  grown : ∀ n, r.GoesOn retryable outcome n → r.grow? A (delay n) = some (delay (n + 1))

/-- So many attempts with a sleep after each of them. -/
def turns (outcome : Nat → Except ε α) (slept : Nat → W) (n : Nat) : List (RetryEvent W ε α) :=
  (List.range n).flatMap fun k => [.attempt (outcome k), .sleep (slept k)]

/-! ## One attempt -/

/-- As long as the budget is not used up, the 32 bits of the count are enough. -/
theorem exhausted_iff (hbudget : r.maxAttempts < 2 ^ 32) (hbefore : ∀ k < n, k + 1 ≠ r.maxAttempts) :
    r.exhausted (.ofNat n + 1) = true ↔ n + 1 = r.maxAttempts := by
  simp only [exhausted, Bool.and_eq_true, decide_eq_true_eq]
  rcases Nat.eq_zero_or_pos r.maxAttempts with hzero | hpos
  · omega
  · have hle : n + 1 ≤ r.maxAttempts := by
      by_contra hlt
      exact hbefore (r.maxAttempts - 1) (by omega) (by omega)
    have hcount : (UInt32.ofNat n + 1).toNat = n + 1 := by
      rw [UInt32.toNat_add, UInt32.toNat_ofNat', UInt32.toNat_one]
      omega
    rw [hcount]
    omega

/-- What an attempt does when no one before it has stopped the series: it stops the series, or it goes on and
is followed by a sleep, unless a wait is out of range. -/
theorem attempt_cases (hbudget : r.maxAttempts < 2 ^ 32) (hbefore : ∀ k < n, ¬r.Stops retryable outcome k)
    (A : WaitArithmetic W F) (events : List (RetryEvent W ε α)) (due : W) (j : F) :
    let after := r.attempt A retryable (outcome n) j ⟨events, .due (.ofNat n) due⟩
    let tried := events ++ [.attempt (outcome n)]
    r.Stops retryable outcome n ∧ after = ⟨tried, .ended (outcome n)⟩ ∨
    r.GoesOn retryable outcome n ∧ match A.jittered? due j with
      | none => after = ⟨tried, .outOfRange⟩
      | some wait => match r.grow? A due with
        | none => after = ⟨tried ++ [.sleep wait], .outOfRange⟩
        | some next => after = ⟨tried ++ [.sleep wait], .due (.ofNat (n + 1)) next⟩ := by
  have hlast := exhausted_iff hbudget fun k hk hlast => hbefore k hk (.inr hlast)
  cases ho : outcome n with
  | ok a => exact .inl ⟨.inl (by rw [ho]; trivial), rfl⟩
  | error e =>
    by_cases hstop : r.exhausted (.ofNat n + 1) || !retryable e
    · refine .inl ⟨?_, by simp only [attempt, hstop, if_true]⟩
      rcases Bool.or_eq_true_iff.1 hstop with hcount | he
      · exact .inr (hlast.1 hcount)
      · exact .inl (by rw [ho]; simpa [Settles] using he)
    · obtain ⟨hcount, he⟩ := not_or.1 (mt Bool.or_eq_true_iff.2 hstop)
      refine .inr ⟨fun k hk => ?_, ?_⟩
      · rcases Nat.lt_or_eq_of_le hk with hk | rfl
        · exact hbefore k hk
        · exact not_or.2 ⟨not_settles_iff.2 ⟨e, ho, by simpa using he⟩, mt hlast.2 hcount⟩
      · rw [Bool.not_eq_true] at hstop
        have hnext : UInt32.ofNat (n + 1) = .ofNat n + 1 := UInt32.ofNat_add n 1
        cases hjitter : A.jittered? due j with
        | none => simp [attempt, hstop, hjitter]
        | some wait => cases hgrow : r.grow? A due <;> simp [attempt, hstop, hjitter, hgrow, hnext]

/-! ## Series -/

theorem turns_succ (outcome : Nat → Except ε α) (slept : Nat → W) (n : Nat) :
    turns outcome slept (n + 1) = turns outcome slept n ++ [.attempt (outcome n)] ++ [.sleep (slept n)] := by
  simp [turns, List.range_succ]

/-- As long as no attempt stops the series, each one is followed by a sleep. -/
theorem series_of_goesOn (hbudget : r.maxAttempts < 2 ^ 32)
    (hwaits : r.Waits A retryable outcome jitter delay slept)
    (hbefore : ∀ k < n, ¬r.Stops retryable outcome k) :
    r.series A retryable outcome jitter n = ⟨turns outcome slept n, .due (.ofNat n) (delay n)⟩ := by
  induction n with
  | zero => rw [series, hwaits.first]; rfl
  | succ n ih =>
    have hgoes : r.GoesOn retryable outcome n := fun k hk => hbefore k (Nat.lt_succ_of_le hk)
    have hearlier : ∀ k < n, ¬r.Stops retryable outcome k := fun k hk => hgoes k (Nat.le_of_lt hk)
    rcases attempt_cases hbudget hearlier A (turns outcome slept n) (delay n) (jitter n) with ⟨hstop, -⟩ | ⟨-, h⟩
    · exact absurd hstop (hgoes n (Nat.le_refl n))
    · rw [hwaits.jittered n hgoes, hwaits.grown n hgoes] at h
      rw [series, ih hearlier, turns_succ]
      exact h

/-- The first attempt that stops the series ends it with its outcome. -/
theorem series_of_stop (hbudget : r.maxAttempts < 2 ^ 32)
    (hwaits : r.Waits A retryable outcome jitter delay slept)
    (hbefore : ∀ k < n, ¬r.Stops retryable outcome k) (hstop : r.Stops retryable outcome n) :
    r.series A retryable outcome jitter (n + 1) =
      ⟨turns outcome slept n ++ [.attempt (outcome n)], .ended (outcome n)⟩ := by
  rw [series, series_of_goesOn hbudget hwaits hbefore]
  rcases attempt_cases hbudget hbefore A (turns outcome slept n) (delay n) (jitter n) with ⟨-, h⟩ | ⟨hgoes, -⟩
  · exact h
  · exact absurd hstop (hgoes n (Nat.le_refl n))

/-! ## The end of a series -/

/-- Nothing is done after the end. -/
theorem series_of_ended {s : RetrySeries W ε α} {o : Except ε α}
    (hs : r.series A retryable outcome jitter n = s) (hend : s.stage = .ended o) (k : Nat) :
    r.series A retryable outcome jitter (n + k) = s := by
  induction k with
  | zero => exact hs
  | succ k ih => rw [← Nat.add_assoc, series, ih, attempt, hend]

theorem run_of_due {counted : UInt32} {due : W}
    (h : (r.series A retryable outcome jitter n).stage = .due counted due) :
    r.run A retryable outcome jitter n = none := by
  simp only [run, h]

theorem run_of_ended {o : Except ε α} (h : (r.series A retryable outcome jitter n).stage = .ended o) :
    r.run A retryable outcome jitter n = some (r.series A retryable outcome jitter n) := by
  simp only [run, h]

theorem run_of_isLeast (hbudget : r.maxAttempts < 2 ^ 32)
    (hwaits : r.Waits A retryable outcome jitter delay slept)
    (hn : IsLeast {n | r.Stops retryable outcome n} n) (fuel : Nat) :
    r.run A retryable outcome jitter fuel =
      if n < fuel then some ⟨turns outcome slept n ++ [.attempt (outcome n)], .ended (outcome n)⟩ else none := by
  have hbefore : ∀ k < n, ¬r.Stops retryable outcome k := fun k hk hstop => absurd (hn.2 hstop) (by omega)
  by_cases hfuel : n < fuel
  · obtain ⟨k, rfl⟩ : ∃ k, fuel = n + 1 + k := Nat.exists_eq_add_of_le hfuel
    have hend := series_of_ended (series_of_stop hbudget hwaits hbefore hn.1) rfl k
    rw [if_pos hfuel, run_of_ended (congrArg _ hend), hend]
  · have hdue := series_of_goesOn (n := fuel) hbudget hwaits fun k hk => hbefore k (by omega)
    rw [if_neg hfuel, run_of_due (congrArg _ hdue)]

/-- As long as no wait that is due is out of range, a series is over after the first attempt that settles the
matter or is the last one allowed: it consists of the attempts up to this one with one sleep between each and
the next, and ends with the outcome of the last. With a limit there is such an attempt within it; without one
the series goes on for ever just if every outcome is a failure that is worth another attempt. -/
theorem stops_at_first (r : RetryRule W F) (A : WaitArithmetic W F) (retryable : ε → Bool)
    (outcome : Nat → Except ε α) (jitter : Nat → F) (hbudget : r.maxAttempts < 2 ^ 32)
    (hwaits : r.Waits A retryable outcome jitter delay slept) :
    (∀ n, IsLeast {n | r.Stops retryable outcome n} n → ∀ fuel, r.run A retryable outcome jitter fuel =
      if n < fuel then some ⟨turns outcome slept n ++ [.attempt (outcome n)], .ended (outcome n)⟩ else none) ∧
    (0 < r.maxAttempts → ∃ n < r.maxAttempts, IsLeast {n | r.Stops retryable outcome n} n) ∧
    (r.maxAttempts = 0 → ((∀ fuel, r.run A retryable outcome jitter fuel = none) ↔
      ∀ n, ∃ e, outcome n = .error e ∧ retryable e = true)) := by
  have hleast (hstop : ∃ n, r.Stops retryable outcome n) :
      ∃ n, IsLeast {n | r.Stops retryable outcome n} n := by
    classical
    exact ⟨Nat.find hstop, Nat.find_spec hstop, fun k hk => Nat.find_min' hstop hk⟩
  refine ⟨fun n hn => run_of_isLeast hbudget hwaits hn, fun hpos => ?_, fun hzero => ⟨fun hnone n => ?_, ?_⟩⟩
  · have hlast : r.Stops retryable outcome (r.maxAttempts - 1) := .inr (by omega)
    obtain ⟨n, hn⟩ := hleast ⟨_, hlast⟩
    exact ⟨n, by have := hn.2 hlast; omega, hn⟩
  · by_contra hsettles
    obtain ⟨k, hk⟩ := hleast ⟨n, .inl (not_not.1 (mt not_settles_iff.1 hsettles))⟩
    have hrun := run_of_isLeast hbudget hwaits hk (k + 1)
    rw [hnone, if_pos (Nat.lt_succ_self k)] at hrun
    cases hrun
  · intro hall fuel
    have hgoes (k : Nat) : ¬r.Stops retryable outcome k :=
      not_or.2 ⟨not_settles_iff.2 (hall k), by omega⟩
    exact run_of_due (congrArg _ (series_of_goesOn hbudget hwaits fun k _ => hgoes k))

/-! ## What is slept -/

section Sleeps

variable {events : List (RetryEvent W ε α)} {stage stage' : RetryStage W ε α}

theorem sleeps_attempt (o : Except ε α) :
    (⟨events ++ [.attempt o], stage⟩ : RetrySeries W ε α).sleeps = RetrySeries.sleeps ⟨events, stage'⟩ := by
  simp [RetrySeries.sleeps]

theorem sleeps_sleep (wait : W) (stage' : RetryStage W ε α) :
    (⟨events ++ [.sleep wait], stage⟩ : RetrySeries W ε α).sleeps =
      RetrySeries.sleeps ⟨events, stage'⟩ ++ [wait] := by
  simp [RetrySeries.sleeps]

theorem mem_sleeps_turns {k : Nat} (hk : k < n) :
    slept k ∈ (⟨turns outcome slept n, stage⟩ : RetrySeries W ε α).sleeps := by
  refine List.mem_filterMap.2 ⟨.sleep (slept k), ?_, rfl⟩
  exact List.mem_flatMap.2 ⟨k, List.mem_range.2 hk, List.mem_cons_of_mem _ List.mem_cons_self⟩

end Sleeps

/-- The wait that is due after an attempt, before its jitter, if none before it is out of range. -/
def delay? (r : RetryRule W F) (A : WaitArithmetic W F) : Nat → Option W
  | 0 => some r.initial
  | n + 1 => (r.delay? A n).bind (r.grow? A)

/-- The wait is slept after one of the first attempts: this one goes on, and the wait is the one that is due
after it with its jitter. -/
def Slept (r : RetryRule W F) (A : WaitArithmetic W F) (retryable : ε → Bool)
    (outcome : Nat → Except ε α) (jitter : Nat → F) (n : Nat) (wait : W) : Prop :=
  ∃ k < n, r.GoesOn retryable outcome k ∧ (r.delay? A k).bind (A.jittered? · (jitter k)) = some wait

/-- All sleeps of the series are accounted for, and when another attempt is due, all before it went on. -/
structure Accounts (r : RetryRule W F) (A : WaitArithmetic W F) (retryable : ε → Bool)
    (outcome : Nat → Except ε α) (jitter : Nat → F) (n : Nat) (s : RetrySeries W ε α) : Prop where
  sleeps : ∀ wait ∈ s.sleeps, r.Slept A retryable outcome jitter n wait
  due : ∀ counted delay, s.stage = .due counted delay →
    counted = .ofNat n ∧ r.delay? A n = some delay ∧ ∀ k < n, ¬r.Stops retryable outcome k

section Accounts

variable {s : RetrySeries W ε α} {wait : W}

theorem Slept.succ (h : r.Slept A retryable outcome jitter n wait) :
    r.Slept A retryable outcome jitter (n + 1) wait := by
  obtain ⟨k, hk, h⟩ := h
  exact ⟨k, Nat.lt_succ_of_lt hk, h⟩

/-- One more attempt is accounted for. -/
theorem Accounts.attempt (hbudget : r.maxAttempts < 2 ^ 32)
    (h : r.Accounts A retryable outcome jitter n s) :
    r.Accounts A retryable outcome jitter (n + 1) (r.attempt A retryable (outcome n) (jitter n) s) := by
  obtain ⟨events, stage⟩ := s
  have hearlier : ∀ wait ∈ (⟨events, stage⟩ : RetrySeries W ε α).sleeps,
      r.Slept A retryable outcome jitter (n + 1) wait := fun wait hwait => (h.sleeps wait hwait).succ
  cases stage with
  | ended | outOfRange => exact ⟨hearlier, nofun⟩
  | due counted due =>
    obtain ⟨rfl, hdelay, hbefore⟩ := h.due _ _ rfl
    -- an attempt adds no sleep, and a sleep after it adds the wait that is due
    have htried (stage : RetryStage W ε α) : ∀ w ∈ RetrySeries.sleeps ⟨events ++ [.attempt (outcome n)], stage⟩,
        r.Slept A retryable outcome jitter (n + 1) w := by
      rw [sleeps_attempt]
      exact hearlier
    have hslept (hgoes : r.GoesOn retryable outcome n) {wait : W}
        (hwait : A.jittered? due (jitter n) = some wait) (stage : RetryStage W ε α) :
        ∀ w ∈ RetrySeries.sleeps ⟨events ++ [.attempt (outcome n)] ++ [.sleep wait], stage⟩,
          r.Slept A retryable outcome jitter (n + 1) w := by
      rw [sleeps_sleep wait stage]
      refine List.forall_mem_append.2 ⟨htried stage, List.forall_mem_singleton.2 ?_⟩
      exact ⟨n, Nat.lt_succ_self n, hgoes, by rw [hdelay, Option.bind_some, hwait]⟩
    rcases attempt_cases hbudget hbefore A events due (jitter n) with ⟨-, hafter⟩ | ⟨hgoes, hafter⟩
    · rw [hafter]
      exact ⟨htried _, nofun⟩
    · split at hafter
      · rw [hafter]
        exact ⟨htried _, nofun⟩
      · next wait hwait =>
        split at hafter
        · rw [hafter]
          exact ⟨hslept hgoes hwait _, nofun⟩
        · next next hgrow =>
          rw [hafter]
          refine ⟨hslept hgoes hwait _, ?_⟩
          rintro _ _ ⟨⟩
          refine ⟨rfl, ?_, fun k hk => hgoes k (Nat.le_of_lt_succ hk)⟩
          rw [delay?, hdelay, Option.bind_some, hgrow]

theorem accounts_series (hbudget : r.maxAttempts < 2 ^ 32) (n : Nat) :
    r.Accounts A retryable outcome jitter n (r.series A retryable outcome jitter n) := by
  induction n with
  | zero =>
    refine ⟨nofun, ?_⟩
    rintro _ _ ⟨⟩
    exact ⟨rfl, rfl, nofun⟩
  | succ n ih => exact ih.attempt hbudget

end Accounts

end RetryRule

namespace RetryPolicy

/-- At most three attempts, with waits of up to a second. -/
def thrice : RetryPolicy := { maxAttempts := 3, max := .second }

/-- Every attempt fails in a way that another one can mend. -/
def refusals : Nat → Except Unit Unit := fun _ => .error ()

theorem stops_refusals_iff (n : Nat) : thrice.Stops (fun _ => true) refusals n ↔ n = 2 := by
  have hbudget : thrice.maxAttempts = 3 := rfl
  simp [RetryRule.Stops, Settles, refusals, hbudget]

/-- With a jitter of five quarters. -/
theorem waits_thrice : thrice.Waits .floating (fun _ => true) refusals (fun _ => 1.25)
    (fun | 0 => .millis 200 | 1 => .millis 400 | _ => .millis 800)
    (fun | 0 => .millis 250 | _ => .millis 500) := by
  have hgoes {n : Nat} (h : thrice.GoesOn (fun _ => true) refusals n) : n = 0 ∨ n = 1 := by
    by_contra hn
    exact h 2 (by omega) ((stops_refusals_iff 2).2 rfl)
  refine ⟨rfl, fun n h => ?_, fun n h => ?_⟩ <;> rcases hgoes h with rfl | rfl <;> decide +kernel

/-- The third failure is the result, after two sleeps. -/
theorem stops_at_third : thrice.maxAttempts < 2 ^ 32 ∧
    IsLeast {n | thrice.Stops (fun _ => true) refusals n} 2 ∧
    thrice.run (fun _ => true) refusals (fun _ => 1.25) 2 = none ∧
    thrice.run (fun _ => true) refusals (fun _ => 1.25) 3 = some ⟨[.attempt (.error ()), .sleep (.millis 250),
      .attempt (.error ()), .sleep (.millis 500), .attempt (.error ())], .ended (.error ())⟩ := by
  have hleast : IsLeast {n | thrice.Stops (fun _ => true) refusals n} 2 :=
    ⟨(stops_refusals_iff 2).2 rfl, fun n hn => Nat.le_of_eq ((stops_refusals_iff n).1 hn).symm⟩
  obtain ⟨hrun, -, -⟩ := RetryRule.stops_at_first thrice.toRetryRule .floating (fun _ => true) refusals
    (fun _ => 1.25) (by decide) waits_thrice
  exact ⟨by decide, hleast, hrun 2 hleast 2, hrun 2 hleast 3⟩

end RetryPolicy

end BareMetal
