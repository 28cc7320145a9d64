import BareMetal.Instance.Health

/-!
# Deadlines of members

A member that is not ready has a deadline: the wait counted from the transition that its Node reports, or else
from the first sighting. The judgement changes exactly at the deadline and never back, and until then it tells the
time that is left to the nanosecond (`MemberVerdict.meets_deadline`).
-/

namespace BareMetal

/-! ## Time left -/

theorem Stamp.nanos_elapsed {a b : Stamp} (h : a ≤ b) (hlt : b.nanos - a.nanos < 2 ^ 64 * 10 ^ 9) :
    ((a.elapsed b).nanos : Int) = b.nanos - a.nanos := by
  have hle : a.nanos ≤ b.nanos := h
  rw [elapsed, if_pos h, Span.ofNanos?, dif_pos (by omega)]
  exact Int.toNat_of_nonneg (by omega)

/-- A start in the future counts as no time gone by. -/
theorem nanos_remainingWait (since now : Stamp) (w : Span) : ((remainingWait since w now).nanos : Int) =
    max (w.nanos - max (now.nanos - since.nanos) 0) 0 := by
  have hw := w.nanos_lt
  show ((w.nanos - (since.elapsed now).nanos : Nat) : Int) = _
  by_cases hle : since ≤ now
  · have hnanos : since.nanos ≤ now.nanos := hle
    by_cases hlt : now.nanos - since.nanos < 2 ^ 64 * 10 ^ 9
    · have := Stamp.nanos_elapsed hle hlt
      omega
    · -- the time that has gone by is more than a span can hold, and so is longer than every wait
      have hlongest : since.elapsed now = .longest := by
        rw [Stamp.elapsed, if_pos hle, Span.ofNanos?, dif_neg (by omega)]
        rfl
      rw [hlongest]
      simp only [Span.longest]
      omega
  · have hnanos : ¬since.nanos ≤ now.nanos := hle
    have hnone : since.elapsed now = .zero := if_neg hle
    rw [hnone]
    simp only [Span.zero]
    omega

namespace Span

theorem isZero_iff {s : Span} : s.isZero = true ↔ s.nanos = 0 := decide_eq_true_iff

theorem eq_of_nanos {a b : Span} (h : (a.nanos : Int) = b.nanos) : a = b := by
  cases a
  cases b
  obtain rfl := Int.ofNat_inj.1 h
  rfl

end Span

theorem remainingWait_self (t : Stamp) (w : Span) : remainingWait t w t = w := by
  have hnanos := nanos_remainingWait t t w
  exact Span.eq_of_nanos (by omega)

/-! ## Judgements -/

namespace Cluster.Node

/-- The Node is there to stay, but is not ready. -/
structure IsUnready (n : Node) : Prop where
  stays : n.metadata.deletionTimestamp = none
  unready : n.health ≠ .ready

/-- When its `Ready` condition last changed, as far as it says so. -/
def transition? (n : Node) : Option Stamp := (n.conditions.find? (·.kind = "Ready")).bind (·.lastTransition)

theorem health_of_ne_ready {n : Node} (h : n.health ≠ .ready) : n.health = .notReady n.transition? := by
  unfold health transition? at *
  cases hready : n.conditions.find? (·.kind = "Ready") with
  | none => rfl
  | some c =>
    rw [hready] at h
    dsimp only at h ⊢
    split at h
    · exact absurd rfl h
    · next hstatus =>
      rw [if_neg hstatus]
      rfl

theorem transition?_of_health {n : Node} {since : Option Stamp} (h : n.health = .notReady since) :
    n.transition? = since := by
  have hne : n.health ≠ .ready := by
    rw [h]
    nofun
  exact NodeHealth.notReady.inj ((health_of_ne_ready hne).symm.trans h)

end Cluster.Node

/-- What the wait of a Node that is not ready is counted from: the transition that it reports, or else the first
sighting, or else now. -/
def unreadyStart (n : Cluster.Node) (seen : Option Stamp) (now : Stamp) : Stamp :=
  (n.transition? <|> seen).getD now

variable {n : Cluster.Node} {w d : Span} {seen : Option Stamp} {s now : Stamp}

theorem unreadyStart_of_some (h : (n.transition? <|> seen) = some s) (now : Stamp) :
    unreadyStart n seen now = s := by
  rw [unreadyStart, h, Option.getD_some]

/-- A Node that is not ready is judged by the time that is left. -/
theorem assessMember_unready (h : n.IsUnready) : assessMember (some n) (some w) seen now =
    if (remainingWait (unreadyStart n seen now) w now).isZero then .unhealthy
    else .recheck (remainingWait (unreadyStart n seen now) w now) := by
  simp only [assessMember, Option.filter, h.stays, Option.isNone_none, if_true,
    Cluster.Node.health_of_ne_ready h.unready]
  rfl

namespace MemberVerdict

theorem eq_unhealthy_iff (h : n.IsUnready) : assessMember (some n) (some w) seen now = .unhealthy ↔
    (w.nanos : Int) ≤ max (now.nanos - (unreadyStart n seen now).nanos) 0 := by
  have hleft := nanos_remainingWait (unreadyStart n seen now) now w
  rw [assessMember_unready h]
  split
  · next hzero =>
    have hzero := Span.isZero_iff.1 hzero
    exact iff_of_true rfl (by omega)
  · next hpos =>
    have hpos := mt Span.isZero_iff.2 hpos
    exact iff_of_false nofun (by omega)

theorem eq_recheck_iff (h : n.IsUnready) : assessMember (some n) (some w) seen now = .recheck d ↔
    0 < d.nanos ∧ (d.nanos : Int) = w.nanos - max (now.nanos - (unreadyStart n seen now).nanos) 0 := by
  have hleft := nanos_remainingWait (unreadyStart n seen now) now w
  rw [assessMember_unready h]
  split
  · next hzero =>
    have hzero := Span.isZero_iff.1 hzero
    exact iff_of_false nofun (by omega)
  · next hpos =>
    have hpos := mt Span.isZero_iff.2 hpos
    rw [recheck.injEq]
    constructor
    · rintro rfl
      omega
    · rintro ⟨-, hd⟩
      exact Span.eq_of_nanos (by omega)

/-- As long as a Node is not unhealthy, a part of its wait is left. -/
theorem exists_recheck (h : n.IsUnready) (hnot : assessMember (some n) (some w) seen now ≠ .unhealthy) :
    ∃ d, assessMember (some n) (some w) seen now = .recheck d ∧ .zero < d ∧ d ≤ w := by
  rw [assessMember_unready h] at hnot
  split at hnot
  · exact absurd rfl hnot
  · next hpos =>
    have hd : assessMember (some n) (some w) seen now =
        .recheck (remainingWait (unreadyStart n seen now) w now) :=
      (assessMember_unready h).trans (if_neg hpos)
    obtain ⟨hlt, hle⟩ := (eq_recheck_iff h).1 hd
    refine ⟨_, hd, hlt, ?_⟩
    show (remainingWait (unreadyStart n seen now) w now).nanos ≤ w.nanos
    omega

/-- Once the deadline is over, it stays so. -/
theorem unhealthy_later {later : Stamp} (h : n.IsUnready) (hs : (n.transition? <|> seen) = some s)
    (hle : now ≤ later) (hnow : assessMember (some n) (some w) seen now = .unhealthy) :
    assessMember (some n) (some w) seen later = .unhealthy := by
  have hnanos : now.nanos ≤ later.nanos := hle
  rw [eq_unhealthy_iff h, unreadyStart_of_some hs] at hnow ⊢
  omega

/-- From a time after the start on, the time that is left runs down to the deadline. -/
theorem runs_down (h : n.IsUnready) (hs : (n.transition? <|> seen) = some s) (hle : s ≤ now)
    (hnow : assessMember (some n) (some w) seen now = .recheck d) (e : Span) :
    (e < d → assessMember (some n) (some w) seen (now.later e) = .recheck (d.remaining e)) ∧
    (d ≤ e → assessMember (some n) (some w) seen (now.later e) = .unhealthy) := by
  have hstart : s.nanos ≤ now.nanos := hle
  have hlater : (now.later e).nanos = now.nanos + e.nanos := rfl
  have hrest : (d.remaining e).nanos = d.nanos - e.nanos := rfl
  rw [eq_recheck_iff h, unreadyStart_of_some hs] at hnow
  rw [eq_recheck_iff h, eq_unhealthy_iff h, unreadyStart_of_some hs]
  constructor
  · intro hlt
    have hlt : e.nanos < d.nanos := hlt
    omega
  · intro hge
    have hge : d.nanos ≤ e.nanos := hge
    omega

/-- A Node that stays but is not ready is unhealthy exactly from its deadline on; before that, the judgement gives
the time that is left, which runs down with the clock. A Node that is gone or going is lost, and one that is ready,
or may stay as it is without limit, is healthy. -/
theorem meets_deadline :
    (∀ (n : Cluster.Node) (w : Span) (seen : Option Stamp), n.IsUnready →
      (∀ now, (assessMember (some n) (some w) seen now = .unhealthy ↔
          w = .zero ∨ (w.nanos : Int) ≤ now.nanos - (unreadyStart n seen now).nanos) ∧
        (assessMember (some n) (some w) seen now ≠ .unhealthy →
          ∃ d, assessMember (some n) (some w) seen now = .recheck d ∧ .zero < d ∧ d ≤ w)) ∧
      (∀ s, (n.transition? <|> seen) = some s →
        (∀ now later, now ≤ later → assessMember (some n) (some w) seen now = .unhealthy →
          assessMember (some n) (some w) seen later = .unhealthy) ∧
        (∀ now d, s ≤ now → assessMember (some n) (some w) seen now = .recheck d → ∀ e : Span,
          (e < d → assessMember (some n) (some w) seen (now.later e) = .recheck (d.remaining e)) ∧
          (d ≤ e → assessMember (some n) (some w) seen (now.later e) = .unhealthy)))) ∧
    (∀ wait seen now, assessMember none wait seen now = .lost) ∧
    (∀ (n : Cluster.Node) wait seen now, n.metadata.deletionTimestamp ≠ none →
      assessMember (some n) wait seen now = .lost) ∧
    (∀ (n : Cluster.Node) wait seen now, n.metadata.deletionTimestamp = none → n.health = .ready ∨ wait = none →
      assessMember (some n) wait seen now = .healthy) := by
  refine ⟨fun n w seen h => ⟨fun now => ⟨?_, exists_recheck h⟩, fun s hs => ⟨fun now later => unhealthy_later h hs,
    fun now d => runs_down h hs⟩⟩, fun _ _ _ => rfl, fun n wait seen now hgoing => ?_,
    fun n wait seen now hstays hcase => ?_⟩
  · have hzero : w = .zero ↔ w.nanos = 0 := ⟨fun h => h ▸ rfl, fun h => Span.eq_of_nanos (by simp [h, Span.zero])⟩
    rw [eq_unhealthy_iff h, hzero]
    omega
  · cases htime : n.metadata.deletionTimestamp with
    | none => exact absurd htime hgoing
    | some t => simp [assessMember, Option.filter, htime]
  · rcases hcase with hready | rfl
    · simp [assessMember, Option.filter, hstays, hready]
    · cases hhealth : n.health <;> simp [assessMember, Option.filter, hstays, hhealth]

/-- A Node that became unready at noon may stay so for ten minutes; four minutes later, six are left. -/
theorem meets_deadline_tenMinutes :
    let noon : Stamp := ⟨43200 * 10 ^ 9⟩
    let n : Cluster.Node := { conditions := [⟨"Ready", "Unknown", some noon⟩] }
    n.IsUnready ∧ assessMember (some n) (some (.seconds 600)) none (noon.later (.seconds 240)) =
        .recheck (.seconds 360) ∧
      ∀ e : Span, .seconds 360 ≤ e → assessMember (some n) (some (.seconds 600)) none
        ((noon.later (.seconds 240)).later e) = .unhealthy := by
  intro noon n
  have hunready : n.IsUnready := ⟨rfl, by decide⟩
  have hnow : assessMember (some n) (some (.seconds 600)) none (noon.later (.seconds 240)) =
      .recheck (.seconds 360) := by decide
  have hafter : noon ≤ noon.later (.seconds 240) := by decide
  exact ⟨hunready, hnow, fun e he => (((meets_deadline.1 n (.seconds 600) none hunready).2 noon rfl).2
    _ _ hafter hnow e).2 he⟩

end MemberVerdict

end BareMetal
