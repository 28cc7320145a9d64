import BareMetal.Instance.Pass
import BareMetal.Proofs.Told

/-!
# Visits

A visit is a pass over an Instance with all that it meets: the settings, what is remembered, and an
answer for every step. As no pass takes a step twice, every combination of answers is met in some
visit.
-/

namespace BareMetal

/-! ## Steps -/

namespace InstancePass

variable {answer : (t : InstanceStep) → t.Answer} {m : InstanceMemory}

@[simp] theorem told_check {α : Type} {r : Except Failure α} : told answer (check r) m = ⟨r, m, []⟩ := rfl

-- for `simp`, the result of a call is not looked at before the call is known
@[simp] theorem told_cluster {c : InstanceCall} :
    @told _ _ _ (no_index c.Result) answer (cluster c) m = ⟨answer (.cluster c), m, [.cluster c]⟩ := rfl

@[simp] theorem told_device {c : DeviceCall} :
    @told _ _ _ (no_index c.Result) answer (device c) m = ⟨answer (.device c), m, [.device c]⟩ := rfl

@[simp] theorem told_announce {e : Event} : told answer (announce e) m = ⟨.ok (), m, [.announce e]⟩ := rfl

@[simp] theorem told_clock : told answer clock m = ⟨.ok (answer .clock), m, [.clock]⟩ := rfl

@[simp] theorem told_memory : told answer memory m = ⟨.ok m, m, []⟩ := rfl

@[simp] theorem told_remember {f : InstanceMemory → InstanceMemory} :
    told answer (remember f) m = ⟨.ok (), f m, []⟩ := rfl

end InstancePass

/-! ## Visits -/

/-- A pass over an Instance with all that it meets. -/
structure Visit where
  settings : Settings
  object : Instance
  memory : InstanceMemory
  answer : (t : InstanceStep) → t.Answer

namespace Visit

/-- What becomes of the visit. -/
def told (v : Visit) : Told InstanceMemory InstanceStep Followup :=
  BareMetal.told v.answer (v.object.reconcile v.settings) v.memory

/-- What becomes of it before failures are treated. -/
def advance (v : Visit) : Told InstanceMemory InstanceStep Followup :=
  BareMetal.told v.answer (v.object.advance v.settings) v.memory

/-- The name of the Instance, under which the pass remembers it. -/
def name (v : Visit) : String := v.object.name

variable {v : Visit}

/-- Success ends the streak of failures. -/
theorem told_of_ok {next : Followup} (h : v.advance.result = .ok next) : v.told =
    { v.advance with memory.backoff := v.advance.memory.backoff.reset v.name } := by
  have hadvance : BareMetal.told v.answer (v.object.advance v.settings) v.memory = v.advance := rfl
  unfold told Instance.reconcile
  rw [told_bind, told_attempt, hadvance, Told.andThen_ok, h]
  simp [name, h]

/-- A failure is announced if somebody has to change something. -/
theorem told_of_error {f : Failure} (h : v.advance.result = .error f) : v.told =
    { v.advance with calls := v.advance.calls ++ ((Instance.failureEvent? f).map .announce).toList } := by
  have hadvance : BareMetal.told v.answer (v.object.advance v.settings) v.memory = v.advance := rfl
  unfold told Instance.reconcile
  rw [told_bind, told_attempt, hadvance, Told.andThen_ok, h]
  cases hevent : Instance.failureEvent? f <;> simp [hevent, h, told_throw]

theorem result_told : v.told.result = v.advance.result := by
  cases h : v.advance.result with
  | ok => rw [told_of_ok h, h]
  | error => rw [told_of_error h, h]

theorem unready_told : v.told.memory.unready = v.advance.memory.unready := by
  cases h : v.advance.result with
  | ok => rw [told_of_ok h]
  | error => rw [told_of_error h]

theorem calls_told : ∃ es : List Event, v.told.calls = v.advance.calls ++ es.map .announce := by
  cases h : v.advance.result with
  | ok => exact ⟨[], by simp [told_of_ok h]⟩
  | error f =>
    refine ⟨(Instance.failureEvent? f).toList, ?_⟩
    rw [told_of_error h]
    cases Instance.failureEvent? f <;> rfl

end Visit

end BareMetal
