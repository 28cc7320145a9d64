import BareMetal.Device.Service

/-!
# Requests made step by step

`Program.Runs` says which calls a program can make, with which answers, and what it ends in. Where a row of
requests and checks is known beforehand, a provisioning that takes them one after the other
(`Provisioning.take`) stops at the first that fails, and makes no other requests (`Provisioning.runs_take_iff`).
-/

namespace BareMetal

variable {C : Type} {R : C → Type} {α β : Type}

/-! ## Runs of programs -/

namespace Program

/-- The program can make these calls, with these answers, and end in the result. -/
inductive Runs : Program C R α → List (Sigma R) → α → Prop
  | done (a : α) : Runs (.done a) [] a
  | call {c : C} {next : R c → Program C R α} {h : List (Sigma R)} {a : α} (r : R c) :
    Runs (next r) h a → Runs (.call c next) (⟨c, r⟩ :: h) a

variable {h : List (Sigma R)}

theorem runs_done_iff {a b : α} : (Program.done a : Program C R α).Runs h b ↔ h = [] ∧ b = a := by
  constructor
  · rintro ⟨⟩
    exact ⟨rfl, rfl⟩
  · rintro ⟨rfl, rfl⟩
    exact .done b

theorem runs_call_iff {c : C} {next : R c → Program C R α} {a : α} :
    (Program.call c next).Runs h a ↔ ∃ r h', h = ⟨c, r⟩ :: h' ∧ (next r).Runs h' a := by
  constructor
  · rintro ⟨⟩
    exact ⟨_, _, rfl, ‹_›⟩
  · rintro ⟨r, h', rfl, hnext⟩
    exact .call r hnext

end Program

/-! ## Steps -/

namespace Provisioning

/-- Steps of a provisioning in their order: requests, and failures of checks. -/
abbrev Steps := List (Except DeviceFailure DeviceRequest)

/-- The requests that were made, with their answers. -/
abbrev History := List (Sigma DeviceRequest.Answer)

/-- The request was carried out. -/
def Succeeded (e : Sigma DeviceRequest.Answer) : Prop := ∃ a, e.2 = .ok a

/-- The steps of requests that are in a history. -/
def made (h : History) : Steps := h.map fun e => .ok e.1

/-- The steps were taken up to the first that failed, and ended so: either all of them are requests that
were carried out, or after some that were carried out comes a check that fails, or a request that failed. -/
def Taken (steps : Steps) (h : History) : Except DeviceFailure Unit → Prop
  | .ok _ => steps = made h ∧ ∀ e ∈ h, Succeeded e
  | .error f => ∃ before rest, (∀ e ∈ before, Succeeded e) ∧
      (h = before ∧ steps = made before ++ .error f :: rest ∨
        ∃ r, h = before ++ [⟨r, .error f⟩] ∧ steps = made before ++ .ok r :: rest)

variable {steps : Steps} {h : History} {result : Except DeviceFailure Unit} {f : DeviceFailure} {r : DeviceRequest}

theorem exists_ok {a : r.Answer} (h : Succeeded ⟨r, a⟩) : ∃ x, a = .ok x := h

theorem taken_nil_iff : Taken [] h result ↔ h = [] ∧ result = .ok () := by
  cases result with
  | ok =>
    constructor
    · rintro ⟨hmade, -⟩
      exact ⟨List.map_eq_nil_iff.1 hmade.symm, rfl⟩
    · rintro ⟨rfl, -⟩
      exact ⟨rfl, List.forall_mem_nil _⟩
  | error f =>
    refine iff_of_false ?_ nofun
    rintro ⟨before, rest, -, ⟨-, hnil⟩ | ⟨r, -, hnil⟩⟩
    · simp at hnil
    · simp at hnil

theorem taken_error_iff : Taken (.error f :: steps) h result ↔ h = [] ∧ result = .error f := by
  cases result with
  | ok =>
    refine iff_of_false ?_ nofun
    rintro ⟨hmade, -⟩
    cases h <;> simp [made] at hmade
  | error g =>
    constructor
    · rintro ⟨before, rest, -, hend⟩
      cases before with
      | nil =>
        rcases hend with ⟨rfl, heq⟩ | ⟨r, -, heq⟩
        · obtain ⟨hfg, -⟩ := List.cons.inj heq
          cases hfg
          exact ⟨rfl, rfl⟩
        · simp [made] at heq
      | cons e before => rcases hend with ⟨-, heq⟩ | ⟨r, -, heq⟩ <;> simp [made] at heq
    · rintro ⟨rfl, hg⟩
      cases hg
      exact ⟨[], steps, List.forall_mem_nil _, .inl ⟨rfl, rfl⟩⟩

/-- A request that is carried out comes before what follows it. -/
theorem Taken.cons (ht : Taken steps h result) (a : r.Result) :
    Taken (.ok r :: steps) (⟨r, .ok a⟩ :: h) result := by
  cases result with
  | ok => exact ⟨congrArg _ ht.1, List.forall_mem_cons.2 ⟨⟨a, rfl⟩, ht.2⟩⟩
  | error f =>
    obtain ⟨before, rest, hall, hend⟩ := ht
    refine ⟨⟨r, .ok a⟩ :: before, rest, List.forall_mem_cons.2 ⟨⟨a, rfl⟩, hall⟩, ?_⟩
    rcases hend with ⟨rfl, rfl⟩ | ⟨r', rfl, rfl⟩
    · exact .inl ⟨rfl, rfl⟩
    · exact .inr ⟨r', rfl, rfl⟩

/-- Where a request comes first, it failed and was the only one, or it was carried out and the other steps
were taken. -/
theorem Taken.cases (ht : Taken (.ok r :: steps) h result) : (∃ f, h = [⟨r, .error f⟩] ∧ result = .error f) ∨
    ∃ a h', h = ⟨r, .ok a⟩ :: h' ∧ Taken steps h' result := by
  cases result with
  | ok =>
    obtain ⟨hmade, hall⟩ := ht
    cases h with
    | nil => simp [made] at hmade
    | cons e h =>
      obtain ⟨c, x⟩ := e
      obtain ⟨hfirst, htail⟩ := List.forall_mem_cons.1 hall
      obtain ⟨a, rfl⟩ := exists_ok hfirst
      obtain ⟨hr, hsteps⟩ := List.cons.inj hmade
      cases hr
      exact .inr ⟨a, h, rfl, hsteps, htail⟩
  | error f =>
    obtain ⟨before, rest, hall, hend⟩ := ht
    cases before with
    | nil =>
      rcases hend with ⟨-, heq⟩ | ⟨c, rfl, heq⟩
      · simp [made] at heq
      · obtain ⟨hr, -⟩ := List.cons.inj heq
        cases hr
        exact .inl ⟨f, rfl, rfl⟩
    | cons e before =>
      obtain ⟨c, x⟩ := e
      obtain ⟨hfirst, htail⟩ := List.forall_mem_cons.1 hall
      obtain ⟨a, rfl⟩ := exists_ok hfirst
      rcases hend with ⟨rfl, heq⟩ | ⟨c', rfl, heq⟩
      · obtain ⟨hr, hsteps⟩ := List.cons.inj heq
        cases hr
        exact .inr ⟨a, before, rfl, before, rest, htail, .inl ⟨rfl, hsteps⟩⟩
      · obtain ⟨hr, hsteps⟩ := List.cons.inj heq
        cases hr
        exact .inr ⟨a, _, rfl, before, rest, htail, .inr ⟨c', rfl, hsteps⟩⟩

theorem taken_request_iff : Taken (.ok r :: steps) h result ↔
    (∃ f, h = [⟨r, .error f⟩] ∧ result = .error f) ∨
      ∃ a h', h = ⟨r, .ok a⟩ :: h' ∧ Taken steps h' result := by
  refine ⟨Taken.cases, ?_⟩
  rintro (⟨f, rfl, rfl⟩ | ⟨a, h', rfl, ht⟩)
  · exact ⟨[], steps, List.forall_mem_nil _, .inr ⟨r, rfl, rfl⟩⟩
  · exact ht.cons a

/-- Takes steps up to the first that fails. -/
def take : Steps → Provisioning Unit
  | [] => pure ()
  | .error f :: _ => throw f
  | .ok r :: steps => do
    let _ ← request r
    take steps

theorem run_request_bind {γ : Type} (r : DeviceRequest) (k : r.Result → Provisioning γ) :
    (request r >>= k).run = .call r fun a => match a with
      | .ok a => (k a).run
      | .error f => .done (.error f) := by
  refine congrArg (Program.call r) (funext fun a => ?_)
  cases a <;> rfl

theorem runs_take_iff : (take steps).run.Runs h result ↔ Taken steps h result := by
  induction steps generalizing h with
  | nil => exact Program.runs_done_iff.trans taken_nil_iff.symm
  | cons s steps ih =>
    cases s with
    | error f => exact Program.runs_done_iff.trans taken_error_iff.symm
    | ok r =>
      rw [take, run_request_bind, Program.runs_call_iff, taken_request_iff]
      constructor
      · rintro ⟨a, h', rfl, hruns⟩
        cases a with
        | ok a => exact .inr ⟨a, h', rfl, ih.1 hruns⟩
        | error f =>
          obtain ⟨rfl, rfl⟩ := Program.runs_done_iff.1 hruns
          exact .inl ⟨f, rfl, rfl⟩
      · rintro (⟨f, rfl, rfl⟩ | ⟨a, h', rfl, htaken⟩)
        · exact ⟨.error f, [], rfl, Program.runs_done_iff.2 ⟨rfl, rfl⟩⟩
        · exact ⟨.ok a, h', rfl, ih.2 htaken⟩

theorem take_append (steps steps' : Steps) : take (steps ++ steps') = take steps >>= fun _ => take steps' := by
  induction steps with
  | nil => exact (pure_bind () fun _ => take steps').symm
  | cons s steps ih =>
    cases s with
    | error f => rfl
    | ok r => simp only [List.cons_append, take, ih, bind_assoc]

theorem ok_mem_made {e : Sigma DeviceRequest.Answer} (he : e ∈ h) : .ok e.1 ∈ made h :=
  List.mem_map_of_mem (f := fun e => Except.ok e.1) he

theorem error_not_mem_made : .error f ∉ made h := by
  intro hmem
  obtain ⟨e, -, he⟩ := List.mem_map.1 hmem
  cases he

/-- Only steps are requested. -/
theorem Taken.mem (ht : Taken steps h result) {e : Sigma DeviceRequest.Answer} (he : e ∈ h) : .ok e.1 ∈ steps := by
  cases result with
  | ok => exact ht.1 ▸ ok_mem_made he
  | error f =>
    obtain ⟨before, rest, -, ⟨rfl, rfl⟩ | ⟨r, rfl, rfl⟩⟩ := ht
    · exact List.mem_append_left _ (ok_mem_made he)
    · rcases List.mem_append.1 he with he | he
      · exact List.mem_append_left _ (ok_mem_made he)
      · obtain rfl := List.mem_singleton.1 he
        exact List.mem_append_right _ List.mem_cons_self

end Provisioning

end BareMetal
