import BareMetal.Proofs.Instance.Visit

/-!
# Removal

What a visit asks for when the Instance is being deleted. It goes through fixed steps in order, up to the
first that fails: the device is given back, then the Node, then the finalizer
(`Visit.orderly_of_deleting`).
-/

namespace BareMetal

/-! ## Steps in order -/

namespace InstanceStep

/-- The failure that an answer to the step reports. -/
def failure? : (t : InstanceStep) → t.Answer → Option Failure
  | .cluster _, .error f | .device _, .error f => some f
  | .cluster _, .ok _ | .device _, .ok _ | .announce _, _ | .clock, _ => none

/-- The step asks for something to be done or told. -/
def asks : InstanceStep → Bool
  | .cluster _ | .device _ => true
  | .announce _ | .clock => false

end InstanceStep

/-- The steps that are taken if some are to be taken in order up to the first that fails, and what that
ends in. -/
def inOrder (answer : (t : InstanceStep) → t.Answer) : List InstanceStep →
    List InstanceStep × Except Failure Followup
  | [] => ([], .ok .onChange)
  | t :: ts =>
    match t.failure? (answer t) with
    | some f => ([t], .error f)
    | none => (t :: (inOrder answer ts).1, (inOrder answer ts).2)

/-- What a pass asks for, and what it ends in. -/
def Told.asked (t : Told InstanceMemory InstanceStep Followup) :
    List InstanceStep × Except Failure Followup :=
  (t.calls.filter (·.asks), t.result)

section InOrder

variable {answer : (t : InstanceStep) → t.Answer} {m : InstanceMemory} {k : InstancePass Followup}
  {ts : List InstanceStep}

theorem asked_cluster {c : InstanceCall} (hk : ∀ m, (told answer k m).asked = inOrder answer ts) :
    (told answer (InstancePass.cluster c >>= fun _ => k) m).asked = inOrder answer (.cluster c :: ts) := by
  have hk := hk m
  cases hanswer : answer (.cluster c) <;>
    simp_all [Told.asked, inOrder, InstanceStep.failure?, InstanceStep.asks, Prod.ext_iff]

theorem asked_device {c : DeviceCall} (hk : ∀ m, (told answer k m).asked = inOrder answer ts) :
    (told answer (InstancePass.device c >>= fun _ => k) m).asked = inOrder answer (.device c :: ts) := by
  have hk := hk m
  cases hanswer : answer (.device c) <;>
    simp_all [Told.asked, inOrder, InstanceStep.failure?, InstanceStep.asks, Prod.ext_iff]

theorem asked_remember {f : InstanceMemory → InstanceMemory} :
    (told answer (InstancePass.remember f >>= fun _ => k) m).asked = (told answer k (f m)).asked := by
  simp [Told.asked]

theorem asked_check {α : Type} {r : Except Failure α} {k : α → InstancePass Followup} :
    (told answer (InstancePass.check r >>= k) m).asked = match r with
      | .ok a => (told answer (k a) m).asked
      | .error f => ([], .error f) := by
  cases r <;> simp [Told.asked]

theorem asked_announce {e : Event} :
    (told answer (InstancePass.announce e >>= fun _ => k) m).asked = (told answer k m).asked := by
  simp [Told.asked, InstanceStep.asks]

end InOrder

section Order

variable {answer : (t : InstanceStep) → t.Answer} {ts us : List InstanceStep} {t : InstanceStep}

theorem inOrder_prefix : (inOrder answer ts).1 <+: ts := by
  induction ts with
  | nil => exact List.prefix_rfl
  | cons t ts ih =>
    unfold inOrder
    split
    · exact ⟨ts, rfl⟩
    · exact (List.prefix_cons_inj t).2 ih

/-- A step that fails is the last one, and its failure is the result. -/
theorem inOrder_of_failure {f : Failure} (hts : ∀ u ∈ ts, u.failure? (answer u) = none)
    (ht : t.failure? (answer t) = some f) : inOrder answer (ts ++ t :: us) = (ts ++ [t], .error f) := by
  induction ts with
  | nil => simp [inOrder, ht]
  | cons u ts ih =>
    obtain ⟨hu, hts⟩ := List.forall_mem_cons.1 hts
    simp [inOrder, hu, ih hts]

/-- A step is only taken after all those before it have succeeded. -/
theorem succeeded_of_mem_inOrder (hnew : t ∉ ts) (h : t ∈ (inOrder answer (ts ++ t :: us)).1) :
    ∀ u ∈ ts, u.failure? (answer u) = none := by
  induction ts with
  | nil => simp
  | cons u ts ih =>
    have hne : t ≠ u := fun he => hnew (he ▸ List.mem_cons_self)
    rw [List.cons_append, inOrder] at h
    cases hu : u.failure? (answer u) with
    | some f =>
      rw [hu] at h
      exact absurd (List.mem_singleton.1 h) hne
    | none =>
      rw [hu] at h
      have hts := ih (fun hm => hnew (List.mem_cons_of_mem _ hm)) ((List.mem_cons.1 h).resolve_left hne)
      exact List.forall_mem_cons.2 ⟨hu, hts⟩

theorem inOrder_of_succeeded (hts : ∀ u ∈ ts, u.failure? (answer u) = none) :
    inOrder answer ts = (ts, .ok .onChange) := by
  induction ts with
  | nil => rfl
  | cons u ts ih =>
    obtain ⟨hu, hts⟩ := List.forall_mem_cons.1 hts
    simp [inOrder, hu, ih hts]

theorem inOrder_concat_of_succeeded (hts : ∀ u ∈ ts, u.failure? (answer u) = none) :
    (inOrder answer (ts ++ [t])).1 = ts ++ [t] := by
  induction ts with
  | nil => cases h : t.failure? (answer t) <;> simp [inOrder, h]
  | cons u ts ih =>
    obtain ⟨hu, hts⟩ := List.forall_mem_cons.1 hts
    simp [inOrder, hu, ih hts]

end Order

namespace Instance

/-- The steps that give the device back, if one is recorded; without credentials they cannot be taken. -/
def deprovisioning (i : Instance) : Except Failure (List InstanceStep) :=
  match i.deviceId? with
  | none => .ok []
  | some id => (Credentials.ofInstance i).map fun c => [.device (.delete c id)]

/-- The steps that give the Node and then the finalizer back. -/
def releasing (i : Instance) : List InstanceStep :=
  [.cluster (.deleteNode i.name), .cluster (.removeFinalizer i.name)]

/-- What a visit to an Instance that is being deleted asks for, and what it ends in. -/
def removal (i : Instance) (answer : (t : InstanceStep) → t.Answer) :
    List InstanceStep × Except Failure Followup :=
  if i.metadata.hasFinalizer Names.deprovision then
    match i.deprovisioning with
    | .error f => ([], .error f)
    | .ok ts => inOrder answer (ts ++ i.releasing)
  else ([], .ok .onChange)

variable {i : Instance} {answer : (t : InstanceStep) → t.Answer} {m : InstanceMemory}
  {ts : List InstanceStep}

theorem removal_of_ok (hfinalizer : i.metadata.hasFinalizer Names.deprovision = true)
    (hts : i.deprovisioning = .ok ts) : i.removal answer = inOrder answer (ts ++ i.releasing) := by
  rw [removal, if_pos hfinalizer, hts]

theorem removal_of_error {f : Failure} (hfinalizer : i.metadata.hasFinalizer Names.deprovision = true)
    (hf : i.deprovisioning = .error f) : i.removal answer = ([], .error f) := by
  rw [removal, if_pos hfinalizer, hf]

theorem asked_releasing : (told answer (do
      InstancePass.cluster (.deleteNode i.name)
      InstancePass.cluster (.removeFinalizer i.name)
      return Followup.onChange) m).asked = inOrder answer i.releasing :=
  asked_cluster fun _ => asked_cluster fun _ => rfl

theorem asked_remove : (told answer i.remove m).asked = i.removal answer := by
  unfold remove removal deprovisioning
  rw [asked_remember]
  cases hfinalizer : i.metadata.hasFinalizer Names.deprovision with
  | false => rfl
  | true =>
    cases hid : i.deviceId? with
    | none => exact asked_releasing
    | some id =>
      refine asked_check.trans ?_
      cases hcredentials : Credentials.ofInstance i with
      | error f => rfl
      | ok c => exact asked_device fun _ => asked_announce.trans asked_releasing

theorem device_of_mem_deprovisioning (hts : i.deprovisioning = .ok ts) {t : InstanceStep}
    (ht : t ∈ ts) : ∃ c, t = .device c := by
  unfold deprovisioning at hts
  cases hid : i.deviceId? with
  | none =>
    rw [hid] at hts
    cases hts
    cases ht
  | some id =>
    cases hcredentials : Credentials.ofInstance i with
    | error f =>
      rw [hid, hcredentials] at hts
      cases hts
    | ok c =>
      rw [hid, hcredentials] at hts
      cases hts
      exact ⟨_, List.mem_singleton.1 ht⟩

theorem removal_complete {n : String} (h : .cluster (.removeFinalizer n) ∈ (i.removal answer).1) :
    n = i.name ∧ ∃ ts, i.deprovisioning = .ok ts ∧ (i.removal answer).1 = ts ++ i.releasing ∧
      ∀ t ∈ ts ++ [.cluster (.deleteNode i.name)], t.failure? (answer t) = none := by
  cases hfinalizer : i.metadata.hasFinalizer Names.deprovision with
  | false => simp [removal, hfinalizer] at h
  | true =>
    cases hts : i.deprovisioning with
    | error f =>
      rw [removal_of_error hfinalizer hts] at h
      cases h
    | ok ts =>
      rw [removal_of_ok hfinalizer hts] at h ⊢
      -- the step to be taken last is not among those that give the device back
      have hnew : .cluster (.removeFinalizer n) ∉ ts := fun hm => by
        obtain ⟨c, hc⟩ := device_of_mem_deprovisioning hts hm
        cases hc
      have hn : n = i.name := by
        simpa [releasing, hnew] using inOrder_prefix.subset h
      subst hn
      have hsplit : ts ++ i.releasing =
          (ts ++ [.cluster (.deleteNode i.name)]) ++ [.cluster (.removeFinalizer i.name)] := by
        simp [releasing]
      rw [hsplit] at h ⊢
      have hdone := succeeded_of_mem_inOrder (by simpa using hnew) h
      exact ⟨rfl, ts, rfl, (inOrder_concat_of_succeeded hdone).trans hsplit.symm, hdone⟩

end Instance

namespace Visit

variable {v : Visit}

/-- What the pass of the visit asks for, and what it ends in. -/
def asked (v : Visit) : List InstanceStep × Except Failure Followup := v.told.asked

theorem asked_eq : v.asked = v.advance.asked := by
  -- the announcements after a failure ask for nothing
  obtain ⟨es, hcalls⟩ := v.calls_told
  have hquiet : (es.map InstanceStep.announce).filter (·.asks) = [] := by
    simp [List.filter_map, InstanceStep.asks]
  simp [asked, Told.asked, hcalls, result_told, List.filter_append, hquiet]

/-- A visit to an Instance that is being deleted takes the steps of its removal in order, up to the
first that fails. -/
theorem asked_of_deleting (h : v.object.isDeleting = true) : v.asked = v.object.removal v.answer := by
  have hadvance : v.advance = BareMetal.told v.answer v.object.remove v.memory := by
    unfold advance Instance.advance
    rw [if_pos h]
  rw [asked_eq, hadvance, Instance.asked_remove]

/-- The visit takes the finalizer away after it has given the device, if one is recorded, and the Node
back. -/
structure Completes (v : Visit) : Prop where
  deleting : v.object.isDeleting = true
  order : ∃ ts, v.object.deprovisioning = .ok ts ∧
    v.told.calls.filter (·.asks) = ts ++ v.object.releasing ∧
    ∀ t ∈ ts ++ [.cluster (.deleteNode v.object.name)], t.failure? (v.answer t) = none

/-- What a visit asks of an Instance that is being deleted comes in order, and ends with a failure or
with the last step. -/
structure Orderly (v : Visit) : Prop where
  /-- The finalizer goes last, when all the rest is done. -/
  last : ∀ n, .cluster (.removeFinalizer n) ∈ v.told.calls → n = v.object.name ∧ v.Completes
  /-- Without credentials for a recorded device, nothing is asked for. -/
  credentials : ∀ f, v.object.metadata.hasFinalizer Names.deprovision = true →
    v.object.deprovisioning = .error f → v.told.calls.filter (·.asks) = [] ∧ v.told.result = .error f
  /-- A step that fails is the last one, and its failure is the result. -/
  failure : ∀ ts us vs t f, v.object.metadata.hasFinalizer Names.deprovision = true →
    v.object.deprovisioning = .ok ts → ts ++ v.object.releasing = us ++ t :: vs →
    (∀ u ∈ us, u.failure? (v.answer u) = none) → t.failure? (v.answer t) = some f →
      v.told.calls.filter (·.asks) = us ++ [t] ∧ v.told.result = .error f
  /-- When no step fails, all are taken. -/
  success : ∀ ts, v.object.metadata.hasFinalizer Names.deprovision = true →
    v.object.deprovisioning = .ok ts →
    (∀ t ∈ ts ++ v.object.releasing, t.failure? (v.answer t) = none) →
      v.told.calls.filter (·.asks) = ts ++ v.object.releasing ∧ v.told.result = .ok .onChange

theorem completes_of_deleting {n : String} (h : v.object.isDeleting = true)
    (hn : .cluster (.removeFinalizer n) ∈ v.told.calls) : n = v.object.name ∧ v.Completes := by
  have hmem : .cluster (.removeFinalizer n) ∈ v.asked.1 := List.mem_filter.2 ⟨hn, rfl⟩
  have hcalls : v.asked.1 = v.told.calls.filter (·.asks) := rfl
  rw [asked_of_deleting h] at hmem hcalls
  obtain ⟨hname, ts, hts, hall, hdone⟩ := Instance.removal_complete hmem
  exact ⟨hname, h, ts, hts, hcalls ▸ hall, hdone⟩

theorem orderly_of_deleting (h : v.object.isDeleting = true) : v.Orderly := by
  have hasked := asked_of_deleting h
  refine ⟨fun n hn => completes_of_deleting h hn, fun f hfinalizer hf => ?_,
    fun ts us vs t f hfinalizer hts hsplit hus ht => ?_, fun ts hfinalizer hts hall => ?_⟩
  · rw [Instance.removal_of_error hfinalizer hf] at hasked
    exact Prod.ext_iff.1 hasked
  · rw [Instance.removal_of_ok hfinalizer hts, hsplit, inOrder_of_failure hus ht] at hasked
    exact Prod.ext_iff.1 hasked
  · rw [Instance.removal_of_ok hfinalizer hts, inOrder_of_succeeded hall] at hasked
    exact Prod.ext_iff.1 hasked

end Visit

end BareMetal
