import BareMetal.Instance.Requests
import BareMetal.Proofs.Json.Merge

/-!
# Editing finalizers beside others

A call that adds or removes our finalizer looks at the Instance and writes back its whole list, changed.
The write does not say which list it is made from, so the API server takes it whatever happened since.
What another client edits between the two requests is undone (`InstanceCall.keeps_others_iff`).
-/

namespace BareMetal

open Cluster (Api.get Api.patch Api.ifPresent)

variable {α : Type}

/-! ## Lists of finalizers -/

/-- What another client does to the finalizers of an object. -/
inductive FinalizerEdit
  | add (finalizer : String)
  | remove (finalizer : String)

namespace FinalizerEdit

/-- The finalizer that is added or removed. -/
def finalizer : FinalizerEdit → String
  | .add f | .remove f => f

/-- The list after the edit. -/
def apply : FinalizerEdit → List String → List String
  | .add f, fs => if f ∈ fs then fs else fs ++ [f]
  | .remove f, fs => fs.filter (· ≠ f)

variable {e : FinalizerEdit} {fs gs : List String} {f : String}

theorem mem_apply_of_ne (h : e.finalizer ≠ f) : f ∈ e.apply fs ↔ f ∈ fs := by
  cases e with
  | add g =>
    have hne : f ≠ g := Ne.symm h
    rw [apply]
    split
    · exact Iff.rfl
    · rw [List.mem_append, List.mem_singleton, or_iff_left hne]
  | remove g =>
    have hne : f ≠ g := Ne.symm h
    rw [apply, List.mem_filter]
    exact and_iff_left (by simpa using hne)

theorem mem_apply_iff_of_eq (h : e.finalizer = f) : f ∈ e.apply fs ↔ f ∈ e.apply gs := by
  subst h
  cases e with
  | add g =>
    have hmem (fs : List String) : g ∈ (add g).apply fs := by
      rw [apply]
      split
      · assumption
      · simp
    exact iff_of_true (hmem fs) (hmem gs)
  | remove g =>
    have hnot (fs : List String) : g ∉ (remove g).apply fs := by simp [apply]
    exact iff_of_false (hnot fs) (hnot gs)

end FinalizerEdit

/-- The finalizers after edits. -/
def edited (es : List FinalizerEdit) (fs : List String) : List String :=
  es.foldl (fun fs e => e.apply fs) fs

section Edited

variable {es es' : List FinalizerEdit} {fs gs : List String} {f : String}

theorem edited_append : edited (es ++ es') fs = edited es' (edited es fs) := List.foldl_append

theorem mem_edited_congr (h : f ∈ fs ↔ f ∈ gs) : f ∈ edited es fs ↔ f ∈ edited es gs := by
  induction es generalizing fs gs with
  | nil => exact h
  | cons e es ih =>
    refine ih ?_
    by_cases he : e.finalizer = f
    · exact FinalizerEdit.mem_apply_iff_of_eq he
    · rw [FinalizerEdit.mem_apply_of_ne he, FinalizerEdit.mem_apply_of_ne he, h]

/-- Edits of other finalizers leave a finalizer as it is. -/
theorem mem_edited_of_not_named (h : ∀ e ∈ es, e.finalizer ≠ f) : f ∈ edited es fs ↔ f ∈ fs := by
  induction es generalizing fs with
  | nil => exact Iff.rfl
  | cons e es ih =>
    obtain ⟨he, hes⟩ := List.forall_mem_cons.1 h
    exact (ih hes).trans (FinalizerEdit.mem_apply_of_ne he)

/-- Whether a finalizer that was edited is there does not depend on what was there before. -/
theorem mem_edited_of_named {e : FinalizerEdit} (he : e ∈ es) (hf : e.finalizer = f) :
    f ∈ edited es fs ↔ f ∈ edited es gs := by
  induction es generalizing fs gs with
  | nil => cases he
  | cons e' es ih =>
    show f ∈ edited es (e'.apply fs) ↔ f ∈ edited es (e'.apply gs)
    by_cases he' : e'.finalizer = f
    · exact mem_edited_congr (FinalizerEdit.mem_apply_iff_of_eq he')
    · rcases List.mem_cons.1 he with rfl | he
      · exact absurd hf he'
      · exact ih he

end Edited

/-! ## The stored Instance -/

/-- The finalizers of a stored object. -/
def Json.finalizers (o : Json) : List String :=
  ((((o.get? "metadata").bind (·.get? "finalizers")).bind Json.asItems?).getD []).filterMap Json.asText?

theorem Json.finalizers_mergePatch (o : Json) (fs : List String) :
    (o.mergePatch (Cluster.Metadata.finalizerPatch fs)).finalizers = fs := by
  have hmetadata (old : Json) :
      (old.mergePatch (.obj [("finalizers", .texts fs)])).get? "finalizers" = some (.texts fs) := by
    rw [Json.get?_mergePatch (by simp [Json.texts, Json.isPlain]), Json.get?_cons, Json.get?_nil]
    simp
  have hobject : ∃ old : Json, (o.mergePatch (Cluster.Metadata.finalizerPatch fs)).get? "metadata" =
      some (old.mergePatch (.obj [("finalizers", .texts fs)])) := by
    refine ⟨((o.membersOrNone.find? (·.1 = "metadata")).map (·.2)).getD .null, ?_⟩
    rw [Cluster.Metadata.finalizerPatch, Json.mergePatch, Json.mergeMembers, if_neg (by simp [Json.isNull]),
      Json.mergeMembers, Json.get?_putMember, if_pos rfl]
  obtain ⟨old, hold⟩ := hobject
  rw [Json.finalizers, hold, Option.bind_some, hmetadata, Option.bind_some]
  simp [Json.texts, Json.asItems?, Json.asText?, List.filterMap_map, Function.comp_def]

/-- The API server answers the request so, and the stored object turns from the first to the second. It
shows the finalizers that are stored, and merges a patch into what is stored. What it refuses it does not
do; if no answer arrives, it may have done it or not. -/
inductive Serves (o : Json) : Http.Request → Option Http.Response → Json → Prop
  | shown {r : Http.Request} {response : Http.Response} : r.method = .get → response.isRefusal = false →
    (∀ i, Json.decodeText Instance.form.decode response.body = .ok i →
      i.metadata.finalizers.getD [] = o.finalizers) → Serves o r (some response) o
  | merged {r : Http.Request} {change : Json} {answer : Option Http.Response} : r.method = .patch →
    r.body = some change → (∀ response ∈ answer, response.isRefusal = false) →
    Serves o r answer (o.mergePatch change)
  | undone {r : Http.Request} {answer : Option Http.Response} :
    (∀ response ∈ answer, response.isRefusal = true) → Serves o r answer o

/-- The requests are made one after the other on the stored object, which turns from the first to the
second. Before each of them, and after the last, another client edits the finalizers so. -/
inductive Interleaved : Http.Exchange α → Json → List (List FinalizerEdit) → Json → Prop
  | done {a : α} {o o' : Json} {es : List FinalizerEdit} :
    o'.finalizers = edited es o.finalizers → Interleaved (.done a) o [es] o'
  | call {r : Http.Request} {next : Option Http.Response → Http.Exchange α} {o o₁ o₂ o' : Json}
    {answer : Option Http.Response} {es : List FinalizerEdit} {gaps : List (List FinalizerEdit)} :
    o₁.finalizers = edited es o.finalizers → Serves o₁ r answer o₂ →
    Interleaved (next answer) o₂ gaps o' → Interleaved (.call r next) o (es :: gaps) o'

/-! ## Requests -/

namespace Cluster.Api

variable {d : Json.Decoder α} {path : String}

/-- What a request for an object ends in after its answer. -/
def outcome (d : Json.Decoder α) : Option Http.Response → Except ClusterFault α
  | none => .error (.unavailable "connection lost")
  | some r =>
    if r.isRefusal then .error (refusal r)
    else
      match Json.decodeText d r.body with
      | .ok a => .ok a
      | .error _ => .error (.unavailable "unreadable answer")

theorem outcome_eq_ok_iff {r : Http.Response} {a : α} :
    outcome d (some r) = .ok a ↔ r.isRefusal = false ∧ Json.decodeText d r.body = .ok a := by
  unfold outcome
  cases hrefusal : r.isRefusal with
  | true => simp [hrefusal]
  | false => cases hread : Json.decodeText d r.body <;> simp [hrefusal, hread]

theorem run_read_send (d : Json.Decoder α) (r : Http.Request) :
    (do read d (← send r) : Exchange α).run = .call r fun answer => .done (outcome d answer) := by
  simp only [send, ExceptT.run_bind, ExceptT.run_lift, map_eq_pure_bind, Program.perform, Program.call_bind,
    Program.done_bind, Program.pure_eq_done]
  refine congrArg (Program.call r) (funext fun answer => ?_)
  cases answer with
  | none => rfl
  | some response =>
    simp only [outcome]
    split
    · rfl
    · simp only [read]
      split <;> simp_all

/-- The result if the object need not exist. -/
def present : Except ClusterFault α → Except ClusterFault (Option α)
  | .ok a => .ok (some a)
  | .error (.rejected 404 _) => .ok none
  | .error f => .error f

theorem present_rejected {status : Nat} {message : String} (h : status ≠ 404) :
    present (.error (.rejected status message) : Except ClusterFault α) =
      .error (.rejected status message) := by
  unfold present
  split
  · next heq => cases heq
  · next heq =>
    cases heq
    exact absurd rfl h
  · next heq => cases heq; rfl

theorem run_ifPresent (x : Exchange α) : (ifPresent x).run = x.run >>= fun r => .done (present r) := by
  rw [ifPresent, ExceptT.run_tryCatch, ExceptT.run_map, map_eq_pure_bind, bind_assoc]
  congr 1
  funext r
  cases r with
  | ok => rfl
  | error f =>
    cases f with
    | unavailable => rfl
    | rejected status message =>
      by_cases h : status = 404
      · subst h
        rfl
      · simp [present_rejected h, h, Except.map]

end Cluster.Api

namespace InstanceCall

/-- The request that looks at an Instance. -/
def look (name : String) : Http.Request := { method := .get, target := { path := Instance.path name } }

/-- The request that writes the finalizers of an Instance. -/
def write (name : String) (fs : List String) : Http.Request where
  method := .patch
  target := (Http.Target.mk (Instance.path name) none).withParameters changeParameters
  headers := [("Content-Type", Cluster.Api.mergePatchType)]
  body := some (Cluster.Metadata.finalizerPatch fs)

/-- The exchange looks at the Instance, and then writes what the function makes of its finalizers. -/
def Edits (name : String) (rewrite : List String → Option (List String))
    (p : Http.Exchange (Except ClusterFault Unit)) : Prop :=
  ∃ failed : ClusterFault → Except ClusterFault Unit, p = .call (look name) fun answer =>
    match Cluster.Api.outcome Instance.form.decode answer with
    | .error f => .done (failed f)
    | .ok i =>
      match rewrite (i.metadata.finalizers.getD []) with
      | none => .done (.ok ())
      | some fs => .call (write name fs) fun answer =>
        .done ((Cluster.Api.outcome Instance.form.decode answer).map fun _ => ())

theorem run_writeFinalizers (name : String) (fs : List String) : (writeFinalizers name fs).run =
    .call (write name fs) fun answer =>
      .done ((Cluster.Api.outcome Instance.form.decode answer).map fun _ => ()) := by
  rw [writeFinalizers, ExceptT.run_bind, Cluster.Api.patch, Cluster.Api.run_read_send]
  refine congrArg (Program.call _) (funext fun answer => ?_)
  dsimp only
  cases Cluster.Api.outcome Instance.form.decode answer <;> rfl

/-- The list with our finalizer, if that is a change. -/
def withOurs (fs : List String) : Option (List String) :=
  if fs.contains Names.deprovision then none else some (fs ++ [Names.deprovision])

/-- The list without our finalizer. -/
def withoutOurs (fs : List String) : Option (List String) := some (fs.filter (· ≠ Names.deprovision))

theorem edits_addFinalizer (name : String) :
    Edits name withOurs (requests (.addFinalizer name)).run := by
  refine ⟨.error, ?_⟩
  rw [requests, ExceptT.run_bind, Cluster.Api.get, Cluster.Api.run_read_send]
  refine congrArg (Program.call _) (funext fun answer => ?_)
  dsimp only
  cases Cluster.Api.outcome Instance.form.decode answer with
  | error f => rfl
  | ok i =>
    show (match i.metadata.finalizersWith? Names.deprovision with
      | none => pure ()
      | some fs => writeFinalizers name fs : Cluster.Exchange Unit).run = _
    have hours : i.metadata.finalizersWith? Names.deprovision =
        withOurs (i.metadata.finalizers.getD []) := rfl
    rw [hours]
    dsimp only
    cases withOurs (i.metadata.finalizers.getD []) with
    | none => rfl
    | some fs => exact run_writeFinalizers name fs

theorem edits_removeFinalizer (name : String) :
    Edits name withoutOurs (requests (.removeFinalizer name)).run := by
  refine ⟨fun f => (Cluster.Api.present (.error f)).map fun _ : Option Unit => (), ?_⟩
  rw [requests, ExceptT.run_bind, Cluster.Api.run_ifPresent, Cluster.Api.get, Cluster.Api.run_read_send]
  refine congrArg (Program.call _) (funext fun answer => ?_)
  dsimp only
  cases Cluster.Api.outcome Instance.form.decode answer with
  | ok i => exact run_writeFinalizers name _
  | error f =>
    cases f with
    | unavailable => rfl
    | rejected status message =>
      by_cases h : status = 404
      · subst h
        rfl
      · show Program.bind (.done (Cluster.Api.present (.error (.rejected status message)))) _ = _
        rw [Cluster.Api.present_rejected h]
        dsimp only
        rw [Cluster.Api.present_rejected h]
        rfl

/-- A call of an Instance without a name makes no request. -/
theorem carryOut_cases (c : InstanceCall) : c.carryOut = c.requests ∨
    c.carryOut = throw (.unavailable "a name is required") := by
  unfold carryOut Cluster.Api.named
  split
  · exact .inr rfl
  · exact .inl rfl

/-! ## Beside another client -/

variable {name : String} {rewrite : List String → Option (List String)} {o o' : Json}
  {gaps : List (List FinalizerEdit)} {p : Http.Exchange (Except ClusterFault Unit)}

theorem interleaved_done {a : α} (h : Interleaved (.done a) o gaps o') :
    ∃ es, gaps = [es] ∧ o'.finalizers = edited es o.finalizers := by
  cases h with
  | done h => exact ⟨_, rfl, h⟩

/-- Looking changes nothing, and shows the finalizers. -/
theorem serves_look {answer : Option Http.Response} (h : Serves o (look name) answer o') :
    o' = o ∧ ∀ i, Cluster.Api.outcome Instance.form.decode answer = .ok i →
      i.metadata.finalizers.getD [] = o.finalizers := by
  cases h with
  | shown _ _ hshown => exact ⟨rfl, fun i hi => hshown i (Cluster.Api.outcome_eq_ok_iff.1 hi).2⟩
  | merged hpatch => cases hpatch
  | undone hrefused =>
    refine ⟨rfl, fun i hi => ?_⟩
    cases answer with
    | none => cases hi
    | some response =>
      have htaken := (Cluster.Api.outcome_eq_ok_iff.1 hi).1
      rw [hrefused response rfl] at htaken
      cases htaken

/-- The list that is written replaces the stored one, whatever it is, or nothing happens. -/
theorem serves_write {fs : List String} {answer : Option Http.Response}
    (h : Serves o (write name fs) answer o') : o'.finalizers = fs ∨ o'.finalizers = o.finalizers := by
  cases h with
  | shown hget => cases hget
  | merged _ hbody =>
    cases hbody
    exact .inl (Json.finalizers_mergePatch ..)
  | undone => exact .inr rfl

theorem interleaved_write {fs : List String} {next : Option Http.Response → α}
    (h : Interleaved (.call (write name fs) fun answer => .done (next answer)) o gaps o') :
    ∃ es es', gaps = [es, es'] ∧
      (o'.finalizers = edited es' fs ∨ o'.finalizers = edited es' (edited es o.finalizers)) := by
  cases h with
  | call hbefore hserves hrest =>
    obtain ⟨es', rfl, hafter⟩ := interleaved_done hrest
    rw [hafter]
    rcases serves_write hserves with hwritten | hkept
    · exact ⟨_, es', rfl, .inl (by rw [hwritten])⟩
    · exact ⟨_, es', rfl, .inr (by rw [hkept, hbefore])⟩

/-- Either nothing is written, or what was edited after the Instance was looked at is written over. -/
theorem Edits.interleaved (hp : Edits name rewrite p) (h : Interleaved p o gaps o') :
    o'.finalizers = edited gaps.flatten o.finalizers ∨
      ∃ before between after fs, gaps = [before, between, after] ∧
        rewrite (edited before o.finalizers) = some fs ∧ o'.finalizers = edited after fs := by
  obtain ⟨failed, rfl⟩ := hp
  cases h with
  | @call _ _ _ seen _ _ answer before gaps hbefore hserves hrest =>
    obtain ⟨hsame, hshown⟩ := serves_look hserves
    rw [hsame] at hrest
    -- without a write, both gaps are one
    have hlooked {es : List FinalizerEdit} (h : o'.finalizers = edited es seen.finalizers) :
        o'.finalizers = edited [before, es].flatten o.finalizers := by
      rw [h, hbefore, ← edited_append]
      simp
    dsimp only at hrest
    cases houtcome : Cluster.Api.outcome Instance.form.decode answer with
    | error f =>
      rw [houtcome] at hrest
      obtain ⟨es, rfl, hafter⟩ := interleaved_done hrest
      exact .inl (hlooked hafter)
    | ok i =>
      rw [houtcome] at hrest
      dsimp only at hrest
      rw [hshown i houtcome, hbefore] at hrest
      cases hrewrite : rewrite (edited before o.finalizers) with
      | none =>
        rw [hrewrite] at hrest
        obtain ⟨es, rfl, hafter⟩ := interleaved_done hrest
        exact .inl (hlooked hafter)
      | some fs =>
        rw [hrewrite] at hrest
        obtain ⟨between, after, rfl, hwritten | hkept⟩ := interleaved_write hrest
        · exact .inr ⟨before, between, after, fs, rfl, hrewrite, hwritten⟩
        · refine .inl ?_
          rw [hkept, hbefore, ← edited_append, ← edited_append]
          simp

/-- Of the finalizers other than ours those are there that the other client left. -/
def KeepsOthers (gaps : List (List FinalizerEdit)) (o o' : Json) : Prop :=
  ∀ f ≠ Names.deprovision, f ∈ o'.finalizers ↔ f ∈ edited gaps.flatten o.finalizers

/-- The first edits make no difference to finalizers other than ours that are not edited again. -/
def Harmless (es later : List FinalizerEdit) (fs : List String) : Prop :=
  ∀ f ≠ Names.deprovision, (∀ e ∈ later, e.finalizer ≠ f) → (f ∈ edited es fs ↔ f ∈ fs)

theorem keepsOthers_iff_harmless {before between after : List FinalizerEdit} {fs : List String}
    (hothers : ∀ f ≠ Names.deprovision, f ∈ fs ↔ f ∈ edited before o.finalizers)
    (h : o'.finalizers = edited after fs) :
    KeepsOthers [before, between, after] o o' ↔ Harmless between after (edited before o.finalizers) := by
  have hall : edited [before, between, after].flatten o.finalizers =
      edited after (edited between (edited before o.finalizers)) := by
    rw [← edited_append, ← edited_append]
    simp
  refine forall_congr' fun f => forall_congr' fun hf => ?_
  rw [hall, h, mem_edited_congr (hothers f hf)]
  by_cases hnamed : ∃ e ∈ after, e.finalizer = f
  · obtain ⟨e, he, hef⟩ := hnamed
    exact iff_of_true (mem_edited_of_named he hef) fun hnot => absurd hef (hnot e he)
  · have hnot : ∀ e ∈ after, e.finalizer ≠ f := fun e he hef => hnamed ⟨e, he, hef⟩
    rw [mem_edited_of_not_named hnot, mem_edited_of_not_named hnot]
    exact ⟨fun h _ => h.symm, fun h => (h hnot).symm⟩

theorem Edits.keepsOthers (hp : Edits name rewrite p)
    (hrewrite : ∀ fs gs, rewrite fs = some gs → ∀ f ≠ Names.deprovision, f ∈ gs ↔ f ∈ fs)
    (h : Interleaved p o gaps o') :
    o'.finalizers = edited gaps.flatten o.finalizers ∨
      ∃ before between after fs, gaps = [before, between, after] ∧
        rewrite (edited before o.finalizers) = some fs ∧ o'.finalizers = edited after fs ∧
        (KeepsOthers gaps o o' ↔ Harmless between after (edited before o.finalizers)) := by
  rcases hp.interleaved h with hkept | ⟨before, between, after, fs, rfl, hfs, hafter⟩
  · exact .inl hkept
  · exact .inr ⟨before, between, after, fs, rfl, hfs, hafter,
      keepsOthers_iff_harmless (hrewrite _ _ hfs) hafter⟩

theorem interleaved_carryOut {c : InstanceCall} (h : Interleaved c.carryOut.run o gaps o') :
    Interleaved c.requests.run o gaps o' ∨ o'.finalizers = edited gaps.flatten o.finalizers := by
  rcases c.carryOut_cases with hc | hc
  · exact .inl (hc ▸ h)
  · rw [hc] at h
    obtain ⟨es, rfl, hafter⟩ := interleaved_done h
    exact .inr (by simpa using hafter)

/-- A call that adds or removes our finalizer either writes nothing, or writes back the finalizers that it
saw, with or without ours. Then those of the other client are kept just if what it edits between the two
requests makes no difference to a finalizer that it does not edit again later. -/
theorem keeps_others_iff (name : String) (o o' : Json) (gaps : List (List FinalizerEdit)) :
    (Interleaved (carryOut (.addFinalizer name)).run o gaps o' →
      o'.finalizers = edited gaps.flatten o.finalizers ∨
        ∃ before between after fs, gaps = [before, between, after] ∧
          withOurs (edited before o.finalizers) = some fs ∧ o'.finalizers = edited after fs ∧
          (KeepsOthers gaps o o' ↔ Harmless between after (edited before o.finalizers))) ∧
    (Interleaved (carryOut (.removeFinalizer name)).run o gaps o' →
      o'.finalizers = edited gaps.flatten o.finalizers ∨
        ∃ before between after fs, gaps = [before, between, after] ∧
          withoutOurs (edited before o.finalizers) = some fs ∧ o'.finalizers = edited after fs ∧
          (KeepsOthers gaps o o' ↔ Harmless between after (edited before o.finalizers))) := by
  refine ⟨fun h => ?_, fun h => ?_⟩
  · rcases interleaved_carryOut h with h | hnone
    · refine (edits_addFinalizer name).keepsOthers (fun fs gs hgs f hf => ?_) h
      unfold withOurs at hgs
      split at hgs
      · cases hgs
      · cases hgs
        rw [List.mem_append, List.mem_singleton, or_iff_left hf]
    · exact .inl hnone
  · rcases interleaved_carryOut h with h | hnone
    · refine (edits_removeFinalizer name).keepsOthers (fun fs gs hgs f hf => ?_) h
      cases hgs
      rw [List.mem_filter]
      exact and_iff_left (by simpa using hf)
    · exact .inl hnone

/-- An Instance with our finalizer. -/
def guarded : Json :=
  .obj [("metadata", .obj [("finalizers", .texts [Names.deprovision])]),
    ("spec", .obj [("plan", .str "c3.small"), ("operatingSystem", .str "custom_ipxe")]), ("status", .null)]

theorem finalizers_guarded : guarded.finalizers = [Names.deprovision] := by
  decide

theorem decode_guarded : ∃ i, Json.decodeText Instance.form.decode guarded.compress = .ok i ∧
    i.metadata.finalizers.getD [] = guarded.finalizers := by
  have heval : ((Json.decodeText Instance.form.decode guarded.compress).toOption.any fun i =>
      i.metadata.finalizers.getD [] = guarded.finalizers) = true := by
    decide +kernel
  cases hread : Json.decodeText Instance.form.decode guarded.compress with
  | error => rw [hread] at heval; cases heval
  | ok i =>
    rw [hread] at heval
    exact ⟨i, rfl, by simpa [Except.toOption] using heval⟩

/-- Our finalizer is removed while another client edits the list between the two requests and after. -/
theorem interleaved_guarded (between after : List FinalizerEdit) : ∃ o',
    Interleaved (carryOut (.removeFinalizer "edge-a")).run guarded [[], between, after] o' ∧
      o'.finalizers = edited after [] := by
  obtain ⟨i, hread, hi⟩ := decode_guarded
  obtain ⟨failed, hp⟩ := edits_removeFinalizer "edge-a"
  have houtcome : Cluster.Api.outcome Instance.form.decode (some ⟨200, guarded.compress⟩) = .ok i :=
    Cluster.Api.outcome_eq_ok_iff.2 ⟨rfl, hread⟩
  have hlook : Serves guarded (look "edge-a") (some ⟨200, guarded.compress⟩) guarded :=
    .shown rfl rfl fun j hj => by
      rw [hread] at hj
      cases hj
      exact hi
  have hwithout : withoutOurs (i.metadata.finalizers.getD []) = some [] := by
    rw [hi, finalizers_guarded]
    rfl
  let edit (o : Json) (fs : List String) := o.mergePatch (Cluster.Metadata.finalizerPatch fs)
  let seen := edit guarded (edited between guarded.finalizers)
  -- the write is accepted as usual, and the answer shows what it left
  have hwrite : Serves seen (write "edge-a" []) (some ⟨200, (edit seen []).compress⟩) (edit seen []) :=
    .merged rfl rfl fun _ hresponse => by
      cases hresponse
      rfl
  refine ⟨edit guarded (edited after []), ?_, Json.finalizers_mergePatch ..⟩
  show Interleaved (requests (.removeFinalizer "edge-a")).run _ _ _
  rw [hp]
  refine .call rfl hlook ?_
  rw [houtcome]
  dsimp only
  rw [hwithout]
  refine .call (Json.finalizers_mergePatch ..) hwrite (.done ?_)
  rw [Json.finalizers_mergePatch, Json.finalizers_mergePatch]

/-- What the other client adds after the write stays. -/
theorem keeps_others_after : ∃ o' before between after fs,
    Interleaved (carryOut (.removeFinalizer "edge-a")).run guarded [[], [], [.add "guard"]] o' ∧
      [[], [], [FinalizerEdit.add "guard"]] = [before, between, after] ∧
      withoutOurs (edited before guarded.finalizers) = some fs ∧ o'.finalizers = edited after fs ∧
      KeepsOthers [[], [], [.add "guard"]] guarded o' := by
  obtain ⟨o', hrun, hafter⟩ := interleaved_guarded [] [.add "guard"]
  rcases (keeps_others_iff "edge-a" guarded o' _).2 hrun with hnone |
    ⟨before, between, after, fs, hgaps, hfs, hwritten, hkeeps⟩
  · -- ours is not there any more, so something was written
    rw [hafter, finalizers_guarded] at hnone
    exact absurd hnone (by decide)
  · refine ⟨o', before, between, after, fs, hrun, hgaps, hfs, hwritten, hkeeps.2 fun f _ _ => ?_⟩
    cases hgaps
    exact Iff.rfl

/-- What the other client adds between the two requests is lost. -/
theorem addition_lost : ∃ o',
    Interleaved (carryOut (.removeFinalizer "edge-a")).run guarded [[], [.add "guard"], []] o' ∧
      "guard" ∈ edited [[], [.add "guard"], []].flatten guarded.finalizers ∧ "guard" ∉ o'.finalizers := by
  obtain ⟨o', hrun, hafter⟩ := interleaved_guarded [.add "guard"] []
  refine ⟨o', hrun, ?_, ?_⟩
  · rw [finalizers_guarded]
    decide
  · rw [hafter]
    exact List.not_mem_nil

end InstanceCall

end BareMetal
