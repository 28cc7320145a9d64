import BareMetal.Instance.Requests
import BareMetal.Proofs.Told

/-!
# Deleting a device

When the deletion of a device counts as done. It is one request, and it is done if the service carried
it out or does not know the device; no other answer, and no lost one, will do
(`DeviceCall.told_delete`).
-/

namespace BareMetal

/-! ## Requests -/

namespace ServiceAccess

variable {a : ServiceAccess} {method : Http.Method} {path : String} {parameters : List (String × String)}
  {body : Option Json} {request : Http.Request}

theorem run_send_of_none (h : a.request? method path parameters body = none) :
    (a.send method path parameters body).run = .done (.error (.transport "invalid request")) := by
  unfold send
  rw [h]
  rfl

theorem run_send_of_some (h : a.request? method path parameters body = some request) :
    (a.send method path parameters body).run = .call request fun answer => .done (match answer with
      | none => .error (.transport "connection lost")
      | some r => if r.isSuccess then .ok r.body else .error (.rejected r.status (reason r.body))) := by
  unfold send
  rw [h]
  simp only [ExceptT.run_bind, ExceptT.run_lift, map_eq_pure_bind, Program.perform, Program.call_bind,
    Program.done_bind, Program.pure_eq_done]
  refine congrArg (Program.call request) (funext fun answer => ?_)
  cases answer with
  | none => rfl
  | some r =>
    simp only
    split <;> rfl

/-- The failure of a deletion: a refusal with 404 says that the device does not exist. -/
def deletionFailure (device : String) : DeviceFailure → DeviceFailure
  | .rejected 404 _ => .absent s!"device {device}"
  | f => f

theorem run_delete (a : ServiceAccess) (device : String) : (a.carryOut (.delete device)).run =
    ((a.send .delete s!"/devices/{device}" [("force_delete", "true")]).run >>= fun r => .done (match r with
      | .ok _ => .ok ()
      | .error f => .error (deletionFailure device f))) := by
  unfold carryOut
  rw [ExceptT.run_tryCatch]
  simp only [ExceptT.run_bind, bind_assoc]
  congr 1
  funext r
  cases r with
  | ok => rfl
  | error f =>
    cases f with
    | rejected status message =>
      by_cases h : status = 404
      · subst h
        rfl
      · simp [deletionFailure, h]
    | transport | absent | unknownNetworkType | missingPort | bootDocument => rfl

end ServiceAccess

theorem Provisioning.run_delete (device : String) : (Provisioning.delete device).run =
    .call (.delete device) fun r => .done (match r with
      | .ok _ => .ok ()
      | .error f => if f.isAbsent then .ok () else .error f) := by
  unfold Provisioning.delete Provisioning.request
  rw [ExceptT.run_tryCatch]
  simp only [ExceptT.run_mk, Program.perform, Program.call_bind, Program.done_bind]
  refine congrArg (Program.call _) (funext fun r => ?_)
  cases r with
  | ok => rfl
  | error f =>
    simp only
    split <;> rfl

/-! ## Calls -/

/-- The service answers that it carried out the request, or that it does not know the object. -/
def Http.Gone (answer : Option Http.Response) : Prop :=
  ∃ r, answer = some r ∧ (r.isSuccess = true ∨ r.status = 404)

namespace DeviceCall

variable {s : Settings} {c : Credentials} {device : String}

/-- The request that deletes a device, if it can be put in words. -/
def deletion? (s : Settings) (c : Credentials) (device : String) : Option Http.Request :=
  (ServiceAccess.mk s.metalApiUrl c.token).request? .delete s!"/devices/{device}" [("force_delete", "true")]
    none

/-- What a deletion ends in, after the answer to its request. -/
def deleted (device : String) (r : Except DeviceFailure String) : Except Failure Unit :=
  match r with
  | .ok _ => .ok ()
  | .error f =>
    let f := ServiceAccess.deletionFailure device f
    if f.isAbsent then .ok () else .error (f.toFailure device)

theorem carryOut_delete : (DeviceCall.delete c device).carryOut s =
    ((ServiceAccess.mk s.metalApiUrl c.token).send .delete s!"/devices/{device}"
      [("force_delete", "true")]).run >>= fun r => .done (deleted device r) := by
  unfold carryOut requests
  simp only [Provisioning.carryOut, Provisioning.run_delete, Program.lower, credentials]
  rw [ServiceAccess.run_delete]
  refine (Program.bind_assoc' _ _ _).trans ((Program.bind_assoc' _ _ _).trans ?_)
  refine congrArg _ (funext fun r => ?_)
  cases r with
  | ok => rfl
  | error f =>
    simp only [deleted, Program.done_bind]
    show Program.done (Except.mapError _ (if _ then _ else _)) = _
    split <;> rfl

/-- A deletion is done exactly if its one request was sent, and the device is gone by the answer. -/
theorem told_delete (answer : Http.Request → Option Http.Response) :
    (((DeviceCall.delete c device).carryOut s).told answer).1 = .ok () ↔
      ∃ request, deletion? s c device = some request ∧
        (((DeviceCall.delete c device).carryOut s).told answer).2 = [request] ∧
        Http.Gone (answer request) := by
  rw [carryOut_delete]
  cases hrequest : deletion? s c device with
  | none =>
    rw [ServiceAccess.run_send_of_none hrequest]
    simp [Program.told, deleted, ServiceAccess.deletionFailure, DeviceFailure.isAbsent]
  | some request =>
    rw [ServiceAccess.run_send_of_some hrequest]
    simp only [Program.call_bind, Program.done_bind, Program.told, Prod.map_fst, Prod.map_snd, id_eq]
    have hgone : (∃ request', some request = some request' ∧ [request] = [request'] ∧
        Http.Gone (answer request')) ↔ Http.Gone (answer request) := by simp
    rw [hgone]
    cases hanswer : answer request with
    | none => simp [deleted, ServiceAccess.deletionFailure, DeviceFailure.isAbsent, Http.Gone]
    | some r =>
      cases hsuccess : r.isSuccess with
      | true => simp [deleted, Http.Gone, hsuccess]
      | false =>
        by_cases hunknown : r.status = 404 <;>
          simp [deleted, Http.Gone, hsuccess, hunknown, ServiceAccess.deletionFailure, DeviceFailure.isAbsent]

end DeviceCall

end BareMetal
