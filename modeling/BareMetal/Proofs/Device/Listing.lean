import BareMetal.Proofs.Device.Deletion
import BareMetal.Proofs.Instance.Devices
import BareMetal.Proofs.Instance.Visit

/-!
# Listing the devices of a project

The service shows the devices of a project on pages. A listing follows them in their order, but no further
than `ServiceAccess.maxPages`, and does not tell that it stopped. A device on a later page is not found, and
a pass over its Instance asks for another one (`DeviceCall.finds_on_first_pages`).
-/

namespace BareMetal

variable {α β : Type}

/-! ## Requests that are told -/

namespace ServiceExchange

/-- What requests end in when they are answered by a function. -/
def heard (answer : Http.Request → Option Http.Response) (x : ServiceExchange α) : Except DeviceFailure α :=
  (x.run.told answer).1

variable {answer : Http.Request → Option Http.Response} {x : ServiceExchange α}

theorem heard_bind (f : α → ServiceExchange β) :
    heard answer (x >>= f) = heard answer x >>= fun a => heard answer (f a) := by
  rw [heard, ExceptT.run_bind, Program.told_bind]
  unfold heard
  cases (x.run.told answer).1 <;> rfl

end ServiceExchange

open ServiceExchange (heard heard_bind)

/-! ## Pages -/

namespace ServiceAccess

variable {a : ServiceAccess} {project : String} {answer : Http.Request → Option Http.Response}
  {n : Nat} {p : DevicePage} {pages : List (List Device)}

/-- The request for a page of a listing, if it can be put in words. -/
def pageRequest? (a : ServiceAccess) (project : String) (n : Nat) : Option Http.Request :=
  a.request? .get s!"/projects/{project}/devices" [("page", toString n), ("per_page", toString pageSize)] none

/-- The service answers the request for a page with it. -/
def ShowsPage (a : ServiceAccess) (project : String) (answer : Http.Request → Option Http.Response)
    (n : Nat) (p : DevicePage) : Prop :=
  ∃ request response, a.pageRequest? project n = some request ∧ answer request = some response ∧
    response.isSuccess = true ∧ Json.decodeText DevicePage.decode response.body = .ok p

/-- From a page on, the service shows these devices. Each page but the last is not empty and gives a link
to the next one. -/
inductive Shows (a : ServiceAccess) (project : String) (answer : Http.Request → Option Http.Response) :
    Nat → List (List Device) → Prop
  | last {n : Nat} {p : DevicePage} : a.ShowsPage project answer n p → p.next = none ∨ p.devices = [] →
    Shows a project answer n [p.devices]
  | more {n : Nat} {p : DevicePage} {pages : List (List Device)} : a.ShowsPage project answer n p →
    p.next ≠ none → p.devices ≠ [] → Shows a project answer (n + 1) pages →
    Shows a project answer n (p.devices :: pages)

theorem heard_read_page (h : a.ShowsPage project answer n p) :
    heard answer (do
      let body ← a.send .get s!"/projects/{project}/devices"
        [("page", toString n), ("per_page", toString pageSize)]
      read DevicePage.decode body) = .ok p := by
  obtain ⟨request, response, hrequest, hanswer, hsuccess, hread⟩ := h
  have hsent : heard answer (a.send .get s!"/projects/{project}/devices"
      [("page", toString n), ("per_page", toString pageSize)]) = .ok response.body := by
    rw [heard, run_send_of_some hrequest]
    simp [Program.told, hanswer, hsuccess]
  rw [heard_bind, hsent]
  show heard answer (read DevicePage.decode response.body) = _
  unfold read
  rw [hread]
  rfl

theorem heard_listFrom_succ (h : a.ShowsPage project answer n p) (left : Nat) :
    heard answer (a.listFrom project (left + 1) n) =
      if p.next.isNone || p.devices.isEmpty then .ok p.devices
      else (heard answer (a.listFrom project left (n + 1))).map (p.devices ++ ·) := by
  rw [listFrom, ← bind_assoc, heard_bind, heard_read_page h]
  show heard answer (if _ then _ else _) = _
  split
  · rfl
  · rw [heard_bind]
    cases heard answer (a.listFrom project left (n + 1)) <;> rfl

/-- Pages are followed as long as some are left. -/
theorem heard_listFrom (h : a.Shows project answer n pages) (left : Nat) :
    heard answer (a.listFrom project left n) = .ok (pages.take left).flatten := by
  -- by induction on the pages, whatever number of them may still be followed
  induction h generalizing left with
  | last hpage hlast =>
    cases left with
    | zero => rfl
    | succ left =>
      rw [heard_listFrom_succ hpage, if_pos (by simpa using hlast)]
      simp
  | more hpage hnext hdevices _ ih =>
    cases left with
    | zero => rfl
    | succ left =>
      rw [heard_listFrom_succ hpage, if_neg (by simp [hnext, hdevices]), ih]
      rfl

end ServiceAccess

/-! ## Searches -/

theorem Provisioning.carryOut_findByHostname (a : ServiceAccess) (project hostname : String) :
    (findByHostname project hostname).carryOut a =
      (a.carryOut (.list project)).run >>= fun r => .done (r.map (·.find? (·.hostname = hostname))) := by
  show Program.bind _ _ = _
  refine congrArg (Program.bind _) (funext fun r => ?_)
  cases r <;> rfl

/-- How the service is reached with the credentials. -/
def DeviceCall.access (s : Settings) (c : Credentials) : ServiceAccess := ⟨s.metalApiUrl, c.token⟩

theorem DeviceCall.carryOut_find (s : Settings) (c : Credentials) (hostname : String) :
    (DeviceCall.find c hostname).carryOut s = ((access s c).carryOut (.list c.projectId)).run >>= fun r =>
      .done ((r.map fun ds => (ds.find? (·.hostname = hostname)).map (·.status)).mapError
        (·.toFailure hostname)) := by
  refine (Program.bind_assoc' _ _ _).trans (congrArg _ (funext fun r => ?_))
  cases r <;> rfl

/-! ## Adoption -/

namespace Instance

variable {i : Instance} {c : Credentials} {answer : (t : InstanceStep) → t.Answer} {m : InstanceMemory}

/-- The status that names a device that was obtained. -/
def submittedStatus (i : Instance) (d : DeviceStatus) : InstanceStatus :=
  { i.statusOrNew with phase := .submitted, instanceId := some d.id, deviceState := some d.state.name }

theorem told_obtainDevice_of_some {d : DeviceStatus}
    (h : answer (.device (.find c i.name)) = .ok (some d)) :
    told answer (i.obtainDevice c) m = ⟨.ok (d, .deviceAdopted), m, [.device (.find c i.name)]⟩ := by
  have hasked : told answer (InstancePass.device (.find c i.name)) m =
      ⟨.ok (some d), m, [.device (.find c i.name)]⟩ := by
    rw [InstancePass.told_device, h]
  rw [obtainDevice, told_bind, hasked]
  rfl

theorem mem_told_obtainDevice_of_none (h : answer (.device (.find c i.name)) = .ok none) :
    .device (.create c i) ∈ (told answer (i.obtainDevice c) m).calls := by
  have hasked : told answer (InstancePass.device (.find c i.name)) m =
      ⟨.ok none, m, [.device (.find c i.name)]⟩ := by
    rw [InstancePass.told_device, h]
  refine mem_told_bind_of_ok hasked (mem_told_bind ?_)
  rw [InstancePass.told_device]
  exact List.mem_singleton_self _

end Instance

namespace Visit

variable {v : Visit} {c : Credentials} {d : DeviceStatus}

/-- The visit gets as far as to obtain a device. -/
structure Obtains (v : Visit) (c : Credentials) : Prop where
  phase : v.object.phase = .empty
  stays : v.object.isDeleting = false
  finalizer : v.object.metadata.hasFinalizer Names.deprovision = true
  spec : v.object.checkSpec = .ok ()
  credentials : Credentials.ofInstance v.object = .ok c

/-- The visit looks for the device and records the one that exists, and asks for no other. -/
def Adopts (v : Visit) (c : Credentials) (d : DeviceStatus) : Prop :=
  ∃ es : List Event, v.told.calls = [.device (.find c v.name),
    .cluster (.writeStatus v.name (v.object.submittedStatus d))] ++ es.map .announce

theorem Obtains.advance (h : v.Obtains c) : v.object.advance v.settings = (do
    let (d, reason) ← v.object.obtainDevice c
    v.object.record (v.object.submittedStatus d)
    InstancePass.announce { reason := reason, activity := .provision, note := s!"device {d.id}" }
    return .after v.settings.pollInterval) := by
  unfold Instance.advance Instance.submit
  simp only [h.stays, h.phase, h.finalizer, h.spec, h.credentials]
  rfl

theorem Obtains.adopts (h : v.Obtains c) (hfound : v.answer (.device (.find c v.name)) = .ok (some d)) :
    v.Adopts c d := by
  have hadvance : ∃ es : List Event, v.advance.calls = [.device (.find c v.name),
      .cluster (.writeStatus v.name (v.object.submittedStatus d))] ++ es.map .announce := by
    rw [Visit.advance, h.advance, told_bind, Instance.told_obtainDevice_of_some hfound, Told.andThen_ok]
    dsimp only
    rw [told_bind, Instance.record, InstancePass.told_cluster]
    -- what is announced depends on whether the status was recorded
    cases v.answer (.cluster (.writeStatus v.object.name (v.object.submittedStatus d))) with
    | ok => exact ⟨[_], rfl⟩
    | error f => exact ⟨[], rfl⟩
  obtain ⟨es, hcalls⟩ := v.calls_told
  obtain ⟨es', hadvance⟩ := hadvance
  refine ⟨es' ++ es, ?_⟩
  rw [hcalls, hadvance, List.append_assoc, List.map_append]

theorem Obtains.creates (h : v.Obtains c) (hnone : v.answer (.device (.find c v.name)) = .ok none) :
    .device (.create c v.object) ∈ v.told.calls := by
  obtain ⟨es, hcalls⟩ := v.calls_told
  rw [hcalls, Visit.advance, h.advance]
  exact List.mem_append_left _ (mem_told_bind (Instance.mem_told_obtainDevice_of_none hnone))

end Visit

/-! ## Searches on pages -/

/-- The devices on the pages that a listing follows. -/
def ServiceAccess.firstPages (pages : List (List Device)) : List Device := (pages.take maxPages).flatten

theorem ServiceAccess.firstPages_of_length_le {pages : List (List Device)} (h : pages.length ≤ maxPages) :
    firstPages pages = pages.flatten := by
  rw [firstPages, List.take_of_length_le h]

namespace DeviceCall

open ServiceAccess (maxPages firstPages)

variable {s : Settings} {c : Credentials} {answer : Http.Request → Option Http.Response}
  {pages : List (List Device)} {hostname : String}

theorem told_list (h : (access s c).Shows c.projectId answer 1 pages) :
    (((access s c).carryOut (.list c.projectId)).run.told answer).1 = .ok (firstPages pages) :=
  ServiceAccess.heard_listFrom h maxPages

theorem told_findByHostname (h : (access s c).Shows c.projectId answer 1 pages) :
    (((Provisioning.findByHostname c.projectId hostname).carryOut (access s c)).told answer).1 =
      .ok ((firstPages pages).find? (·.hostname = hostname)) := by
  rw [Provisioning.carryOut_findByHostname, Program.told_bind, told_list h]
  rfl

theorem told_find (h : (access s c).Shows c.projectId answer 1 pages) :
    (((DeviceCall.find c hostname).carryOut s).told answer).1 =
      .ok (((firstPages pages).find? (·.hostname = hostname)).map (·.status)) := by
  rw [carryOut_find, Program.told_bind, told_list h]
  rfl

/-- A listing gives the devices of the first pages in order, which are all devices unless there are more
pages than it follows. A search finds the first of them with the host name. A pass that is to obtain a
device adopts it, and asks for another one if there is none on these pages. -/
theorem finds_on_first_pages (h : (access s c).Shows c.projectId answer 1 pages) :
    (((access s c).carryOut (.list c.projectId)).run.told answer).1 = .ok (firstPages pages) ∧
    (pages.length ≤ maxPages → firstPages pages = pages.flatten) ∧
    (∀ hostname, ∃ found,
      (((Provisioning.findByHostname c.projectId hostname).carryOut (access s c)).told answer).1 =
        .ok found ∧ found = (firstPages pages).find? (·.hostname = hostname) ∧
      (found.isSome = true ↔ ∃ d ∈ firstPages pages, d.hostname = hostname)) ∧
    ∀ v : Visit, v.Obtains c →
      v.answer (.device (.find c v.name)) = (((DeviceCall.find c v.name).carryOut s).told answer).1 →
      (∀ d, (firstPages pages).find? (·.hostname = v.name) = some d → v.Adopts c d.status) ∧
      ((∀ d ∈ firstPages pages, d.hostname ≠ v.name) → .device (.create c v.object) ∈ v.told.calls) := by
  refine ⟨told_list h, ServiceAccess.firstPages_of_length_le, fun hostname =>
    ⟨_, told_findByHostname h, rfl, by simp [List.find?_isSome]⟩, fun v hv hanswer => ?_⟩
  rw [told_find h] at hanswer
  refine ⟨fun d hd => hv.adopts ?_, fun hnone => hv.creates ?_⟩
  · rw [hanswer, hd]
    rfl
  · have hd : (firstPages pages).find? (·.hostname = v.name) = none :=
      List.find?_eq_none.2 fun d hd => by simpa using hnone d hd
    rw [hanswer, hd]
    rfl

/-- The device of the Instance. -/
def ownDevice : Device := { id := "device-1", hostname := "metal-1" }

/-- A device of another Instance. -/
def otherDevice : Device := { id := "device-2", hostname := "metal-2" }

/-- The text of a page with one device, with a link to another page or without. -/
def pageText (d : Device) (more : Bool) : String := Json.compress <| .obj [
  ("devices", .arr [.obj [("id", .str d.id), ("hostname", .str d.hostname)]]),
  ("meta", .obj (if more then [("next", .obj [("href", .str "")])] else []))]

theorem read_pageText_last :
    Json.decodeText DevicePage.decode (pageText ownDevice false) = .ok ⟨[ownDevice], none⟩ :=
  ok_of_toOption (by decide +kernel)

theorem read_pageText_more :
    Json.decodeText DevicePage.decode (pageText otherDevice true) = .ok ⟨[otherDevice], some {}⟩ :=
  ok_of_toOption (by decide +kernel)

/-- The credentials of an Instance that has no device on record yet. -/
def freshCredentials : Credentials := ⟨"secret", "lab"⟩

/-- How the service is reached for it. -/
abbrev freshAccess : ServiceAccess := access .standard freshCredentials

/-- A visit to it that finds what the service answers. -/
def freshVisit (answer : Http.Request → Option Http.Response) : Visit where
  settings := .standard
  object := Instance.fresh
  memory := {}
  answer
    | .device (.find c hostname) => (((DeviceCall.find c hostname).carryOut .standard).told answer).1
    | .device (.create ..) | .device (.status ..) | .device (.reconfigure ..) | .device (.delete ..)
    | .cluster _ => .error (.cluster (.unavailable "timeout"))
    | .announce _ => ()
    | .clock => .epoch

variable (answer) in
theorem obtains_freshVisit : (freshVisit answer).Obtains freshCredentials where
  phase := rfl
  stays := rfl
  finalizer := by
    show Instance.fresh.metadata.hasFinalizer Names.deprovision = true
    decide
  spec := rfl
  credentials := rfl

variable (answer) in
theorem answer_freshVisit :
    (freshVisit answer).answer (.device (.find freshCredentials (freshVisit answer).name)) =
      (((DeviceCall.find freshCredentials (freshVisit answer).name).carryOut .standard).told answer).1 := by
  simp only [freshVisit]

/-- A service that shows the device of the Instance on its last page, and the other one on each page
before it. -/
def paged (last : Nat) (r : Http.Request) : Option Http.Response :=
  some ⟨200, if r.target.query = some s!"page={last}&per_page=100" then pageText ownDevice false
    else pageText otherDevice true⟩

/-- What it shows from the page on that has `k` pages after it. -/
def pagesAfter (k : Nat) : List (List Device) := List.replicate k [otherDevice] ++ [[ownDevice]]

theorem showsPage_paged {last n : Nat} (hlast : last ∈ [2, 51]) (hn : n ≤ last) :
    freshAccess.ShowsPage "lab" (paged last) n
      (if n = last then ⟨[ownDevice], none⟩ else ⟨[otherDevice], some {}⟩) := by
  -- only the queries are evaluated, as the paths do not tell the pages apart
  have heval : ∀ last ∈ [2, 51], ∀ n < last + 1, (freshAccess.pageRequest? "lab" n).any
      (fun r => r.target.query = some s!"page={last}&per_page=100" ↔ n = last) = true := by
    decide +kernel
  have hquery := heval last hlast n (Nat.lt_succ_of_le hn)
  rw [Option.any_eq_true] at hquery
  obtain ⟨request, hrequest, hquery⟩ := hquery
  refine ⟨request, ⟨200, _⟩, hrequest, rfl, rfl, ?_⟩
  simp only [of_decide_eq_true hquery]
  split
  · exact read_pageText_last
  · exact read_pageText_more

theorem shows_paged {last : Nat} (hlast : last ∈ [2, 51]) (k n : Nat) (hk : n + k = last) :
    freshAccess.Shows "lab" (paged last) n (pagesAfter k) := by
  induction k generalizing n with
  | zero =>
    have hpage := showsPage_paged (n := n) hlast (by omega)
    rw [if_pos (by omega)] at hpage
    exact .last hpage (.inl rfl)
  | succ k ih =>
    have hpage := showsPage_paged (n := n) hlast (by omega)
    rw [if_neg (by omega)] at hpage
    exact .more hpage nofun nofun (ih (n + 1) (by omega))

/-- The device is listed on the second of two pages, and the visit adopts it. -/
theorem adopts_on_second_page : freshAccess.Shows "lab" (paged 2) 1 (pagesAfter 1) ∧
    ((freshAccess.carryOut (.list "lab")).run.told (paged 2)).1 = .ok [otherDevice, ownDevice] ∧
    (freshVisit (paged 2)).Adopts freshCredentials ownDevice.status := by
  have hshows : freshAccess.Shows "lab" (paged 2) 1 (pagesAfter 1) := shows_paged (by decide) 1 1 rfl
  obtain ⟨hlisted, -, -, hvisits⟩ := finds_on_first_pages hshows
  obtain ⟨hadopts, -⟩ := hvisits _ (obtains_freshVisit _) (answer_freshVisit _)
  exact ⟨hshows, hlisted, hadopts ownDevice rfl⟩

theorem firstPages_pagesAfter : firstPages (pagesAfter maxPages) = List.replicate maxPages otherDevice := by
  rw [firstPages, pagesAfter, List.take_left' List.length_replicate, List.flatten_replicate_singleton]

/-- With one page more than a listing follows, the device on the last page is neither listed nor found, and
the visit asks for another one. -/
theorem late_device_missed : freshAccess.Shows "lab" (paged 51) 1 (pagesAfter maxPages) ∧
    (∃ d ∈ (pagesAfter maxPages).flatten, d.hostname = "metal-1") ∧
    ((freshAccess.carryOut (.list "lab")).run.told (paged 51)).1 ≠ .ok (pagesAfter maxPages).flatten ∧
    (((Provisioning.findByHostname "lab" "metal-1").carryOut freshAccess).told (paged 51)).1 = .ok none ∧
    .device (.create freshCredentials Instance.fresh) ∈ (freshVisit (paged 51)).told.calls := by
  have hshows : freshAccess.Shows "lab" (paged 51) 1 (pagesAfter maxPages) :=
    shows_paged (by decide) maxPages 1 rfl
  have hnone : (firstPages (pagesAfter maxPages)).find? (·.hostname = "metal-1") = none := by
    rw [firstPages_pagesAfter, List.find?_eq_none]
    intro d hd
    rw [List.eq_of_mem_replicate hd]
    decide
  refine ⟨hshows, ⟨ownDevice, by simp [pagesAfter], rfl⟩, fun hall => ?_, ?_, ?_⟩
  · have hsame := Except.ok.inj ((told_list (c := freshCredentials) hshows).symm.trans hall)
    have hlength := congrArg List.length (firstPages_pagesAfter.symm.trans hsame)
    simp [pagesAfter] at hlength
  · exact (told_findByHostname (c := freshCredentials) hshows).trans (congrArg _ hnone)
  · refine (obtains_freshVisit _).creates ((answer_freshVisit _).trans ?_)
    exact (told_find (c := freshCredentials) hshows).trans
      (congrArg (fun found : Option Device => Except.ok (found.map (·.status))) hnone)

end DeviceCall

end BareMetal
