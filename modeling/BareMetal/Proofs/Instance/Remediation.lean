import BareMetal.Proofs.Instance.Deadline
import BareMetal.Proofs.Instance.Visit
import Mathlib.Data.List.DropRight

/-!
# Remediation

How long a member may stay unhealthy when its Node does not say since when it is. Then the first
sighting counts, which is remembered from visit to visit, but only up to the visit that asks for the
Instance to be deleted: if that fails, the time starts again.
-/

namespace BareMetal

/-! ## What a watch does -/

namespace Instance

variable {answer : (t : InstanceStep) → t.Answer} {m : InstanceMemory} {i : Instance}
  {wait : Option Span} {n? : Option Cluster.Node}

theorem told_watchMember_error {f : Failure} (hwait : i.spec.cleanupWait = .ok wait)
    (hnode : answer (.cluster (.getNode i.name)) = .error f) :
    told answer i.watchMember m = ⟨.error f, m, [.cluster (.getNode i.name)]⟩ := by
  simp [watchMember, hwait, hnode]

theorem told_watchMember_recheck {left : Span} (hwait : i.spec.cleanupWait = .ok wait)
    (hnode : answer (.cluster (.getNode i.name)) = .ok n?)
    (hassess : assessMember n? wait (m.unready.get? i.name) (answer .clock) = .recheck left) :
    told answer i.watchMember m =
      ⟨.ok (.after left),
        { m with unready := if (m.unready.get? i.name).isSome then m.unready
                            else m.unready.insert i.name (answer .clock) },
        [.cluster (.getNode i.name), .clock]⟩ := by
  simp [watchMember, hwait, hnode, hassess]

theorem told_replace {reason : Reason} {note : String} :
    told answer (i.replace reason note) m =
      ⟨(answer (.cluster (.deleteInstance i.name))).map fun _ => .onChange, m,
        [.announce { warning := true, reason := reason, activity := .delete, note := note },
          .cluster (.deleteInstance i.name)]⟩ := by
  unfold replace
  cases hdelete : answer (.cluster (.deleteInstance i.name)) <;> simp [hdelete, Except.map]

theorem told_watchMember_unhealthy (hwait : i.spec.cleanupWait = .ok wait)
    (hnode : answer (.cluster (.getNode i.name)) = .ok n?)
    (hassess : assessMember n? wait (m.unready.get? i.name) (answer .clock) = .unhealthy) :
    let limit := i.spec.nodeCleanupWait.getD ""
    told answer i.watchMember m =
      ⟨(answer (.cluster (.deleteInstance i.name))).map fun _ => .onChange,
        { m with unready := m.unready.erase i.name },
        [.cluster (.getNode i.name), .clock,
          .announce { warning := true, reason := .instanceRemediated, activity := .delete
                      note := s!"node {i.name} not ready for longer than {limit}" },
          .cluster (.deleteInstance i.name)]⟩ := by
  simp [watchMember, watchMember.forget, told_replace, hwait, hnode, hassess]

end Instance

/-! ## Visits to a member -/

/-- The step asks for the Instance to be deleted. -/
def InstanceStep.deletes (name : String) : InstanceStep → Bool
  | .cluster (.deleteInstance n) => n = name
  | _ => false

namespace Visit

/-- When the Node was first seen not to be ready, as far as it is remembered. -/
def seen (v : Visit) : Option Stamp := v.memory.unready.get? v.name

/-- What is remembered of it afterwards. -/
def left (v : Visit) : Option Stamp := v.told.memory.unready.get? v.name

/-- The time of the visit. -/
def time (v : Visit) : Stamp := v.answer .clock

/-- The visit gets to see the Node. -/
def sees (v : Visit) : Bool := (v.answer (.cluster (.getNode v.name))).toBool

/-- The visit asks for the Instance to be deleted. -/
def deletes (v : Visit) : Bool := v.told.calls.any (·.deletes v.name)

/-- A visit to a member that may stay unhealthy for so long. Its Node, if it can be got, is there and
is not ready, and does not say since when. -/
structure Watches (v : Visit) (name : String) (w : Span) : Prop where
  named : v.name = name
  managed : v.object.phase = .managed
  kept : v.object.isDeleting = false
  wait : v.object.spec.cleanupWait = .ok (some w)
  node : ∀ n?, v.answer (.cluster (.getNode v.name)) = .ok n? →
    ∃ n, n? = some n ∧ n.metadata.deletionTimestamp = none ∧ n.health = .notReady none

/-- The time that is left at the visit, counted from the first sighting or else from now. -/
def remaining (v : Visit) (w : Span) : Span := remainingWait (v.seen.getD v.time) w v.time

variable {v : Visit} {name : String} {w : Span}

theorem Watches.advance_eq (h : v.Watches name w) :
    v.advance = BareMetal.told v.answer v.object.watchMember v.memory := by
  unfold advance Instance.advance
  rw [h.kept, h.managed]
  rfl

theorem Watches.assess (h : v.Watches name w) {n? : Option Cluster.Node}
    (hnode : v.answer (.cluster (.getNode v.name)) = .ok n?) :
    assessMember n? (some w) v.seen v.time =
      if (v.remaining w).isZero then .unhealthy else .recheck (v.remaining w) := by
  obtain ⟨n, rfl, hkept, hhealth⟩ := h.node n? hnode
  have hunready : n.IsUnready := ⟨hkept, by rw [hhealth]; nofun⟩
  have hstart : unreadyStart n v.seen v.time = v.seen.getD v.time := by
    rw [unreadyStart, Cluster.Node.transition?_of_health hhealth]
    rfl
  rw [assessMember_unready hunready, hstart]
  rfl

/-- A visit that does not get to see the Node changes nothing. -/
theorem Watches.unseen (h : v.Watches name w) (hsees : v.sees = false) :
    v.deletes = false ∧ v.left = v.seen := by
  cases hnode : v.answer (.cluster (.getNode v.name)) with
  | ok => simp [sees, hnode, Except.toBool] at hsees
  | error f =>
    have hadvance : v.advance = ⟨.error f, v.memory, [.cluster (.getNode v.name)]⟩ :=
      h.advance_eq.trans (Instance.told_watchMember_error h.wait hnode)
    obtain ⟨es, hcalls⟩ := v.calls_told
    constructor
    · simp [deletes, hcalls, hadvance, InstanceStep.deletes]
    · simp [left, unready_told, hadvance, seen]

/-- As long as time is left, the visit waits for the rest of it. -/
theorem Watches.early (h : v.Watches name w) (hsees : v.sees = true)
    (hleft : (v.remaining w).isZero = false) :
    v.deletes = false ∧ v.left = some (v.seen.getD v.time) ∧
      v.told.result = .ok (.after (v.remaining w)) := by
  cases hnode : v.answer (.cluster (.getNode v.name)) with
  | error => simp [sees, hnode, Except.toBool] at hsees
  | ok n? =>
    have hassess := h.assess hnode
    rw [if_neg (by simp [hleft])] at hassess
    have hadvance := h.advance_eq.trans (Instance.told_watchMember_recheck h.wait hnode hassess)
    obtain ⟨es, hcalls⟩ := v.calls_told
    refine ⟨?_, ?_, ?_⟩
    · simp [deletes, hcalls, hadvance, InstanceStep.deletes]
    · rw [left, unready_told, hadvance]
      cases hseen : v.memory.unready.get? v.object.name <;> simp [seen, time, Visit.name, hseen]
    · rw [result_told, hadvance]

/-- When no time is left, the visit asks for the Instance to be deleted, and forgets. -/
theorem Watches.due (h : v.Watches name w) (hsees : v.sees = true)
    (hleft : (v.remaining w).isZero = true) : v.deletes = true ∧ v.left = none := by
  cases hnode : v.answer (.cluster (.getNode v.name)) with
  | error => simp [sees, hnode, Except.toBool] at hsees
  | ok n? =>
    have hassess := h.assess hnode
    rw [if_pos hleft] at hassess
    have hadvance := h.advance_eq.trans (Instance.told_watchMember_unhealthy h.wait hnode hassess)
    obtain ⟨es, hcalls⟩ := v.calls_told
    constructor
    · simp [deletes, hcalls, hadvance, InstanceStep.deletes, Visit.name]
    · simp [left, unready_told, hadvance, Visit.name]

/-- When the Node was first seen not to be ready since the last time that one of the visits asked for
the Instance to be deleted. -/
def firstSight (vs : List Visit) : Option Stamp :=
  ((vs.rtakeWhile (!·.deletes)).find? (·.sees)).map (·.time)

/-- Visits to one member, and what is remembered after them. It is not lost in between, but other
things may change, as long as they are such that the next visit is one to the member. -/
inductive Watch (name : String) (w : Span) : List Visit → Option Stamp → Prop
  | start : Watch name w [] none
  | visit {vs : List Visit} {v : Visit} : Watch name w vs v.seen → v.Watches name w →
    (∀ u ∈ vs, u.time ≤ v.time) → Watch name w (vs ++ [v]) v.left

variable {vs : List Visit}

theorem firstSight_concat : firstSight (vs ++ [v]) =
    if v.deletes then none else firstSight vs <|> if v.sees then some v.time else none := by
  unfold firstSight
  cases hdeletes : v.deletes with
  | true => simp [hdeletes]
  | false => cases hsees : v.sees <;> simp [hdeletes, hsees]

/-- What is remembered is the first sighting since the last deletion was asked for. -/
theorem Watch.remembers {m : Option Stamp} (h : Watch name w vs m) : m = firstSight vs := by
  induction h with
  | start => rfl
  | @visit vs v hvs hv ht ih =>
    rw [firstSight_concat, ← ih]
    cases hsees : v.sees with
    | false =>
      obtain ⟨hdeletes, hleft⟩ := hv.unseen hsees
      simp [hdeletes, hleft]
    | true =>
      cases hleft : (v.remaining w).isZero with
      | true =>
        obtain ⟨hdeletes, hforgot⟩ := hv.due hsees hleft
        simp [hdeletes, hforgot]
      | false =>
        obtain ⟨hdeletes, hkept, -⟩ := hv.early hsees hleft
        rw [hdeletes, hkept]
        cases v.seen <;> rfl

theorem firstSight_le {t : Stamp} (h : firstSight vs = some t) (ht : ∀ u ∈ vs, u.time ≤ v.time) :
    t ≤ v.time := by
  obtain ⟨u, hu, rfl⟩ := Option.map_eq_some_iff.1 h
  exact ht u ((List.rtakeWhile_suffix _ _).subset (List.mem_of_find?_eq_some hu))

/-- In every run of visits to a member whose Node is not ready and does not say since when, calls may
fail: a visit that gets to see the Node asks for the Instance to be deleted exactly if the wait has gone
by since the first sighting, and otherwise comes back after exactly the rest of it. The first sighting
is the first one since the Instance was last asked to be deleted. -/
theorem remediates_after (h : Watch name w vs v.seen) (hv : v.Watches name w)
    (ht : ∀ u ∈ vs, u.time ≤ v.time) (hsees : v.sees = true) :
    let since := (firstSight vs).getD v.time
    (v.deletes = true ↔ (w.nanos : Int) ≤ v.time.nanos - since.nanos) ∧
    (v.deletes = false → ∃ left, v.told.result = .ok (.after left) ∧
      (left.nanos : Int) = w.nanos - (v.time.nanos - since.nanos)) := by
  intro since
  have hle : since ≤ v.time := by
    cases hfirst : firstSight vs with
    | none =>
      simp only [since, hfirst]
      exact Int.le_refl _
    | some t => simpa [since, hfirst] using firstSight_le hfirst ht
  have hremaining : ((v.remaining w).nanos : Int) = max (w.nanos - (v.time.nanos - since.nanos)) 0 := by
    have hnanos : since.nanos ≤ v.time.nanos := hle
    rw [remaining, h.remembers]
    exact (nanos_remainingWait since v.time w).trans (by omega)
  cases hleft : (v.remaining w).isZero with
  | true =>
    have hzero : (v.remaining w).nanos = 0 := by simpa [Span.isZero] using hleft
    have hdeletes := (hv.due hsees hleft).1
    refine ⟨iff_of_true hdeletes (by omega), fun hkept => ?_⟩
    rw [hdeletes] at hkept
    cases hkept
  | false =>
    have hpos : (v.remaining w).nanos ≠ 0 := by simpa [Span.isZero] using hleft
    obtain ⟨hdeletes, -, hresult⟩ := hv.early hsees hleft
    exact ⟨iff_of_false (by simp [hdeletes]) (by omega), fun _ => ⟨_, hresult, by omega⟩⟩

end Visit

/-! ## A wait that starts again -/

theorem Span.parse_tenMinutes : parse "10m" = .ok (.seconds 600) := by
  have htrim : Text.trim "10m" = "10m" := by decide +kernel
  have hchars : "10m".toList = ['1', '0', 'm'] := by decide
  have hcomponent : (component "10m" ['1', '0'] ['m']).toOption = some (some (.seconds 600)) := by
    decide +kernel
  have hok : component "10m" ['1', '0'] ['m'] = .ok (some (.seconds 600)) := by
    cases h : component "10m" ['1', '0'] ['m'] with
    | error => simp [h, Except.toOption] at hcomponent
    | ok => simpa [h, Except.toOption] using hcomponent
  have hsum : zero.add? (.seconds 600) = some (.seconds 600) := by decide
  have hend : parseFrom "10m" (.seconds 600) [] = .ok (.seconds 600) := by
    rw [parseFrom]
    rfl
  unfold parse
  rw [htrim]
  dsimp only
  rw [if_neg (by decide), if_neg (by decide), hchars, parseFrom, if_neg (by decide), if_neg (by decide)]
  split
  · next hnone => exact absurd hnone (by decide)
  · have hrest : parseFrom "10m" (.seconds 600) ((['1', '0', 'm'].dropWhile isNumeral).dropWhile
        (!isNumeral ·)) = .ok (.seconds 600) := hend
    dsimp only
    rw [show ['1', '0', 'm'].takeWhile isNumeral = ['1', '0'] by decide,
      show (['1', '0', 'm'].dropWhile isNumeral).takeWhile (!isNumeral ·) = ['m'] by decide, hok]
    dsimp only
    rw [hsum]
    exact hrest

theorem InstanceSpec.cleanupWait_of_parse {s : InstanceSpec} {text : String} {span : Span}
    (h : s.nodeCleanupWait = some text) (hne : text ≠ "") (hparse : Span.parse text = .ok span) :
    s.cleanupWait = .ok (some span) := by
  have hwanted : s.nodeCleanupWait.filter (· ≠ "") = some text := by simp [h, hne]
  rw [cleanupWait, hwanted]
  dsimp only
  rw [hparse]

namespace Visit

/-- A visit after some seconds to a member whose Node has no conditions, and which cannot be deleted. -/
def toSilent (memory : InstanceMemory) (seconds : Nat) : Visit where
  settings := .standard
  object := { metadata := { name := some "edge-a" }
              spec := { nodeCleanupWait := some "10m" }
              status := some { phase := .managed } }
  memory := memory
  answer
    | .cluster (.getNode _) => .ok (some {})
    | .cluster (.writeStatus ..) | .cluster (.addFinalizer _) | .cluster (.removeFinalizer _)
    | .cluster (.deleteInstance _) | .cluster (.deleteNode _) | .device _ =>
      .error (.cluster (.unavailable "timeout"))
    | .announce _ => ()
    | .clock => ⟨seconds * 10 ^ 9⟩

theorem watches_toSilent (memory : InstanceMemory) (seconds : Nat) :
    (toSilent memory seconds).Watches "edge-a" (.seconds 600) where
  named := rfl
  managed := rfl
  kept := rfl
  wait := InstanceSpec.cleanupWait_of_parse rfl (by decide) Span.parse_tenMinutes
  node := by
    rintro n? ⟨⟩
    exact ⟨_, rfl, rfl, rfl⟩

theorem seen_toSilent (memory : InstanceMemory) (seconds : Nat) :
    (toSilent memory seconds).seen = memory.unready.get? "edge-a" := rfl

theorem time_le_toSilent (m m' : InstanceMemory) {a b : Nat} (h : a ≤ b) :
    (toSilent m a).time ≤ (toSilent m' b).time := by
  show (a : Int) * 10 ^ 9 ≤ b * 10 ^ 9
  omega

/-- A visit that knows of no sighting waits for ten minutes. -/
theorem early_toSilent {memory : InstanceMemory} (seconds : Nat)
    (hseen : memory.unready.get? "edge-a" = none) :
    (toSilent memory seconds).deletes = false ∧
      (toSilent memory seconds).left = some ⟨seconds * 10 ^ 9⟩ ∧
      (toSilent memory seconds).told.result = .ok (.after (.seconds 600)) := by
  have hremaining : (toSilent memory seconds).remaining (.seconds 600) = .seconds 600 := by
    rw [remaining, seen_toSilent, hseen]
    exact remainingWait_self _ _
  have hearly := (watches_toSilent memory seconds).early rfl (by rw [hremaining]; rfl)
  rwa [hremaining, seen_toSilent, hseen] at hearly

/-- Ten minutes after the first sighting, a visit asks for the Instance to be deleted. -/
theorem due_toSilent {memory : InstanceMemory} (hseen : memory.unready.get? "edge-a" = some ⟨0⟩) :
    (toSilent memory 600).deletes = true ∧ (toSilent memory 600).left = none := by
  refine (watches_toSilent memory 600).due rfl ?_
  rw [remaining, seen_toSilent, hseen]
  rfl

/-- The first visit finds the Node not ready, and the second one asks ten minutes later for the Instance
to be deleted, which fails. The third one comes five seconds after that. -/
theorem watch_silent : ∃ first second third : Visit,
    Watch "edge-a" (.seconds 600) [first, second] third.seen ∧
      third.Watches "edge-a" (.seconds 600) ∧ (∀ u ∈ [first, second], u.time ≤ third.time) ∧
      (first.sees = true ∧ first.time = ⟨0⟩) ∧ (third.sees = true ∧ third.time = ⟨605 * 10 ^ 9⟩) ∧
      third.deletes = false ∧ third.told.result = .ok (.after (.seconds 600)) := by
  have hnone : ({} : InstanceMemory).unready.get? "edge-a" = none := rfl
  obtain ⟨-, hsight, -⟩ := early_toSilent 0 hnone
  have hfirst : Watch "edge-a" (.seconds 600) ([] ++ [toSilent {} 0]) (toSilent {} 0).left :=
    .visit .start (watches_toSilent _ _) (by simp)
  rw [hsight] at hfirst
  obtain ⟨memory, hmemory⟩ : ∃ m, m = (toSilent {} 0).told.memory := ⟨_, rfl⟩
  have hknown : memory.unready.get? "edge-a" = some ⟨0⟩ := hmemory ▸ hsight
  obtain ⟨-, hforgot⟩ := due_toSilent hknown
  have hsecond : Watch "edge-a" (.seconds 600) ([toSilent {} 0] ++ [toSilent memory 600])
      (toSilent memory 600).left := by
    refine .visit ?_ (watches_toSilent _ _) ?_
    · rwa [seen_toSilent, hknown]
    · simpa using time_le_toSilent _ _ (by decide)
  rw [hforgot] at hsecond
  obtain ⟨hkept, -, hresult⟩ := early_toSilent 605 hforgot
  refine ⟨toSilent {} 0, toSilent memory 600, toSilent (toSilent memory 600).told.memory 605, ?_,
    watches_toSilent _ _, ?_, ⟨rfl, rfl⟩, ⟨rfl, rfl⟩, hkept, hresult⟩
  · have hseen : (toSilent (toSilent memory 600).told.memory 605).seen = none := hforgot
    rwa [hseen]
  · simp only [List.forall_mem_cons]
    exact ⟨time_le_toSilent _ _ (by decide), time_le_toSilent _ _ (by decide), by simp⟩

/-- The third visit does not ask for the Instance to be deleted, though the Node has not been ready for
longer than it may, and waits for another ten minutes. -/
theorem remediation_restarts : ∃ (vs : List Visit) (v : Visit),
    Watch "edge-a" (.seconds 600) vs v.seen ∧ v.Watches "edge-a" (.seconds 600) ∧
      (∀ u ∈ vs, u.time ≤ v.time) ∧ v.sees = true ∧
      (vs.find? (·.sees)).map (·.time) = some ⟨0⟩ ∧ 600 * 10 ^ 9 ≤ v.time.nanos ∧
      v.deletes = false ∧ v.told.result = .ok (.after (.seconds 600)) := by
  obtain ⟨first, second, third, hwatch, hwatches, htimes, hfirst, hthird, hkept, hresult⟩ := watch_silent
  refine ⟨_, third, hwatch, hwatches, htimes, hthird.1, ?_, ?_, hkept, hresult⟩
  · simp [hfirst]
  · rw [hthird.2]
    decide

/-- In those visits the sighting that counts is the third one itself. -/
theorem remediates_after_failure : ∃ (vs : List Visit) (v : Visit), v.sees = true ∧ v.deletes = false ∧
    (v.deletes = true ↔ 600 * 10 ^ 9 ≤ v.time.nanos - ((firstSight vs).getD v.time).nanos) ∧
    (v.deletes = false → ∃ left, v.told.result = .ok (.after left) ∧
      (left.nanos : Int) = 600 * 10 ^ 9 - (v.time.nanos - ((firstSight vs).getD v.time).nanos)) := by
  obtain ⟨first, second, third, hwatch, hwatches, htimes, -, hthird, hkept, -⟩ := watch_silent
  exact ⟨_, _, hthird.1, hkept, remediates_after hwatch hwatches htimes hthird.1⟩

end Visit

end BareMetal
