import BareMetal.Cluster.Api
import BareMetal.Cluster.Metadata
import BareMetal.Event
import BareMetal.Names

/-!
# Recording events

Events are kept by the cluster. An event that repeats an earlier one in all but its note, not too
long after it, is not recorded anew: the earlier one is changed so that it tells how often it has
occurred and when it occurred last. What the cluster did not take is not remembered.
-/

namespace BareMetal

open Json

/-! ## Notices -/

/-- A reference to the object of an event. -/
structure ObjectReference where
  apiVersion : Option String := none
  fieldPath : Option String := none
  kind : Option String := none
  name : Option String := none
  /-- The namespace of the object. -/
  space : Option String := none
  resourceVersion : Option String := none
  uid : Option String := none
deriving DecidableEq, Inhabited

namespace ObjectReference

/-- The form of a reference. -/
def form : Form ObjectReference := .object <|
  ObjectReference.mk
    <$> .lenient "apiVersion" (·.apiVersion) .text
    <*> .lenient "fieldPath" (·.fieldPath) .text
    <*> .lenient "kind" (·.kind) .text
    <*> .lenient "name" (·.name) .text
    <*> .lenient "namespace" (·.space) .text
    <*> .lenient "resourceVersion" (·.resourceVersion) .text
    <*> .lenient "uid" (·.uid) .text

/-- The reference to an object of a kind of the group. -/
def ofMetadata (kind : String) (m : Cluster.Metadata) : ObjectReference where
  apiVersion := some Names.apiVersion
  kind := some kind
  name := m.name
  space := m.space
  resourceVersion := m.resourceVersion
  uid := m.uid

end ObjectReference

/-- An event as it is recorded. -/
structure Notice where
  warning : Bool := false
  reason : String
  activity : String
  note : Option String := none
  about : ObjectReference
deriving DecidableEq

/-- The notice of an event about an object. -/
def Event.notice (e : Event) (about : ObjectReference) : Notice :=
  ⟨e.warning, e.reason.name, e.activity.name, some e.note, about⟩

namespace Notice

/-- The word for the weight of a notice. -/
def weight (n : Notice) : String := if n.warning then "Warning" else "Normal"

/-- What repetitions have in common. -/
def withoutNote (n : Notice) : Notice := { n with note := none }

end Notice

/-! ## Records -/

/-- A notice that was recorded. -/
structure EventRecord where
  notice : Notice
  /-- The name of the record. -/
  name : String
  /-- When the event occurred first. -/
  first : Stamp
  /-- When it occurred last, and how often, if it was repeated. -/
  series : Option (Nat × Stamp) := none

namespace EventRecord

/-- When the event occurred last. -/
def last (r : EventRecord) : Stamp := (r.series.map (·.2)).getD r.first

/-- The record after a repetition. -/
def again (r : EventRecord) (now : Stamp) : EventRecord :=
  { r with series := some (((r.series.map (·.1)).getD 1) + 1, now) }

/-- The form in which a series is written. -/
private def seriesJson (s : Nat × Stamp) : Json :=
  .obj [("count", .int s.1), ("lastObservedTime", .str s.2.microseconds)]

/-- The record as a cluster object. -/
def toJson (controller reporter : String) (r : EventRecord) : Json :=
  .obj ([("apiVersion", .str "events.k8s.io/v1"), ("kind", .str "Event"),
      ("action", .str r.notice.activity), ("eventTime", .str r.first.microseconds),
      ("metadata", .obj (("name", .str r.name) ::
        Fields.some? "namespace" (r.notice.about.space.map Json.str)))] ++
    Fields.some? "note" (r.notice.note.map Json.str) ++
    [("reason", .str r.notice.reason), ("regarding", ObjectReference.form.encode r.notice.about),
      ("reportingController", .str controller), ("reportingInstance", .str reporter)] ++
    Fields.some? "series" (r.series.map seriesJson) ++ [("type", .str r.notice.weight)])

/-- Checks a record that the cluster gives back. -/
def shape : Decoder Unit := Record.objectOnly <|
  (fun _ _ _ _ => ())
    <$> .expected "apiVersion" "events.k8s.io/v1"
    <*> .expected "kind" "Event"
    <*> .lenient "metadata" Cluster.Metadata.form.decode
    <*> Shape.members ((["action", "note", "reason", "reportingController", "reportingInstance",
        "type"].map (·, none, Shape.text)) ++
      (["deprecatedFirstTimestamp", "deprecatedLastTimestamp", "eventTime"].map
        (·, none, Cluster.stampShape)) ++
      (["regarding", "related"].map (·, none, ObjectReference.form.decode.map ObjectReference.form.encode)) ++
      [("deprecatedCount", none, Shape.int32),
        ("deprecatedSource", none, Shape.object [("component", Shape.text), ("host", Shape.text)] []),
        ("series", none, Shape.object [("count", Shape.int32), ("lastObservedTime", Cluster.stampShape)] [])])

end EventRecord

/-! ## The recorder -/

/-- Who records events, and what was recorded lately. -/
structure Recorder where
  controller : String
  /-- The name of the running program, if it has one of its own. -/
  pod : Option String := none
  records : List EventRecord := []

namespace Recorder

/-- How long a record can be repeated. -/
def lifetime : Span := .seconds 360

/-- The name under which events are reported. -/
def reporter (r : Recorder) : String := r.pod.getD r.controller

/-- The records that can still be repeated. -/
def fresh (r : Recorder) (now : Stamp) : List EventRecord :=
  r.records.filter fun e => now < e.last.later lifetime

/-- A number in base sixteen. -/
private def hex (n : Nat) : String := .ofList (Nat.toDigits 16 n)

/-- The record of a notice: the earlier one that it repeats, or a new one. -/
def recordOf (r : Recorder) (now : Stamp) (n : Notice) : EventRecord :=
  match (r.fresh now).find? fun e => e.notice.withoutNote = n.withoutNote with
  | some e => e.again now
  | none => { notice := n, first := now, name := s!"{n.about.name.getD r.controller}.{hex now.nanos.toNat}" }

/-- The path of the records about an object. -/
def path (about : ObjectReference) : String :=
  let space := about.space.getD "default"
  s!"/apis/events.k8s.io/v1/namespaces/{space}/events"

/-- Sends a record to the cluster. -/
def send (r : Recorder) (e : EventRecord) : Cluster.Exchange Unit :=
  let object := e.toJson r.controller r.reporter
  let path := path e.notice.about
  if e.series.isSome then Cluster.Api.patch EventRecord.shape s!"{path}/{e.name}" [] object
  else Cluster.Api.create EventRecord.shape path object

/-- Records a notice. -/
def publish (r : Recorder) (now : Stamp) (n : Notice) : Http.Exchange Recorder := do
  let e := r.recordOf now n
  let others := (r.fresh now).filter fun d => d.notice.withoutNote ≠ n.withoutNote
  match ← (r.send e).run with
  | .ok () => return { r with records := e :: others }
  | .error _ => return { r with records := r.fresh now }

end Recorder

end BareMetal
