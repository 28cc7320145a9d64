import BareMetal.Json.Form
import BareMetal.Time.Stamp

/-!
# Metadata of cluster objects

Names, labels, annotations, finalizers, owners and times, as every object of the cluster carries
them.
-/

namespace BareMetal.Cluster

open Json

/-- A point in time as cluster objects write it. -/
def stampForm : Form Stamp :=
  ⟨Decoder.text.andThen fun s => match Stamp.parse? s with
    | some t => .ok t
    | none => .error .mismatch, fun t => .str t.wholeSeconds⟩

/-- A point in time that is not looked into. -/
def stampShape : Decoder Json := stampForm.decode.map stampForm.encode

/-- A link from an object to the one that owns it. -/
structure OwnerReference where
  apiVersion : String := ""
  blockOwnerDeletion : Option Bool := none
  controller : Option Bool := none
  kind : String := ""
  name : String := ""
  uid : String := ""
deriving DecidableEq, Inhabited

/-- The form of an owner reference. -/
def OwnerReference.form : Form OwnerReference := .object <|
  OwnerReference.mk
    <$> .lenientOr "apiVersion" (·.apiVersion) "" .text
    <*> .lenient "blockOwnerDeletion" (·.blockOwnerDeletion) .flag
    <*> .lenient "controller" (·.controller) .flag
    <*> .lenientOr "kind" (·.kind) "" .text
    <*> .lenientOr "name" (·.name) "" .text
    <*> .lenientOr "uid" (·.uid) "" .text

/-- Who set which fields of an object. -/
def managedFields : Decoder Json := Shape.object [("apiVersion", Shape.text), ("fieldsType", Shape.text),
  ("fieldsV1", Decoder.any), ("manager", Shape.text), ("operation", Shape.text),
  ("subresource", Shape.text), ("time", stampShape)] []

/-- The metadata of an object. -/
structure Metadata where
  annotations : Option (Dict String) := none
  creationTimestamp : Option Stamp := none
  deletionGracePeriodSeconds : Option Int := none
  deletionTimestamp : Option Stamp := none
  finalizers : Option (List String) := none
  generateName : Option String := none
  generation : Option Int := none
  labels : Option (Dict String) := none
  managedFields : Option (List Json) := none
  name : Option String := none
  /-- The namespace of the object. -/
  space : Option String := none
  ownerReferences : Option (List OwnerReference) := none
  resourceVersion : Option String := none
  selfLink : Option String := none
  uid : Option String := none
deriving Inhabited

namespace Metadata

/-- The form of metadata. -/
def form : Form Metadata := .object <|
  Metadata.mk
    <$> .lenient "annotations" (·.annotations) (.dict .text)
    <*> .lenient "creationTimestamp" (·.creationTimestamp) stampForm
    <*> .lenient "deletionGracePeriodSeconds" (·.deletionGracePeriodSeconds) .int64
    <*> .lenient "deletionTimestamp" (·.deletionTimestamp) stampForm
    <*> .lenient "finalizers" (·.finalizers) (.list .text)
    <*> .lenient "generateName" (·.generateName) .text
    <*> .lenient "generation" (·.generation) .int64
    <*> .lenient "labels" (·.labels) (.dict .text)
    <*> .lenient "managedFields" (·.managedFields) (.list ⟨Cluster.managedFields, id⟩)
    <*> .lenient "name" (·.name) .text
    <*> .lenient "namespace" (·.space) .text
    <*> .lenient "ownerReferences" (·.ownerReferences) (.list OwnerReference.form)
    <*> .lenient "resourceVersion" (·.resourceVersion) .text
    <*> .lenient "selfLink" (·.selfLink) .text
    <*> .lenient "uid" (·.uid) .text

/-- The name, or the beginning from which one will be made. -/
def nameOrStem (m : Metadata) : String := (m.name <|> m.generateName).getD ""

/-- The value of a label. -/
def label? (m : Metadata) (key : String) : Option String := m.labels.bind (·.get? key)

/-- The value of an annotation, unless it is empty. -/
def annotation? (m : Metadata) (key : String) : Option String :=
  (m.annotations.bind (·.get? key)).filter (· ≠ "")

/-- Whether the object is being deleted. -/
def isDeleting (m : Metadata) : Bool := m.deletionTimestamp.isSome

/-! ## Finalizers -/

/-- Whether the finalizer is on the list. -/
def hasFinalizer (m : Metadata) (finalizer : String) : Bool :=
  (m.finalizers.getD []).contains finalizer

/-- The list with the finalizer at its end, unless it is on the list. -/
def finalizersWith? (m : Metadata) (finalizer : String) : Option (List String) :=
  if m.hasFinalizer finalizer then none else some (m.finalizers.getD [] ++ [finalizer])

/-- The list without the finalizer. -/
def finalizersWithout (m : Metadata) (finalizer : String) : List String :=
  (m.finalizers.getD []).filter (· ≠ finalizer)

/-- The merge patch that replaces the finalizers. -/
def finalizerPatch (finalizers : List String) : Json :=
  .obj [("metadata", .obj [("finalizers", .texts finalizers)])]

end Metadata

end BareMetal.Cluster
