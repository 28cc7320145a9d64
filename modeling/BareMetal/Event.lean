import BareMetal.Time.Span

/-!
# Events

What a pass tells the people who watch an object, and when it wants to look at the object again.
-/

namespace BareMetal

/-- Why an event is published. -/
inductive Reason
  | deviceCreated | deviceAdopted | deviceFailed | deviceReinstalling | deviceDeleted
  | instanceReady | instanceManaged | instanceRemediated | nodeLost
  | poolScaledUp | poolScaledDown | poolReady | noControlPlane
  | validationFailed
deriving DecidableEq

/-- The name of a reason. -/
def Reason.name : Reason → String
  | deviceCreated => "DeviceCreated"
  | deviceAdopted => "DeviceAdopted"
  | deviceFailed => "DeviceFailed"
  | deviceReinstalling => "DeviceReinstalling"
  | deviceDeleted => "DeviceDeleted"
  | instanceReady => "InstanceReady"
  | instanceManaged => "InstanceManaged"
  | instanceRemediated => "InstanceRemediated"
  | nodeLost => "NodeLost"
  | poolScaledUp => "PoolScaledUp"
  | poolScaledDown => "PoolScaledDown"
  | poolReady => "PoolReady"
  | noControlPlane => "NoControlPlane"
  | validationFailed => "ValidationFailed"

/-- What was being done. -/
inductive Activity
  | reconcile | provision | reconfigure | delete | scale
deriving DecidableEq

/-- The name of an activity. -/
def Activity.name : Activity → String
  | reconcile => "Reconcile"
  | provision => "Provision"
  | reconfigure => "Reconfigure"
  | delete => "Delete"
  | scale => "Scale"

/-- An event about the object of a pass. -/
structure Event where
  /-- Whether somebody should look at the object. -/
  warning : Bool := false
  reason : Reason
  activity : Activity
  note : String
deriving DecidableEq

/-- When to look at an object again. -/
inductive Followup
  /-- When it changes. -/
  | onChange
  /-- After a time, or when it changes. -/
  | after (wait : Span)
deriving DecidableEq

end BareMetal
