/-!
# Fixed names

The API group of the two kinds of objects, and the label, finalizer and annotations by which they
are tied to each other and to the machines.
-/

namespace BareMetal.Names

/-- The API group. -/
def apiGroup : String := "metal.fleet.dev"

/-- The version of the group. -/
def version : String := "v1alpha1"

/-- The group with its version. -/
def apiVersion : String := "metal.fleet.dev/v1alpha1"

/-- The label that names the pool of an Instance. -/
def poolLabel : String := "metal.fleet.dev/pool"

/-- The finalizer that keeps an Instance until its device is gone. -/
def deprovision : String := "metal.fleet.dev/deprovision"

/-- The annotation with the token for the provisioning service. -/
def tokenKey : String := "metal.fleet.dev/token"

/-- The annotation with the password of the machine. -/
def passwordKey : String := "metal.fleet.dev/password"

/-- The annotation with the boot script for reinstalls. -/
def reinstallScriptKey : String := "metal.fleet.dev/reconfig-ipxe-url"

/-- The name under which fields are changed. -/
def fieldManager : String := "fleet-operator"

/-- The label of the Nodes that run the control plane. -/
def controlPlaneSelector : String := "node-role.kubernetes.io/control-plane=true"

end BareMetal.Names
