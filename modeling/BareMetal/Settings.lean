import BareMetal.Failure
import BareMetal.Text.Blank
import BareMetal.Time.Span

/-!
# Settings

What the operator needs to know from outside: where its secret is, which service it talks to,
what machines boot from, and how long it waits. Every setting has a default.
-/

namespace BareMetal

/-- The settings of the operator. -/
structure Settings where
  /-- The namespace of the secret with the credentials. -/
  secretSpace : String := "harvester-system"
  credentialSecret : String := "equinix-addon"
  metalApiUrl : String := "https://api.equinix.com/metal/v1"
  /-- The join token, if it is not to be read from the bootstrap document. -/
  joinToken : Option String := none
  bootstrapPath : String := "/etc/rancher/rancherd/config.yaml"
  isoUrl : String := "https://releases.rancher.com/harvester/master/harvester-master-amd64.iso"
  /-- The boot script for reinstalls. -/
  ipxeScriptUrl : String :=
    "https://raw.githubusercontent.com/ibrokethecloud/custom_pxe/master/master.ipxe"
  /-- The boot script for the first boot. -/
  initialIpxeScriptUrl : String :=
    "https://raw.githubusercontent.com/ibrokethecloud/custom_pxe/master/shell.ipxe"
  defaultInterface : String := "eth0"
  ingressService : String := "ingress-expose"
  ingressSpace : String := "kube-system"
  /-- How long to wait between looks at the provisioning service. -/
  pollInterval : Span := .seconds 120
  /-- How long to wait between looks for a new member. -/
  readyCheckInterval : Span := .seconds 30
deriving Inhabited

namespace Settings

/-- The settings if nothing is set. -/
def standard : Settings := {}

/-- A failure of the settings themselves. -/
def failure (message : String) : Failure := .configuration "operator" message

/-- Refuses settings without which nothing works: blank names and intervals of no length. -/
def validate (s : Settings) : Except Failure Unit :=
  let required := [("namespace", s.secretSpace), ("credential secret", s.credentialSecret),
    ("metal API URL", s.metalApiUrl), ("ingress service", s.ingressService)]
  match required.find? fun e => (Text.trim e.2).isEmpty with
  | some (what, _) => .error (failure s!"{what} must not be empty")
  | none =>
    if s.pollInterval.isZero || s.readyCheckInterval.isZero then
      .error (failure "requeue intervals must be greater than zero")
    else .ok ()

end Settings

end BareMetal
