import BareMetal.Cluster.Metadata

/-!
# Services

A Service of the load balancer kind publishes the addresses at which it can be reached from
outside the cluster. What it is wished to be is kept but not looked into.
-/

namespace BareMetal.Cluster

open Json

/-- One published address: an IP address, a host name or both. -/
structure Ingress where
  hostname : Option String := none
  ip : Option String := none
  ipMode : Option String := none
  ports : Option (List Json) := none
deriving Inhabited

/-- What is known about the load balancer of a Service. -/
structure LoadBalancer where
  ingress : Option (List Ingress) := none
deriving Inhabited

/-- The observed part of a Service. -/
structure ServiceStatus where
  conditions : Option (List Json) := none
  loadBalancer : Option LoadBalancer := none
deriving Inhabited

/-- A Service. -/
structure Service where
  metadata : Metadata := {}
  spec : Option Json := none
  status : Option ServiceStatus := none
deriving Inhabited

namespace Service

/-- The address at which the load balancer is reached: the IP address of its first ingress, or
else the host name of that ingress. -/
def address? (s : Service) : Option String := do
  let status ← s.status
  let balancer ← status.loadBalancer
  let ingress ← (← balancer.ingress).head?
  (ingress.ip.filter (· ≠ "")) <|> (ingress.hostname.filter (· ≠ ""))

/-! ## Form -/

/-- A published port. -/
private def portShape : Decoder Json :=
  Shape.object [("error", Shape.text)] [("port", .int 0, Shape.int32), ("protocol", .str "", Shape.text)]

/-- A condition of the status. -/
private def conditionShape : Decoder Json :=
  Shape.object [("observedGeneration", Shape.int64)]
    [("lastTransitionTime", stampForm.encode .epoch, stampShape), ("message", .str "", Shape.text),
      ("reason", .str "", Shape.text), ("status", .str "", Shape.text), ("type", .str "", Shape.text)]

/-- The wished part of a Service. -/
private def specShape : Decoder Json := Shape.object
  [("allocateLoadBalancerNodePorts", Shape.flag), ("clusterIP", Shape.text),
    ("clusterIPs", Shape.list Shape.text), ("externalIPs", Shape.list Shape.text),
    ("externalName", Shape.text), ("externalTrafficPolicy", Shape.text),
    ("healthCheckNodePort", Shape.int32), ("internalTrafficPolicy", Shape.text),
    ("ipFamilies", Shape.list Shape.text), ("ipFamilyPolicy", Shape.text),
    ("loadBalancerClass", Shape.text), ("loadBalancerIP", Shape.text),
    ("loadBalancerSourceRanges", Shape.list Shape.text),
    ("ports", Shape.list (Shape.object [("appProtocol", Shape.text), ("name", Shape.text),
      ("nodePort", Shape.int32), ("protocol", Shape.text), ("targetPort", Shape.intOrText)]
      [("port", .int 0, Shape.int32)])),
    ("publishNotReadyAddresses", Shape.flag), ("selector", Shape.dict Shape.text),
    ("sessionAffinity", Shape.text),
    ("sessionAffinityConfig", Shape.object [("clientIP", Shape.object
      [("timeoutSeconds", Shape.int32)] [])] []),
    ("trafficDistribution", Shape.text), ("type", Shape.text)] []

/-- The form of an ingress. -/
private def ingressForm : Form Ingress := .object <|
  Ingress.mk
    <$> .lenient "hostname" (·.hostname) .text
    <*> .lenient "ip" (·.ip) .text
    <*> .lenient "ipMode" (·.ipMode) .text
    <*> .lenient "ports" (·.ports) (.list ⟨portShape, id⟩)

/-- The form of a load balancer. -/
private def balancerForm : Form LoadBalancer := .object <|
  LoadBalancer.mk <$> .lenient "ingress" (·.ingress) (.list ingressForm)

/-- The form of a status. -/
private def statusForm : Form ServiceStatus := .object <|
  ServiceStatus.mk
    <$> .lenient "conditions" (·.conditions) (.list ⟨conditionShape, id⟩)
    <*> .lenient "loadBalancer" (·.loadBalancer) balancerForm

/-- The form of a Service. -/
def form : Form Service := .object <|
  (fun _ _ => Service.mk)
    <$> .marker "apiVersion" "v1"
    <*> .marker "kind" "Service"
    <*> .lenientOr "metadata" (·.metadata) {} Metadata.form
    <*> .lenient "spec" (·.spec) ⟨specShape, id⟩
    <*> .lenient "status" (·.status) statusForm

end Service

end BareMetal.Cluster
